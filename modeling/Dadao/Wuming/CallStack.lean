import Dadao.Wuming.Instructions

set_option relaxedAutoImplicit false
set_option autoImplicit false

/-!
# The return address stack as a stack

The registers of the return address stack hold a list of addresses, the last one pushed on top, as
long as no more than 63 are pushed and none is popped from the empty stack.

## Main definitions

* `Dadao.Wuming.ReturnStack.Holds` — the registers hold a list of addresses.

## Main results

* `Dadao.Wuming.ReturnStack.Holds.push`, `Dadao.Wuming.ReturnStack.Holds.pop` — pushing and popping.
-/

namespace Dadao

namespace Wuming

namespace ReturnStack

/-- The registers up to its length hold a list, the first element in the highest. -/
def Entries (mem : RegFile) : List (BitVec 64) → Prop
  | [] => True
  | v :: stk => mem (BitVec.ofNat 6 (stk.length + 1)) = v ∧ Entries mem stk

/-- **The registers hold a list of addresses.** -/
def Holds (s : ReturnStack) (stk : List (BitVec 64)) : Prop :=
  s.top.toNat = stk.length ∧ Entries s.mem stk

/-- A cycle without a push or a pop. -/
@[simp] lemma step_false_false (s : ReturnStack) (data : BitVec 64) : s.step false false data = s := by
  simp [step]

/-- A push or a pop moves the pointer. -/
lemma step_ne (s : ReturnStack) {push pop : Bool} (h : push = true ∨ pop = true) (data : BitVec 64) :
    s.step push pop data ≠ s := by
  intro heq
  have htop := congrArg top heq
  have hne : s.top + 1 ≠ s.top ∧ s.top - 1 ≠ s.top := by
    generalize s.top = t
    revert t
    decide
  cases pop with
  | true => exact hne.2 htop
  | false =>
    obtain rfl : push = true := by simpa using h
    exact hne.1 htop

/-- Writing a higher register. -/
lemma Entries.update {mem : RegFile} {stk : List (BitVec 64)} (h : Entries mem stk) {a : BitVec 6}
    (ha : stk.length < a.toNat) (v : BitVec 64) : Entries (Function.update mem a v) stk := by
  induction stk with
  | nil => trivial
  | cons w stk ih =>
    rw [List.length_cons] at ha
    refine ⟨?_, ih h.2 (by omega)⟩
    rw [Function.update_of_ne]
    · exact h.1
    · intro heq
      have hlt := a.isLt
      have hnat := congrArg BitVec.toNat heq
      rw [BitVec.toNat_ofNat, Nat.mod_eq_of_lt (by omega)] at hnat
      omega

/-- **A push** on a stack that is not full. -/
lemma Holds.push {s : ReturnStack} {stk : List (BitVec 64)} (h : s.Holds stk) (hfull : s.top ≠ 63)
    (v : BitVec 64) : (s.step true false v).Holds (v :: stk) := by
  obtain ⟨htop, hentries⟩ := h
  have hlt := s.top.isLt
  have h63 : s.top.toNat ≠ 63 := fun heq => hfull (BitVec.eq_of_toNat_eq heq)
  have hnext : (s.top + 1).toNat = stk.length + 1 := by
    rw [BitVec.toNat_add, htop]
    exact Nat.mod_eq_of_lt (show stk.length + 1 < 2 ^ 6 by omega)
  have hne : s.top + 1 ≠ 0 := by
    intro heq
    rw [heq] at hnext
    exact absurd hnext (by simp)
  have hmem : (s.step true false v).mem = Function.update s.mem (s.top + 1) v := by
    simp only [step, RegFile.set, if_true, if_pos hne]
  have haddr : s.top + 1 = BitVec.ofNat 6 (stk.length + 1) := by
    rw [← hnext, BitVec.ofNat_toNat, BitVec.setWidth_eq]
  refine ⟨hnext, ?_⟩
  rw [hmem, Entries, ← haddr]
  exact ⟨Function.update_self _ _ _, hentries.update (by omega) v⟩

/-- **A pop** takes the address on top. -/
lemma Holds.pop {s : ReturnStack} {stk : List (BitVec 64)} {v : BitVec 64} (h : s.Holds (v :: stk))
    (data : BitVec 64) : s.popData = v ∧ (s.step false true data).Holds stk := by
  obtain ⟨htop, hhead, hentries⟩ := h
  rw [List.length_cons] at htop
  have hlt := s.top.isLt
  have hne : s.top ≠ 0 := by
    intro heq
    rw [heq] at htop
    exact absurd htop (by simp)
  have haddr : s.top = BitVec.ofNat 6 (stk.length + 1) := by
    rw [← htop, BitVec.ofNat_toNat, BitVec.setWidth_eq]
  refine ⟨by rw [popData, if_pos hne, haddr, hhead], ?_, hentries⟩
  show (s.top - 1).toNat = stk.length
  rw [BitVec.toNat_sub]
  show (2 ^ 6 - 1 + s.top.toNat) % 2 ^ 6 = stk.length
  omega

/-- The empty stack. -/
lemma holds_nil {s : ReturnStack} (h : s.top = 0) : s.Holds [] :=
  ⟨by rw [h]; rfl, trivial⟩

/-- A stack whose pointer is not at the bottom holds an address. -/
lemma Holds.exists_cons {s : ReturnStack} {stk : List (BitVec 64)} (h : s.Holds stk)
    (hne : s.top ≠ 0) : ∃ v rest, stk = v :: rest := by
  cases stk with
  | nil => exact absurd (BitVec.eq_of_toNat_eq h.1) hne
  | cons v rest => exact ⟨v, rest, rfl⟩

end ReturnStack

end Wuming

end Dadao
