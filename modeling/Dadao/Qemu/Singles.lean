import Dadao.Qemu.Integer
import Dadao.Qemu.Several

set_option relaxedAutoImplicit false
set_option autoImplicit false

/-!
# Several registers one at a time

Loads and stores of one register with additions to their index in between, and moves of one register, one
after the other, and when they do what the instruction on all of the registers does.

## Main definitions

* `Dadao.Qemu.memWords`, `Dadao.Qemu.moveWords` — the words.
* `Dadao.Qemu.loadSeq`, `Dadao.Qemu.storeSeq`, `Dadao.Qemu.moveSeq` — what they do, one after the other.

## Main results

* `Dadao.Qemu.loadSeq_reg`, `Dadao.Qemu.storeSeq_eq`, `Dadao.Qemu.moveSeq_eq` — what the words do.
* `Dadao.Qemu.performs_memWords` — the words do so.
-/

namespace Dadao.Qemu

open Tcg

/-! ## The words -/

/-- `addi` of a register to itself. -/
def addiWord (c imm : ℕ) : BitVec 32 := quad 0x19 c c (imm / 2 ^ 6) (imm % 2 ^ 6)

/-- **The loads or stores** of the registers `a` to `a + k`, with `len` added to the index in between. -/
def memWords (opcode len a b c : ℕ) : ℕ → List (BitVec 32)
  | 0 => [quad opcode a b c 1]
  | k + 1 => memWords opcode len a b c k ++ [addiWord c len, quad opcode (a + (k + 1)) b c 1]

/-- **The moves** of `n` registers, going up. -/
def moveWords (minor hb hc n : ℕ) : List (BitVec 32) :=
  (List.range n).map fun k => quad 0x10 minor (hb + k) (hc + k) 1

/-! ## What one of them does -/

/-- Load one register. -/
def loadOne (dest : RegFile) (op : MemOp) (a b c : ℕ) (s : State) : State :=
  (s.fill dest a 1 fun _ => op.load s.mem (s.reg .rb b + s.reg .rd c)).next

/-- Store one register. -/
def storeOne (op : MemOp) (a b c : ℕ) (s : State) : State :=
  (s.stores op.bytes (fun _ => s.reg .rb b + s.reg .rd c) (fun _ => s.reg .rd a) 1).next

/-- Move one register. -/
def moveOne (src dest : RegFile) (hb hc : ℕ) (s : State) : State :=
  (s.fill dest hb 1 fun _ => s.reg src hc).next

/-- Add to a register. -/
def bump (c : ℕ) (v : BitVec 64) (s : State) : State := (s.put .rd c (s.reg .rd c + v)).next

/-- The program counter is no destination. -/
lemma State.fill_pc (s : State) (dest : RegFile) (a n : ℕ) (vals : ℕ → BitVec 64) :
    (s.fill dest a n vals).reg .rb 0 = s.reg .rb 0 := by
  rw [State.fill_reg, if_neg fun h => h.2.2.2 ⟨rfl, .inr h.1.symm⟩]

lemma performs_loadOne {dest : RegFile} {op : MemOp} {opcode a b c : ℕ} (hop : opcode < 2 ^ 8)
    (hmulti : ∀ w : BitVec 32, (w >>> 24).toNat = opcode → multiOf w = some (.ldm dest op))
    (ha : a < 2 ^ 6) (hb : b < 2 ^ 6) (hc : c < 2 ^ 6) :
    Performs [quad opcode a b c 1] (loadOne dest op a b c) := by
  have h := fields_quad opcode hop ha hb hc (show 1 < 2 ^ 6 by omega)
  have hacts := acts_ldm (hmulti _ h.opcode) (by rw [h.hd]; omega) (by rw [h.ha, h.hd]; omega)
  have hperf := performs_of_acts hacts fun s => State.fill_pc ..
  simp only [startOf, h.ha, h.hb, h.hc, h.hd] at hperf
  have hone (s : State) : (s.fill dest a 1 fun k => op.load s.mem (s.reg .rb b + s.reg .rd c +
      BitVec.ofNat 64 (k * op.bytes))) = s.fill dest a 1 fun _ => op.load s.mem (s.reg .rb b + s.reg .rd c) := by
    refine State.fill_congr _ _ _ _ _ fun k hk => ?_
    obtain rfl : k = 0 := by omega
    simp
  simp only [hone] at hperf
  exact hperf

lemma performs_storeOne {op : MemOp} {opcode a b c : ℕ} (hop : opcode < 2 ^ 8)
    (hmulti : ∀ w : BitVec 32, (w >>> 24).toNat = opcode → multiOf w = some (.stm .rd op))
    (ha : a < 2 ^ 6) (hb : b < 2 ^ 6) (hc : c < 2 ^ 6) :
    Performs [quad opcode a b c 1] (storeOne op a b c) := by
  have h := fields_quad opcode hop ha hb hc (show 1 < 2 ^ 6 by omega)
  have hacts := acts_stm (hmulti _ h.opcode) (by rw [h.hd]; omega) (by rw [h.ha, h.hd]; omega)
  have hperf := performs_of_acts hacts fun s => rfl
  simp only [startOf, h.ha, h.hb, h.hc, h.hd] at hperf
  have hone (s : State) : s.stores op.bytes (fun k => s.reg .rb b + s.reg .rd c +
      BitVec.ofNat 64 (k * op.bytes)) (fun k => s.reg .rd (a + k)) 1 =
        s.stores op.bytes (fun _ => s.reg .rb b + s.reg .rd c) (fun _ => s.reg .rd a) 1 := by
    simp [State.stores, Memory.storeAll]
  simp only [hone] at hperf
  exact hperf

lemma performs_moveOne {src dest : RegFile} {minor hb hc : ℕ} (hminor : minor < 2 ^ 6)
    (hmulti : ∀ w : BitVec 32, (w >>> 24).toNat = 0x10 → fieldHa w = minor →
      multiOf w = some (.r2r src dest)) (hhb : hb < 2 ^ 6) (hhc : hc < 2 ^ 6) :
    Performs [quad 0x10 minor hb hc 1] (moveOne src dest hb hc) := by
  have h := fields_quad 0x10 (by omega) hminor hhb hhc (show 1 < 2 ^ 6 by omega)
  have hacts := acts_r2r (hmulti _ h.opcode h.ha) (by rw [h.hd]; omega) (by rw [h.hb, h.hd]; omega)
    (by rw [h.hc, h.hd]; omega)
  have hperf := performs_of_acts hacts fun s => State.fill_pc ..
  simp only [h.hb, h.hc, h.hd] at hperf
  have hone (s : State) : (s.fill dest hb 1 fun k => s.reg src (hc + k)) =
      s.fill dest hb 1 fun _ => s.reg src hc := by
    refine State.fill_congr _ _ _ _ _ fun k hk => ?_
    obtain rfl : k = 0 := by omega
    rfl
  simp only [hone] at hperf
  exact hperf

/-- The immediate of an addition. -/
lemma performs_addiWord {c imm : ℕ} (hc : c < 2 ^ 6) (himm : imm < 2 ^ 12) :
    Performs [addiWord c imm] (bump c ((BitVec.ofNat 12 imm).signExtend 64)) := by
  have h : Fields (addiWord c imm) 0x19 c c (imm / 2 ^ 6) (imm % 2 ^ 6) :=
    fields_quad 0x19 (by omega) hc hc (by omega) (by omega)
  have hw : Plain (addiWord c imm) := h.plain (by simp [PlainOpcode])
  have hdisas (pc : BitVec 64) : disasDadao pc (addiWord c imm) =
      some (some (transADDIrd (addiWord c imm))) := by
    rw [disasDadao, h.opcode]
    rfl
  have hacts := acts_insnAlg1Rrii hw .rd (show ∀ i, (Global.rd i).elem = .reg .rd i from fun _ => rfl) hdisas
  have hsum : imm / 2 ^ 6 * 2 ^ 6 + imm % 2 ^ 6 = imm := by omega
  have hpc (s : State) : ((single .rd (fieldHa (addiWord c imm)) fun s => s.reg .rd (fieldHb (addiWord c imm)) +
      fieldImms 12 (addiWord c imm)).after s).reg .rb 0 = s.reg .rb 0 := by
    rw [after_single, State.put]
    split_ifs
    · rfl
    · simp
  have hperf := performs_of_acts hacts hpc
  simp only [after_single, h.ha, h.hb, h.imms12, hsum] at hperf
  exact hperf

/-! ## What the loads do -/

section Loads

variable (s : State) (dest : RegFile) (op : MemOp) (a b c : ℕ)

/-- The base for element `k`: the program counter goes on by two words from one element to the next. -/
def baseAt (k : ℕ) : BitVec 64 := if b = 0 then s.reg .rb 0 + BitVec.ofNat 64 (8 * k) else s.reg .rb b

/-- The index for element `k`; the load of an element may assign it. -/
def indexAt : ℕ → BitVec 64
  | 0 => s.reg .rd c
  | k + 1 => if c = 0 then s.reg .rd c else
    (if dest = .rd ∧ c = a + k then op.load s.mem (baseAt s b k + indexAt k) else indexAt k) +
      BitVec.ofNat 64 op.bytes

/-- Element `k` as it is loaded. -/
def loadedAt (k : ℕ) : BitVec 64 := op.load s.mem (baseAt s b k + indexAt s dest op a b c k)

/-- The index behind the load of element `k`. -/
def indexAfter (k : ℕ) : BitVec 64 :=
  if dest = .rd ∧ c = a + k then loadedAt s dest op a b c k else indexAt s dest op a b c k

lemma indexAt_succ (k : ℕ) : indexAt s dest op a b c (k + 1) =
    if c = 0 then s.reg .rd c else indexAfter s dest op a b c k + BitVec.ofNat 64 op.bytes := rfl

/-- The loads of elements `0` to `k`. -/
def loadSeq : ℕ → State → State
  | 0, s => loadOne dest op a b c s
  | k + 1, s => loadOne dest op (a + (k + 1)) b c (bump c (BitVec.ofNat 64 op.bytes) (loadSeq k s))

lemma bump_mem (v : BitVec 64) : (bump c v s).mem = s.mem := by
  unfold bump State.put
  split_ifs <;> rfl

lemma bump_reg (v : BitVec 64) (f : RegFile) (j : ℕ) : (bump c v s).reg f j =
    if f = .rb ∧ j = 0 then s.reg .rb 0 + 4
    else if f = .rd ∧ j = c ∧ c ≠ 0 then s.reg .rd c + v else s.reg f j := by
  unfold bump State.put State.next
  by_cases hc : c = 0
  · simp [hc]
  · simp [hc]

lemma loadOne_reg (f : RegFile) (j : ℕ) : (loadOne dest op a b c s).reg f j =
    if f = .rb ∧ j = 0 then s.reg .rb 0 + 4
    else if f = dest ∧ j = a ∧ ¬ ReadOnly dest a then
      fixed dest a (op.load s.mem (s.reg .rb b + s.reg .rd c)) else s.reg f j := by
  have hiff : (f = dest ∧ a ≤ j ∧ j < a + 1 ∧ ¬ ReadOnly dest j) ↔ f = dest ∧ j = a ∧ ¬ ReadOnly dest a := by
    constructor
    · rintro ⟨hf, hle, hlt, hro⟩
      obtain rfl : j = a := by omega
      exact ⟨hf, rfl, hro⟩
    · rintro ⟨hf, rfl, hro⟩
      exact ⟨hf, by omega, by omega, hro⟩
  rw [loadOne, State.next, State.set_reg, State.fill_pc, State.fill_reg]
  split_ifs with h0 h1 h2 h2
  · rfl
  · rw [(hiff.mp h1).2.1]
  · exact absurd (hiff.mp h1) h2
  · exact absurd (hiff.mpr h2) h1
  · rfl

lemma loadSeq_mem (k : ℕ) : (loadSeq dest op a b c k s).mem = s.mem := by
  induction k with
  | zero => rfl
  | succ k ih =>
    rw [← ih, ← bump_mem (loadSeq dest op a b c k s) c (BitVec.ofNat 64 op.bytes)]
    rfl

lemma baseAt_zero : baseAt s b 0 = s.reg .rb b := by
  unfold baseAt
  split_ifs with h
  · simp [h]
  · rfl

/-- The first destination of several, and the others. -/
lemma fill_succ_reg (vals : ℕ → BitVec 64) (k : ℕ) (f : RegFile) (j : ℕ) :
    (s.fill dest a (k + 1) vals).reg f j = if f = dest ∧ j = a + k ∧ ¬ ReadOnly dest (a + k) then
      fixed dest (a + k) (vals k) else (s.fill dest a k vals).reg f j := by
  rw [State.fill_succ]
  by_cases hro : ReadOnly dest (a + k)
  · rw [if_pos hro, if_neg fun h => h.2.2 hro]
  · rw [if_neg hro, State.set_reg]
    simp only [hro, not_false_eq_true, and_true]

variable {s dest op a b c} in
/-- One load more. -/
lemma loadOne_reg_of {t : State} {k : ℕ}
    (hload : op.load t.mem (t.reg .rb b + t.reg .rd c) = loadedAt s dest op a b c k)
    (hindex : t.reg .rd c = indexAt s dest op a b c k)
    (hpc : t.reg .rb 0 = s.reg .rb 0 + BitVec.ofNat 64 (8 * k))
    (hkeep : ∀ f j, ¬ (f = .rb ∧ j = 0) → ¬ (f = .rd ∧ j = c ∧ c ≠ 0) →
      t.reg f j = (s.fill dest a k (loadedAt s dest op a b c)).reg f j) (f : RegFile) (j : ℕ) :
    (loadOne dest op (a + k) b c t).reg f j =
      if f = .rb ∧ j = 0 then s.reg .rb 0 + BitVec.ofNat 64 (8 * k + 4)
      else if f = .rd ∧ j = c ∧ c ≠ 0 then indexAfter s dest op a b c k
      else (s.fill dest a (k + 1) (loadedAt s dest op a b c)).reg f j := by
  have hnext : t.reg .rb 0 + 4 = s.reg .rb 0 + BitVec.ofNat 64 (8 * k + 4) := by
    rw [hpc, BitVec.add_assoc, BitVec.ofNat_add]
    rfl
  rw [loadOne_reg, hload, hnext, fill_succ_reg]
  by_cases h0 : f = .rb ∧ j = 0
  · rw [if_pos h0, if_pos h0]
  rw [if_neg h0, if_neg h0]
  by_cases h1 : f = .rd ∧ j = c ∧ c ≠ 0
  · obtain ⟨rfl, rfl, hc⟩ := h1
    by_cases h2 : dest = .rd ∧ j = a + k
    · have hro : ¬ ReadOnly dest (a + k) := fun h => hc (h2.2.trans h.1)
      rw [if_pos ⟨h2.1.symm, h2.2, hro⟩, if_pos ⟨rfl, rfl, hc⟩, indexAfter, if_pos h2, fixed_of_ne (h2.2 ▸ hc)]
    · rw [if_neg fun h => h2 ⟨h.1.symm, h.2.1⟩, if_pos ⟨rfl, rfl, hc⟩, indexAfter, if_neg h2, hindex]
  · rw [if_neg h1, hkeep f j h0 h1]

/-- **What the loads do**: the destinations get the elements, and the index goes on. -/
lemma loadSeq_reg (hdest : dest ≠ .rb) (k : ℕ) (f : RegFile) (j : ℕ) :
    (loadSeq dest op a b c k s).reg f j =
      if f = .rb ∧ j = 0 then s.reg .rb 0 + BitVec.ofNat 64 (8 * k + 4)
      else if f = .rd ∧ j = c ∧ c ≠ 0 then indexAfter s dest op a b c k
      else (s.fill dest a (k + 1) (loadedAt s dest op a b c)).reg f j := by
  induction k generalizing f j with
  | zero =>
    refine loadOne_reg_of (k := 0) ?_ rfl ?_ (fun f j _ _ => by rw [State.fill_zero]) f j
    · rw [loadedAt, baseAt_zero]
      rfl
    · simp
  | succ k ih =>
    have hpc : (bump c (BitVec.ofNat 64 op.bytes) (loadSeq dest op a b c k s)).reg .rb 0 =
        s.reg .rb 0 + BitVec.ofNat 64 (8 * (k + 1)) := by
      rw [bump_reg, if_pos ⟨rfl, rfl⟩, ih, if_pos ⟨rfl, rfl⟩, BitVec.add_assoc]
      exact congrArg _ (BitVec.ofNat_add (8 * k + 4) 4).symm
    have hindex : (bump c (BitVec.ofNat 64 op.bytes) (loadSeq dest op a b c k s)).reg .rd c =
        indexAt s dest op a b c (k + 1) := by
      rw [bump_reg, if_neg (by simp), indexAt_succ]
      by_cases hc : c = 0
      · rw [if_neg fun h => h.2.2 hc, if_pos hc, ih, if_neg (by simp), if_neg fun h => h.2.2 hc,
          State.fill_reg, if_neg fun h => h.2.2.2 ⟨hc, .inl h.1.symm⟩]
      · rw [if_pos ⟨rfl, rfl, hc⟩, if_neg hc, ih, if_neg (by simp), if_pos ⟨rfl, rfl, hc⟩]
    have hbase : (bump c (BitVec.ofNat 64 op.bytes) (loadSeq dest op a b c k s)).reg .rb b =
        baseAt s b (k + 1) := by
      unfold baseAt
      by_cases hb : b = 0
      · rw [if_pos hb, ← hpc, hb]
      · rw [if_neg hb, bump_reg, if_neg fun h => hb h.2, if_neg (by simp), ih, if_neg fun h => hb h.2,
          if_neg (by simp), State.fill_reg, if_neg fun h => hdest h.1.symm]
    refine loadOne_reg_of ?_ hindex hpc (fun f j h0 h1 => ?_) f j
    · rw [hbase, hindex, bump_mem, loadSeq_mem, loadedAt]
    · rw [bump_reg, if_neg h0, if_neg h1, ih, if_neg h0, if_neg h1]

end Loads

/-! ## What the stores do -/

section Stores

variable (s : State) (op : MemOp) (a b c : ℕ)

/-- The stores of elements `0` to `k`. -/
def storeSeq : ℕ → State → State
  | 0, s => storeOne op a b c s
  | k + 1, s => storeOne op (a + (k + 1)) b c (bump c (BitVec.ofNat 64 op.bytes) (storeSeq k s))

/-- The index for element `k`, if no load assigns it. -/
def countIndex (k : ℕ) : BitVec 64 :=
  if c = 0 then s.reg .rd c else s.reg .rd c + BitVec.ofNat 64 (k * op.bytes)

/-- Element `k` as it is stored: the index itself has gone on. -/
def storedAt (k : ℕ) : BitVec 64 := if c = a + k then countIndex s op c k else s.reg .rd (a + k)

/-- The memory behind the stores of `k` elements. -/
def storedMem (k : ℕ) : Memory :=
  s.mem.storeAll op.bytes (fun i => baseAt s b i + countIndex s op c i) (storedAt s op a c) k

lemma countIndex_zero : countIndex s op c 0 = s.reg .rd c := by
  unfold countIndex
  split_ifs
  · rfl
  · simp

variable {s op a b c} in
/-- One store more. -/
lemma storeOne_of {t : State} {k : ℕ} (hbase : t.reg .rb b = baseAt s b k)
    (hpc : t.reg .rb 0 = s.reg .rb 0 + BitVec.ofNat 64 (8 * k)) (hmem : t.mem = storedMem s op a b c k)
    (hindex : t.reg .rd c = countIndex s op c k)
    (hkeep : ∀ f j, ¬ (f = .rb ∧ j = 0) → ¬ (f = .rd ∧ j = c) → t.reg f j = s.reg f j) :
    (storeOne op (a + k) b c t).mem = storedMem s op a b c (k + 1) ∧
    ∀ f j, (storeOne op (a + k) b c t).reg f j =
      if f = .rb ∧ j = 0 then s.reg .rb 0 + BitVec.ofNat 64 (8 * k + 4)
      else if f = .rd ∧ j = c then countIndex s op c k else s.reg f j := by
  have hnext : t.reg .rb 0 + 4 = s.reg .rb 0 + BitVec.ofNat 64 (8 * k + 4) := by
    rw [hpc, BitVec.add_assoc, BitVec.ofNat_add]
    rfl
  have hval : t.reg .rd (a + k) = storedAt s op a c k := by
    unfold storedAt
    split_ifs with h
    · rw [← h, hindex]
    · exact hkeep _ _ (by simp) fun h' => h h'.2.symm
  constructor
  · have hstore : (storeOne op (a + k) b c t).mem =
        t.mem.store (t.reg .rb b + t.reg .rd c) op.bytes (t.reg .rd (a + k)) := rfl
    rw [hstore, hbase, hindex, hval, hmem]
    rfl
  · intro f j
    have hreg : (storeOne op (a + k) b c t).reg f j =
        if f = .rb ∧ j = 0 then t.reg .rb 0 + 4 else t.reg f j := rfl
    rw [hreg, hnext]
    by_cases h0 : f = .rb ∧ j = 0
    · rw [if_pos h0, if_pos h0]
    rw [if_neg h0, if_neg h0]
    split_ifs with h1
    · rw [h1.1, h1.2, hindex]
    · exact hkeep f j h0 h1

/-- **What the stores do**: the elements go to the memory, and the index goes on. -/
lemma storeSeq_eq (k : ℕ) : (storeSeq op a b c k s).mem = storedMem s op a b c (k + 1) ∧
    ∀ f j, (storeSeq op a b c k s).reg f j =
      if f = .rb ∧ j = 0 then s.reg .rb 0 + BitVec.ofNat 64 (8 * k + 4)
      else if f = .rd ∧ j = c then countIndex s op c k else s.reg f j := by
  induction k with
  | zero =>
    exact storeOne_of (k := 0) (baseAt_zero s b).symm (by simp) rfl (countIndex_zero s op c).symm
      fun _ _ _ _ => rfl
  | succ k ih =>
    obtain ⟨hmem, hreg⟩ := ih
    have hpc : (bump c (BitVec.ofNat 64 op.bytes) (storeSeq op a b c k s)).reg .rb 0 =
        s.reg .rb 0 + BitVec.ofNat 64 (8 * (k + 1)) := by
      rw [bump_reg, if_pos ⟨rfl, rfl⟩, hreg, if_pos ⟨rfl, rfl⟩, BitVec.add_assoc]
      exact congrArg _ (BitVec.ofNat_add (8 * k + 4) 4).symm
    have hindex : (bump c (BitVec.ofNat 64 op.bytes) (storeSeq op a b c k s)).reg .rd c =
        countIndex s op c (k + 1) := by
      have hbefore : (storeSeq op a b c k s).reg .rd c = countIndex s op c k := by
        rw [hreg, if_neg (by simp), if_pos ⟨rfl, rfl⟩]
      rw [bump_reg, if_neg (by simp), hbefore]
      unfold countIndex
      by_cases hc : c = 0
      · rw [if_neg fun h => h.2.2 hc, if_pos hc, if_pos hc]
      · rw [if_pos ⟨rfl, rfl, hc⟩, if_neg hc, if_neg hc, add_bytes]
    have hbase : (bump c (BitVec.ofNat 64 op.bytes) (storeSeq op a b c k s)).reg .rb b =
        baseAt s b (k + 1) := by
      unfold baseAt
      by_cases hb : b = 0
      · rw [if_pos hb, ← hpc, hb]
      · rw [if_neg hb, bump_reg, if_neg fun h => hb h.2, if_neg (by simp), hreg, if_neg fun h => hb h.2,
          if_neg (by simp)]
    refine storeOne_of hbase hpc (by rw [bump_mem, hmem]) hindex fun f j h0 h1 => ?_
    rw [bump_reg, if_neg h0, if_neg fun h => h1 ⟨h.1, h.2.1⟩, hreg, if_neg h0, if_neg h1]

end Stores

/-! ## What the moves do -/

section Moves

variable (s : State) (src dest : RegFile) (hb hc : ℕ)

/-- The moves of elements `0` to `k - 1`. -/
def moveSeq : ℕ → State → State
  | 0, s => s
  | k + 1, s => moveOne src dest (hb + k) (hc + k) (moveSeq k s)

/-- The element that register `k` of the destinations gets: sources that have been assigned already repeat
the first elements. -/
def movedFrom (k : ℕ) : ℕ := if src = dest ∧ hc < hb then k % (hb - hc) else k

/-- **What the moves do.** -/
lemma moveSeq_eq (k : ℕ) : (moveSeq src dest hb hc k s).mem = s.mem ∧
    ∀ f j, (moveSeq src dest hb hc k s).reg f j =
      if f = .rb ∧ j = 0 then s.reg .rb 0 + BitVec.ofNat 64 (4 * k)
      else (s.fill dest hb k fun i => s.reg src (hc + movedFrom src dest hb hc i)).reg f j := by
  induction k with
  | zero =>
    refine ⟨rfl, fun f j => ?_⟩
    rw [moveSeq, State.fill_zero]
    split_ifs with h
    · simp [h.1, h.2]
    · rfl
  | succ k ih =>
    obtain ⟨hmem, hreg⟩ := ih
    have hval : (moveSeq src dest hb hc k s).reg src (hc + k) =
        s.reg src (hc + movedFrom src dest hb hc k) := by
      rw [hreg]
      by_cases hpc : src = .rb ∧ hc + k = 0
      · have hzero : movedFrom src dest hb hc 0 = 0 := by
          unfold movedFrom
          split_ifs
          · exact Nat.zero_mod _
          · rfl
        obtain ⟨rfl, hk⟩ := hpc
        obtain ⟨rfl, rfl⟩ : hc = 0 ∧ k = 0 := by omega
        rw [if_pos ⟨rfl, rfl⟩, hzero]
        simp
      rw [if_neg hpc, State.fill_reg]
      by_cases hdest : src = dest ∧ hb ≤ hc + k ∧ hc + k < hb + k ∧ ¬ ReadOnly dest (hc + k)
      · obtain ⟨rfl, hle, hlt, hro⟩ := hdest
        have hmod : movedFrom src src hb hc (hc + k - hb) = movedFrom src src hb hc k := by
          unfold movedFrom
          rw [if_pos ⟨rfl, by omega⟩, if_pos ⟨rfl, by omega⟩, show hc + k - hb = k - (hb - hc) by omega,
            ← Nat.mod_eq_sub_mod (by omega)]
        rw [if_pos ⟨rfl, hle, hlt, hro⟩, hmod, fixed_of_ne (by omega)]
      · rw [if_neg hdest]
        unfold movedFrom
        split_ifs with h
        · have hlt : k < hb - hc := by
            by_contra hge
            exact hdest ⟨h.1, by omega, by omega, fun hro => absurd hro.1 (by omega)⟩
          rw [Nat.mod_eq_of_lt hlt]
        · rfl
    refine ⟨hmem, fun f j => ?_⟩
    have hone : (moveSeq src dest hb hc (k + 1) s).reg f j =
        if f = .rb ∧ j = 0 then (moveSeq src dest hb hc k s).reg .rb 0 + 4
        else ((moveSeq src dest hb hc k s).fill dest (hb + k) 1 fun _ =>
          (moveSeq src dest hb hc k s).reg src (hc + k)).reg f j := by
      rw [moveSeq, moveOne, State.next, State.set_reg, State.fill_pc]
    rw [hone, hval, fill_succ_reg, fill_succ_reg, State.fill_zero, hreg, hreg]
    by_cases h0 : f = .rb ∧ j = 0
    · rw [if_pos h0, if_pos h0, if_pos ⟨rfl, rfl⟩, BitVec.add_assoc]
      exact congrArg _ (BitVec.ofNat_add (4 * k) 4).symm
    · rw [if_neg h0, if_neg h0, if_neg h0, Nat.add_zero]

end Moves

/-! ## The sequences -/

/-- A positive immediate of twelve bits. -/
lemma signExtend_up {m : ℕ} (hm : m < 2 ^ 11) : (BitVec.ofNat 12 m).signExtend 64 = BitVec.ofNat 64 m := by
  have hmsb : (BitVec.ofNat 12 m).msb = false := by
    rw [BitVec.msb_eq_decide, BitVec.toNat_ofNat]
    simp only [decide_eq_false_iff_not]
    omega
  apply BitVec.eq_of_toNat_eq
  rw [BitVec.toNat_signExtend, hmsb, BitVec.toNat_setWidth, BitVec.toNat_ofNat, BitVec.toNat_ofNat]
  simp only [Bool.false_eq_true, if_false]
  omega

/-- A negative immediate of twelve bits. -/
lemma signExtend_down {m : ℕ} (hpos : 0 < m) (hm : m ≤ 2 ^ 11) :
    (BitVec.ofNat 12 (0x1000 - m)).signExtend 64 = -BitVec.ofNat 64 m := by
  have hmsb : (BitVec.ofNat 12 (0x1000 - m)).msb = true := by
    rw [BitVec.msb_eq_decide, BitVec.toNat_ofNat]
    simp only [decide_eq_true_eq]
    omega
  apply BitVec.eq_of_toNat_eq
  rw [BitVec.toNat_signExtend, hmsb, BitVec.toNat_setWidth, BitVec.toNat_ofNat, BitVec.toNat_neg,
    BitVec.toNat_ofNat]
  simp only [if_true]
  omega

/-- Loads or stores one after the other, with the additions in between. -/
lemma performs_memWords {opcode len a b c : ℕ} {one : ℕ → State → State} {seq : ℕ → State → State}
    (hlen : len < 2 ^ 11) (hc : c < 2 ^ 6) (hone : ∀ i, a + i < 2 ^ 6 → Performs [quad opcode (a + i) b c 1] (one i))
    (hzero : seq 0 = one 0)
    (hsucc : ∀ i, seq (i + 1) = fun s => one (i + 1) (bump c (BitVec.ofNat 64 len) (seq i s)))
    {k : ℕ} (hk : a + k < 2 ^ 6) : Performs (memWords opcode len a b c k) (seq k) := by
  induction k with
  | zero =>
    rw [hzero]
    exact hone 0 hk
  | succ k ih =>
    have hbump := performs_addiWord hc (show len < 2 ^ 12 by omega)
    rw [signExtend_up hlen] at hbump
    rw [memWords, hsucc]
    exact (ih (by omega)).append (hbump.append (hone (k + 1) hk))

end Dadao.Qemu
