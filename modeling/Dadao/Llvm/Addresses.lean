import Dadao.Llvm.Memory

set_option relaxedAutoImplicit false
set_option autoImplicit false

/-!
# Address selection

The selection of a base and a displacement in `DadaoISelDAGToDAG.cpp`, and the address that the selected load
or store accesses. A constant address gets the zero register of the data file as its base, whose number
names the program counter in the file of the bases.

## Main definitions

* `Dadao.Llvm.AddrNode` — the nodes of an address.
* `Dadao.Llvm.selectAddrRRII`, `Dadao.Llvm.selectAddrRRRI` — the selection.
* `Dadao.Llvm.AddressesRight` — every selected access is at the address.

## Main results

* `Dadao.Llvm.value_of_selectAddrRRII` — base and displacement add up to the address.
* `Dadao.Llvm.addressesRight_iff` — when the selected accesses are right.
-/

namespace Dadao.Llvm

open Qemu

/-! ## Nodes -/

/-- The nodes of an address. A half of the address of a symbol and any other node have a value of their own. -/
inductive AddrNode where
  | constant (v : BitVec 64)
  | frameIndex (fi : ℤ)
  | targetExternalSymbol (name : String)
  | targetGlobalAddress (name : String)
  | add (lhs rhs : AddrNode)
  | hi (n : ℕ)
  | lo (n : ℕ)
  | other (n : ℕ)
  deriving DecidableEq, Repr

/-- The values of frame objects, symbols and other nodes. -/
structure AddrEnv where
  frame : ℤ → BitVec 64
  symbol : String → BitVec 64
  node : ℕ → BitVec 64

namespace AddrNode

/-- The value of an address. -/
def value (env : AddrEnv) : AddrNode → BitVec 64
  | constant v => v
  | frameIndex fi => env.frame fi
  | targetExternalSymbol name | targetGlobalAddress name => env.symbol name
  | add lhs rhs => lhs.value env + rhs.value env
  | hi n | lo n | other n => env.node n

/-- A constant in a signed range (`isInt`). -/
def isInt (n : ℕ) : AddrNode → Bool
  | constant v => -2 ^ (n - 1) ≤ v.toInt ∧ v.toInt < 2 ^ (n - 1)
  | _ => false

/-- A half of an address. -/
def isHalf : AddrNode → Bool
  | hi _ | lo _ => true
  | _ => false

end AddrNode

/-- The base of a selected access. -/
inductive MemBase where
  | rdzero
  | targetFrameIndex (fi : ℤ)
  | node (e : AddrNode)
  deriving DecidableEq, Repr

/-! ## Selection -/

/-- `selectAddrRRII`. -/
def selectAddrRRII (addr : AddrNode) : Option (MemBase × BitVec 64) :=
  match addr with
  | .constant v => if addr.isInt 12 then some (.rdzero, v) else some (.node addr, 0)
  | .frameIndex fi => some (.targetFrameIndex fi, 0)
  | .targetExternalSymbol _ | .targetGlobalAddress _ => none
  | .add lhs (.constant v) =>
    -- a sum with a constant that fits
    if (AddrNode.constant v).isInt 12 then
      match lhs with
      | .frameIndex fi => some (.targetFrameIndex fi, v)
      | _ => some (.node lhs, v)
    else some (.node addr, 0)
  | _ => some (.node addr, 0)

/-- `selectAddrRRRI`: what is returned, and the registers that are assigned. It never returns `true`. -/
def selectAddrRRRI (addr : AddrNode) : Bool × Option (AddrNode × AddrNode) :=
  match addr with
  | .add lhs rhs =>
    if rhs.isInt 16 then (false, none)
    else if lhs.isHalf || rhs.isHalf then (false, none)
    else (false, some (lhs, rhs))
  | _ => (false, none)

/-! ## The selected access -/

/-- The value of a base, where it is a node. -/
def MemBase.value (env : AddrEnv) : MemBase → Option (BitVec 64)
  | rdzero => none
  | targetFrameIndex fi => some (env.frame fi)
  | node e => some (e.value env)

/-- **The register of a base**: the zero register itself, or a register with a number other than 0 that holds the
value of the node. -/
def MemBase.IsIn (base : MemBase) (env : AddrEnv) (s : State) (r : Register) : Prop :=
  match base.value env with
  | none => r = .rdzero
  | some v => getDadaoRegisterNumbering r ≠ 0 ∧ s.reg .rb (getDadaoRegisterNumbering r) = v

/-- **An access at a displacement from a register is at an address**, for all loads and stores. -/
def AccessesAt (m : Tcg.Machine Elem) (r : Register) (off addr : BitVec 64) : Prop :=
  ∀ opcode acc, rriiAccess opcode = some acc → ∀ data : Register, ∃ w,
    Emits ⟨opcode, [.reg data, .reg r, .imm off]⟩ w ∧ ∃ m', Executes w m (.done m') ∧
      reads m' = (acc.after (getDadaoRegisterNumbering data) addr (reads m)).set .rb 0 (m.env.globals .pc + 4)

/-- **The accesses at an address are right**: wherever the selected base is, they are at the address. -/
def AddressesRight (addr : AddrNode) : Prop :=
  ∀ base off, selectAddrRRII addr = some (base, off) → ∀ env m r, base.IsIn env (reads m) r →
    AccessesAt m r off (addr.value env)

/-! ## When they are right -/

/-- **Base and displacement add up to the address**, and the displacement fits. -/
lemma value_of_selectAddrRRII {addr : AddrNode} {base : MemBase} {off : BitVec 64}
    (h : selectAddrRRII addr = some (base, off)) (env : AddrEnv) :
    (-2048 ≤ off.toInt ∧ off.toInt < 2048) ∧ (addr.isInt 12 = false → ∃ v, base.value env = some v ∧
      v + off = addr.value env) := by
  have hzero : -2048 ≤ (0 : BitVec 64).toInt ∧ (0 : BitVec 64).toInt < 2048 := by decide
  have hnode (e : AddrNode) (h : some (MemBase.node e, (0 : BitVec 64)) = some (base, off)) :
      (-2048 ≤ off.toInt ∧ off.toInt < 2048) ∧ ∃ v, base.value env = some v ∧ v + off = e.value env := by
    obtain ⟨rfl, rfl⟩ := Prod.mk.inj (Option.some.inj h)
    exact ⟨hzero, _, rfl, BitVec.add_zero _⟩
  have hbounds {v : BitVec 64} (h : (AddrNode.constant v).isInt 12 = true) : -2048 ≤ v.toInt ∧ v.toInt < 2048 := by
    simpa [AddrNode.isInt] using h
  unfold selectAddrRRII at h
  split at h
  case h_1 v =>
    split_ifs at h with hint
    · obtain ⟨rfl, rfl⟩ := Prod.mk.inj (Option.some.inj h)
      exact ⟨hbounds hint, fun hnot => absurd hint (by rw [hnot]; decide)⟩
    · exact ⟨(hnode _ h).1, fun _ => (hnode _ h).2⟩
  case h_2 fi =>
    obtain ⟨rfl, rfl⟩ := Prod.mk.inj (Option.some.inj h)
    exact ⟨hzero, fun _ => ⟨_, rfl, BitVec.add_zero _⟩⟩
  case h_3 => exact absurd h (by simp)
  case h_4 => exact absurd h (by simp)
  case h_5 lhs v =>
    split_ifs at h with hint
    · split at h
      · obtain ⟨rfl, rfl⟩ := Prod.mk.inj (Option.some.inj h)
        exact ⟨hbounds hint, fun _ => ⟨_, rfl, rfl⟩⟩
      · obtain ⟨rfl, rfl⟩ := Prod.mk.inj (Option.some.inj h)
        exact ⟨hbounds hint, fun _ => ⟨_, rfl, rfl⟩⟩
    · exact ⟨(hnode _ h).1, fun _ => (hnode _ h).2⟩
  case h_6 => exact ⟨(hnode _ h).1, fun _ => (hnode _ h).2⟩

/-- An access at a displacement is where register and displacement say. -/
lemma accessesAt_of_eq {m : Tcg.Machine Elem} {r : Register} {off addr : BitVec 64}
    (hoff : -2048 ≤ off.toInt ∧ off.toInt < 2048)
    (h : (reads m).reg .rb (getDadaoRegisterNumbering r) + off = addr) : AccessesAt m r off addr := by
  intro opcode acc hacc data
  obtain ⟨w, hemits, hacts⟩ := acts_access hacc data r hoff
  obtain ⟨m', hexec, hreads⟩ := hacts m trivial
  subst h
  exact ⟨w, hemits, m', hexec, hreads⟩

/-- The memory with zeros at an address and ones elsewhere. -/
def onesBut (addr : BitVec 64) : Memory := fun a => if a = addr then 0 else 1

/-- A load of a byte tells the address. -/
lemma load_onesBut {addr a : BitVec 64} (h : (⟨1, false⟩ : Tcg.MemOp).load (onesBut addr) a =
    (⟨1, false⟩ : Tcg.MemOp).load (onesBut addr) addr) : a = addr := by
  by_contra hne
  simp [Tcg.MemOp.load, Memory.load, onesBut, hne] at h

/-- If the accesses are at an address, register and displacement say so. -/
lemma eq_of_accessesAt {m : Tcg.Machine Elem} {r : Register} {off addr : BitVec 64}
    (hoff : -2048 ≤ off.toInt ∧ off.toInt < 2048) (hmem : m.mem = onesBut addr) (h : AccessesAt m r off addr) :
    (reads m).reg .rb (getDadaoRegisterNumbering r) + off = addr := by
  obtain ⟨w, hemits, m₁, hexec, hreads⟩ := h .ldbuRrii _ rfl (.rd 1)
  obtain ⟨w', hemits', hacts⟩ := @acts_access .ldbuRrii _ rfl (.rd 1) r _ hoff
  obtain ⟨m₂, hexec', hreads'⟩ := hacts m trivial
  rw [hemits.unique hemits'] at hexec
  rw [Tcg.Outcome.done.inj (hexec.unique hexec'), hreads'] at hreads
  have hreg := congrArg (fun s : State => s.reg .rd 1) hreads
  exact load_onesBut (by simpa [MemAccess.after, State.put, getDadaoRegisterNumbering, hmem] using hreg)

/-- **Address selection**: the selected accesses are at the address, in every state, if and only if it is not a
constant that fits the displacement. No address is selected as a sum of two registers. -/
theorem addressesRight_iff (addr : AddrNode) :
    (selectAddrRRRI addr).1 = false ∧ (AddressesRight addr ↔ addr.isInt 12 = false) := by
  constructor
  · unfold selectAddrRRRI
    split
    · split_ifs <;> rfl
    · rfl
  · constructor
    · intro hright
      by_contra hint
      rw [Bool.not_eq_false] at hint
      -- only constants are in a range, and their base is the zero register
      obtain ⟨v, rfl⟩ : ∃ v, addr = .constant v := by
        cases addr with
        | constant v => exact ⟨v, rfl⟩
        | _ => exact absurd hint (by simp [AddrNode.isInt])
      have hsel : selectAddrRRII (.constant v) = some (.rdzero, v) := if_pos hint
      let m : Tcg.Machine Elem := ⟨⟨fun _ => 4, fun _ => 0⟩, onesBut v⟩
      have hoff := (value_of_selectAddrRRII hsel ⟨fun _ => 0, fun _ => 0, fun _ => 0⟩).1
      have haccess := hright _ _ hsel ⟨fun _ => 0, fun _ => 0, fun _ => 0⟩ m .rdzero rfl
      have hsum : (4 : BitVec 64) + v = v := eq_of_accessesAt hoff rfl haccess
      have hnat := congrArg BitVec.toNat hsum
      rw [BitVec.toNat_add] at hnat
      have hlt := v.isLt
      change (4 + v.toNat) % 2 ^ 64 = v.toNat at hnat
      omega
    · intro hnot base off hsel env m r hin
      obtain ⟨hoff, hvalue⟩ := value_of_selectAddrRRII hsel env
      obtain ⟨v, hv, hsum⟩ := hvalue hnot
      rw [MemBase.IsIn, hv] at hin
      exact accessesAt_of_eq hoff (by rw [hin.2, hsum])

/-- A load from the constant address 8 gets the zero register as its base and is eight bytes behind the program
counter. -/
theorem constant_address_not_right : selectAddrRRII (.constant 8) = some (.rdzero, 8) ∧
    ¬AddressesRight (.constant 8) := by
  refine ⟨by decide, fun h => ?_⟩
  have haccess := h .rdzero 8 (by decide) ⟨fun _ => 0, fun _ => 0, fun _ => 0⟩ ⟨⟨fun _ => 4, fun _ => 0⟩, onesBut 8⟩
    .rdzero rfl
  have hsum := eq_of_accessesAt (by decide) rfl haccess
  exact absurd hsum (by decide)

end Dadao.Llvm
