import Dadao.Llvm.FrameLowering
import Dadao.Qemu.SameResult

set_option relaxedAutoImplicit false
set_option autoImplicit false

/-!
# Frame indices

The elimination of frame indices in `DadaoRegisterInfo.cpp`: the register of the frame, the offset of the object,
and the code for offsets that do not fit the displacement. An offset is computed in 32 bits.

## Main definitions

* `Dadao.Llvm.FrameRef` — a reference to an object.
* `Dadao.Llvm.eliminateFrameIndex` — the elimination.
* `Dadao.Llvm.FrameInsn` — the instructions that carry a frame index.
* `Dadao.Llvm.EliminatesRight` — the code accesses the object.

## Main results

* `Dadao.Llvm.not_emits_variant` — an access at an offset in a register has no word.
* `Dadao.Llvm.eliminatesRight_iff` — when the code accesses the object.
-/

namespace Dadao.Llvm

open Qemu Tcg

/-! ## References -/

/-- What is read of a function and of an object: whether the stack is realigned, whether there are objects of
variable size, the size of the frame; whether the object is fixed (a negative index), its offset, and the
immediate of the instruction. -/
structure FrameRef where
  realigned : Bool
  hasVarSizedObjects : Bool
  stackSize : BitVec 64
  isFixed : Bool
  objectOffset : BitVec 64
  imm : BitVec 64

namespace FrameRef

variable (ref : FrameRef)

/-- `hasBasePointer`. -/
def hasBasePointer : Bool := ref.realigned && ref.hasVarSizedObjects

/-- The register of the frame. -/
def frameReg : Register :=
  if ref.isFixed then .rbfp
  else if ref.hasBasePointer then .rb 6
  else if ref.realigned then .rbsp
  else .rbfp

/-- `Offset`, an `int`. The frame pointer is always used, so that only realignment adds the size of the frame. -/
def intOffset : BitVec 32 :=
  let off := (ref.objectOffset + ref.imm).setWidth 32
  if ref.realigned && !ref.isFixed then (off.signExtend 64 + ref.stackSize).setWidth 32 else off

/-- **The offset of the object** from the register of the frame. -/
def offset : BitVec 64 :=
  ref.objectOffset + ref.imm + if ref.realigned && !ref.isFixed then ref.stackSize else 0

/-- The offset is cut to 32 bits. -/
lemma intOffset_eq : ref.intOffset = ref.offset.setWidth 32 := by
  unfold intOffset offset
  dsimp only
  split_ifs
  · rw [BitVec.setWidth_add _ _ (by omega), BitVec.setWidth_add _ ref.stackSize (by omega)]
    congr 1
    refine BitVec.eq_of_getLsbD_eq fun i hi => ?_
    simp only [BitVec.getLsbD_setWidth, BitVec.getLsbD_signExtend, hi, show i < 64 by omega, decide_true,
      Bool.true_and, if_true]
  · exact congrArg (BitVec.setWidth 32) (BitVec.add_zero _).symm

end FrameRef

/-! ## Elimination -/

/-- `isMemRRIIOpcode`. -/
def isMemRRIIOpcode : Opcode → Bool
  | .ldbsRrii | .ldbuRrii | .ldwsRrii | .ldwuRrii | .ldtsRrii | .ldtuRrii | .ldoRrii => true
  | .stbRrii | .stwRrii | .sttRrii | .stoRrii => true
  | _ => false

/-- `getRRRIOpcodeVariant`. -/
def getRRRIOpcodeVariant : Opcode → Option Opcode
  | .ldbsRrii => some .ldmbsRrri
  | .ldbuRrii => some .ldmbuRrri
  | .ldwsRrii => some .ldmwsRrri
  | .ldwuRrii => some .ldmwuRrri
  | .ldtsRrii => some .ldmtsRrri
  | .ldtuRrii => some .ldmtuRrri
  | .ldoRrii => some .ldmoRdRrri
  | .ldoRbRrii => some .ldmoRbRrri
  | .stbRrii => some .stmbRrri
  | .stwRrii => some .stmwRrri
  | .sttRrii => some .stmtRrri
  | .stoRrii => some .stmoRdRrri
  | .stoRbRrii => some .stmoRbRrri
  | _ => none

/-- An `int` in a signed range of `n` bits. -/
def isIntN (n : ℕ) (v : BitVec 32) : Bool := -2 ^ (n - 1) ≤ v.toInt ∧ v.toInt < 2 ^ (n - 1)

/-- The code that builds the magnitude of an offset in a register. -/
def buildOffset (reg : Register) (off : BitVec 32) : List MCInst :=
  if isIntN 16 off then [⟨.addiRbRrii, [.reg reg, .imm 0, .imm (off.signExtend 64)]⟩]
  else [⟨.setzwRwiiW1, [.reg reg, .imm ((off >>> 16).setWidth 64)]⟩,
    ⟨.orwRwiiW0, [.reg reg, .reg reg, .imm ((off &&& 0xffff).setWidth 64)]⟩]

/-- **`eliminateFrameIndex`** for an instruction on a register and an object, with the scavenged register: the code
that is left, if any is. -/
def eliminateFrameIndex (opcode : Opcode) (data : Register) (ref : FrameRef) (reg : Register) :
    Option (List MCInst) :=
  if isIntN 12 ref.intOffset then
    some [⟨opcode, [.reg data, .reg ref.frameReg, .imm (ref.intOffset.signExtend 64)]⟩]
  else
    let hasNegOffset := ref.intOffset.toInt < 0
    let off := if hasNegOffset then -ref.intOffset else ref.intOffset
    if opcode = .addiRrii then
      some (buildOffset reg off ++
        [⟨if hasNegOffset then .subRbOrrr else .addRbOrrr, [.reg data, .reg ref.frameReg, .reg reg]⟩])
    else if isMemRRIIOpcode opcode then
      -- the two operands of the displacement become registers, the sign is not asked for
      (getRRRIOpcodeVariant opcode).map fun variant =>
        buildOffset reg off ++ [⟨variant, [.reg data, .reg ref.frameReg, .reg reg]⟩]
    else none

/-! ## Instructions with a frame index -/

/-- What an instruction does with the address of an object. -/
inductive FrameUse where
  | access (acc : MemAccess)
  | address
  deriving DecidableEq, Repr

/-- What it makes of a state. -/
def FrameUse.after (use : FrameUse) (i : ℕ) (addr : BitVec 64) (s : State) : State :=
  match use with
  | access acc => acc.after i addr s
  | address => s.put .rb i addr

/-- The uses of addresses: loads and stores, and the address itself (`selectFrameIndex`). No access with an offset
in a register is selected. -/
def frameUse (opcode : Opcode) : Option FrameUse :=
  if opcode = .addiRbRrii then some .address else (rriiAccess opcode).map .access

/-- **An instruction that carries a frame index.** -/
structure FrameInsn where
  opcode : Opcode
  use : FrameUse
  uses : frameUse opcode = some use

namespace FrameInsn

variable (insn : FrameInsn)

/-- The file of its register. -/
def file : RegFile :=
  match insn.use with
  | .access acc => acc.file
  | .address => .rb

/-- An access at an offset, or the address. -/
lemma cases : (insn.opcode = .addiRbRrii ∧ insn.use = .address) ∨
    ∃ acc, rriiAccess insn.opcode = some acc ∧ insn.use = .access acc := by
  have huses := insn.uses
  unfold frameUse at huses
  by_cases hopcode : insn.opcode = .addiRbRrii
  · rw [if_pos hopcode] at huses
    exact .inl ⟨hopcode, (Option.some.inj huses).symm⟩
  · rw [if_neg hopcode] at huses
    obtain ⟨acc, hacc, hand⟩ := Option.map_eq_some_iff.mp huses
    exact .inr ⟨acc, hacc, hand.symm⟩

/-- **What the instruction does** at a displacement that fits. -/
lemma acts (data base : Register) {v : BitVec 64} (hv : -2048 ≤ v.toInt ∧ v.toInt < 2048) :
    ∃ w, Emits ⟨insn.opcode, [.reg data, .reg base, .imm v]⟩ w ∧ Acts always w fun s =>
      insn.use.after (getDadaoRegisterNumbering data) (s.reg .rb (getDadaoRegisterNumbering base) + v) s := by
  rcases insn.cases with ⟨hopcode, huse⟩ | ⟨acc, hacc, huse⟩
  · obtain ⟨w, hemits, hacts⟩ := acts_addiRb data base v
    rw [(field12_eq_iff v).mpr hv] at hacts
    rw [hopcode, huse]
    exact ⟨w, hemits, hacts⟩
  · rw [huse]
    exact acts_access hacc data base hv

end FrameInsn

/-! ## Offsets in a register -/

/-- **An access at an offset in a register has no word**: its third operand is missing. -/
lemma not_emits_variant {opcode variant : Opcode} (h : getRRRIOpcodeVariant opcode = some variant)
    (r₁ r₂ r₃ : Register) (w : BitVec 32) : ¬Emits ⟨variant, [.reg r₁, .reg r₂, .reg r₃]⟩ w := by
  have hnone : encodeInstruction ⟨variant, [.reg r₁, .reg r₂, .reg r₃]⟩ = none := by
    unfold getRRRIOpcodeVariant at h
    split at h
    case h_14 => exact absurd h (by simp)
    all_goals
      obtain rfl := Option.some.inj h
      rfl
  rw [Emits, hnone]
  exact Option.some_ne_none _ ∘ Eq.symm

/-- The words of an instruction behind others. -/
lemma EmitsAll.last {insts : List MCInst} {inst : MCInst} {ws : List (BitVec 32)}
    (h : EmitsAll (insts ++ [inst]) ws) : ∃ w, Emits inst w := by
  induction insts generalizing ws with
  | nil =>
    obtain ⟨w, rest, hemits, -, -⟩ := List.forall₂_cons_left_iff.mp h
    exact ⟨w, hemits⟩
  | cons first insts ih =>
    obtain ⟨w, rest, -, hrest, -⟩ := List.forall₂_cons_left_iff.mp h
    exact ih hrest

/-- Where the cut offset does not fit, no words are left. -/
lemma not_emitsAll_eliminate (insn : FrameInsn) {ref : FrameRef} (h : isIntN 12 ref.intOffset = false)
    {data reg : Register} {insts : List MCInst} {ws : List (BitVec 32)}
    (hinsts : eliminateFrameIndex insn.opcode data ref reg = some insts) : ¬EmitsAll insts ws := by
  have hnot : insn.opcode ≠ .addiRrii := by
    intro hopcode
    have huses := insn.uses
    rw [hopcode] at huses
    exact absurd huses (by simp [frameUse, rriiAccess])
  intro hemits
  rw [eliminateFrameIndex, if_neg (by simp [h])] at hinsts
  dsimp only at hinsts
  rw [if_neg hnot] at hinsts
  by_cases hmem : isMemRRIIOpcode insn.opcode = true
  · rw [if_pos hmem] at hinsts
    obtain ⟨variant, hvariant, rfl⟩ := Option.map_eq_some_iff.mp hinsts
    obtain ⟨w, hlast⟩ := hemits.last
    exact not_emits_variant hvariant _ _ _ w hlast
  · rw [if_neg hmem] at hinsts
    exact absurd hinsts (by simp)

/-! ## When the object is accessed -/

/-- Two states agree, but for the program counter and a scratch register. -/
structure AgreeBut (reg : ℕ) (s s' : State) : Prop where
  mem : s.mem = s'.mem
  reg : ∀ f i, ¬(f = .rb ∧ i = 0) → ¬(f = .rd ∧ i = reg) → s.reg f i = s'.reg f i

/-- **The code accesses the object**: with any register and any scavenged register it is made of instructions with
words, and these make of every state what the instruction makes of it at the register of the frame plus the
offset, but for the scavenged register. -/
def EliminatesRight (insn : FrameInsn) (ref : FrameRef) : Prop :=
  ∀ (data : Register) (reg : BitVec 6), ∃ insts ws,
    eliminateFrameIndex insn.opcode data ref (.rd reg) = some insts ∧ EmitsAll insts ws ∧
    ∀ m, ∃ m', Straight ws m m' ∧
      AgreeBut reg.toNat (insn.use.after (getDadaoRegisterNumbering data)
        ((reads m).reg .rb (getDadaoRegisterNumbering ref.frameReg) + ref.offset) (reads m)) (reads m')

/-- States that differ in the program counter. -/
lemma AgreeBut.next (reg : ℕ) (s : State) : AgreeBut reg s s.next :=
  ⟨rfl, fun _ _ hpc _ => (if_neg hpc).symm⟩

lemma AgreeBut.of_next {reg : ℕ} {s s' t : State} (h : AgreeBut reg s t) (ht : t = s'.next) : AgreeBut reg s s' := by
  subst ht
  exact ⟨h.mem, fun f i hpc hreg => (h.reg f i hpc hreg).trans (if_neg hpc)⟩

/-- The program counter is not assigned. -/
lemma put_pc (s : State) (file : RegFile) (i : ℕ) (v : BitVec 64) : (s.put file i v).reg .rb 0 = s.reg .rb 0 := by
  unfold State.put
  split_ifs with hi
  · rfl
  · exact if_neg fun h => hi h.2.symm

lemma after_pc (use : FrameUse) (i : ℕ) (addr : BitVec 64) (s : State) :
    (use.after i addr s).reg .rb 0 = s.reg .rb 0 := by
  cases use with
  | address => exact put_pc ..
  | access acc =>
    unfold FrameUse.after MemAccess.after
    dsimp only
    split_ifs
    · exact put_pc ..
    · rfl

/-- Accesses are of one to eight bytes of data or address registers. -/
lemma rriiAccess_bounds {opcode : Opcode} {acc : MemAccess} (h : rriiAccess opcode = some acc) :
    (1 ≤ acc.op.bytes ∧ acc.op.bytes ≤ 8) ∧ (acc.file = .rd ∨ acc.file = .rb) := by
  unfold rriiAccess at h
  split at h
  case h_14 => exact absurd h (by simp)
  all_goals
    obtain rfl := Option.some.inj h
    decide

/-- A store of one puts it at its own address. -/
lemma store_one {a b : BitVec 64} {n : ℕ} (hpos : 1 ≤ n)
    (h : Memory.store (fun _ => 0) a n 1 = Memory.store (fun _ => 0) b n 1) : a = b := by
  by_contra hne
  have hpoint := congrFun h a
  have hself : Memory.offsetFrom a a = 0 := by simp [Memory.offsetFrom]
  have hother : Memory.offsetFrom b a ≠ 0 := by
    intro hzero
    exact hne (by simpa [hzero] using (Memory.add_offsetFrom b a).symm)
  have hstored : Memory.store (fun _ => 0) a n 1 a = 1 := by
    rw [Memory.store, hself, if_pos (by omega)]
    rfl
  have hzero : Memory.store (fun _ => 0) b n 1 a = 0 := by
    rw [Memory.store]
    split_ifs with hlt
    · apply BitVec.eq_of_toNat_eq
      have hshift : 1 / 2 ^ (8 * Memory.offsetFrom b a) = 0 :=
        Nat.div_eq_of_lt (Nat.one_lt_two_pow (by omega))
      simp [BitVec.toNat_setWidth, BitVec.toNat_ushiftRight, Nat.shiftRight_eq_div_pow, hshift]
    · rfl
  rw [hstored, hzero] at hpoint
  exact absurd hpoint (by decide)

/-- **Each instruction tells addresses apart**: with some memory, from a register with the value one. -/
lemma FrameInsn.exists_mem (insn : FrameInsn) {a b : BitVec 64} (hne : a ≠ b) : ∃ mem, ∀ s : State, s.mem = mem →
    s.reg insn.file 8 = 1 → ¬AgreeBut 9 (insn.use.after 8 a s) (insn.use.after 8 b s) := by
  rcases insn.cases with ⟨-, huse⟩ | ⟨acc, hacc, huse⟩
  · refine ⟨fun _ => 0, fun s _ _ hagree => hne ?_⟩
    have hreg := hagree.reg .rb 8 (by decide) (by decide)
    rw [huse] at hreg
    simpa [FrameUse.after, State.put] using hreg
  · obtain ⟨⟨hpos, hle⟩, hfile⟩ := rriiAccess_bounds hacc
    have hin : insn.file = acc.file := by rw [FrameInsn.file, huse]
    by_cases hload : acc.isLoad
    · refine ⟨oneByte a, fun s hmem _ hagree => ?_⟩
      have hreg := hagree.reg acc.file 8 (by simp) (by simp)
      simp only [huse, FrameUse.after, MemAccess.after, hload, if_true, State.put, hmem] at hreg
      have hvalue : acc.op.load (oneByte a) a = acc.op.load (oneByte a) b := by simpa using hreg
      have hbyte := congrArg (BitVec.setWidth 8) hvalue
      rw [setWidth_load _ hpos hle, setWidth_load _ hpos hle, oneByte, oneByte, if_pos rfl,
        if_neg hne.symm] at hbyte
      exact absurd hbyte (by decide)
    · refine ⟨fun _ => 0, fun s hmem hone hagree => hne (store_one hpos ?_)⟩
      have hstores := hagree.mem
      rw [hin] at hone
      simpa [huse, FrameUse.after, MemAccess.after, hload, hmem, hone] using hstores

/-- The register of the frame. -/
lemma frameReg_cases (ref : FrameRef) : getDadaoRegisterNumbering ref.frameReg = 1 ∨
    getDadaoRegisterNumbering ref.frameReg = 2 ∨ getDadaoRegisterNumbering ref.frameReg = 6 := by
  unfold FrameRef.frameReg
  split_ifs <;> simp [getDadaoRegisterNumbering]

/-- The offset fits if and only if it fits behind the cut, and the cut keeps it. -/
lemma fits_iff (ref : FrameRef) : (-2048 ≤ ref.offset.toInt ∧ ref.offset.toInt < 2048) ↔
    isIntN 12 ref.intOffset = true ∧ ref.intOffset.signExtend 64 = ref.offset := by
  have hext : (ref.intOffset.signExtend 64).toInt = ref.intOffset.toInt := BitVec.toInt_signExtend_of_le (by omega)
  have hcut : isIntN 12 ref.intOffset = true ↔ -2048 ≤ ref.intOffset.toInt ∧ ref.intOffset.toInt < 2048 := by
    simp [isIntN]
  have hlt := ref.offset.isLt
  rw [hcut, ← BitVec.toInt_inj, hext, ref.intOffset_eq, BitVec.toInt_eq_toNat_cond, BitVec.toInt_eq_toNat_cond,
    BitVec.toNat_setWidth]
  split_ifs <;> omega

/-- **Elimination of frame indices**: the code accesses the object if and only if its offset is in the range of the
displacement. Other offsets are cut, or leave an instruction without a word, or no code at all. -/
theorem eliminatesRight_iff (insn : FrameInsn) (ref : FrameRef) :
    EliminatesRight insn ref ↔ -2048 ≤ ref.offset.toInt ∧ ref.offset.toInt < 2048 := by
  constructor
  · intro hright
    rw [fits_iff]
    obtain ⟨insts, ws, hinsts, hemits, hall⟩ := hright (.rd 8) 9
    by_cases hcut : isIntN 12 ref.intOffset = true
    · refine ⟨hcut, ?_⟩
      by_contra hne
      -- one word, at the cut offset
      rw [eliminateFrameIndex, if_pos hcut] at hinsts
      obtain rfl := Option.some.inj hinsts
      have hext : (ref.intOffset.signExtend 64).toInt = ref.intOffset.toInt :=
        BitVec.toInt_signExtend_of_le (by omega)
      have hfits : -2048 ≤ (ref.intOffset.signExtend 64).toInt ∧ (ref.intOffset.signExtend 64).toInt < 2048 := by
        rw [hext]
        simpa [isIntN] using hcut
      obtain ⟨w, hw, hacts⟩ := insn.acts (.rd 8) ref.frameReg hfits
      obtain rfl := hemits.unique (.cons hw .nil)
      obtain ⟨mem, hmem⟩ := insn.exists_mem (Ne.symm hne)
      let m : Machine Elem := ⟨⟨fun e => if e = .reg insn.file 8 then 1 else 0, fun _ => 0⟩, mem⟩
      obtain ⟨m', hrun, hagree⟩ := hall m
      obtain ⟨m'', hrun', hreads⟩ := performs_of_acts hacts (fun s => after_pc ..) m
      obtain rfl := hrun.unique hrun'
      have hbase : (reads m).reg .rb (getDadaoRegisterNumbering ref.frameReg) = 0 := by
        rcases frameReg_cases ref with h | h | h <;> rw [h] <;> exact if_neg (by simp)
      have hone : (reads m).reg insn.file 8 = 1 := (readReg_of_ne m (by omega)).trans (if_pos rfl)
      have hsame := hagree.of_next hreads
      rw [hbase] at hsame
      exact hmem (reads m) rfl hone (by simpa [getDadaoRegisterNumbering] using hsame)
    · exact absurd hemits (not_emitsAll_eliminate insn (by simpa using hcut) hinsts)
  · intro hfits data reg
    obtain ⟨hcut, hsame⟩ := (fits_iff ref).mp hfits
    obtain ⟨w, hw, hacts⟩ := insn.acts data ref.frameReg hfits
    refine ⟨_, [w], if_pos hcut, ?_, fun m => ?_⟩
    · rw [hsame]
      exact .cons hw .nil
    · obtain ⟨m', hrun, hreads⟩ := performs_of_acts hacts (fun s => after_pc ..) m
      refine ⟨m', hrun, ?_⟩
      rw [hreads]
      exact AgreeBut.next ..

/-- A store of an octa. -/
def storeOcta : FrameInsn := ⟨.stoRrii, .access ⟨false, .rd, moTeuq⟩, rfl⟩

/-- An object 4096 bytes below the frame pointer. -/
def farObject : FrameRef := ⟨false, false, 4104, false, -4096, 0⟩

/-- **A store to an object out of the range** is not eliminated. -/
theorem farObject_not_right : ¬EliminatesRight storeOcta farObject := by
  intro hright
  obtain ⟨insts, ws, hinsts, hemits, -⟩ := hright (.rd 8) 9
  exact not_emitsAll_eliminate storeOcta (by decide) hinsts hemits

end Dadao.Llvm
