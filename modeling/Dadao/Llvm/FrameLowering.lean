import Dadao.Llvm.Memory
import Dadao.Qemu.Several

set_option relaxedAutoImplicit false
set_option autoImplicit false

/-!
# Prologues and epilogues

The layout of a frame in `DadaoFrameLowering.cpp`, the code at both ends of a function, and what it makes of the
stack and frame pointers. The size of the frame is put into a field of twelve bits.

## Main definitions

* `Dadao.Llvm.determineFrameLayout` — the size of a frame.
* `Dadao.Llvm.emitPrologue`, `Dadao.Llvm.emitEpilogue` — the code.
* `Dadao.Llvm.Balanced` — the stack is lowered by the frame and raised again.

## Main results

* `Dadao.Llvm.performs_emitPrologue`, `Dadao.Llvm.performs_emitEpilogue` — what the code does.
* `Dadao.Llvm.balanced_iff` — when the stack is balanced.
-/

namespace Dadao.Llvm

open Qemu Tcg

/-! ## The layout -/

/-- What the layout reads: the size of the objects, the largest area for outgoing arguments, whether objects have
variable size, and the alignment (as a power of two) if the stack is realigned. -/
structure FrameInfo where
  stackSize : BitVec 64
  maxCallFrameSize : BitVec 32
  hasVarSizedObjects : Bool
  realigned : Bool
  maxAlign : Fin 64

/-- `alignTo`. -/
def alignTo (size align : BitVec 64) : BitVec 64 := (size + align - 1) &&& ~~~(align - 1)

namespace FrameInfo

variable (f : FrameInfo)

/-- The alignment of the stack. -/
def stackAlign : BitVec 64 := if f.realigned then 1 <<< f.maxAlign.val else 8

/-- The area for outgoing arguments, aligned for dynamic allocations. -/
def callFrameSize : BitVec 32 :=
  if f.hasVarSizedObjects then (alignTo (f.maxCallFrameSize.setWidth 64) f.stackAlign).setWidth 32
  else f.maxCallFrameSize

/-- `determineFrameLayout`: the size of the frame. The frame pointer is always used, so that the area for
outgoing arguments is never reserved and always counts. -/
def determineFrameLayout : BitVec 32 :=
  (alignTo ((f.stackSize.setWidth 32 + f.callFrameSize).setWidth 64) f.stackAlign).setWidth 32

end FrameInfo

/-- The size of the area for variable arguments: the first unallocated register is taken to be behind the last
one. -/
def varArgsSaveSize : BitVec 64 := 0

/-- `SpOffset`: the slot of the frame pointer. -/
def spOffset : BitVec 64 := -varArgsSaveSize - 8

/-! ## The code -/

/-- `emitPrologue`. -/
def emitPrologue (f : FrameInfo) : List MCInst :=
  [⟨.stoRbRrii, [.reg .rbfp, .reg .rbsp, .imm spOffset]⟩,
    ⟨.addiRbRrii, [.reg .rbfp, .reg .rbsp, .imm 0]⟩] ++
  if f.determineFrameLayout ≠ 0 then
    [⟨.addiRbRrii, [.reg .rbsp, .reg .rbsp, .imm (-f.determineFrameLayout.setWidth 64)]⟩]
  else []

/-- `emitEpilogue`. -/
def emitEpilogue : List MCInst :=
  [⟨.addiRbRrii, [.reg .rbsp, .reg .rbfp, .imm 0]⟩,
    ⟨.ldoRbRrii, [.reg .rbfp, .reg .rbfp, .imm spOffset]⟩]

/-- **Words of instructions**, one after the other. -/
def EmitsAll (insts : List MCInst) (ws : List (BitVec 32)) : Prop := List.Forall₂ Emits insts ws

/-! ## What the code does -/

/-- A sum of an address register and an immediate. -/
lemma acts_addiRb (r₁ r₂ : Register) (v : BitVec 64) :
    ∃ w, Emits ⟨.addiRbRrii, [.reg r₁, .reg r₂, .imm v]⟩ w ∧ Acts always w fun s =>
      s.put .rb (getDadaoRegisterNumbering r₁) (s.reg .rb (getDadaoRegisterNumbering r₂) + field12 v) := by
  have hf := fields_imm12 0b01001001 (by decide) (getDadaoRegisterNumbering_lt r₁) (getDadaoRegisterNumbering_lt r₂) v
  have hacts := acts_insnAlg1Rrii (hf.plain (by simp [PlainOpcode])) .rb Global.elem_rb
    (fun pc => by rw [disasDadao, hf.opcode]; rfl)
  rw [hf.ha, hf.hb, hf.imms12, signExtend_parts] at hacts
  exact ⟨_, emits_addi (by decide) ⟨rfl, fun _ => rfl⟩, hacts⟩

/-- The same as one word. -/
lemma performs_addiRb (r₁ r₂ : Register) (hr : getDadaoRegisterNumbering r₁ ≠ 0) (v : BitVec 64) :
    ∃ w, Emits ⟨.addiRbRrii, [.reg r₁, .reg r₂, .imm v]⟩ w ∧ Performs [w] fun s =>
      (s.set .rb (getDadaoRegisterNumbering r₁) (s.reg .rb (getDadaoRegisterNumbering r₂) + field12 v)).next := by
  obtain ⟨w, hemits, hacts⟩ := acts_addiRb r₁ r₂ v
  simp only [State.put, if_neg hr] at hacts
  exact ⟨w, hemits, performs_of_acts hacts fun s => by simp [hr.symm]⟩

/-- The stack pointer. -/
def sp (m : Machine Elem) : BitVec 64 := (reads m).reg .rb 1

/-- The frame pointer. -/
def fp (m : Machine Elem) : BitVec 64 := (reads m).reg .rb 2

/-- The offset of the slot fits its field. -/
lemma spOffset_fits : -2048 ≤ spOffset.toInt ∧ spOffset.toInt < 2048 := by decide

/-- What the code is given and leaves of the stack and frame pointers. -/
lemma sp_reads (m : Machine Elem) : (reads m).reg .rb 1 = sp m := rfl

lemma fp_reads (m : Machine Elem) : (reads m).reg .rb 2 = fp m := rfl

/-- **The prologue** saves the frame pointer, sets it to the stack pointer and adds what the field holds of the
negated size to the stack pointer. -/
lemma performs_emitPrologue (f : FrameInfo) : ∃ ws, EmitsAll (emitPrologue f) ws ∧ ∀ m, ∃ m', Straight ws m m' ∧
    sp m' = sp m + field12 (-f.determineFrameLayout.setWidth 64) ∧ fp m' = sp m ∧
    m'.mem = m.mem.store (sp m + spOffset) 8 (fp m) := by
  obtain ⟨w₁, hemits₁, hacts₁⟩ := @acts_access .stoRbRrii _ rfl .rbfp .rbsp _ spOffset_fits
  obtain ⟨w₂, hemits₂, hperf₂⟩ := performs_addiRb .rbfp .rbsp (by decide) 0
  obtain ⟨w₃, hemits₃, hperf₃⟩ := performs_addiRb .rbsp .rbsp (by decide) (-f.determineFrameLayout.setWidth 64)
  have hzero : field12 0#64 = 0#64 := by decide
  have hperf₁ := performs_of_acts hacts₁ fun s => rfl
  have hsaved := hperf₁.append hperf₂
  by_cases hsize : f.determineFrameLayout = 0
  · refine ⟨[w₁, w₂], ?_, fun m => ?_⟩
    · rw [emitPrologue, if_neg (not_not.mpr hsize), List.append_nil]
      exact .cons hemits₁ (.cons hemits₂ .nil)
    · obtain ⟨m', hrun, hreads⟩ := hsaved m
      refine ⟨m', hrun, ?_, ?_, ?_⟩
      · rw [← sp_reads, hreads, hsize]
        simp [State.next, MemAccess.after, getDadaoRegisterNumbering, hzero, sp_reads]
      · rw [← fp_reads, hreads]
        simp [State.next, MemAccess.after, getDadaoRegisterNumbering, hzero, sp_reads]
      · exact congrArg State.mem hreads
  · refine ⟨[w₁, w₂] ++ [w₃], ?_, fun m => ?_⟩
    · rw [emitPrologue, if_pos hsize]
      exact .cons hemits₁ (.cons hemits₂ (.cons hemits₃ .nil))
    · obtain ⟨m', hrun, hreads⟩ := (hsaved.append hperf₃) m
      refine ⟨m', hrun, ?_, ?_, ?_⟩
      · rw [← sp_reads, hreads]
        simp [State.next, MemAccess.after, getDadaoRegisterNumbering, hzero, sp_reads]
      · rw [← fp_reads, hreads]
        simp [State.next, MemAccess.after, getDadaoRegisterNumbering, hzero, sp_reads]
      · exact congrArg State.mem hreads

/-- **The epilogue** sets the stack pointer to the frame pointer and reads the frame pointer from its slot. -/
lemma performs_emitEpilogue : ∃ ws, EmitsAll emitEpilogue ws ∧ ∀ m, ∃ m', Straight ws m m' ∧
    sp m' = fp m ∧ fp m' = m.mem.load (fp m + spOffset) 8 := by
  obtain ⟨w₁, hemits₁, hperf₁⟩ := performs_addiRb .rbsp .rbfp (by decide) 0
  obtain ⟨w₂, hemits₂, hacts₂⟩ := @acts_access .ldoRbRrii _ rfl .rbfp .rbfp _ spOffset_fits
  have hzero : field12 0#64 = 0#64 := by decide
  have hperf₂ := performs_of_acts hacts₂ fun s => rfl
  refine ⟨[w₁, w₂], .cons hemits₁ (.cons hemits₂ .nil), fun m => ?_⟩
  obtain ⟨m', hrun, hreads⟩ := (hperf₁.append hperf₂) m
  refine ⟨m', hrun, ?_, ?_⟩
  · rw [← sp_reads, hreads]
    simp [State.next, State.put, MemAccess.after, getDadaoRegisterNumbering, hzero, fp_reads]
  · rw [← fp_reads, hreads]
    simp [State.next, State.put, MemAccess.after, getDadaoRegisterNumbering, hzero, fp_reads]
    rfl

/-- The words are determined. -/
lemma EmitsAll.unique {insts : List MCInst} {ws ws' : List (BitVec 32)} (h : EmitsAll insts ws)
    (h' : EmitsAll insts ws') : ws = ws' := by
  induction h generalizing ws' with
  | nil => exact (List.forall₂_nil_left_iff.mp h').symm
  | cons hemits _ ih =>
    obtain ⟨w', ws', hemits', hrest, rfl⟩ := List.forall₂_cons_left_iff.mp h'
    rw [hemits.unique hemits', ih hrest]

/-! ## When the stack is balanced -/

/-- A byte lies between two stack pointers: at or above the lower one, below the upper one. -/
def Between (lower upper addr : BitVec 64) : Prop :=
  0 < (upper - addr).toNat ∧ (upper - addr).toNat ≤ (upper - lower).toNat

/-- **The stack is balanced**: the prologue lowers the stack pointer by the size of the frame, and each byte of the
objects, counted down from the frame pointer, is between it and the stack pointer of the caller. The epilogue,
behind any code that keeps the frame pointer and its slot, restores the pointers of the caller. -/
def Balanced (f : FrameInfo) : Prop :=
  ∃ ws we, EmitsAll (emitPrologue f) ws ∧ EmitsAll emitEpilogue we ∧ ∀ m, ∃ m₁, Straight ws m m₁ ∧
    sp m₁ = sp m - f.determineFrameLayout.setWidth 64 ∧
    (∀ d : ℕ, 0 < d → d ≤ f.stackSize.toNat → Between (sp m₁) (sp m) (fp m₁ - BitVec.ofNat 64 d)) ∧
    ∀ m₂, fp m₂ = fp m₁ → m₂.mem.load (fp m₁ + spOffset) 8 = m₁.mem.load (fp m₁ + spOffset) 8 →
      ∃ m₃, Straight we m₂ m₃ ∧ sp m₃ = sp m ∧ fp m₃ = fp m

section Balanced

variable (f : FrameInfo)

/-- The field holds the negated size up to 2048. -/
lemma field12_neg_size : field12 (-f.determineFrameLayout.setWidth 64) = -f.determineFrameLayout.setWidth 64 ↔
    f.determineFrameLayout.toNat ≤ 2048 := by
  have hlt := f.determineFrameLayout.isLt
  rw [field12_eq_iff, BitVec.toInt_eq_toNat_cond, BitVec.toNat_neg, BitVec.toNat_setWidth]
  split_ifs <;> omega

/-- The stack pointer is lowered by the size exactly when the field holds it. -/
lemma lowered_iff (p : BitVec 64) : p + field12 (-f.determineFrameLayout.setWidth 64) =
    p - f.determineFrameLayout.setWidth 64 ↔ f.determineFrameLayout.toNat ≤ 2048 := by
  rw [BitVec.sub_eq_add_neg, BitVec.add_right_inj, field12_neg_size]

/-- The bytes of the objects are in the frame exactly when it is as large as they are. -/
lemma between_iff (p size total : BitVec 64) :
    (∀ d : ℕ, 0 < d → d ≤ total.toNat → Between (p - size) p (p - BitVec.ofNat 64 d)) ↔ total.toNat ≤ size.toNat := by
  have hsub (x : BitVec 64) : p - (p - x) = x := by grind
  have hmod (d : ℕ) (hd : d ≤ total.toNat) : d % 2 ^ 64 = d := Nat.mod_eq_of_lt (by have := total.isLt; omega)
  simp only [Between, hsub, BitVec.toNat_ofNat]
  constructor
  · intro h
    by_cases hzero : total.toNat = 0
    · omega
    · have hlast := (h total.toNat (by omega) le_rfl).2
      rwa [hmod _ le_rfl] at hlast
  · intro h d hpos hle
    rw [hmod d hle]
    omega

/-- What is stored below the stack pointer is read back by the epilogue. -/
lemma load_slot (m : Machine Elem) {m₁ : Machine Elem} (hfp : fp m₁ = sp m)
    (hmem : m₁.mem = m.mem.store (sp m + spOffset) 8 (fp m)) : m₁.mem.load (fp m₁ + spOffset) 8 = fp m := by
  rw [hfp, hmem, Memory.load_store_same]

end Balanced

/-- **The stack is balanced** exactly when the size of the frame is at most 2048 and the objects fit the frame:
the size is in a field of twelve bits, and it is computed in 32 bits. -/
theorem balanced_iff (f : FrameInfo) :
    Balanced f ↔ f.determineFrameLayout.toNat ≤ 2048 ∧ f.stackSize.toNat ≤ f.determineFrameLayout.toNat := by
  obtain ⟨ws, hws, hprologue⟩ := performs_emitPrologue f
  obtain ⟨we, hwe, hepilogue⟩ := performs_emitEpilogue
  have hwidth : (f.determineFrameLayout.setWidth 64).toNat = f.determineFrameLayout.toNat := by
    rw [BitVec.toNat_setWidth_of_le (by omega)]
  constructor
  · rintro ⟨ws', we', hws', -, hbalanced⟩
    obtain rfl := hws.unique hws'
    obtain ⟨m₁, hrun, hsp, hbetween, -⟩ := hbalanced zeroMachine
    obtain ⟨m', hrun', hsp', hfp', -⟩ := hprologue zeroMachine
    obtain rfl := hrun.unique hrun'
    refine ⟨(lowered_iff f _).mp (hsp'.symm.trans hsp), ?_⟩
    rw [hsp, hfp'] at hbetween
    rw [← hwidth]
    exact (between_iff _ _ _).mp hbetween
  · rintro ⟨hsize, hfits⟩
    refine ⟨ws, we, hws, hwe, fun m => ?_⟩
    obtain ⟨m₁, hrun, hsp, hfp, hmem⟩ := hprologue m
    have hlowered := hsp.trans ((lowered_iff f _).mpr hsize)
    refine ⟨m₁, hrun, hlowered, ?_, fun m₂ hkept hslot => ?_⟩
    · rw [hlowered, hfp]
      exact (between_iff _ _ _).mpr (hwidth ▸ hfits)
    · obtain ⟨m₃, hrun', hsp₃, hfp₃⟩ := hepilogue m₂
      refine ⟨m₃, hrun', by rw [hsp₃, hkept, hfp], ?_⟩
      rw [hfp₃, hkept, hslot, load_slot m hfp hmem]

/-- Objects of 4096 bytes, for which the stack pointer is not lowered. -/
def largeFrame : FrameInfo := ⟨4096, 0, false, false, 0⟩

/-- **A frame above the field** is not balanced. -/
theorem largeFrame_not_balanced : ¬ Balanced largeFrame := by
  obtain ⟨ws, hws, hprologue⟩ := performs_emitPrologue largeFrame
  rintro ⟨ws', we', hws', -, hbalanced⟩
  obtain rfl := hws.unique hws'
  obtain ⟨m₁, hrun, hsp, -⟩ := hbalanced zeroMachine
  obtain ⟨m', hrun', hsp', -⟩ := hprologue zeroMachine
  obtain rfl := hrun.unique hrun'
  have hsize := (lowered_iff largeFrame _).mp (hsp'.symm.trans hsp)
  exact absurd hsize (by decide)

end Dadao.Llvm
