import Dadao.Llvm.Constants
import Dadao.Llvm.Words

set_option relaxedAutoImplicit false
set_option autoImplicit false

/-!
# Folded immediates

The patterns of `DadaoInstrInfo.td` that put an immediate of a node into an instruction: their predicates, the
transforms of the immediate, and what the simulator makes of the word. The negated immediate of a difference
need not fit the field of `addi`, and the field of a jump counts words.

## Main definitions

* `Dadao.Llvm.ImmPattern` — the patterns, with `accepts`, `value` and `inst`.
* `Dadao.Llvm.FoldsRight` — the immediate fits its field and the instruction computes the node.

## Main results

* `Dadao.Llvm.yields_addi`, `Dadao.Llvm.jumps_brind`, … — what the instructions do with an immediate.
* `Dadao.Llvm.foldsRight_iff` — when a pattern is right.
-/

namespace Dadao.Llvm

open Qemu Bfd Fields

/-! ## Predicates and transforms -/

/-- `i64h1`. -/
def i64h1 (imm : BitVec 64) : Bool := imm.toNat ≤ 63

/-- `i64neg12`, on the lower half of the immediate. -/
def i64neg12 (imm : BitVec 64) : Bool :=
  let v := (imm.setWidth 32).toInt
  v < 0 ∧ -2048 ≤ v ∧ v < 2048

/-- `i64lo12s`. -/
def i64lo12s (imm : BitVec 64) : Bool := imm &&& 0xFFF = imm

/-- `NEG`. -/
def negImm (imm : BitVec 64) : BitVec 64 := -imm

/-- `LO12`. -/
def lo12 (imm : BitVec 64) : BitVec 64 := imm &&& 0xFFF

/-! ## The patterns -/

/-- The shifts. -/
inductive ShiftNode where
  | shl | sra | srl
  deriving DecidableEq, Repr

/-- The patterns with an immediate operand: shifts by an immediate, the difference that becomes `addi`, the
operations on one wyde, and the indirect branch to a sum. -/
inductive ImmPattern where
  | shift (node : ShiftNode)
  | sub (cls : RegClass)
  | or (cls : RegClass) (k : Fin 4)
  | andNot (cls : RegClass) (k : Fin 4)
  | ones (k : Fin 4)
  | brind
  deriving DecidableEq, Repr

namespace ImmPattern

/-- The predicate on the immediate. -/
def accepts (imm : BitVec 64) : ImmPattern → Bool
  | shift _ => i64h1 imm
  | sub _ => i64neg12 imm
  | or _ k | andNot _ k | ones k => i64w k imm
  | brind => i64lo12s imm

/-- The value of the node, with its other operands. -/
def value (imm x y : BitVec 64) : ImmPattern → BitVec 64
  | shift .shl => x <<< imm.toNat
  | shift .sra => x.sshiftRight imm.toNat
  | shift .srl => x >>> imm.toNat
  | sub _ => x - imm
  | or _ _ => x ||| imm
  | andNot _ _ => x &&& ~~~imm
  | ones _ => ~~~0 &&& imm
  | brind => x + y + imm

/-- The immediate of the instruction. -/
def operand (imm : BitVec 64) : ImmPattern → BitVec 64
  | shift _ => imm
  | sub _ => negImm imm
  | or _ k | andNot _ k | ones k => wyde k imm
  | brind => lo12 imm

/-- The instruction. -/
def opcode : ImmPattern → Opcode
  | shift .shl => .shluOrri
  | shift .sra => .shrsOrri
  | shift .srl => .shruOrri
  | sub .gprd => .addiRrii
  | sub .gprb => .addiRbRrii
  | or .gprd 0 => .orwRwiiW0
  | or .gprd 1 => .orwRwiiW1
  | or .gprd 2 => .orwRwiiW2
  | or .gprd 3 => .orwRwiiW3
  | or .gprb 0 => .orwRbRwiiW0
  | or .gprb 1 => .orwRbRwiiW1
  | or .gprb 2 => .orwRbRwiiW2
  | or .gprb 3 => .orwRbRwiiW3
  | andNot .gprd 0 => .andnwRwiiW0
  | andNot .gprd 1 => .andnwRwiiW1
  | andNot .gprd 2 => .andnwRwiiW2
  | andNot .gprd 3 => .andnwRwiiW3
  | andNot .gprb 0 => .andnwRbRwiiW0
  | andNot .gprb 1 => .andnwRbRwiiW1
  | andNot .gprb 2 => .andnwRbRwiiW2
  | andNot .gprb 3 => .andnwRbRwiiW3
  | ones 0 => .setowRwiiW0
  | ones 1 => .setowRwiiW1
  | ones 2 => .setowRwiiW2
  | ones 3 => .setowRwiiW3
  | brind => .jumpRrii

/-- The immediate fits its field, as the instruction reads it. -/
def Fits (v : BitVec 64) : ImmPattern → Prop
  | shift _ => v.toNat < 2 ^ 6
  | sub _ | brind => -2048 ≤ v.toInt ∧ v.toInt < 2048
  | or _ _ | andNot _ _ | ones _ => v.toNat < 2 ^ 16

end ImmPattern

/-! ## Registers -/

/-- The registers of an instruction: its destination, an address and any data register. -/
structure FoldRegs where
  dst : DstReg
  base : DstReg
  data : BitVec 6

def RegClass.file : RegClass → RegFile
  | .gprd => .rd
  | .gprb => .rb

namespace ImmPattern

variable (p : ImmPattern) (r : FoldRegs) (imm : BitVec 64)

/-- The register file of the result, where there is one. -/
def file : ImmPattern → RegFile
  | sub cls | or cls _ | andNot cls _ => cls.file
  | _ => .rd

/-- The first register operand of the node. The operations on one wyde write the register they read. -/
def source : ImmPattern → RegFile × ℕ
  | sub .gprb | brind => (.rb, r.base.n.toNat)
  | or cls _ | andNot cls _ => (cls.file, r.dst.n.toNat)
  | _ => (.rd, r.data.toNat)

/-- The selected instruction. -/
def inst : MCInst :=
  match p with
  | shift _ | sub .gprd => ⟨p.opcode, [.reg (.rd r.dst.n), .reg (.rd r.data), .imm (p.operand imm)]⟩
  | sub .gprb => ⟨p.opcode, [.reg (.rb r.dst.n), .reg (.rb r.base.n), .imm (p.operand imm)]⟩
  | or cls _ | andNot cls _ => wydeInst p.opcode (r.dst.register cls) (p.operand imm)
  | ones _ => wydeInst p.opcode (.rd r.dst.n) (p.operand imm)
  | brind => ⟨p.opcode, [.reg (.rb r.base.n), .reg (.rd r.data), .imm (p.operand imm)]⟩

/-- **A word does what the node says**: it puts the value of the node into the destination and leaves all else
alone, or goes to the address of the node. -/
def Does (w : BitVec 32) : Prop :=
  match p with
  | brind => ∀ m, ∃ m', Executes w m (.done m') ∧ view m' = view m ∧ m'.env.globals .pc =
      p.value imm ((view m).reg .rb r.base.n.toNat) ((view m).reg .rd r.data.toNat)
  | _ => Yields always [w] fun s =>
      s.set p.file r.dst.n.toNat (p.value imm (s.reg (p.source r).1 (p.source r).2) 0)

end ImmPattern

/-- **A folded immediate is right**: it fits its field, and for all registers the word does what the node
says. -/
def FoldsRight (p : ImmPattern) (imm : BitVec 64) : Prop :=
  p.Fits (p.operand imm) ∧ ∀ r, ∃ w, Emits (p.inst r imm) w ∧ p.Does r imm w

/-- A node that a pattern accepts. -/
structure FoldedImm where
  pattern : ImmPattern
  imm : BitVec 64
  accepted : pattern.accepts imm = true

/-- The condition on the immediate. -/
def ImmPattern.HoldsWhen (imm : BitVec 64) : ImmPattern → Prop
  | shift _ | or _ _ | andNot _ _ => True
  | sub _ => -2048 < imm.toInt ∧ imm.toInt < 0
  | ones _ => False
  | brind => imm = 0

/-! ## What the instructions do -/

lemma DstReg.toNat_ne (r : DstReg) : r.n.toNat ≠ 0 := fun h => r.pos (BitVec.eq_of_toNat_eq h)

/-- A shift, by its instruction. -/
lemma foldsRight_of_shift {node : ShiftNode} {minorop : ℕ} {mnemonic : String} {f : Tcg.BinOp}
    (h : (ImmPattern.shift node).opcode.Has (shiftORRI minorop mnemonic)) (hminor : minorop < 2 ^ 6)
    (hplain : minorop ∉ [0x28, 0x29, 0x2a, 0x2b, 0x31, 0x32, 0x33, 0x39, 0x3a])
    (hdisas : ∀ (pc : BitVec 64) (w : BitVec 32), (w >>> 24).toNat = 0x10 → fieldHa w = minorop →
      disasDadao pc w = some (some (insnLogicOrri f w)))
    {imm : BitVec 64} (hvalue : ∀ x, f.eval x imm = (ImmPattern.shift node).value imm x 0) (himm : imm.toNat ≤ 63) :
    FoldsRight (.shift node) imm := by
  refine ⟨Nat.lt_of_le_of_lt himm (by decide), fun r => ?_⟩
  have hlow : BitVec.ofNat 64 (imm.toNat % 64) = imm := by
    apply BitVec.eq_of_toNat_eq
    rw [BitVec.toNat_ofNat]
    omega
  have hf := fields_quad 0b00010000 (by decide) hminor r.dst.n.isLt r.data.isLt
    (show imm.toNat % 64 < 2 ^ 6 by omega)
  have hyields := yields_orri (f := f) hf (hf.plain_minor10 hplain) (fun pc => hdisas pc _ hf.opcode hf.ha)
    r.dst.toNat_ne
  simp only [hlow, hvalue] at hyields
  exact ⟨_, emits_shift hminor h, hyields⟩

/-- **Shifts.** -/
lemma foldsRight_shift (node : ShiftNode) {imm : BitVec 64} (himm : imm.toNat ≤ 63) :
    FoldsRight (.shift node) imm := by
  have hmod : imm.toNat % 64 = imm.toNat := Nat.mod_eq_of_lt (by omega)
  cases node with
  | shl =>
    exact foldsRight_of_shift (f := .shl) ⟨rfl, fun _ => rfl⟩ (by decide) (by decide)
      (fun pc w hop ha => by rw [disasDadao, hop]; simp only [disasMinor10, ha]; rfl)
      (fun x => congrArg (x <<< ·) hmod) himm
  | sra =>
    exact foldsRight_of_shift (f := .sar) ⟨rfl, fun _ => rfl⟩ (by decide) (by decide)
      (fun pc w hop ha => by rw [disasDadao, hop]; simp only [disasMinor10, ha]; rfl)
      (fun x => congrArg x.sshiftRight hmod) himm
  | srl =>
    exact foldsRight_of_shift (f := .shr) ⟨rfl, fun _ => rfl⟩ (by decide) (by decide)
      (fun pc w hop ha => by rw [disasDadao, hop]; simp only [disasMinor10, ha]; rfl)
      (fun x => congrArg (x >>> ·) hmod) himm

/-- A negated immediate in the range of the predicate fits if it is not the least one. -/
lemma fits_negImm_iff {imm : BitVec 64} (h : i64neg12 imm = true) :
    -2048 ≤ (negImm imm).toInt ∧ (negImm imm).toInt < 2048 ↔ -2048 < imm.toInt ∧ imm.toInt < 0 := by
  have hlow : (imm.setWidth 32).toInt < 0 ∧ -2048 ≤ (imm.setWidth 32).toInt ∧ (imm.setWidth 32).toInt < 2048 := by
    simpa [i64neg12] using h
  have hneg : (negImm imm).toNat = (2 ^ 64 - imm.toNat) % 2 ^ 64 := BitVec.toNat_neg imm
  have hlt := imm.isLt
  rw [BitVec.toInt_eq_toNat_cond (negImm imm), BitVec.toInt_eq_toNat_cond imm, hneg]
  rw [BitVec.toInt_eq_toNat_cond, BitVec.toNat_setWidth] at hlow
  split_ifs at hlow ⊢ <;> omega

/-- **A difference** is right if and only if the negated immediate fits. -/
lemma foldsRight_sub_iff (cls : RegClass) {imm : BitVec 64} (h : i64neg12 imm = true) :
    FoldsRight (.sub cls) imm ↔ -2048 < imm.toInt ∧ imm.toInt < 0 := by
  refine ⟨fun hright => (fits_negImm_iff h).mp hright.1, fun hrange => ?_⟩
  have hfits := (fits_negImm_iff h).mpr hrange
  have hvalue (x : BitVec 64) : x + negImm imm = x - imm := (BitVec.sub_eq_add_neg x imm).symm
  refine ⟨hfits, fun r => ?_⟩
  cases cls with
  | gprd =>
    have hyields := yields_addi r.dst.n.isLt r.data.isLt r.dst.toNat_ne hfits
    simp only [hvalue] at hyields
    exact ⟨_, emits_addi (by decide) ⟨rfl, fun _ => rfl⟩, hyields⟩
  | gprb =>
    have hyields := yields_addiRb r.dst.n.isLt r.base.n.isLt r.dst.toNat_ne r.base.toNat_ne hfits
    simp only [hvalue] at hyields
    exact ⟨_, emits_addi (by decide) ⟨rfl, fun _ => rfl⟩, hyields⟩

/-! ## Wydes -/

/-- The instruction of a pattern on one wyde. -/
def ImmPattern.wydeInsn : ImmPattern → Option WydeInsn
  | or .gprd _ => some .orwRd
  | or .gprb _ => some .orwRb
  | andNot .gprd _ => some .andnwRd
  | andNot .gprb _ => some .andnwRb
  | ones _ => some .setowRd
  | _ => none

lemma isWyde_or (cls : RegClass) (k : Fin 4) {insn : WydeInsn}
    (h : (ImmPattern.or cls k).wydeInsn = some insn) : (ImmPattern.or cls k).opcode.IsWyde insn k := by
  cases cls <;> obtain rfl := Option.some.inj h <;>
    exact ⟨k.isLt, match k with | 0 => rfl | 1 => rfl | 2 => rfl | 3 => rfl,
      match k with | 0 => fun _ => rfl | 1 => fun _ => rfl | 2 => fun _ => rfl | 3 => fun _ => rfl⟩

lemma isWyde_andNot (cls : RegClass) (k : Fin 4) {insn : WydeInsn}
    (h : (ImmPattern.andNot cls k).wydeInsn = some insn) : (ImmPattern.andNot cls k).opcode.IsWyde insn k := by
  cases cls <;> obtain rfl := Option.some.inj h <;>
    exact ⟨k.isLt, match k with | 0 => rfl | 1 => rfl | 2 => rfl | 3 => rfl,
      match k with | 0 => fun _ => rfl | 1 => fun _ => rfl | 2 => fun _ => rfl | 3 => fun _ => rfl⟩

lemma isWyde_ones (k : Fin 4) : (ImmPattern.ones k).opcode.IsWyde .setowRd k :=
  ⟨k.isLt, match k with | 0 => rfl | 1 => rfl | 2 => rfl | 3 => rfl,
    match k with | 0 => fun _ => rfl | 1 => fun _ => rfl | 2 => fun _ => rfl | 3 => fun _ => rfl⟩

/-- A constant with one wyde only is that wyde in its place. -/
lemma wyde_shiftLeft {k : ℕ} {imm : BitVec 64} (h : i64w k imm = true) : wyde k imm <<< (k * 16) = imm :=
  BitVec.eq_of_getLsbD_eq fun i hi => by rw [getLsbD_wyde imm k hi, ← getLsbD_of_i64w h hi]

section Words

variable (insn : WydeInsn) (r : FoldRegs) (k : Fin 4) {imm : BitVec 64} (h : i64w k imm = true)

/-- The fields of a word with a wyde of the immediate. -/
lemma fields_wyde (imm : BitVec 64) : (rwii insn.majorop r.dst.n.toNat k (wyde k imm).toNat >>> 24).toNat = insn.majorop ∧
    fieldHa (rwii insn.majorop r.dst.n.toNat k (wyde k imm).toNat) = r.dst.n.toNat ∧
    fieldWw (rwii insn.majorop r.dst.n.toNat k (wyde k imm).toNat) = k :=
  ⟨opcode_rwii insn.majorop_lt r.dst.n.isLt k.isLt (wyde_lt k imm),
    fieldHa_rwii insn.majorop_lt r.dst.n.isLt k.isLt (wyde_lt k imm),
    fieldWw_rwii insn.majorop_lt r.dst.n.isLt k.isLt (wyde_lt k imm)⟩

include h

lemma wydeArg_wyde : wydeArg (rwii insn.majorop r.dst.n.toNat k (wyde k imm).toNat) = imm := by
  rw [wydeArg_rwii insn.majorop_lt r.dst.n.isLt k.isLt (wyde_lt k imm), BitVec.ofNat_toNat, BitVec.setWidth_eq,
    wyde_shiftLeft h]

end Words

/-- A word with a wyde is plain. -/
lemma plain_of_majorop (insn : WydeInsn) {w : BitVec 32} (h : (w >>> 24).toNat = insn.majorop) : Plain w := by
  apply plain_of_opcode
  rw [h]
  cases insn <;> simp [PlainOpcode, WydeInsn.majorop]

/-- **A bitwise or** with one wyde. -/
lemma foldsRight_or (cls : RegClass) (k : Fin 4) {imm : BitVec 64} (h : i64w k imm = true) :
    FoldsRight (.or cls k) imm := by
  refine ⟨wyde_lt k imm, fun r => ?_⟩
  cases cls with
  | gprd =>
    obtain ⟨hop, hha, -⟩ := fields_wyde .orwRd r k imm
    have hyields := yields_orw .rd Global.elem_rd (plain_of_majorop .orwRd hop) (rdFile.disas_or · _ hop)
      (hha.trans_ne r.dst.toNat_ne)
    rw [hha, wydeArg_wyde .orwRd r k h] at hyields
    exact ⟨_, emitWyde_eq (isWyde_or .gprd k rfl) _ (wyde_lt k imm), hyields⟩
  | gprb =>
    obtain ⟨hop, hha, -⟩ := fields_wyde .orwRb r k imm
    have hyields := yields_orw .rb Global.elem_rb (plain_of_majorop .orwRb hop) (rbFile.disas_or · _ hop)
      (hha.trans_ne r.dst.toNat_ne)
    rw [hha, wydeArg_wyde .orwRb r k h] at hyields
    exact ⟨_, emitWyde_eq (isWyde_or .gprb k rfl) _ (wyde_lt k imm), hyields⟩

/-- **A bitwise and** with the complement of one wyde. -/
lemma foldsRight_andNot (cls : RegClass) (k : Fin 4) {imm : BitVec 64} (h : i64w k imm = true) :
    FoldsRight (.andNot cls k) imm := by
  refine ⟨wyde_lt k imm, fun r => ?_⟩
  cases cls with
  | gprd =>
    obtain ⟨hop, hha, -⟩ := fields_wyde .andnwRd r k imm
    have hyields := yields_andnw .rd Global.elem_rd (plain_of_majorop .andnwRd hop)
      (fun pc => by rw [disasDadao, hop]; rfl) (hha.trans_ne r.dst.toNat_ne)
    rw [hha, wydeArg_wyde .andnwRd r k h] at hyields
    exact ⟨_, emitWyde_eq (isWyde_andNot .gprd k rfl) _ (wyde_lt k imm), hyields⟩
  | gprb =>
    obtain ⟨hop, hha, -⟩ := fields_wyde .andnwRb r k imm
    have hyields := yields_andnw .rb Global.elem_rb (plain_of_majorop .andnwRb hop)
      (fun pc => by rw [disasDadao, hop]; rfl) (hha.trans_ne r.dst.toNat_ne)
    rw [hha, wydeArg_wyde .andnwRb r k h] at hyields
    exact ⟨_, emitWyde_eq (isWyde_andNot .gprb k rfl) _ (wyde_lt k imm), hyields⟩

/-- The word of a pattern on ones, and what it does. -/
lemma yields_ones (r : FoldRegs) (k : Fin 4) {imm : BitVec 64} (h : i64w k imm = true) :
    Emits ((ImmPattern.ones k).inst r imm) (rwii WydeInsn.setowRd.majorop r.dst.n.toNat k (wyde k imm).toNat) ∧
    Yields always [rwii WydeInsn.setowRd.majorop r.dst.n.toNat k (wyde k imm).toNat] fun s =>
      s.set .rd r.dst.n.toNat (imm ||| ~~~(0xFFFF#64 <<< (k.val * 16))) := by
  obtain ⟨hop, hha, hww⟩ := fields_wyde .setowRd r k imm
  have hyields := yields_setow (plain_of_majorop .setowRd hop) (fun pc => by rw [disasDadao, hop]; rfl)
    (hha.trans_ne r.dst.toNat_ne)
  rw [hha, wydeArg_wyde .setowRd r k h, hww] at hyields
  exact ⟨emitWyde_eq (isWyde_ones k) _ (wyde_lt k imm), hyields⟩

/-- Registers to look at. -/
def someRegs : FoldRegs := ⟨⟨1, by decide⟩, ⟨1, by decide⟩, 0⟩

/-- **Ones never come out right**: all other wydes are ones, not zeros. -/
lemma not_foldsRight_ones (k : Fin 4) {imm : BitVec 64} (h : i64w k imm = true) : ¬FoldsRight (.ones k) imm := by
  rintro ⟨-, hright⟩
  obtain ⟨w, hemits, hdoes⟩ := hright someRegs
  obtain ⟨hemits', hyields⟩ := yields_ones someRegs k h
  rw [hemits.unique hemits'] at hdoes
  have hdoes' : Yields always [rwii WydeInsn.setowRd.majorop someRegs.dst.n.toNat k (wyde k imm).toNat] fun s =>
      s.set .rd someRegs.dst.n.toNat (~~~0 &&& imm) := hdoes
  have hreg := congrArg (fun s : State => s.reg .rd 1) (hdoes'.unique hyields zeroMachine)
  have hvalue : ~~~(0 : BitVec 64) &&& imm = imm ||| ~~~(0xFFFF#64 <<< (k.val * 16)) := by
    simpa [someRegs] using hreg
  -- a bit of another wyde
  obtain ⟨i, hi, hout⟩ : ∃ i < 64, inWyde k i = false := by
    by_cases hk : k = 0
    · exact ⟨16, by decide, by rw [hk]; decide⟩
    · refine ⟨0, by decide, ?_⟩
      have hne : (0 : ℕ) ≠ k := fun h => hk (Fin.ext h.symm)
      simpa [inWyde] using hne
  have hbit := congrArg (fun v => v.getLsbD i) hvalue
  have hzero : imm.getLsbD i = false := by rw [getLsbD_of_i64w h hi, hout, Bool.false_and]
  have hones : (~~~(0xFFFF#64 <<< (k.val * 16))).getLsbD i = true := by
    rw [BitVec.getLsbD_not, getLsbD_wydeMask hi, hout, decide_eq_true hi]
    rfl
  rw [BitVec.getLsbD_and, BitVec.getLsbD_or, hzero, hones, Bool.and_false] at hbit
  exact absurd hbit (by decide)

/-! ## Indirect branches -/

/-- The word of an indirect branch, and where it goes. -/
lemma jumps_brind (r : FoldRegs) (imm : BitVec 64) :
    ∃ w, Emits (ImmPattern.brind.inst r imm) w ∧ ∀ m, ∃ m', Executes w m (.done m') ∧ view m' = view m ∧
      m'.env.globals .pc = (view m).reg .rb r.base.n.toNat + (view m).reg .rd r.data.toNat +
        (BitVec.ofNat 12 ((lo12 imm).toNat / 64 % 64 * 2 ^ 6 + (lo12 imm).toNat % 64)).signExtend 64 * 4 := by
  have hf := fields_imm12 0b01100101 (by decide) r.base.n.isLt r.data.isLt (lo12 imm)
  refine ⟨_, emits_indirect (by decide) ⟨rfl, fun _ => rfl⟩, fun m => ?_⟩
  exact jumps_rrii hf (hf.plain (by simp [PlainOpcode])) (fun pc => by rw [disasDadao, hf.opcode]; rfl)
    r.base.toNat_ne m

/-- **An indirect branch** goes to the sum if and only if its immediate is zero: the field counts words. -/
lemma foldsRight_brind_iff {imm : BitVec 64} (h : i64lo12s imm = true) : FoldsRight .brind imm ↔ imm = 0 := by
  have hlow : lo12 imm = imm := by simpa [i64lo12s, lo12] using h
  constructor
  · rintro ⟨hfits, hright⟩
    have hfits' : -2048 ≤ imm.toInt ∧ imm.toInt < 2048 := hlow ▸ hfits
    have hle : imm.toNat < 4096 := by
      rw [← hlow, lo12]
      exact Nat.lt_of_le_of_lt Nat.and_le_right (by decide)
    obtain ⟨w, hemits, hdoes⟩ := hright someRegs
    obtain ⟨w', hemits', hjumps⟩ := jumps_brind someRegs imm
    rw [hemits.unique hemits'] at hdoes
    obtain ⟨m₁, hexec, -, hpc⟩ := hdoes zeroMachine
    obtain ⟨m₂, hexec', -, hpc'⟩ := hjumps zeroMachine
    rw [Tcg.Outcome.done.inj (hexec.unique hexec'), hpc', hlow, signExtend_imm12 hfits'] at hpc
    have hfour : imm * 4 = imm := by simpa [ImmPattern.value] using hpc
    have hnat := congrArg BitVec.toNat hfour
    rw [BitVec.toNat_mul] at hnat
    apply BitVec.eq_of_toNat_eq
    change imm.toNat = 0
    change imm.toNat * 4 % 2 ^ 64 = imm.toNat at hnat
    omega
  · rintro rfl
    have hfits : -2048 ≤ (0 : BitVec 64).toInt ∧ (0 : BitVec 64).toInt < 2048 := by decide
    refine ⟨hfits, fun r => ?_⟩
    obtain ⟨w, hemits, hjumps⟩ := jumps_brind r 0
    refine ⟨w, hemits, fun m => ?_⟩
    obtain ⟨m', hexec, hview, hpc⟩ := hjumps m
    exact ⟨m', hexec, hview, hpc⟩

/-! ## The condition -/

/-- **Folded immediates** are right if and only if a negated one fits `addi`, an indirect branch has none, and
no ones are put around a wyde. -/
theorem foldsRight_iff (n : FoldedImm) : FoldsRight n.pattern n.imm ↔ n.pattern.HoldsWhen n.imm := by
  obtain ⟨p, imm, h⟩ := n
  cases p with
  | shift node => exact iff_of_true (foldsRight_shift node (of_decide_eq_true h)) trivial
  | sub cls => exact foldsRight_sub_iff cls h
  | or cls k => exact iff_of_true (foldsRight_or cls k h) trivial
  | andNot cls k => exact iff_of_true (foldsRight_andNot cls k h) trivial
  | ones k => exact iff_of_false (not_foldsRight_ones k h) not_false
  | brind => exact foldsRight_brind_iff h

/-- `rd - (-2048)` becomes `addi` with `2048`, which is read as `-2048`. -/
theorem sub_least_not_right : ∃ n : FoldedImm, n.pattern = .sub .gprd ∧ n.imm = -2048 ∧
    ¬FoldsRight n.pattern n.imm := by
  refine ⟨⟨.sub .gprd, -2048, by decide⟩, rfl, rfl, fun h => ?_⟩
  have hfits : -2048 ≤ (2048 : BitVec 64).toInt ∧ (2048 : BitVec 64).toInt < 2048 := h.1
  exact absurd hfits (by decide)

end Dadao.Llvm
