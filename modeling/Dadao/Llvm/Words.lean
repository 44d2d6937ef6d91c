import Dadao.Llvm.ObjectWriter
import Dadao.Qemu.Insns

set_option relaxedAutoImplicit false
set_option autoImplicit false

/-!
# Words of instructions

The words the code emitter makes of the instructions of integer code, by their opcodes and fields of six
bits.

## Main definitions

* `Dadao.Llvm.Emits` — an instruction is emitted as one word without a fixup.
* `Dadao.Llvm.field12` — an immediate as it is read from a field of twelve bits.

## Main results

* `Dadao.Llvm.insert_instDadao` — the word of a format by its parts.
* `Dadao.Llvm.emits_shift`, `Dadao.Llvm.emits_addi`, `Dadao.Llvm.emits_mem`, … — the words of the families.
* `Dadao.Llvm.yields_addi`, `Dadao.Llvm.yields_addiRb` — what sums with an immediate do.
-/

namespace Dadao.Llvm

open Qemu Fields

/-! ## Formats -/

/-- The number of a part of a word. -/
def part (fmt : Format FieldName) (vals : FieldName → BitVec 32) : ℕ := (Fields.insert fmt vals).toNat

/-- **The word of a format**, by its opcode and its four parts. -/
lemma insert_instDadao {op : ℕ} (hop : op < 2 ^ 8) {fa fb fc fd : Format FieldName} (ha : fa.length = 6)
    (hb : fb.length = 6) (hc : fc.length = 6) (hd : fd.length = 6) (vals : FieldName → BitVec 32) :
    Fields.insert (instDadao (constBits 8 op) fa fb fc fd) vals =
      quad op (part fa vals) (part fb vals) (part fc vals) (part fd vals) := by
  have hla := insert_lt fa vals
  have hlb := insert_lt fb vals
  have hlc := insert_lt fc vals
  have hld := insert_lt fd vals
  rw [ha] at hla
  rw [hb] at hlb
  rw [hc] at hlc
  rw [hd] at hld
  apply BitVec.eq_of_toNat_eq
  rw [instDadao, toNat_insert_append (by simp [ha, hb, hc, hd]), toNat_insert_append (by simp [ha, hb, hc, hd]),
    toNat_insert_append (by simp [hb, hc, hd]), toNat_insert_append (by simp [hc, hd]),
    toNat_insert_constBits (by omega) hop, quad, BitVec.toNat_ofNat]
  simp only [List.length_append, ha, hb, hc, hd, part]
  omega

lemma part_constBits {v : ℕ} (hv : v < 2 ^ 6) (vals : FieldName → BitVec 32) : part (constBits 6 v) vals = v :=
  toNat_insert_constBits (by omega) hv

lemma part_varBits (name : FieldName) (lo : ℕ) (vals : FieldName → BitVec 32) :
    part (varBits name lo 6) vals = (vals name).toNat / 2 ^ lo % 2 ^ 6 :=
  toNat_insert_varBits (by omega)

section Formats

variable {op : ℕ} (hop : op < 2 ^ 8) (vals : FieldName → BitVec 32)

include hop

lemma insert_instRRII : Fields.insert (instRRII op) vals =
    quad op ((vals .rxHa).toNat % 64) ((vals .ryHb).toNat % 64) ((vals .imm12).toNat / 64 % 64)
      ((vals .imm12).toNat % 64) := by
  rw [instRRII, insert_instDadao hop (by simp) (by simp) (by simp) (by simp)]
  simp [part_varBits]

lemma insert_instRRIIMem (mem : FieldName) : Fields.insert (instRRIIMem op mem) vals =
    quad op ((vals .rxHa).toNat % 64) ((vals mem).toNat / 4096 % 64) ((vals mem).toNat / 64 % 64)
      ((vals mem).toNat % 64) := by
  rw [instRRIIMem, insert_instDadao hop (by simp) (by simp) (by simp) (by simp)]
  simp [part_varBits]

lemma insert_instRRRI (mem : FieldName) : Fields.insert (instRRRI op mem) vals =
    quad op ((vals .rxHa).toNat % 64) ((vals mem).toNat / 4096 % 64) ((vals mem).toNat / 64 % 64) 0 := by
  rw [instRRRI, insert_instDadao hop (by simp) (by simp) (by simp) (by simp)]
  simp [part_varBits, part_constBits]

lemma insert_instORRI {minorop : ℕ} (hminor : minorop < 2 ^ 6) : Fields.insert (instORRI op minorop none) vals =
    quad op minorop ((vals .rxHb).toNat % 64) ((vals .ryHc).toNat % 64) ((vals .imm6).toNat % 64) := by
  rw [instORRI, insert_instDadao hop (by simp) (by simp) (by simp) (by simp)]
  simp [part_varBits, part_constBits hminor]

lemma insert_instORRR {minorop : ℕ} (hminor : minorop < 2 ^ 6) : Fields.insert (instORRR op minorop) vals =
    quad op minorop ((vals .rxHb).toNat % 64) ((vals .ryHc).toNat % 64) ((vals .rzHd).toNat % 64) := by
  rw [instORRR, insert_instDadao hop (by simp) (by simp) (by simp) (by simp)]
  simp [part_varBits, part_constBits hminor]

end Formats

/-! ## Instructions -/

/-- **The word of an instruction.** -/
def Emits (inst : MCInst) (w : BitVec 32) : Prop := encodeInstruction inst = some ([w], [])

/-- An instruction has one word. -/
lemma Emits.unique {inst : MCInst} {w w' : BitVec 32} (h : Emits inst w) (h' : Emits inst w') : w = w' := by
  have heq := h.symm.trans h'
  simpa using heq

/-- The word of an instruction by its record and the values of its operands. -/
lemma emits_of_record (vs : List (FieldName × BitVec 32)) {inst : MCInst} {r : Record} {w : BitVec 32}
    (hrecord : inst.opcode.record = r) (hload : isSymbolLoad inst = false) (hpseudo : r.isPseudo = false)
    (henc : encodeOperands inst.opcode r.word inst.operands r.operands 0 = some (vs, []))
    (hw : Fields.insert r.word (fun name => (vs.lookup name).getD 0) = w) : Emits inst w := by
  have hcode : getBinaryCodeForInstr inst = some (w, []) := by
    rw [getBinaryCodeForInstr]
    dsimp only
    rw [hrecord, hpseudo, henc, ← hw]
    rfl
  rw [Emits, encodeInstruction, hload, hcode]
  rfl

/-- An opcode with a record, which stands for no symbol. -/
structure Opcode.Has (opcode : Opcode) (r : Record) : Prop where
  record : opcode.record = r
  not_load : ∀ operands, isSymbolLoad ⟨opcode, operands⟩ = false

/-- The number of a register in its field. -/
@[simp] lemma numbering_mod (r : Register) :
    (BitVec.ofNat 32 (getDadaoRegisterNumbering r)).toNat % 64 = getDadaoRegisterNumbering r := by
  have hlt := getDadaoRegisterNumbering_lt r
  rw [BitVec.toNat_ofNat]
  omega

/-- The lower parts of an immediate. -/
lemma setWidth_parts (v : BitVec 64) : (v.setWidth 32).toNat / 64 % 64 = v.toNat / 64 % 64 ∧
    (v.setWidth 32).toNat % 64 = v.toNat % 64 := by
  rw [BitVec.toNat_setWidth]
  omega

section Families

variable {opcode : Opcode} {op minorop : ℕ} {mnemonic : String} {x y z : RegClass} {r₁ r₂ r₃ : Register}
variable {v : BitVec 64}

/-- A shift by an immediate. -/
lemma emits_shift (hminor : minorop < 2 ^ 6)
    (h : opcode.Has (shiftORRI minorop mnemonic)) : Emits ⟨opcode, [.reg r₁, .reg r₂, .imm v]⟩
      (quad 0b00010000 minorop (getDadaoRegisterNumbering r₁) (getDadaoRegisterNumbering r₂) (v.toNat % 64)) := by
  obtain ⟨-, hlower⟩ := setWidth_parts v
  refine emits_of_record [(.rxHb, BitVec.ofNat 32 (getDadaoRegisterNumbering r₁)),
    (.ryHc, BitVec.ofNat 32 (getDadaoRegisterNumbering r₂)), (.imm6, v.setWidth 32)] h.record (h.not_load _) rfl rfl ?_
  refine (insert_instORRI (by decide) _ hminor).trans ?_
  change quad _ minorop ((BitVec.ofNat 32 (getDadaoRegisterNumbering r₁)).toNat % 64)
    ((BitVec.ofNat 32 (getDadaoRegisterNumbering r₂)).toNat % 64) ((v.setWidth 32).toNat % 64) = _
  rw [numbering_mod, numbering_mod, hlower]

/-- An operation of two registers. -/
lemma emits_orrr (hminor : minorop < 2 ^ 6)
    (h : opcode.Has (aluORRR minorop mnemonic x y z)) : Emits ⟨opcode, [.reg r₁, .reg r₂, .reg r₃]⟩
      (quad 0b00010000 minorop (getDadaoRegisterNumbering r₁) (getDadaoRegisterNumbering r₂)
        (getDadaoRegisterNumbering r₃)) := by
  refine emits_of_record [(.rxHb, BitVec.ofNat 32 (getDadaoRegisterNumbering r₁)),
    (.ryHc, BitVec.ofNat 32 (getDadaoRegisterNumbering r₂)),
    (.rzHd, BitVec.ofNat 32 (getDadaoRegisterNumbering r₃))] h.record (h.not_load _) rfl rfl ?_
  refine (insert_instORRR (by decide) _ hminor).trans ?_
  change quad _ minorop ((BitVec.ofNat 32 (getDadaoRegisterNumbering r₁)).toNat % 64)
    ((BitVec.ofNat 32 (getDadaoRegisterNumbering r₂)).toNat % 64)
    ((BitVec.ofNat 32 (getDadaoRegisterNumbering r₃)).toNat % 64) = _
  rw [numbering_mod, numbering_mod, numbering_mod]

variable (hop : op < 2 ^ 8)

include hop

/-- The word of two registers and an immediate. -/
lemma insert_rrii : Fields.insert (instRRII op) (fun name =>
    (([(.rxHa, BitVec.ofNat 32 (getDadaoRegisterNumbering r₁)),
      (.ryHb, BitVec.ofNat 32 (getDadaoRegisterNumbering r₂)), (.imm12, v.setWidth 32)] :
        List (FieldName × BitVec 32)).lookup name).getD 0) =
    quad op (getDadaoRegisterNumbering r₁) (getDadaoRegisterNumbering r₂) (v.toNat / 64 % 64) (v.toNat % 64) := by
  obtain ⟨hupper, hlower⟩ := setWidth_parts v
  refine (insert_instRRII hop _).trans ?_
  change quad op ((BitVec.ofNat 32 (getDadaoRegisterNumbering r₁)).toNat % 64)
    ((BitVec.ofNat 32 (getDadaoRegisterNumbering r₂)).toNat % 64) ((v.setWidth 32).toNat / 64 % 64)
    ((v.setWidth 32).toNat % 64) = _
  rw [numbering_mod, numbering_mod, hupper, hlower]

/-- A sum with an immediate. -/
lemma emits_addi {c : ImmClass} (h : opcode.Has (aluRRII op mnemonic x y c)) : Emits ⟨opcode, [.reg r₁, .reg r₂, .imm v]⟩
    (quad op (getDadaoRegisterNumbering r₁) (getDadaoRegisterNumbering r₂) (v.toNat / 64 % 64) (v.toNat % 64)) :=
  emits_of_record _ h.record (h.not_load _) rfl rfl (insert_rrii hop)

/-- A jump or a call through registers. -/
lemma emits_indirect (h : opcode.Has (indirectRRII op mnemonic)) : Emits ⟨opcode, [.reg r₁, .reg r₂, .imm v]⟩
    (quad op (getDadaoRegisterNumbering r₁) (getDadaoRegisterNumbering r₂) (v.toNat / 64 % 64) (v.toNat % 64)) :=
  emits_of_record _ h.record (h.not_load _) rfl rfl (insert_rrii hop)

omit hop in
/-- The value of a memory operand with a displacement. -/
lemma getRRIIMemoryOpValue_eq (op₀ : MCOperand) (r₂ : Register) (hv : -2048 ≤ v.toInt ∧ v.toInt < 2048) :
    ∃ m : BitVec 32, getRRIIMemoryOpValue [op₀, .reg r₂, .imm v] 1 = some (m, []) ∧
      m.toNat / 4096 % 64 = getDadaoRegisterNumbering r₂ ∧ m.toNat / 64 % 64 = v.toNat / 64 % 64 ∧
      m.toNat % 64 = v.toNat % 64 := by
  have hnum := getDadaoRegisterNumbering_lt r₂
  have hlow : (v.setWidth 32 &&& 0xfff).toNat = v.toNat % 2 ^ 12 := by
    rw [Bits.toNat_and_mask _ _ 12 rfl, BitVec.toNat_setWidth]
    omega
  have hbase : (BitVec.ofNat 32 (getDadaoRegisterNumbering r₂) <<< 12).toNat =
      getDadaoRegisterNumbering r₂ * 2 ^ 12 := by
    rw [BitVec.toNat_shiftLeft, BitVec.toNat_ofNat, Nat.shiftLeft_eq]
    omega
  have hsum : (BitVec.ofNat 32 (getDadaoRegisterNumbering r₂) <<< 12 ||| (v.setWidth 32 &&& 0xfff)).toNat =
      getDadaoRegisterNumbering r₂ * 2 ^ 12 + v.toNat % 2 ^ 12 := by
    rw [Bits.toNat_or_eq_add 12 (by rw [hbase, Nat.mul_mod_left]) (by rw [hlow]; omega), hbase, hlow]
  refine ⟨_, if_pos hv, ?_, ?_, ?_⟩ <;> rw [hsum] <;> omega

/-- A load or a store at a displacement. -/
lemma emits_mem (h : opcode.Has (loadRRII op mnemonic x) ∨ opcode.Has (storeRRII op mnemonic x))
    (hv : -2048 ≤ v.toInt ∧ v.toInt < 2048) : Emits ⟨opcode, [.reg r₁, .reg r₂, .imm v]⟩
      (quad op (getDadaoRegisterNumbering r₁) (getDadaoRegisterNumbering r₂) (v.toNat / 64 % 64) (v.toNat % 64)) := by
  obtain ⟨m, hm, hbase, hupper, hlower⟩ := getRRIIMemoryOpValue_eq (.reg r₁) r₂ hv
  have hword (mem : FieldName) (hmem : mem = .src ∨ mem = .dst) : Fields.insert (instRRIIMem op mem) (fun name =>
      (([(.rxHa, BitVec.ofNat 32 (getDadaoRegisterNumbering r₁)), (mem, m)] :
        List (FieldName × BitVec 32)).lookup name).getD 0) =
      quad op (getDadaoRegisterNumbering r₁) (getDadaoRegisterNumbering r₂) (v.toNat / 64 % 64) (v.toNat % 64) := by
    refine (insert_instRRIIMem hop _ mem).trans ?_
    rcases hmem with rfl | rfl
    all_goals
      change quad op ((BitVec.ofNat 32 (getDadaoRegisterNumbering r₁)).toNat % 64) (m.toNat / 4096 % 64)
        (m.toNat / 64 % 64) (m.toNat % 64) = _
      rw [numbering_mod, hbase, hupper, hlower]
  have henc (mem : FieldName) (hmem : mem = .src ∨ mem = .dst) :
      encodeOperands opcode (instRRIIMem op mem) [.reg r₁, .reg r₂, .imm v] [gpr x .rxHa, ⟨mem, .memRRII⟩] 0 =
        some ([(.rxHa, BitVec.ofNat 32 (getDadaoRegisterNumbering r₁)), (mem, m)], []) := by
    have hshows : shows (instRRIIMem op mem) (gpr x .rxHa).name = true ∧ shows (instRRIIMem op mem) mem = true := by
      rcases hmem with rfl | rfl <;> exact ⟨rfl, rfl⟩
    have hencode : encodeOperand opcode [.reg r₁, .reg r₂, .imm v] 1 .memRRII = some (m, []) := hm
    have hnum : (gpr x .rxHa).cls.numOperands = 1 := rfl
    rw [encodeOperands, encodeOperands, encodeOperands, hnum, Nat.zero_add, hencode, if_pos hshows.1, if_pos hshows.2]
    rfl
  rcases h with h | h
  · exact emits_of_record _ h.record (h.not_load _) rfl (henc .src (.inl rfl)) (hword .src (.inl rfl))
  · exact emits_of_record _ h.record (h.not_load _) rfl (henc .dst (.inr rfl)) (hword .dst (.inr rfl))

end Families

/-! ## What the words do -/

/-- A machine to look at. -/
def zeroMachine : Tcg.Machine Elem := ⟨⟨fun _ => 0, fun _ => 0⟩, fun _ => 0⟩

/-- What an instruction reads from the field of twelve bits that an immediate is put into. -/
def field12 (v : BitVec 64) : BitVec 64 := (v.setWidth 12).signExtend 64

/-- The field by its parts. -/
lemma signExtend_parts (v : BitVec 64) :
    (BitVec.ofNat 12 (v.toNat / 64 % 64 * 2 ^ 6 + v.toNat % 64)).signExtend 64 = field12 v := by
  have hfield : BitVec.ofNat 12 (v.toNat / 64 % 64 * 2 ^ 6 + v.toNat % 64) = v.setWidth 12 := by
    apply BitVec.eq_of_toNat_eq
    rw [BitVec.toNat_ofNat, BitVec.toNat_setWidth]
    omega
  rw [hfield, field12]

/-- **An immediate comes back from its field** if and only if it fits. -/
lemma field12_eq_iff (v : BitVec 64) : field12 v = v ↔ -2048 ≤ v.toInt ∧ v.toInt < 2048 := by
  have hfield : (field12 v).toInt = (v.setWidth 12).toInt := BitVec.toInt_signExtend_of_le (by omega)
  have hlt := v.isLt
  rw [← BitVec.toInt_inj, hfield, BitVec.toInt_eq_toNat_cond, BitVec.toInt_eq_toNat_cond, BitVec.toNat_setWidth]
  split_ifs <;> omega

/-- An immediate of twelve bits comes back from its field. -/
lemma signExtend_imm12 {v : BitVec 64} (hv : -2048 ≤ v.toInt ∧ v.toInt < 2048) :
    (BitVec.ofNat 12 (v.toNat / 64 % 64 * 2 ^ 6 + v.toNat % 64)).signExtend 64 = v := by
  rw [signExtend_parts, (field12_eq_iff v).mpr hv]

/-- A word by the parts of an immediate. -/
lemma fields_imm12 (op : ℕ) (hop : op < 2 ^ 8) {a b : ℕ} (ha : a < 64) (hb : b < 64) (v : BitVec 64) :
    Qemu.Fields (quad op a b (v.toNat / 64 % 64) (v.toNat % 64)) op a b (v.toNat / 64 % 64) (v.toNat % 64) :=
  fields_quad op hop ha hb (Nat.mod_lt _ (by omega)) (Nat.mod_lt _ (by omega))

/-- `addi` of data registers. -/
lemma yields_addi {a b : ℕ} (ha : a < 64) (hb : b < 64) (hpos : a ≠ 0) {v : BitVec 64}
    (hv : -2048 ≤ v.toInt ∧ v.toInt < 2048) :
    Yields always [quad 0x19 a b (v.toNat / 64 % 64) (v.toNat % 64)] fun s => s.set .rd a (s.reg .rd b + v) := by
  have hf := fields_imm12 0x19 (by decide) ha hb v
  have hdisas (pc : BitVec 64) : disasDadao pc (quad 0x19 a b (v.toNat / 64 % 64) (v.toNat % 64)) =
      some (some (transADDIrd (quad 0x19 a b (v.toNat / 64 % 64) (v.toNat % 64)))) := by
    rw [disasDadao, hf.opcode]
    rfl
  have hyields := yields_addi_rd hf (hf.plain (by simp [PlainOpcode])) hdisas hpos
  rwa [signExtend_imm12 hv] at hyields

/-- `addi` of address registers. -/
lemma yields_addiRb {a b : ℕ} (ha : a < 64) (hb : b < 64) (hpos : a ≠ 0) (hpos' : b ≠ 0) {v : BitVec 64}
    (hv : -2048 ≤ v.toInt ∧ v.toInt < 2048) :
    Yields always [quad 0x49 a b (v.toNat / 64 % 64) (v.toNat % 64)] fun s => s.set .rb a (s.reg .rb b + v) := by
  have hf := fields_imm12 0x49 (by decide) ha hb v
  have hdisas (pc : BitVec 64) : disasDadao pc (quad 0x49 a b (v.toNat / 64 % 64) (v.toNat % 64)) =
      some (some (transADDIrb (quad 0x49 a b (v.toNat / 64 % 64) (v.toNat % 64)))) := by
    rw [disasDadao, hf.opcode]
    rfl
  have hyields := yields_addi_rb hf (hf.plain (by simp [PlainOpcode])) hdisas hpos hpos'
  rwa [signExtend_imm12 hv] at hyields

end Dadao.Llvm
