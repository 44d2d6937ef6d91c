import Dadao.Gcc.Statements

set_option relaxedAutoImplicit false
set_option autoImplicit false

/-!
# What the printed instructions do

The statements the machine description is put together from, each with its effect on the state: by the
form of the row first, then by mnemonic.

## Main results

* `Dadao.Gcc.does_rrrr`, `Dadao.Gcc.does_orrr`, … — the forms of statements.
* `Dadao.Gcc.does_setImm` — the pseudo instructions that load a constant.
-/

namespace Dadao.Gcc

open Opcodes Gas Qemu Tcg

/-! ## Forms -/

/-- The operand kind of a file. -/
def fileKind : RegFile → OperandType
  | .rd => .rd
  | .rb => .rb
  | .rf => .rf
  | .ra => .ra

lemma exp_reg (file : RegFile) (n : ℕ) : (Opnd.reg file n).exp = operandExp (fileKind file) n := by
  cases file <;> rfl

lemma operandWidth_fileKind (file : RegFile) : operandWidth (fileKind file) = 6 := by
  cases file <;> rfl

lemma inRange_fileKind (file : RegFile) {n : ℕ} (h : n < 64) : InRange (fileKind file) n := by
  have hsigned : operandSigned (fileKind file) = false := by cases file <;> rfl
  rw [InRange, hsigned, operandWidth_fileKind]
  simp
  omega

lemma fieldOf_fileKind (file : RegFile) {n : ℕ} (h : n < 64) : fieldOf (fileKind file) n = n := by
  rw [fieldOf, operandWidth_fileKind]
  omega

/-- The field of a number of six bits. -/
lemma fieldOf_immu6 {n : ℕ} (h : n < 64) : fieldOf .immu6 n = n := by
  have hwidth : operandWidth .immu6 = 6 := rfl
  rw [fieldOf, hwidth]
  omega

lemma inRange_immu6 {n : ℕ} (h : n < 64) : InRange .immu6 n := by
  simp [InRange, operandSigned, operandWidth]
  omega

/-- Neither a pseudo instruction nor one with a number of registers. -/
def PlainName (name : String) : Prop :=
  (name ≠ "setrd" ∧ name ≠ "setrb") ∧ name.toList.take 3 ≠ "ldm".toList ∧
    name.toList.take 3 ≠ "stm".toList ∧ name.toList[2]? ≠ some '2'

instance (name : String) : Decidable (PlainName name) := inferInstanceAs (Decidable (_ ∧ _))

lemma PlainName.exceeds {name : String} (h : PlainName name) (opnds : List Opnd) :
    (Stmt.mk name opnds).exceeds = false := by
  obtain ⟨-, hldm, hstm, htwo⟩ := h
  have hldm' : (name.toList.take 3 == "ldm".toList) = false := beq_false_of_ne hldm
  have hstm' : (name.toList.take 3 == "stm".toList) = false := beq_false_of_ne hstm
  have htwo' : (name.toList[2]? == some '2') = false := beq_false_of_ne htwo
  rw [Stmt.exceeds, hldm', hstm', htwo']
  simp

section Forms

variable {r : DadaoOpcode} {f₀ f₁ f₂ f₃ : RegFile} {pre : State → Prop} {f : State → State}
variable {a b c d : ℕ} (hr : r ∈ gccRows) (hname : PlainName r.name)

include hr

section Plain

include hname

/-- Four registers. -/
lemma does_rrrr (hkinds : operandKinds r = [fileKind f₀, fileKind f₁, fileKind f₂, fileKind f₃])
    (hop : r.opFa ≠ .op) (ha : a < 64) (hb : b < 64) (hc : c < 64) (hd : d < 64)
    (hy : Yields pre [quad r.majorOpcode.toNat a b c d] f) :
    Does pre [⟨r.name, [.reg f₀ a, .reg f₁ b, .reg f₂ c, .reg f₃ d]⟩] f := by
  refine does_of_row [a, b, c, d] hr hname.1 ?_ ?_ (hname.exceeds _) ?_
  · simp only [operands, hkinds, List.map_cons, List.map_nil, List.zipWith_cons_cons, List.zipWith_nil_left,
      exp_reg]
  · simp only [hkinds, List.forall₂_cons, List.forall₂_nil_left_iff, inRange_fileKind, ha, hb, hc, hd,
      true_and]
  · have hword : encode r [(a : ℤ), b, c, d] =
        r.majorOpcode.toNat * 2 ^ 24 + a * 2 ^ 18 + b * 2 ^ 12 + c * 2 ^ 6 + d := by
      simp only [encode, header, widths, hkinds, if_neg hop, List.map_cons, List.map_nil,
        operandWidth_fileKind, List.zipWith_cons_cons, List.zipWith_nil_left, fieldOf_fileKind, ha, hb, hc,
        hd, Bits.pack, List.sum_cons, List.sum_nil]
      omega
    rwa [hword]

/-- A minor opcode and three registers. -/
lemma does_orrr (hkinds : operandKinds r = [fileKind f₁, fileKind f₂, fileKind f₃]) (hop : r.opFa = .op)
    (hb : b < 64) (hc : c < 64) (hd : d < 64)
    (hy : Yields pre [quad r.majorOpcode.toNat r.minorOpcode.toNat b c d] f) :
    Does pre [⟨r.name, [.reg f₁ b, .reg f₂ c, .reg f₃ d]⟩] f := by
  refine does_of_row [b, c, d] hr hname.1 ?_ ?_ (hname.exceeds _) ?_
  · simp only [operands, hkinds, List.map_cons, List.map_nil, List.zipWith_cons_cons, List.zipWith_nil_left,
      exp_reg]
  · simp only [hkinds, List.forall₂_cons, List.forall₂_nil_left_iff, inRange_fileKind, hb, hc, hd, true_and]
  · have hword : encode r [(b : ℤ), c, d] =
        r.majorOpcode.toNat * 2 ^ 24 + r.minorOpcode.toNat * 2 ^ 18 + b * 2 ^ 12 + c * 2 ^ 6 + d := by
      simp only [encode, header, widths, hkinds, if_pos hop, List.map_cons, List.map_nil,
        operandWidth_fileKind, List.zipWith_cons_cons, List.zipWith_nil_left, fieldOf_fileKind, hb, hc,
        hd, Bits.pack, List.sum_cons, List.sum_nil]
      omega
    rwa [hword]

omit hr hname in
/-- The operands of two registers and a number of twelve bits. -/
lemma operands_rrii {k : OperandType} {v : ℤ} (hk : k = .imms12 ∨ k = .immu12)
    (hkinds : operandKinds r = [fileKind f₀, fileKind f₁, k]) (ha : a < 64) (hb : b < 64) (hv : InRange k v) :
    ([.reg f₀ a, .reg f₁ b, .num v] : List Opnd).map Opnd.exp = operands r [(a : ℤ), b, v] ∧
      List.Forall₂ InRange (operandKinds r) [(a : ℤ), b, v] := by
  have hexp : (Opnd.num v).exp = operandExp k v := by rcases hk with rfl | rfl <;> rfl
  constructor
  · simp only [operands, hkinds, List.map_cons, List.map_nil, List.zipWith_cons_cons, List.zipWith_nil_left,
      exp_reg, hexp]
  · simp only [hkinds, List.forall₂_cons, List.forall₂_nil_left_iff, inRange_fileKind, ha, hb, hv, true_and]

omit hr hname in
/-- Their word. -/
lemma encode_rrii {k : OperandType} {v : ℤ} (hk : k = .imms12 ∨ k = .immu12)
    (hkinds : operandKinds r = [fileKind f₀, fileKind f₁, k]) (hop : r.opFa ≠ .op) (ha : a < 64) (hb : b < 64) :
    encode r [(a : ℤ), b, v] = r.majorOpcode.toNat * 2 ^ 24 + a * 2 ^ 18 + b * 2 ^ 12 +
      fieldOf k v / 64 * 2 ^ 6 + fieldOf k v % 64 := by
  simp only [encode, header, widths, hkinds, if_neg hop, List.map_cons, List.map_nil,
    operandWidth_fileKind, operandWidth_imm12 hk, List.zipWith_cons_cons, List.zipWith_nil_left,
    fieldOf_fileKind, ha, hb, Bits.pack, List.sum_cons, List.sum_nil]
  omega

/-- Two registers and a number of twelve bits. -/
lemma does_rrii {k : OperandType} {v : ℤ} (hk : k = .imms12 ∨ k = .immu12)
    (hkinds : operandKinds r = [fileKind f₀, fileKind f₁, k]) (hop : r.opFa ≠ .op)
    (ha : a < 64) (hb : b < 64) (hv : InRange k v)
    (hy : Yields pre [quad r.majorOpcode.toNat a b (fieldOf k v / 64) (fieldOf k v % 64)] f) :
    Does pre [⟨r.name, [.reg f₀ a, .reg f₁ b, .num v]⟩] f := by
  obtain ⟨hopnds, hrange⟩ := operands_rrii hk hkinds ha hb hv
  refine does_of_row [a, b, v] hr hname.1 hopnds hrange (hname.exceeds _) ?_
  rwa [encode_rrii hk hkinds hop ha hb]

/-- A register and a number of eighteen bits. -/
lemma assemble_riii {v : ℤ} (hkinds : operandKinds r = [fileKind f₀, .imms18]) (hop : r.opFa ≠ .op)
    (ha : a < 64) (hv : InRange .imms18 v) (g : ℕ → ExpressionS) :
    assemble g [⟨r.name, [.reg f₀ a, .num v]⟩] = some [quad r.majorOpcode.toNat a
      (fieldOf .imms18 v / 4096) (fieldOf .imms18 v / 64 % 64) (fieldOf .imms18 v % 64)] := by
  have hexp : (Opnd.num v).exp = operandExp .imms18 v := rfl
  have hwidth : operandWidth .imms18 = 18 := rfl
  have hword : encode r [(a : ℤ), v] = r.majorOpcode.toNat * 2 ^ 24 + a * 2 ^ 18 +
      fieldOf .imms18 v / 4096 * 2 ^ 12 + fieldOf .imms18 v / 64 % 64 * 2 ^ 6 +
        fieldOf .imms18 v % 64 := by
    simp only [encode, header, widths, hkinds, if_neg hop, List.map_cons, List.map_nil,
      operandWidth_fileKind, hwidth, List.zipWith_cons_cons, List.zipWith_nil_left, fieldOf_fileKind, ha,
      Bits.pack, List.sum_cons, List.sum_nil]
    omega
  rw [quad, ← hword]
  refine assemble_of_row [a, v] hr hname.1 ?_ ?_ (hname.exceeds _) g
  · simp only [operands, hkinds, List.map_cons, List.map_nil, List.zipWith_cons_cons, List.zipWith_nil_left,
      exp_reg, hexp]
  · simp only [hkinds, List.forall₂_cons, List.forall₂_nil_left_iff, inRange_fileKind, ha, hv, true_and]

end Plain

/-- Two registers and a number of six bits. -/
lemma does_orri (hset : r.name ≠ "setrd" ∧ r.name ≠ "setrb")
    (hexceeds : (Stmt.mk r.name [.reg f₁ b, .reg f₂ c, .num d]).exceeds = false)
    (hkinds : operandKinds r = [fileKind f₁, fileKind f₂, .immu6]) (hop : r.opFa = .op)
    (hb : b < 64) (hc : c < 64) (hd : d < 64)
    (hy : Yields pre [quad r.majorOpcode.toNat r.minorOpcode.toNat b c d] f) :
    Does pre [⟨r.name, [.reg f₁ b, .reg f₂ c, .num d]⟩] f := by
  have hexp : (Opnd.num d).exp = operandExp .immu6 d := rfl
  have hwidth : operandWidth .immu6 = 6 := rfl
  have hrange := inRange_immu6 hd
  refine does_of_row [b, c, d] hr hset ?_ ?_ hexceeds ?_
  · simp only [operands, hkinds, List.map_cons, List.map_nil, List.zipWith_cons_cons, List.zipWith_nil_left,
      exp_reg, hexp]
  · simp only [hkinds, List.forall₂_cons, List.forall₂_nil_left_iff, inRange_fileKind, hb, hc, hrange,
      true_and]
  · have hword : encode r [(b : ℤ), c, d] =
        r.majorOpcode.toNat * 2 ^ 24 + r.minorOpcode.toNat * 2 ^ 18 + b * 2 ^ 12 + c * 2 ^ 6 + d := by
      simp only [encode, header, widths, hkinds, if_pos hop, List.map_cons, List.map_nil, hwidth,
        operandWidth_fileKind, List.zipWith_cons_cons, List.zipWith_nil_left, fieldOf_fileKind, hb, hc,
        fieldOf_immu6, hd, Bits.pack, List.sum_cons, List.sum_nil]
      omega
    rwa [hword]

/-- Three registers and a number of six bits. -/
lemma does_rrri (hset : r.name ≠ "setrd" ∧ r.name ≠ "setrb")
    (hexceeds : (Stmt.mk r.name [.reg f₀ a, .reg f₁ b, .reg f₂ c, .num d]).exceeds = false)
    (hkinds : operandKinds r = [fileKind f₀, fileKind f₁, fileKind f₂, .immu6]) (hop : r.opFa ≠ .op)
    (ha : a < 64) (hb : b < 64) (hc : c < 64) (hd : d < 64)
    (hy : Yields pre [quad r.majorOpcode.toNat a b c d] f) :
    Does pre [⟨r.name, [.reg f₀ a, .reg f₁ b, .reg f₂ c, .num d]⟩] f := by
  have hexp : (Opnd.num d).exp = operandExp .immu6 d := rfl
  have hwidth : operandWidth .immu6 = 6 := rfl
  have hrange := inRange_immu6 hd
  refine does_of_row [a, b, c, d] hr hset ?_ ?_ hexceeds ?_
  · simp only [operands, hkinds, List.map_cons, List.map_nil, List.zipWith_cons_cons, List.zipWith_nil_left,
      exp_reg, hexp]
  · simp only [hkinds, List.forall₂_cons, List.forall₂_nil_left_iff, inRange_fileKind, ha, hb, hc, hrange,
      true_and]
  · have hword : encode r [(a : ℤ), b, c, d] =
        r.majorOpcode.toNat * 2 ^ 24 + a * 2 ^ 18 + b * 2 ^ 12 + c * 2 ^ 6 + d := by
      simp only [encode, header, widths, hkinds, if_neg hop, List.map_cons, List.map_nil, hwidth,
        operandWidth_fileKind, List.zipWith_cons_cons, List.zipWith_nil_left, fieldOf_fileKind, ha, hb, hc,
        fieldOf_immu6, hd, Bits.pack, List.sum_cons, List.sum_nil]
      omega
    rwa [hword]

end Forms

/-! ## Arithmetic and logic -/

/-- The amount that `addi` adds. -/
lemma signExtend_imms12 {v : ℤ} (h : InRange .imms12 v) :
    (BitVec.ofNat 12 (fieldOf .imms12 v / 64 * 2 ^ 6 + fieldOf .imms12 v % 64)).signExtend 64 =
      BitVec.ofInt 64 v := by
  simp only [InRange, operandSigned, operandWidth, if_true] at h
  have hfield : ((fieldOf .imms12 v / 64 * 2 ^ 6 + fieldOf .imms12 v % 64 : ℕ) : ℤ) = v % 4096 := by
    simp only [fieldOf, operandWidth]
    omega
  apply BitVec.eq_of_toInt_eq
  rw [BitVec.toInt_signExtend_of_le (by omega), BitVec.toInt_ofNat', hfield, BitVec.toInt_ofInt,
    Int.bmod_def, Int.bmod_def]
  omega

/-- The number an unsigned comparison compares with. -/
lemma ofNat_immu12 {v : ℤ} (h : InRange .immu12 v) :
    BitVec.ofNat 64 (fieldOf .immu12 v / 64 * 2 ^ 6 + fieldOf .immu12 v % 64) = BitVec.ofInt 64 v := by
  have hrange : 0 ≤ v ∧ v < 4096 := h
  have hfield : ((fieldOf .immu12 v / 64 * 2 ^ 6 + fieldOf .immu12 v % 64 : ℕ) : ℤ) = v := by
    simp only [fieldOf, operandWidth]
    omega
  rw [← BitVec.ofInt_natCast, hfield]

/-- The fields of a word with a number of twelve bits. -/
lemma fields_rrii (op : ℕ) {a b : ℕ} {k : OperandType} (hk : k = .imms12 ∨ k = .immu12) (v : ℤ) (hop : op < 2 ^ 8)
    (ha : a < 2 ^ 6) (hb : b < 2 ^ 6) :
    Fields (quad op a b (fieldOf k v / 64) (fieldOf k v % 64)) op a b (fieldOf k v / 64)
      (fieldOf k v % 64) := by
  have hlt := fieldOf_lt k v
  rw [operandWidth_imm12 hk] at hlt
  exact fields_quad op hop ha hb (by omega) (by omega)

/-- The translation of a word with opcode byte `0x10`. -/
lemma disas_minor10 {w : BitVec 32} (pc : BitVec 64) (h : (w >>> 24).toNat = 16) :
    disasDadao pc w = disasMinor10 pc w := by
  simp only [disasDadao, h]

section Insns

variable {a b c d : ℕ}

/-- `add` of `rd` registers, without the upper half. -/
lemma does_add (ha : a ≠ 0) (ha' : a < 64) (hb : b < 64) (hc : c < 64) :
    Does always [⟨"add", [rd 0, rd a, rd b, rd c]⟩]
      fun s => s.set .rd a (s.reg .rd b + s.reg .rd c) := by
  refine does_rrrr (r := ⟨"add", 4, 26, 0, .rd, .rd, .rd, .rd, .normal⟩) (by simp [gccRows]) (by decide) rfl
    (by simp) (by omega) ha' hb hc ?_
  have hf := fields_quad 26 (a := 0) (by omega) (by omega) ha' hb hc
  exact yields_rrrr hf (hf.plain (by simp [PlainOpcode])) (fun pc => by rw [disasDadao, hf.opcode]; rfl) ha

/-- `sub` of `rd` registers, without the upper half. -/
lemma does_sub (ha : a ≠ 0) (ha' : a < 64) (hb : b < 64) (hc : c < 64) :
    Does always [⟨"sub", [rd 0, rd a, rd b, rd c]⟩]
      fun s => s.set .rd a (s.reg .rd b - s.reg .rd c) := by
  refine does_rrrr (r := ⟨"sub", 4, 27, 0, .rd, .rd, .rd, .rd, .normal⟩) (by simp [gccRows]) (by decide) rfl
    (by simp) (by omega) ha' hb hc ?_
  have hf := fields_quad 27 (a := 0) (by omega) (by omega) ha' hb hc
  exact yields_rrrr hf (hf.plain (by simp [PlainOpcode])) (fun pc => by rw [disasDadao, hf.opcode]; rfl) ha

/-- The lower half of a product. -/
lemma setWidth_mulu (x y : BitVec 64) :
    (WideOp.mulu2.eval 0 x 0 y).setWidth 64 = x * y := by
  have hwide : WideOp.mulu2.eval 0 x 0 y = x.setWidth 128 * y.setWidth 128 := rfl
  apply BitVec.eq_of_toNat_eq
  rw [hwide, BitVec.toNat_setWidth, BitVec.toNat_mul, BitVec.toNat_setWidth, BitVec.toNat_setWidth,
    BitVec.toNat_mul, Nat.mod_eq_of_lt (by omega : x.toNat < 2 ^ 128),
    Nat.mod_eq_of_lt (by omega : y.toNat < 2 ^ 128), Nat.mod_mod_of_dvd _ (by decide)]

/-- `mulu`, upper half first. -/
lemma does_mulu (ha : a ≠ 0) (ha' : a < 64) (hb : b ≠ 0) (hb' : b < 64) (hc : c < 64) (hd : d < 64) :
    Does always [⟨"mulu", [rd a, rd b, rd c, rd d]⟩] fun s => (s.set .rd a
      ((WideOp.mulu2.eval 0 (s.reg .rd c) 0 (s.reg .rd d) >>> 64).setWidth 64)).set .rd b
        (s.reg .rd c * s.reg .rd d) := by
  refine does_rrrr (r := ⟨"mulu", 4, 29, 0, .rd, .rd, .rd, .rd, .normal⟩) (by simp [gccRows]) (by decide) rfl
    (by simp) ha' hb' hc hd ?_
  have hf := fields_quad 29 (by omega) ha' hb' hc hd
  have hy := yields_mul hf (hf.plain (by simp [PlainOpcode])) .mulu2
    (fun pc => by rw [disasDadao, hf.opcode]; rfl) ha hb
  simp only [setWidth_mulu] at hy
  exact hy

/-- `divs`, remainder first. -/
lemma does_divs (ha : a ≠ 0) (ha' : a < 64) (hb : b ≠ 0) (hb' : b < 64) (hc : c < 64) (hd : d < 64) :
    Does (fun s => s.reg .rd d ≠ 0) [⟨"divs", [rd a, rd b, rd c, rd d]⟩] fun s =>
      (s.set .rd a ((s.reg .rd c).srem (s.reg .rd d))).set .rd b ((s.reg .rd c).sdiv (s.reg .rd d)) := by
  refine does_rrrr (r := ⟨"divs", 4, 30, 0, .rd, .rd, .rd, .rd, .normal⟩) (by simp [gccRows]) (by decide) rfl
    (by simp) ha' hb' hc hd ?_
  have hf := fields_quad 30 (by omega) ha' hb' hc hd
  exact yields_div hf (hf.plain (by simp [PlainOpcode])) (fun pc => by rw [disasDadao, hf.opcode]; rfl) ha hb

/-- `divu`, remainder first. -/
lemma does_divu (ha : a ≠ 0) (ha' : a < 64) (hb : b ≠ 0) (hb' : b < 64) (hc : c < 64) (hd : d < 64) :
    Does (fun s => s.reg .rd d ≠ 0) [⟨"divu", [rd a, rd b, rd c, rd d]⟩] fun s =>
      (s.set .rd a ((s.reg .rd c).umod (s.reg .rd d))).set .rd b ((s.reg .rd c).udiv (s.reg .rd d)) := by
  refine does_rrrr (r := ⟨"divu", 4, 31, 0, .rd, .rd, .rd, .rd, .normal⟩) (by simp [gccRows]) (by decide) rfl
    (by simp) ha' hb' hc hd ?_
  have hf := fields_quad 31 (by omega) ha' hb' hc hd
  exact yields_div hf (hf.plain (by simp [PlainOpcode])) (fun pc => by rw [disasDadao, hf.opcode]; rfl) ha hb

/-- `addi` of an `rd` register. -/
lemma does_addi_rd {v : ℤ} (ha : a ≠ 0) (ha' : a < 64) (hb : b < 64) (hv : InRange .imms12 v) :
    Does always [⟨"addi", [rd a, rd b, .num v]⟩]
      fun s => s.set .rd a (s.reg .rd b + BitVec.ofInt 64 v) := by
  refine does_rrii (r := ⟨"addi", 3, 25, 0, .rd, .rd, .imms12, .none, .normal⟩) (by simp [gccRows])
    (by decide) (.inl rfl) rfl (by simp) ha' hb hv ?_
  have hf := fields_rrii 25 (.inl rfl) v (by omega) ha' hb
  have hy := yields_addi_rd hf (hf.plain (by simp [PlainOpcode]))
    (fun pc => by rw [disasDadao, hf.opcode]; rfl) ha
  simp only [signExtend_imms12 hv] at hy
  exact hy

/-- `addi` of an `rb` register. -/
lemma does_addi_rb {v : ℤ} (ha : a ≠ 0) (ha' : a < 64) (hb : b ≠ 0) (hb' : b < 64)
    (hv : InRange .imms12 v) : Does always [⟨"addi", [rb a, rb b, .num v]⟩]
      fun s => s.set .rb a (s.reg .rb b + BitVec.ofInt 64 v) := by
  refine does_rrii (r := ⟨"addi", 3, 73, 0, .rb, .rb, .imms12, .none, .normal⟩) (by simp [gccRows])
    (by decide) (.inl rfl) rfl (by simp) ha' hb' hv ?_
  have hf := fields_rrii 73 (.inl rfl) v (by omega) ha' hb'
  have hy := yields_addi_rb hf (hf.plain (by simp [PlainOpcode]))
    (fun pc => by rw [disasDadao, hf.opcode]; rfl) ha hb
  simp only [signExtend_imms12 hv] at hy
  exact hy

/-- `add` of a displacement to an `rb` register. -/
lemma does_add_rb (ha : a ≠ 0) (ha' : a < 64) (hb : b ≠ 0) (hb' : b < 64) (hc : c < 64) :
    Does always [⟨"add", [rb a, rb b, rd c]⟩] fun s => s.set .rb a (s.reg .rb b + s.reg .rd c) := by
  refine does_orrr (r := ⟨"add", 3, 16, 46, .op, .rb, .rb, .rd, .normal⟩) (by simp [gccRows]) (by decide) rfl
    rfl ha' hb' hc ?_
  have hf := fields_quad 16 (a := 46) (by omega) (by omega) ha' hb' hc
  exact yields_orrr_rb hf (hf.plain_minor10 (by simp))
    (fun pc => by rw [disas_minor10 pc hf.opcode, disasMinor10, hf.ha]; rfl) ha hb

/-- `sub` of a displacement from an `rb` register. -/
lemma does_sub_rb (ha : a ≠ 0) (ha' : a < 64) (hb : b ≠ 0) (hb' : b < 64) (hc : c < 64) :
    Does always [⟨"sub", [rb a, rb b, rd c]⟩] fun s => s.set .rb a (s.reg .rb b - s.reg .rd c) := by
  refine does_orrr (r := ⟨"sub", 3, 16, 47, .op, .rb, .rb, .rd, .normal⟩) (by simp [gccRows]) (by decide) rfl
    rfl ha' hb' hc ?_
  have hf := fields_quad 16 (a := 47) (by omega) (by omega) ha' hb' hc
  exact yields_orrr_rb hf (hf.plain_minor10 (by simp))
    (fun pc => by rw [disas_minor10 pc hf.opcode, disasMinor10, hf.ha]; rfl) ha hb

/-- The translation of `cmps` with a number. -/
lemma disas_cmpsNum {w : BitVec 32} {pc : BitVec 64} (h : (w >>> 24).toNat = 18) :
    disasDadao pc w = some (some (insnCmpRrii (fieldImms 12 w) .gt w)) := by
  rw [disasDadao, h]
  rfl

/-- The translation of `cmpu` with a number. -/
lemma disas_cmpuNum {w : BitVec 32} {pc : BitVec 64} (h : (w >>> 24).toNat = 19) :
    disasDadao pc w = some (some (insnCmpRrii (fieldImmu 12 w) .gtu w)) := by
  rw [disasDadao, h]
  rfl

/-- `cmps` of a register and a number. -/
lemma does_cmps_num {v : ℤ} (ha : a ≠ 0) (ha' : a < 64) (hb : b < 64) (hv : InRange .imms12 v) :
    Does always [⟨"cmps", [rd a, rd b, .num v]⟩] fun s => s.set .rd a
      (if (s.reg .rd b).slt (BitVec.ofInt 64 v) then -1
        else if (BitVec.ofInt 64 v).slt (s.reg .rd b) then 1 else 0) := by
  refine does_rrii (r := ⟨"cmps", 3, 18, 0, .rd, .rd, .imms12, .none, .normal⟩) (by simp [gccRows])
    (by decide) (.inl rfl) rfl (by simp) ha' hb hv ?_
  have hf := fields_rrii 18 (.inl rfl) v (by omega) ha' hb
  have hy := yields_cmp_rrii hf (hf.plain (by simp [PlainOpcode])) (fun _ => disas_cmpsNum hf.opcode) ha
  simp only [hf.imms12, signExtend_imms12 hv] at hy
  exact hy

/-- `cmpu` of a register and a number. -/
lemma does_cmpu_num {v : ℤ} (ha : a ≠ 0) (ha' : a < 64) (hb : b < 64) (hv : InRange .immu12 v) :
    Does always [⟨"cmpu", [rd a, rd b, .num v]⟩] fun s => s.set .rd a
      (if (s.reg .rd b).ult (BitVec.ofInt 64 v) then -1
        else if (BitVec.ofInt 64 v).ult (s.reg .rd b) then 1 else 0) := by
  refine does_rrii (r := ⟨"cmpu", 3, 19, 0, .rd, .rd, .immu12, .none, .normal⟩) (by simp [gccRows])
    (by decide) (.inr rfl) rfl (by simp) ha' hb hv ?_
  have hf := fields_rrii 19 (.inr rfl) v (by omega) ha' hb
  have hy := yields_cmp_rrii hf (hf.plain (by simp [PlainOpcode])) (fun _ => disas_cmpuNum hf.opcode) ha
  simp only [hf.immu12, ofNat_immu12 hv] at hy
  exact hy

/-- The rows of three `rd` registers. -/
lemma does_logic {r : DadaoOpcode} {k : BinOp} (hr : r ∈ gccRows) (hname : PlainName r.name)
    (hrow : operandKinds r = [.rd, .rd, .rd] ∧ r.opFa = .op ∧ r.majorOpcode.toNat = 16)
    (hminor : r.minorOpcode.toNat ∉ [0x28, 0x29, 0x2a, 0x2b, 0x31, 0x32, 0x33, 0x39, 0x3a])
    (hminor' : r.minorOpcode.toNat < 64)
    (hdisas : ∀ pc w, fieldHa w = r.minorOpcode.toNat → disasMinor10 pc w = some (some (insnLogicOrrr k w)))
    (ha : a ≠ 0) (ha' : a < 64) (hb : b < 64) (hc : c < 64) :
    Does always [⟨r.name, [rd a, rd b, rd c]⟩]
      fun s => s.set .rd a (k.eval (s.reg .rd b) (s.reg .rd c)) := by
  obtain ⟨hkinds, hop, hmajor⟩ := hrow
  refine does_orrr hr hname (show operandKinds r = [fileKind .rd, fileKind .rd, fileKind .rd] from hkinds) hop
    ha' hb hc ?_
  rw [hmajor]
  have hf := fields_quad 16 (by omega) hminor' ha' hb hc
  exact yields_orrr hf (hf.plain_minor10 hminor)
    (fun pc => (disas_minor10 pc hf.opcode).trans (hdisas pc _ hf.ha)) ha

/-- The rows of two `rd` registers and a shift amount. -/
lemma does_shift_num {r : DadaoOpcode} {k : BinOp} (hr : r ∈ gccRows) (hname : PlainName r.name)
    (hrow : operandKinds r = [.rd, .rd, .immu6] ∧ r.opFa = .op ∧ r.majorOpcode.toNat = 16)
    (hminor : r.minorOpcode.toNat ∉ [0x28, 0x29, 0x2a, 0x2b, 0x31, 0x32, 0x33, 0x39, 0x3a])
    (hminor' : r.minorOpcode.toNat < 64)
    (hdisas : ∀ pc w, fieldHa w = r.minorOpcode.toNat → disasMinor10 pc w = some (some (insnLogicOrri k w)))
    (ha : a ≠ 0) (ha' : a < 64) (hb : b < 64) (hc : c < 64) :
    Does always [⟨r.name, [rd a, rd b, .num c]⟩]
      fun s => s.set .rd a (k.eval (s.reg .rd b) (BitVec.ofNat 64 c)) := by
  obtain ⟨hkinds, hop, hmajor⟩ := hrow
  refine does_orri hr hname.1 (hname.exceeds _)
    (show operandKinds r = [fileKind .rd, fileKind .rd, .immu6] from hkinds) hop ha' hb hc ?_
  rw [hmajor]
  have hf := fields_quad 16 (by omega) hminor' ha' hb hc
  exact yields_orri hf (hf.plain_minor10 hminor)
    (fun pc => (disas_minor10 pc hf.opcode).trans (hdisas pc _ hf.ha)) ha

/-- `cmps` of two registers. -/
lemma does_cmps (ha : a ≠ 0) (ha' : a < 64) (hb : b < 64) (hc : c < 64) :
    Does always [⟨"cmps", [rd a, rd b, rd c]⟩] fun s => s.set .rd a
      (if (s.reg .rd b).slt (s.reg .rd c) then -1
        else if (s.reg .rd c).slt (s.reg .rd b) then 1 else 0) := by
  refine does_orrr (r := ⟨"cmps", 3, 16, 36, .op, .rd, .rd, .rd, .normal⟩) (by simp [gccRows]) (by decide) rfl
    rfl ha' hb hc ?_
  have hf := fields_quad 16 (a := 36) (by omega) (by omega) ha' hb hc
  exact yields_cmp_orrr (k := .gt) hf (hf.plain_minor10 (by simp))
    (fun pc => by rw [disas_minor10 pc hf.opcode, disasMinor10, hf.ha]; rfl) ha

/-- `cmpu` of two registers. -/
lemma does_cmpu (ha : a ≠ 0) (ha' : a < 64) (hb : b < 64) (hc : c < 64) :
    Does always [⟨"cmpu", [rd a, rd b, rd c]⟩] fun s => s.set .rd a
      (if (s.reg .rd b).ult (s.reg .rd c) then -1
        else if (s.reg .rd c).ult (s.reg .rd b) then 1 else 0) := by
  refine does_orrr (r := ⟨"cmpu", 3, 16, 37, .op, .rd, .rd, .rd, .normal⟩) (by simp [gccRows]) (by decide) rfl
    rfl ha' hb hc ?_
  have hf := fields_quad 16 (a := 37) (by omega) (by omega) ha' hb hc
  exact yields_cmp_orrr (k := .gtu) hf (hf.plain_minor10 (by simp))
    (fun pc => by rw [disas_minor10 pc hf.opcode, disasMinor10, hf.ha]; rfl) ha

/-- `xnor`. -/
lemma does_xnor (ha : a ≠ 0) (ha' : a < 64) (hb : b < 64) (hc : c < 64) :
    Does always [⟨"xnor", [rd a, rd b, rd c]⟩]
      fun s => s.set .rd a (~~~(s.reg .rd b ^^^ s.reg .rd c)) := by
  refine does_orrr (r := ⟨"xnor", 3, 16, 11, .op, .rd, .rd, .rd, .normal⟩) (by simp [gccRows]) (by decide) rfl
    rfl ha' hb hc ?_
  have hf := fields_quad 16 (a := 11) (by omega) (by omega) ha' hb hc
  have hy := yields_xnor hf (hf.plain_minor10 (by simp))
    (fun pc => by rw [disas_minor10 pc hf.opcode, disasMinor10, hf.ha]; rfl) ha
  exact hy

/-! ## Moves and memory -/

/-- The moves of one register. -/
lemma does_move {r : DadaoOpcode} {src dest : RegFile} (hr : r ∈ gccRows)
    (hset : r.name ≠ "setrd" ∧ r.name ≠ "setrb")
    (hmulti : r.name.toList.take 3 ≠ "ldm".toList ∧ r.name.toList.take 3 ≠ "stm".toList)
    (hrow : operandKinds r = [fileKind dest, fileKind src, .immu6] ∧ r.opFa = .op ∧
      r.majorOpcode.toNat = 16 ∧ r.minorOpcode.toNat < 64)
    (hdisas : ∀ w : BitVec 32, (w >>> 24).toNat = 16 → fieldHa w = r.minorOpcode.toNat →
      multiOf w = some (.r2r src dest))
    (hread : ∀ m, Settled m → m.env.globals (.reg src b) = (view m).reg src b)
    (ha : a ≠ 0) (ha' : a < 64) (hb : b < 64) :
    Does always [⟨r.name, [.reg dest a, .reg src b, .num 1]⟩]
      fun s => s.set dest a (s.reg src b) := by
  obtain ⟨hkinds, hop, hmajor, hminor⟩ := hrow
  have hexceeds : (Stmt.mk r.name [.reg dest a, .reg src b, .num (1 : ℕ)]).exceeds = false := by
    have hldm : (r.name.toList.take 3 == "ldm".toList) = false := beq_false_of_ne hmulti.1
    have hstm : (r.name.toList.take 3 == "stm".toList) = false := beq_false_of_ne hmulti.2
    rw [Stmt.exceeds, hldm, hstm]
    simp [Stmt.exp, Opnd.exp]
    intro
    omega
  refine does_orri (d := 1) hr hset hexceeds hkinds hop ha' hb (by omega) ?_
  rw [hmajor]
  have hf := fields_quad 16 (d := 1) (by omega) hminor ha' hb (by omega)
  exact yields_r2r hf (hdisas _ hf.opcode hf.ha) ha ha' hb hread

/-- A load of eight bytes into `rd` at a displacement. -/
lemma does_ldo_rd {v : ℤ} (ha : a ≠ 0) (ha' : a < 64) (hb : b ≠ 0) (hb' : b < 64)
    (hv : InRange .imms12 v) : Does always [⟨"ldo", [rd a, rb b, .num v]⟩]
      fun s => s.set .rd a (s.mem.load (s.reg .rb b + BitVec.ofInt 64 v) 8) := by
  refine does_rrii (r := ⟨"ldo", 3, 51, 0, .rd, .rb, .imms12, .none, .dref⟩) (by simp [gccRows])
    (by decide) (.inl rfl) rfl (by simp) ha' hb' hv ?_
  have hf := fields_rrii 51 (.inl rfl) v (by omega) ha' hb'
  have hy := yields_ld hf (hf.plain (by simp [PlainOpcode])) (fun _ => rfl)
    (fun pc => by rw [disasDadao, hf.opcode]; rfl) ha hb
  simp only [signExtend_imms12 hv] at hy
  exact hy

/-- A load of eight bytes into `rb` at a displacement. -/
lemma does_ldo_rb {v : ℤ} (ha : a ≠ 0) (ha' : a < 64) (hb : b ≠ 0) (hb' : b < 64)
    (hv : InRange .imms12 v) : Does always [⟨"ldo", [rb a, rb b, .num v]⟩]
      fun s => s.set .rb a (s.mem.load (s.reg .rb b + BitVec.ofInt 64 v) 8) := by
  refine does_rrii (r := ⟨"ldo", 3, 67, 0, .rb, .rb, .imms12, .none, .dref⟩) (by simp [gccRows])
    (by decide) (.inl rfl) rfl (by simp) ha' hb' hv ?_
  have hf := fields_rrii 67 (.inl rfl) v (by omega) ha' hb'
  have hy := yields_ld hf (hf.plain (by simp [PlainOpcode])) (fun _ => rfl)
    (fun pc => by rw [disasDadao, hf.opcode]; rfl) ha hb
  simp only [signExtend_imms12 hv] at hy
  exact hy

/-- A load of four bytes, extended with zeros, into `rd` at a displacement. -/
lemma does_ldtu {v : ℤ} (ha : a ≠ 0) (ha' : a < 64) (hb : b ≠ 0) (hb' : b < 64)
    (hv : InRange .imms12 v) : Does always [⟨"ldtu", [rd a, rb b, .num v]⟩]
      fun s => s.set .rd a (s.mem.load (s.reg .rb b + BitVec.ofInt 64 v) 4) := by
  refine does_rrii (r := ⟨"ldtu", 3, 66, 0, .rd, .rb, .imms12, .none, .dref⟩) (by simp [gccRows])
    (by decide) (.inl rfl) rfl (by simp) ha' hb' hv ?_
  have hf := fields_rrii 66 (.inl rfl) v (by omega) ha' hb'
  have hy := yields_ld hf (hf.plain (by simp [PlainOpcode])) (fun _ => rfl)
    (fun pc => by rw [disasDadao, hf.opcode]; rfl) ha hb
  simp only [signExtend_imms12 hv] at hy
  exact hy

/-- A store of eight bytes from `rb` at a displacement. -/
lemma does_sto_rb {v : ℤ} (ha : a ≠ 0) (ha' : a < 64) (hb : b ≠ 0) (hb' : b < 64)
    (hv : InRange .imms12 v) : Does always [⟨"sto", [rb a, rb b, .num v]⟩] fun s =>
      { s with mem := s.mem.store (s.reg .rb b + BitVec.ofInt 64 v) 8 (s.reg .rb a) } := by
  refine does_rrii (r := ⟨"sto", 3, 75, 0, .rb, .rb, .imms12, .none, .dref⟩) (by simp [gccRows])
    (by decide) (.inl rfl) rfl (by simp) ha' hb' hv ?_
  have hf := fields_rrii 75 (.inl rfl) v (by omega) ha' hb'
  have hy := yields_st .rb .rb moTeuq hf (hf.plain (by simp [PlainOpcode]))
    (fun m _ => read_rb m ha) (fun pc => by rw [disasDadao, hf.opcode]; rfl) hb
  simp only [signExtend_imms12 hv] at hy
  exact hy

/-- A store of four bytes from `rd` at a displacement. -/
lemma does_stt {v : ℤ} (ha' : a < 64) (hb : b ≠ 0) (hb' : b < 64)
    (hv : InRange .imms12 v) : Does always [⟨"stt", [rd a, rb b, .num v]⟩] fun s =>
      { s with mem := s.mem.store (s.reg .rb b + BitVec.ofInt 64 v) 4 (s.reg .rd a) } := by
  refine does_rrii (r := ⟨"stt", 3, 58, 0, .rd, .rb, .imms12, .none, .dref⟩) (by simp [gccRows])
    (by decide) (.inl rfl) rfl (by simp) ha' hb' hv ?_
  have hf := fields_rrii 58 (.inl rfl) v (by omega) ha' hb'
  have hy := yields_st .rd .rd ⟨4, false⟩ hf (hf.plain (by simp [PlainOpcode]))
    (fun m hm => hm.read_rd a) (fun pc => by rw [disasDadao, hf.opcode]; rfl) hb
  simp only [signExtend_imms12 hv] at hy
  exact hy

/-- The number of registers of a transfer of one. -/
lemma exceeds_one {name : String} (htwo : name.toList[2]? ≠ some '2') (f₀ f₁ f₂ : RegFile) (a b c : ℕ) :
    (Stmt.mk name [.reg f₀ a, .reg f₁ b, .reg f₂ c, .num (1 : ℕ)]).exceeds = false := by
  have htwo' : (name.toList[2]? == some '2') = false := beq_false_of_ne htwo
  rw [Stmt.exceeds, htwo']
  simp [Stmt.exp, Opnd.exp]
  intro
  omega

/-- A load of eight bytes into `rd` at an index. -/
lemma does_ldmo_rd (ha : a ≠ 0) (ha' : a < 64) (hb : b ≠ 0) (hb' : b < 64) (hc : c < 64) :
    Does always [⟨"ldmo", [rd a, rb b, rd c, .num 1]⟩]
      fun s => s.set .rd a (s.mem.load (s.reg .rb b + s.reg .rd c) 8) := by
  refine does_rrri (d := 1) (r := ⟨"ldmo", 4, 55, 0, .rd, .rb, .rd, .immu6, .dref⟩) (by simp [gccRows])
    (by decide) (exceeds_one (by decide) ..) rfl (by simp) ha' hb' hc (by omega) ?_
  have hf := fields_quad 55 (d := 1) (by omega) ha' hb' hc (by omega)
  have hmulti : multiOf (quad 55 a b c 1) = some (.ldm .rd moTeuq) := by
    rw [multiOf, hf.opcode]
    rfl
  exact yields_ldm hf hmulti ha ha' hb

/-- A load of eight bytes into `rb` at an index. -/
lemma does_ldmo_rb (ha : a ≠ 0) (ha' : a < 64) (hb : b ≠ 0) (hb' : b < 64) (hc : c < 64) :
    Does always [⟨"ldmo", [rb a, rb b, rd c, .num 1]⟩]
      fun s => s.set .rb a (s.mem.load (s.reg .rb b + s.reg .rd c) 8) := by
  refine does_rrri (d := 1) (r := ⟨"ldmo", 4, 71, 0, .rb, .rb, .rd, .immu6, .dref⟩) (by simp [gccRows])
    (by decide) (exceeds_one (by decide) ..) rfl (by simp) ha' hb' hc (by omega) ?_
  have hf := fields_quad 71 (d := 1) (by omega) ha' hb' hc (by omega)
  have hmulti : multiOf (quad 71 a b c 1) = some (.ldm .rb moTeuq) := by
    rw [multiOf, hf.opcode]
    rfl
  exact yields_ldm hf hmulti ha ha' hb

/-- A store of eight bytes from `rb` at an index. -/
lemma does_stmo_rb (ha : a ≠ 0) (ha' : a < 64) (hb : b ≠ 0) (hb' : b < 64) (hc : c < 64) :
    Does always [⟨"stmo", [rb a, rb b, rd c, .num 1]⟩] fun s =>
      { s with mem := s.mem.store (s.reg .rb b + s.reg .rd c) 8 (s.reg .rb a) } := by
  refine does_rrri (d := 1) (r := ⟨"stmo", 4, 79, 0, .rb, .rb, .rd, .immu6, .dref⟩) (by simp [gccRows])
    (by decide) (exceeds_one (by decide) ..) rfl (by simp) ha' hb' hc (by omega) ?_
  have hf := fields_quad 79 (d := 1) (by omega) ha' hb' hc (by omega)
  have hmulti : multiOf (quad 79 a b c 1) = some (.stm .rb moTeuq) := by
    rw [multiOf, hf.opcode]
    rfl
  exact yields_stm hf hmulti ha ha' hb

/-- The translation of a word with opcode byte `0x10` that moves registers. -/
lemma multiOf_minor10 {w : BitVec 32} (h : (w >>> 24).toNat = 16) : multiOf w = multiMinor10 w := by
  simp only [multiOf, h]

/-- `rd2rd` of one register. -/
lemma does_rd2rd (ha : a ≠ 0) (ha' : a < 64) (hb : b < 64) :
    Does always [⟨"rd2rd", [rd a, rd b, .num 1]⟩] fun s => s.set .rd a (s.reg .rd b) :=
  does_move (r := ⟨"rd2rd", 3, 16, 40, .op, .rd, .rd, .immu6, .normal⟩) (by simp [gccRows]) (by decide)
    (by decide) (by decide) (fun w h h' => by rw [multiOf_minor10 h, multiMinor10, h']; rfl)
    (fun _ hm => hm.read_rd b) ha ha' hb

/-- `rd2rb` of one register. -/
lemma does_rd2rb (ha : a ≠ 0) (ha' : a < 64) (hb : b < 64) :
    Does always [⟨"rd2rb", [rb a, rd b, .num 1]⟩] fun s => s.set .rb a (s.reg .rd b) :=
  does_move (r := ⟨"rd2rb", 3, 16, 41, .op, .rb, .rd, .immu6, .normal⟩) (by simp [gccRows]) (by decide)
    (by decide) (by decide) (fun w h h' => by rw [multiOf_minor10 h, multiMinor10, h']; rfl)
    (fun _ hm => hm.read_rd b) ha ha' hb

/-- `rb2rd` of one register. -/
lemma does_rb2rd (ha : a ≠ 0) (ha' : a < 64) (hb : b ≠ 0) (hb' : b < 64) :
    Does always [⟨"rb2rd", [rd a, rb b, .num 1]⟩] fun s => s.set .rd a (s.reg .rb b) :=
  does_move (r := ⟨"rb2rd", 3, 16, 42, .op, .rd, .rb, .immu6, .normal⟩) (by simp [gccRows]) (by decide)
    (by decide) (by decide) (fun w h h' => by rw [multiOf_minor10 h, multiMinor10, h']; rfl)
    (fun m _ => read_rb m hb) ha ha' hb'

/-- `rb2rb` of one register. -/
lemma does_rb2rb (ha : a ≠ 0) (ha' : a < 64) (hb : b ≠ 0) (hb' : b < 64) :
    Does always [⟨"rb2rb", [rb a, rb b, .num 1]⟩] fun s => s.set .rb a (s.reg .rb b) :=
  does_move (r := ⟨"rb2rb", 3, 16, 43, .op, .rb, .rb, .immu6, .normal⟩) (by simp [gccRows]) (by decide)
    (by decide) (by decide) (fun w h h' => by rw [multiOf_minor10 h, multiMinor10, h']; rfl)
    (fun m _ => read_rb m hb) ha ha' hb'

end Insns

/-! ## Constants -/

section Constants

variable {file : RegFile} {dst : ℕ → Global} {n : ℕ}

/-- Words that make `f` of a register and change nothing else. -/
def YieldsReg (file : RegFile) (n : ℕ) (ws : List (BitVec 32)) (f : BitVec 64 → BitVec 64) : Prop :=
  Yields always ws fun s => s.set file n (f (s.reg file n))

lemma YieldsReg.append {ws ws' : List (BitVec 32)} {f f' : BitVec 64 → BitVec 64}
    (h : YieldsReg file n ws f) (h' : YieldsReg file n ws' f') :
    YieldsReg file n (ws ++ ws') (f' ∘ f) := by
  have happ := Yields.append h h' fun _ _ => trivial
  have hsame : ((fun s : State => s.set file n (f' (s.reg file n))) ∘
      fun s : State => s.set file n (f (s.reg file n))) =
        fun s => s.set file n ((f' ∘ f) (s.reg file n)) := by
    funext s
    simp
  rwa [hsame] at happ

/-- Neither an instruction on several registers nor one of the helpers. -/
lemma plain_wydeInsn {op k : ℕ} {imm : BitVec 32} (hop : op < 2 ^ 8) (hplain : PlainOpcode op)
    (hn : n < 2 ^ 6) (hk : k < 4) (himm : imm.toNat < 2 ^ 16) :
    Plain (wydeInsn (BitVec.ofNat 32 (op * 2 ^ 24)) n k imm) := by
  rw [wydeInsn_eq hop hn hk himm]
  have hsum : op * 2 ^ 24 + n * 2 ^ 18 + k * 2 ^ 16 + imm.toNat = op * 2 ^ 24 + n * 2 ^ 18 +
      (k * 16 + imm.toNat / 2 ^ 12) * 2 ^ 12 + imm.toNat / 2 ^ 6 % 64 * 2 ^ 6 + imm.toNat % 64 := by
    omega
  have hword : Bfd.rwii op n k imm.toNat =
      quad op n (k * 16 + imm.toNat / 2 ^ 12) (imm.toNat / 2 ^ 6 % 64) (imm.toNat % 64) := by
    rw [Bfd.rwii, quad, hsum]
  rw [hword]
  exact (fields_quad _ hop hn (by omega) (by omega) (by omega)).plain hplain

variable (hdst : ∀ i, (dst i).elem = .reg file i) (hpos : n ≠ 0)

include hdst hpos

/-- A word that assigns a constant. -/
lemma yieldsReg_movi {w : BitVec 32} {c : BitVec 64} (hw : Plain w)
    (hdisas : ∀ pc, disasDadao pc w = some (some (.next [movi (dst n) c]))) :
    YieldsReg file n [w] fun _ => c := by
  refine yields_next hw.1 hw.2 hdisas rfl fun m _ => ?_
  simp [movi, stepOp, hdst, view_write_reg m hpos]

/-- A word that combines the register with a constant. -/
lemma yieldsReg_bin {w : BitVec 32} {k : BinOp} {c : BitVec 64} (hw : Plain w)
    (hdisas : ∀ pc, disasDadao pc w =
      some (some (.next [.bin k (glob (dst n)) (glob (dst n)) (.const c)]))) :
    YieldsReg file n [w] fun old => k.eval old c := by
  refine yields_next hw.1 hw.2 hdisas rfl fun m _ => ?_
  have hread : m.env.globals (.reg file n) = (view m).reg file n := (viewReg_of_ne m hpos).symm
  simp [stepOp, hdst, view_write_reg m hpos, hread]

variable (hn : n < 2 ^ 6)

include hn

/-- Filling a register from zero. -/
lemma yieldsReg_setImm (f : Bfd.WydeFile) (hf : f.reg = dst) (hset : PlainOpcode f.setOp)
    (hor : PlainOpcode f.orOp) (v : BitVec 64) :
    YieldsReg file n (wydeInsn (BitVec.ofNat 32 (f.setOp * 2 ^ 24)) n 0 (Bfd.wydeOf v 0) ::
      upperWydes (BitVec.ofNat 32 (f.orOp * 2 ^ 24)) n v 0 id) fun _ => v := by
  subst hf
  refine upperWydes_fill YieldsReg.append (f := fun k old => old ||| wydeAt (Bfd.wydeOf v k) k) ?_
    (fun k hk => ?_) (fun k => upTo_or) fun k => upTo_zero_skip
  · have himm := toNat_wydeOf_lt v 0
    have hplain := plain_wydeInsn f.setOp_lt hset hn (show 0 < 4 by omega) himm
    rw [upTo_zero_one]
    refine yieldsReg_movi hdst hpos hplain fun pc => ?_
    rw [wydeInsn_eq f.setOp_lt hn (by omega) himm]
    exact f.disas_setWord hn hpos (by omega) himm pc
  · have himm := toNat_wydeOf_lt v k
    have hplain := plain_wydeInsn f.orOp_lt hor hn hk himm
    refine yieldsReg_bin (k := .or) hdst hpos hplain fun pc => ?_
    rw [id_eq, wydeInsn_eq f.orOp_lt hn hk himm]
    exact f.disas_orWord hn hpos hk himm pc

end Constants

/-- The code for a constant in an `rd` register. -/
lemma yieldsReg_setrd {n : ℕ} (hpos : n ≠ 0) (hn : n < 64) (v : BitVec 64) :
    YieldsReg .rd n (ddPseudoSetImm n v) fun _ => v := by
  unfold ddPseudoSetImm
  rw [if_pos hn]
  split_ifs
  · have hopcode : Bfd.insnSetowRd = BitVec.ofNat 32 (0x17 * 2 ^ 24) := rfl
    have hopcode' : Bfd.insnAndnwRd = BitVec.ofNat 32 (0x15 * 2 ^ 24) := rfl
    refine upperWydes_fill YieldsReg.append
      (f := fun k old => old &&& ~~~wydeAt (~~~Bfd.wydeOf v k &&& 0xFFFF#32) k) ?_ (fun k hk => ?_)
      (fun k => upTo_andn) fun k => upTo_ones_skip
    · exact yieldsReg_movi Global.elem_rd hpos (hopcode ▸ plain_wydeInsn (by omega)
        (by simp [PlainOpcode]) hn (by omega) (toNat_wydeOf_lt v 0)) (disas_setow hn hpos v)
    · exact yieldsReg_bin (k := .and) Global.elem_rd hpos (hopcode' ▸ plain_wydeInsn (by omega)
        (by simp [PlainOpcode]) hn hk (toNat_not_wydeOf_lt v k)) fun pc => disas_andnw hn hpos v pc hk
  · exact yieldsReg_setImm (fun _ => rfl) hpos hn Bfd.rdFile rfl (by simp [PlainOpcode, Bfd.rdFile])
      (by simp [PlainOpcode, Bfd.rdFile]) v

/-- The code for a constant in an `rb` register. -/
lemma yieldsReg_setrb {n : ℕ} (hpos : n ≠ 0) (hn : n < 64) (v : BitVec 64) :
    YieldsReg .rb n (ddPseudoSetImm (0x40 + n) v) fun _ => v := by
  unfold ddPseudoSetImm
  rw [if_neg (by omega), if_pos (by omega), Nat.add_sub_cancel_left]
  exact yieldsReg_setImm (fun _ => rfl) hpos hn Bfd.rbFile rfl (by simp [PlainOpcode, Bfd.rbFile])
    (by simp [PlainOpcode, Bfd.rbFile]) v

/-- **`setrd` of a constant.** -/
lemma does_setrd {a : ℕ} (ha : a ≠ 0) (ha' : a < 64) (v : ℤ) :
    Does always [⟨"setrd", [rd a, .num v]⟩] fun s => s.set .rd a (BitVec.ofInt 64 v) := by
  intro g
  refine ⟨ddPseudoSetImm a (BitVec.ofInt 64 v), ?_, yieldsReg_setrd ha ha' _⟩
  have hexceeds : (Stmt.mk "setrd" [rd a, .num v]).exceeds = false := by
    simp [Stmt.exceeds]
  rw [assemble, assemble, Stmt.assemble, hexceeds, if_neg (by simp), if_pos (Or.inl rfl), if_pos ⟨rfl, rfl, rfl⟩]
  simp [Stmt.exp, Opnd.exp, fileBase]

/-- **`setrb` of a constant.** -/
lemma does_setrb {a : ℕ} (ha : a ≠ 0) (ha' : a < 64) (v : ℤ) :
    Does always [⟨"setrb", [rb a, .num v]⟩] fun s => s.set .rb a (BitVec.ofInt 64 v) := by
  intro g
  refine ⟨ddPseudoSetImm (0x40 + a) (BitVec.ofInt 64 v), ?_, yieldsReg_setrb ha ha' _⟩
  have hexceeds : (Stmt.mk "setrb" [rb a, .num v]).exceeds = false := by
    simp [Stmt.exceeds]
  have hnum : ((0x40 : ℤ) + a).toNat = 0x40 + a := by omega
  rw [assemble, assemble, Stmt.assemble, hexceeds, if_neg (by simp), if_pos (Or.inr rfl), if_pos ⟨rfl, rfl, rfl⟩]
  simp [Stmt.exp, Opnd.exp, fileBase, hnum]

/-! ## Rejected statements -/

/-- Rows that reject the operands are tried in vain. -/
lemma tryRows_eq_none_of {g exp : ℕ → ExpressionS} {n : ℕ} {rows : List DadaoOpcode}
    (h : ∀ r ∈ rows, ddGetInsnCode g r exp n = none) : tryRows g exp n rows = none := by
  induction rows with
  | nil => rfl
  | cons r rows ih =>
    rw [tryRows, h r (by simp)]
    exact ih fun r' hr' => h r' (List.mem_cons_of_mem _ hr')

/-- A mnemonic whose rows reject the operands. -/
lemma mdAssembleCode_eq_none {g exp : ℕ → ExpressionS} {n : ℕ} {name : String} {rows : List DadaoOpcode}
    (hrows : (name, rows) ∈ gccChains) (h : ∀ r ∈ rows, ddGetInsnCode g r exp n = none) :
    mdAssembleCode g name exp n = none := by
  have htry := tryRows_eq_none_of h
  rw [← chain_eq hrows] at htry
  unfold mdAssembleCode
  split_ifs
  · exact htry
  · rfl

/-- A statement of which no word is built. -/
lemma Stmt.assemble_eq_none {g : ℕ → ExpressionS} {st : Stmt}
    (hpseudo : ¬ (st.mnemonic = "setrd" ∨ st.mnemonic = "setrb"))
    (hcode : mdAssembleCode g st.mnemonic st.exp st.opnds.length = none) : st.assemble g = none := by
  unfold Stmt.assemble
  rw [if_neg hpseudo, hcode]
  split_ifs <;> rfl

/-- A statement whose rows reject its operands. -/
lemma assemble_eq_none {g : ℕ → ExpressionS} {st : Stmt} {rows : List DadaoOpcode}
    (hpseudo : ¬ (st.mnemonic = "setrd" ∨ st.mnemonic = "setrb")) (hrows : (st.mnemonic, rows) ∈ gccChains)
    (h : ∀ r ∈ rows, ddGetInsnCode g r st.exp st.opnds.length = none) : st.assemble g = none :=
  Stmt.assemble_eq_none hpseudo (mdAssembleCode_eq_none hrows h)

/-- A register macro leaves the function with `-1` or yields a field. -/
lemma macroOf_cases (k : OperandType) (e : ExpressionS) :
    macroOf k e = .error none ∨ ∃ v, macroOf k e = .ok v := by
  have hreg (lo hi : ℤ) : expShouldBeReg lo hi e = .error none ∨ ∃ v, expShouldBeReg lo hi e = .ok v := by
    unfold expShouldBeReg
    split_ifs <;> simp
  have hrd : expShouldBeRd e = .error none ∨ ∃ v, expShouldBeRd e = .ok v := by
    unfold expShouldBeRd
    split_ifs <;> simp
  cases k <;> first | exact hrd | exact hreg _ _ | exact Or.inl rfl

section Rejected

variable {g exp : ℕ → ExpressionS} {r : DadaoOpcode} (hns : (exp 2).xOp ≠ .leftShift)
variable (hfa : isFaKind r.opFa = true ∧ r.opFa ≠ .op) (hfb : isFrKind r.opFb = true)

include hns hfa hfb

/-- A row of two registers whose last operands are rejected. -/
lemma ddGetInsnCode_rest (hrest : ∀ ha hb : BitVec 32, resultOf (do
    let hc ← switchFc r ha hb (exp 2) (exp 2)
    let hd ← switchFd r (exp 3)
    return r.majorOpcode <<< 24 ||| ha <<< 18 ||| hb <<< 12 ||| hc <<< 6 ||| hd) = none) :
    ddGetInsnCode g r exp r.operandsNum = none := by
  rw [ddGetInsnCode_eq, switchFa_reg exp hfa.1 hfa.2]
  rcases macroOf_cases r.opFa (exp 0) with ha | ⟨ha, h⟩
  · rw [ha]
    rfl
  · rw [h]
    simp only [Except.bind, bodyRest, switchFb_reg _ _ _ hfb]
    rcases macroOf_cases r.opFb (exp 1) with hb | ⟨hb, h⟩
    · rw [hb]
      rfl
    · rw [h]
      simp only [Except.bind, bind, expNextLast_eq fun _ => hns]
      exact hrest ha hb

/-- A number of twelve bits that is out of range, or no number. -/
lemma ddGetInsnCode_imms12 (hfc : r.opFc = .imms12) (hsym : (exp 2).xOp ≠ .symbol)
    (hv : (exp 2).xOp = .constant → (exp 2).xAddNumber < -0x800 ∨ 0x7FF < (exp 2).xAddNumber) :
    ddGetInsnCode g r exp r.operandsNum = none := by
  have himm : expShouldBeImm (exp 2) (-0x800) 0x7FF = .error none := by
    unfold expShouldBeImm
    split_ifs with hop hhi hlo
    · rfl
    · rfl
    · rfl
    · rcases hv (not_not.mp hop) with h | h <;> omega
  refine ddGetInsnCode_rest hns hfa hfb fun ha hb => ?_
  simp only [switchFc, hfc, if_neg hsym, himm, bind, Except.bind, resultOf]

/-- A number in the place of the last register. -/
lemma ddGetInsnCode_lastReg (hfc : isFrKind r.opFc = true) (hfd : r.opFd = .rd)
    (hop : (exp 3).xOp ≠ .register) : ddGetInsnCode g r exp r.operandsNum = none := by
  have hrd : expShouldBeRd (exp 3) = .error none := if_pos hop
  refine ddGetInsnCode_rest hns hfa hfb fun ha hb => ?_
  rw [switchFc_reg _ _ _ _ hfc]
  rcases macroOf_cases r.opFc (exp 2) with hc | ⟨hc, h⟩
  · rw [hc]
    rfl
  · rw [h]
    simp only [switchFd, hfd, hrd, bind, Except.bind, resultOf]

end Rejected

/-- `addi` of a number that does not fit. -/
lemma addi_rejected (g : ℕ → ExpressionS) (f₀ f₁ : RegFile) (a b : ℕ) {v : ℤ} (hv : v < -0x800 ∨ 0x7FF < v) :
    (Stmt.mk "addi" [.reg f₀ a, .reg f₁ b, .num v]).assemble g = none := by
  refine assemble_eq_none (by simp) (List.mem_cons_self ..) fun r hr => ?_
  simp only [List.mem_cons, List.not_mem_nil, or_false] at hr
  rcases hr with rfl | rfl
  · exact ddGetInsnCode_imms12 (by simp [Stmt.exp, Opnd.exp]) (by decide) rfl rfl
      (by simp [Stmt.exp, Opnd.exp]) fun _ => hv
  · exact ddGetInsnCode_imms12 (by simp [Stmt.exp, Opnd.exp]) (by decide) rfl rfl
      (by simp [Stmt.exp, Opnd.exp]) fun _ => hv

/-- `sub` with a number. -/
lemma sub_rejected (g : ℕ → ExpressionS) (f₀ f₁ f₂ : RegFile) (a b c : ℕ) (v : ℤ) :
    (Stmt.mk "sub" [.reg f₀ a, .reg f₁ b, .reg f₂ c, .num v]).assemble g = none := by
  refine assemble_eq_none (by simp) (List.mem_cons_of_mem _ (List.mem_cons_self ..)) fun r hr => ?_
  simp only [List.mem_cons, List.not_mem_nil, or_false] at hr
  rcases hr with rfl | rfl
  · exact ddGetInsnCode_lastReg (by simp [Stmt.exp, Opnd.exp]) (by decide) rfl rfl rfl
      (by simp [Stmt.exp, Opnd.exp, ExpressionS.const])
  · rfl

/-- `ldtu` and `stt` at an index. -/
lemma index_rejected (g : ℕ → ExpressionS) {name : String} (hname : name = "ldtu" ∨ name = "stt")
    (a b c : ℕ) : (Stmt.mk name [rd a, rb b, rd c]).assemble g = none := by
  rcases hname with rfl | rfl
  · refine assemble_eq_none (by simp) (List.mem_cons_of_mem _ (List.mem_cons_of_mem _
      (List.mem_cons_self ..))) fun r hr => ?_
    simp only [List.mem_cons, List.not_mem_nil, or_false] at hr
    subst hr
    exact ddGetInsnCode_imms12 (by simp [Stmt.exp, Opnd.exp]) (by decide) rfl rfl (by simp [Stmt.exp, Opnd.exp])
      (by simp [Stmt.exp, Opnd.exp])
  · refine assemble_eq_none (by simp) (List.mem_cons_of_mem _ (List.mem_cons_of_mem _
      (List.mem_cons_of_mem _ (List.mem_cons_self ..)))) fun r hr => ?_
    simp only [List.mem_cons, List.not_mem_nil, or_false] at hr
    rcases hr with rfl | rfl
    · exact ddGetInsnCode_imms12 (by simp [Stmt.exp, Opnd.exp]) (by decide) rfl rfl
        (by simp [Stmt.exp, Opnd.exp]) (by simp [Stmt.exp, Opnd.exp])
    · exact ddGetInsnCode_imms12 (by simp [Stmt.exp, Opnd.exp]) (by decide) rfl rfl
        (by simp [Stmt.exp, Opnd.exp]) (by simp [Stmt.exp, Opnd.exp])

end Dadao.Gcc
