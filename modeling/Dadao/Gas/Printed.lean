import Dadao.Gas.Layout
import Mathlib.Tactic.NormNum

set_option relaxedAutoImplicit false
set_option autoImplicit false

/-!
# The disassembler reads the layout

For every row of the assembler's table there is one row of the disassembler's table that reads the
same fields. This file defines it and shows that `print_insn_dadao` prints with it the operand
values of the layout, and that encoding and decoding are inverse to each other.

## Main definitions

* `Dadao.Gas.expectedRow` — the row of the disassembler's table for a row of the assembler's.

## Main results

* `Dadao.Gas.readInsn_mdNumberToChars` — the word read back from its bytes.
* `Dadao.Gas.printed_operands_eq` — what the disassembler prints.
* `Dadao.Gas.decode_encode`, `Dadao.Gas.encode_decode` — the two directions of the layout.
-/

namespace Dadao.Gas

open Dadao.Opcodes Dadao.Bits

/-! ## The row that reads a layout -/

/-- The rows whose immediate is a branch displacement. -/
def isBranch (r : DadaoOpcode) : Bool := r.type == .condbranch || r.type == .condbranch12

/-- The disassembler's kind for an operand in a slot. -/
def disKind (br : Bool) (slot : DisassembleType) : OperandType → DisassembleType
  | .none | .op | .noop => .none
  | .imms24 => .offset24
  | .imms12 => if br then .offset12 else .imms12
  | .imms18 => if br then .offset18 else .imms18
  | .immu6 => .immu6
  | .immu12 => .immu12
  | .immu16 => .immu16
  | .immu18 => .immu18
  | .ww => .ww
  | .rd | .rb | .rf | .ra | .cp | .cr => slot

/-- The conversion for an operand. -/
def disConversion (br : Bool) (k : OperandType) : Conversion :=
  match regFile k with
  | some (file, _) => .reg file
  | none =>
    if k = .ww then .wyde
    else if k = .imms24 ∨ br = true ∧ operandSigned k = true then .offset
    else if operandSigned k then .dec
    else .hex

/-- The disassembler's kinds of the slots after the first. -/
def restSlots (r : DadaoOpcode) : List DisassembleType :=
  [disKind (isBranch r) .hb r.opFb, disKind (isBranch r) .hc r.opFc,
    disKind (isBranch r) .hd r.opFd]

/-- The row of the disassembler's table that reads the layout of a row of the assembler's. -/
def expectedRow (r : DadaoOpcode) : DadaoDisassemble :=
  { opcodeMask := if r.opFa = .op then 0xfffc0000#32 else 0xff000000#32
    opcodeMatch := BitVec.ofNat 32 (header r * if r.opFa = .op then 2 ^ 18 else 2 ^ 24)
    op1 := if r.opFa = .op then disKind (isBranch r) .hb r.opFb else disKind (isBranch r) .ha r.opFa
    op2 := if r.opFa = .op then disKind (isBranch r) .hc r.opFc else disKind (isBranch r) .hb r.opFb
    op3 := if r.opFa = .op then disKind (isBranch r) .hd r.opFd else disKind (isBranch r) .hc r.opFc
    op4 := if r.opFa = .op then .none else disKind (isBranch r) .hd r.opFd
    operandNum := (operandKinds r).length
    format := ⟨r.name, (operandKinds r).map (disConversion (isBranch r))⟩ }

/-! ## The disassembler reads the layout -/

/-- A word cut where the disassembler's masks cut it. -/
lemma word_pieces (w : BitVec 32) : ∃ o p q s t u v : ℕ, o < 256 ∧ p < 64 ∧ q < 4 ∧ s < 16 ∧
    t < 16 ∧ u < 4 ∧ v < 64 ∧
    w.toNat = o * 2 ^ 24 + p * 2 ^ 18 + q * 2 ^ 16 + s * 2 ^ 12 + t * 2 ^ 8 + u * 2 ^ 6 + v := by
  have h := pack_unpack [8, 6, 2, 4, 4, 2, 6] w.toNat
  rw [show [8, 6, 2, 4, 4, 2, 6].sum = 32 from rfl, Nat.mod_eq_of_lt w.isLt] at h
  have hlt := unpack_lt [8, 6, 2, 4, 4, 2, 6] w.toNat
  generalize unpack [8, 6, 2, 4, 4, 2, 6] w.toNat = l at h hlt
  obtain _ | ⟨ho, _ | ⟨hp, _ | ⟨hq, _ | ⟨hs, _ | ⟨ht, _ | ⟨hu, _ | ⟨hv, _ | _⟩⟩⟩⟩⟩⟩⟩ := hlt
  refine ⟨_, _, _, _, _, _, _, ho, hp, hq, hs, ht, hu, hv, ?_⟩
  simp [pack] at h
  omega

section Pieces

variable {o p q s t u v : ℕ} (ho : o < 256) (hp : p < 64) (hq : q < 4) (hs : s < 16) (ht : t < 16)
variable (hu : u < 4) (hv : v < 64)

include ho hp hq hs ht hu hv

/-- The bytes of a word, read in the other order. -/
lemma toNat_bfdGetb32 (w : BitVec 32) (hw : w.toNat =
    o * 2 ^ 24 + p * 2 ^ 18 + q * 2 ^ 16 + s * 2 ^ 12 + t * 2 ^ 8 + u * 2 ^ 6 + v) :
    (bfdGetb32 (mdNumberToChars w)).toNat =
      (u * 64 + v) * 2 ^ 24 + (s * 16 + t) * 2 ^ 16 + (p * 4 + q) * 2 ^ 8 + o := by
  have h0 : ((mdNumberToChars w 0).setWidth 32).toNat = u * 64 + v := by
    simp [mdNumberToChars]
    omega
  have h1 : ((mdNumberToChars w 1).setWidth 32).toNat = s * 16 + t := by
    simp [mdNumberToChars, Nat.shiftRight_eq_div_pow]
    omega
  have h2 : ((mdNumberToChars w 2).setWidth 32).toNat = p * 4 + q := by
    simp [mdNumberToChars, Nat.shiftRight_eq_div_pow]
    omega
  have h3 : ((mdNumberToChars w 3).setWidth 32).toNat = o := by
    simp [mdNumberToChars, Nat.shiftRight_eq_div_pow]
    omega
  have e0 : ((mdNumberToChars w 0).setWidth 32 <<< 24).toNat = (u * 64 + v) * 2 ^ 24 := by
    rw [toNat_shiftLeft_of_lt (by omega), h0]
  have e1 := toNat_or_field (x := (mdNumberToChars w 0).setWidth 32 <<< 24)
    (v := (mdNumberToChars w 1).setWidth 32) 16 8 (by omega) (by omega) (by omega)
  have e2 := toNat_or_field (x := (mdNumberToChars w 0).setWidth 32 <<< 24 |||
    (mdNumberToChars w 1).setWidth 32 <<< 16)
    (v := (mdNumberToChars w 2).setWidth 32) 8 8 (by omega) (by omega) (by omega)
  rw [bfdGetb32, toNat_or_eq_add 8 (by omega) (by omega), e2, e1, e0, h1, h2, h3]

/-- The word put together from the other order. -/
lemma toNat_readInsn (buffer : ℕ → BitVec 8) (hbe : (bfdGetb32 buffer).toNat =
      (u * 64 + v) * 2 ^ 24 + (s * 16 + t) * 2 ^ 16 + (p * 4 + q) * 2 ^ 8 + o) :
    (readInsn buffer).toNat =
      o * 2 ^ 24 + p * 2 ^ 18 + q * 2 ^ 16 + s * 2 ^ 12 + t * 2 ^ 8 + u * 2 ^ 6 + v := by
  generalize hx : bfdGetb32 buffer = x at hbe
  have hshift : ∀ (n k : ℕ) (m : BitVec 32), m.toNat = 2 ^ k - 1 →
      (x >>> n &&& m).toNat = ((u * 64 + v) * 2 ^ 24 + (s * 16 + t) * 2 ^ 16 +
        (p * 4 + q) * 2 ^ 8 + o) / 2 ^ n % 2 ^ k := by
    intro n k m hm
    rw [toNat_and_mask _ _ k hm, BitVec.toNat_ushiftRight, Nat.shiftRight_eq_div_pow, hbe]
  have ha : (x >>> 10 &&& 0x3F#32).toNat = p := by
    rw [hshift 10 6 _ rfl]
    clear hshift hbe
    omega
  have hb : (x >>> 8 &&& 0x3#32).toNat = q ∧ (x >>> 20 &&& 0xF#32).toNat = s := by
    rw [hshift 8 2 _ rfl, hshift 20 4 _ rfl]
    clear hshift hbe ha
    omega
  have hc : (x >>> 16 &&& 0xF#32).toNat = t ∧ (x >>> 30).toNat = u := by
    rw [hshift 16 4 _ rfl, BitVec.toNat_ushiftRight, Nat.shiftRight_eq_div_pow, hbe]
    clear hshift hbe ha hb
    omega
  have hd : (x >>> 24 &&& 0x3F#32).toNat = v := by
    rw [hshift 24 6 _ rfl]
    clear hshift hbe ha hb hc
    omega
  have hop : (x &&& 0xFF#32).toNat = o := by
    rw [toNat_and_mask _ _ 8 rfl, hbe]
    clear hshift hbe ha hb hc hd
    omega
  simp only [readInsn, hx]
  rw [BitVec.toNat_add, BitVec.toNat_add, BitVec.toNat_add, BitVec.toNat_add]
  have hb' : ((x >>> 8 &&& 0x3#32) <<< 4 + (x >>> 20 &&& 0xF#32)).toNat = q * 16 + s := by
    rw [BitVec.toNat_add, toNat_shiftLeft_of_lt (by rw [hb.1]; omega), hb.1, hb.2]
    omega
  have hc' : ((x >>> 16 &&& 0xF#32) <<< 2 + x >>> 30).toNat = t * 4 + u := by
    rw [BitVec.toNat_add, toNat_shiftLeft_of_lt (by rw [hc.1]; omega), hc.1, hc.2]
    omega
  rw [toNat_shiftLeft_of_lt (by rw [hop]; omega), toNat_shiftLeft_of_lt (by rw [ha]; omega),
    toNat_shiftLeft_of_lt (by rw [hb']; omega), toNat_shiftLeft_of_lt (by rw [hc']; omega),
    hop, ha, hb', hc', hd]
  clear hshift hbe ha hb hc hd hop hb' hc'
  omega

end Pieces

/-- The bytes of a word are read back as the word. -/
lemma readInsn_mdNumberToChars (w : BitVec 32) : readInsn (mdNumberToChars w) = w := by
  obtain ⟨o, p, q, s, t, u, v, ho, hp, hq, hs, ht, hu, hv, hw⟩ := word_pieces w
  apply BitVec.eq_of_toNat_eq
  rw [hw]
  exact toNat_readInsn ho hp hq hs ht hu hv _ (toNat_bfdGetb32 ho hp hq hs ht hu hv w hw)

/-- A register slot is read as it is written. -/
lemma disKind_reg {k : OperandType} (br : Bool) (slot : DisassembleType) (hk : isRegKind k = true) :
    disKind br slot k = slot := by
  cases k <;> simp_all [isRegKind, regFile, disKind]

/-- The printed file names are those of the register kinds. -/
lemma regBase_of_regFile {k : OperandType} {f : String} {base : ℤ}
    (h : regFile k = some (f, base)) : regBase f = some base := by
  cases k <;> simp only [regFile, Option.some.injEq, Prod.mk.injEq, reduceCtorEq] at h <;>
    obtain ⟨rfl, rfl⟩ := h <;> rfl

/-- The operand printed for a register. -/
lemma operand_reg {k : OperandType} {slot : DisassembleType} {w : BitVec 32} {n : ℕ} (br : Bool)
    (off : Option ℤ) (hk : isRegKind k = true) (hslot : (analyzeOperand slot w).1.toNat = n) :
    Conversion.operand off (analyzeOperand (disKind br slot k) w).1 (disConversion br k) =
      operandExp k (valueOf k n) := by
  obtain ⟨⟨f, base⟩, hf⟩ := Option.isSome_iff_exists.mp hk
  have hunsigned : operandSigned k = false := by
    cases k <;> simp_all [regFile, operandSigned]
  rw [disKind_reg br slot hk]
  simp [disConversion, hf, Conversion.operand, regBase_of_regFile hf, hslot, operandExp, valueOf,
    hunsigned]

/-- The six-bit fields. -/
lemma toNat_slots (w : BitVec 32) :
    (analyzeOperand .ha w).1.toNat = w.toNat / 2 ^ 18 % 2 ^ 6 ∧
    (analyzeOperand .hb w).1.toNat = w.toNat / 2 ^ 12 % 2 ^ 6 ∧
    (analyzeOperand .hc w).1.toNat = w.toNat / 2 ^ 6 % 2 ^ 6 ∧
    (analyzeOperand .hd w).1.toNat = w.toNat % 2 ^ 6 := by
  refine ⟨?_, ?_, ?_, ?_⟩ <;> simp only [analyzeOperand] <;>
    rw [toNat_and_mask _ _ 6 rfl] <;> try rfl
  all_goals rw [BitVec.toNat_ushiftRight, Nat.shiftRight_eq_div_pow]

/-- The byte displacement of a field of `n + 1` bits. -/
lemma fieldOffset_eq {field sign : BitVec 32} {n : ℕ} {wrap : ℤ} (w : BitVec 32) (hn : n < 24)
    (hfield : field.toNat = 2 ^ (n + 1) - 1) (hsign : sign.toNat = 2 ^ (n + 2)) :
    fieldOffset field sign wrap w =
      if 2 ^ n ≤ w.toNat % 2 ^ (n + 1) then 4 * ((w.toNat % 2 ^ (n + 1) : ℕ) : ℤ) - wrap
      else 4 * ((w.toNat % 2 ^ (n + 1) : ℕ) : ℤ) := by
  have hpow : 2 ^ (n + 1) ≤ 2 ^ 24 := Nat.pow_le_pow_right (by omega) (by omega)
  have hmod : w.toNat % 2 ^ (n + 1) < 2 ^ (n + 1) := Nat.mod_lt _ (Nat.two_pow_pos _)
  have hoff : ((w &&& field) <<< 2).toNat = w.toNat % 2 ^ (n + 1) * 2 ^ 2 := by
    rw [toNat_shiftLeft_of_lt, toNat_and_mask _ _ _ hfield]
    rw [toNat_and_mask _ _ _ hfield]
    omega
  have hbit : w.toNat % 2 ^ (n + 1) * 2 ^ 2 / 2 ^ (n + 2) % 2 = 1 ↔
      2 ^ n ≤ w.toNat % 2 ^ (n + 1) := by
    rw [pow_add 2 n 2, Nat.mul_div_mul_right _ _ (by omega), bit_eq_one_iff, Nat.mod_mod]
  simp only [fieldOffset, and_bit_ne_zero_iff _ _ _ hsign, hoff, hbit]
  split_ifs <;> push_cast <;> ring

/-- A branch displacement is the signed field times four. -/
lemma calOffset_eq {k : OperandType} (hk : operandSigned k = true) (w : BitVec 32) :
    calOffset (operandWidth k) w = 4 * valueOf k (w.toNat % 2 ^ operandWidth k) := by
  cases k <;> simp [operandSigned] at hk
  · rw [show calOffset (operandWidth .imms12) = fieldOffset 0xfff#32 0x2000#32 0x4000 from rfl,
      fieldOffset_eq (n := 11) w (by omega) rfl rfl]
    simp [valueOf, operandSigned, operandWidth]
    split_ifs <;> omega
  · rw [show calOffset (operandWidth .imms18) = fieldOffset 0x3ffff#32 0x80000#32 0x100000 from rfl,
      fieldOffset_eq (n := 17) w (by omega) rfl rfl]
    simp [valueOf, operandSigned, operandWidth]
    split_ifs <;> omega
  · rw [show calOffset (operandWidth .imms24) =
        fieldOffset 0xffffff#32 0x2000000#32 0x4000000 from rfl,
      fieldOffset_eq (n := 23) w (by omega) rfl rfl]
    simp [valueOf, operandSigned, operandWidth]
    split_ifs <;> omega

/-- A signed field printed in decimal. -/
lemma signedField_toInt {field sign high : BitVec 32} {n : ℕ} (w : BitVec 32) (hn : n < 24)
    (hfield : field.toNat = 2 ^ (n + 1) - 1) (hsign : sign.toNat = 2 ^ n)
    (hhigh : high.toNat = 2 ^ 32 - 2 ^ (n + 1)) :
    (if w &&& sign ≠ 0 then high ||| (w &&& field) else w &&& field).toInt =
      if 2 ^ n ≤ w.toNat % 2 ^ (n + 1) then ((w.toNat % 2 ^ (n + 1) : ℕ) : ℤ) - 2 ^ (n + 1)
      else ((w.toNat % 2 ^ (n + 1) : ℕ) : ℤ) := by
  have hpow : 2 ^ (n + 1) ≤ 2 ^ 24 := Nat.pow_le_pow_right (by omega) (by omega)
  have hmod : w.toNat % 2 ^ (n + 1) < 2 ^ (n + 1) := Nat.mod_lt _ (Nat.two_pow_pos _)
  have hlow : (w &&& field).toNat = w.toNat % 2 ^ (n + 1) := toNat_and_mask _ _ _ hfield
  have hor : (high ||| (w &&& field)).toNat = 2 ^ 32 - 2 ^ (n + 1) + w.toNat % 2 ^ (n + 1) := by
    have hdvd : (2 ^ 32 - 2 ^ (n + 1)) % 2 ^ (n + 1) = 0 :=
      Nat.mod_eq_zero_of_dvd (Nat.dvd_sub (Nat.pow_dvd_pow 2 (by omega)) (Nat.dvd_refl _))
    rw [toNat_or_eq_add (n + 1) (by rw [hhigh, hdvd]) (by rw [hlow]; exact hmod), hhigh, hlow]
  simp only [and_bit_ne_zero_iff _ _ _ hsign, bit_eq_one_iff]
  split_ifs with h
  · rw [BitVec.toInt_eq_toNat_cond, hor, if_neg (by omega)]
    rw [Nat.cast_add, Nat.cast_sub (by omega)]
    push_cast
    ring
  · rw [BitVec.toInt_eq_toNat_cond, hlow, if_pos (by omega)]

/-- The operands printed for the immediates in the low bits. -/
lemma operand_imm {k : OperandType} (br : Bool) (slot : DisassembleType) (w : BitVec 32)
    (off : Option ℤ) (hreg : isRegKind k = false) (hw : operandWidth k ≠ 0) (hww : k ≠ .ww)
    (hoff : k = .imms24 ∨ br = true ∧ operandSigned k = true →
      off = some (calOffset (operandWidth k) w)) :
    Conversion.operand off (analyzeOperand (disKind br slot k) w).1 (disConversion br k) =
      operandExp k (valueOf k (w.toNat % 2 ^ operandWidth k)) := by
  rw [operandExp_imm hreg hww]
  have hfile : regFile k = none := by simpa [isRegKind] using hreg
  by_cases hoffk : k = .imms24 ∨ br = true ∧ operandSigned k = true
  · have hs : operandSigned k = true := by
      rcases hoffk with rfl | h
      · rfl
      · exact h.2
    simp only [disConversion, hfile, hww, if_false, hoffk, if_true, Conversion.operand,
      hoff hoffk, Option.getD_some, calOffset_eq hs]
    congr 1
    omega
  · -- what is left is printed in hexadecimal, or in decimal after the sign was filled in
    have hconv : disConversion br k = if operandSigned k then .dec else .hex := by
      simp [disConversion, hfile, hww, hoffk]
    rw [hconv]
    cases k <;> simp only [operandWidth, ne_eq, not_true_eq_false] at hw <;>
      simp [isRegKind, regFile] at hreg <;> simp [operandSigned] at hoffk hww <;>
      simp only [operandSigned, disKind, analyzeOperand, Conversion.operand, valueOf, operandWidth,
        if_true, if_false, false_and, Bool.false_eq_true, hoffk, true_and]
    case immu6 => rw [toNat_and_mask _ _ 6 rfl]
    case immu12 => rw [toNat_and_mask _ _ 12 rfl]
    case immu16 => rw [toNat_and_mask _ _ 16 rfl]
    case immu18 => rw [toNat_and_mask _ _ 18 rfl]
    case imms12 =>
      rw [signedField_toInt (n := 11) w (by omega) rfl rfl rfl]
    case imms18 =>
      rw [signedField_toInt (n := 17) w (by omega) rfl rfl rfl]

/-- The operand printed for a wyde position. -/
lemma operand_ww (br : Bool) (slot : DisassembleType) (w : BitVec 32) (off : Option ℤ) :
    Conversion.operand off (analyzeOperand (disKind br slot .ww) w).1 (disConversion br .ww) =
      operandExp .ww (valueOf .ww (w.toNat / 2 ^ 16 % 2 ^ 2)) := by
  simp only [disKind, analyzeOperand, disConversion, regFile, if_true, Conversion.operand,
    operandExp, valueOf, operandSigned, Bool.false_eq_true, false_and, if_false]
  rw [toNat_and_mask _ _ 2 rfl, BitVec.toNat_ushiftRight, Nat.shiftRight_eq_div_pow]

lemma isRegKind_of_isFaKind {k : OperandType} (h : isFaKind k = true) (hop : k ≠ .op) :
    isRegKind k = true := by
  cases k <;> simp_all [isFaKind, isRegKind, regFile]

/-- The displacement the slots after the first leave in `cal_offset`. -/
lemma restSlots_offset {r : DadaoOpcode} {k : OperandType} (w : BitVec 32)
    (hrest : isRest r.opFb r.opFc r.opFd = true) (hk : k ∈ restKinds r)
    (hbr : isBranch r = true) (hsigned : operandSigned k = true) :
    (restSlots r).filterMap (fun s => (analyzeOperand s w).2) = [operandWidth k] := by
  have hreg : ∀ {k}, isFrKind k = true → operandSigned k ≠ true := by
    intro k hk
    cases k <;> simp_all [isFrKind, operandSigned]
  rcases restKinds_cases hrest with ⟨hb, hl⟩ | ⟨hb, hc, hl⟩ | ⟨hb, hc, hl⟩ | ⟨hb, hc, hd, hl⟩ <;>
    rw [hl] at hk
  · obtain rfl : k = r.opFb := by simpa using hk
    have hb : r.opFb = .imms18 := by
      rcases hb with hb | hb
      · exact hb
      · simp [hb, operandSigned] at hsigned
    obtain ⟨-, hc, hd⟩ | ⟨h, -⟩ | ⟨h, -⟩ | ⟨h, -⟩ := isRest_cases hrest
    · simp [restSlots, hb, hc, hd, disKind, hbr, analyzeOperand, operandWidth]
    · simp [hb] at h
    · simp [hb, isFrKind] at h
    · simp [hb, isFrKind] at h
  · simp only [List.mem_cons, List.not_mem_nil, or_false] at hk
    rcases hk with rfl | rfl <;> simp [operandSigned] at hsigned
  · simp only [List.mem_cons, List.not_mem_nil, or_false] at hk
    rcases hk with rfl | rfl
    · exact absurd hsigned (hreg hb)
    · have hc : r.opFc = .imms12 := by
        rcases hc with hc | hc
        · exact hc
        · simp [hc, operandSigned] at hsigned
      have hd : r.opFd = .none := by
        obtain ⟨-, h, -⟩ | ⟨-, h, -⟩ | ⟨-, -, h⟩ | ⟨-, h, -⟩ := isRest_cases hrest
        · simp [hc] at h
        · simp [hc] at h
        · exact h
        · simp [hc, isFrKind] at h
      rw [restSlots, hc, hd, disKind_reg _ .hb (isRegKind_of_isFrKind hb)]
      simp [disKind, hbr, analyzeOperand, operandWidth]
  · simp only [List.mem_cons, List.not_mem_nil, or_false] at hk
    rcases hk with rfl | rfl | rfl
    · exact absurd hsigned (hreg hb)
    · exact absurd hsigned (hreg hc)
    · rcases hd with hd | hd
      · exact absurd hsigned (hreg hd)
      · simp [hd, operandSigned] at hsigned

/-- The operands printed for the slots after the first. -/
lemma restSlots_operands {r : DadaoOpcode} (w : BitVec 32) (off : Option ℤ)
    (hrest : isRest r.opFb r.opFc r.opFd = true)
    (hoff : ∀ k ∈ restKinds r, isBranch r = true → operandSigned k = true →
      off = some (calOffset (operandWidth k) w)) (tail : List (BitVec 32)) :
    (((restKinds r).map (disConversion (isBranch r))).zip
      ((restSlots r).map (fun s => (analyzeOperand s w).1) ++ tail)).map
        (fun c => Conversion.operand off c.2 c.1) =
      List.zipWith operandExp (restKinds r) (List.zipWith valueOf (restKinds r)
        (unpack ((restKinds r).map operandWidth) w.toNat)) := by
  obtain ⟨-, hsb, hsc, hsd⟩ := toNat_slots w
  have himm : ∀ k slot, k ∈ restKinds r → isRegKind k = false → operandWidth k ≠ 0 → k ≠ .ww →
      k ≠ .imms24 → Conversion.operand off (analyzeOperand (disKind (isBranch r) slot k) w).1
        (disConversion (isBranch r) k) =
      operandExp k (valueOf k (w.toNat % 2 ^ operandWidth k)) := by
    intro k slot hk hreg hw hww h24
    refine operand_imm _ slot w off hreg hw hww fun h => ?_
    obtain ⟨hbr, hs⟩ := h.resolve_left h24
    exact hoff k hk hbr hs
  rcases restKinds_cases hrest with ⟨hb, hl⟩ | ⟨hb, hc, hl⟩ | ⟨hb, hc, hl⟩ | ⟨hb, hc, hd, hl⟩ <;>
    rw [hl] at himm ⊢
  · have h1 := himm r.opFb .hb (by simp) (by rcases hb with hb | hb <;> simp [hb, isRegKind, regFile])
      (by rcases hb with hb | hb <;> simp [hb, operandWidth])
      (by rcases hb with hb | hb <;> simp [hb]) (by rcases hb with hb | hb <;> simp [hb])
    simp [restSlots, h1, unpack]
  · have h1 := operand_ww (isBranch r) .hb w off
    have h2 := himm .immu16 .hc (by simp) rfl (by simp [operandWidth]) (by simp) (by simp)
    simp only [operandWidth] at h2
    simp [restSlots, hb, hc, h1, h2, unpack, operandWidth]
  · have h1 := operand_reg (isBranch r) off (isRegKind_of_isFrKind hb) hsb
    have h2 := himm r.opFc .hc (by simp) (by rcases hc with hc | hc <;> simp [hc, isRegKind, regFile])
      (by rcases hc with hc | hc <;> simp [hc, operandWidth])
      (by rcases hc with hc | hc <;> simp [hc]) (by rcases hc with hc | hc <;> simp [hc])
    rw [operandWidth_imm12 hc] at h2
    simp [restSlots, h1, h2, unpack, operandWidth_of_isFrKind hb, operandWidth_imm12 hc]
  · have h1 := operand_reg (isBranch r) off (isRegKind_of_isFrKind hb) hsb
    have h2 := operand_reg (isBranch r) off (isRegKind_of_isFrKind hc) hsc
    have h3 : Conversion.operand off (analyzeOperand (disKind (isBranch r) .hd r.opFd) w).1
        (disConversion (isBranch r) r.opFd) =
        operandExp r.opFd (valueOf r.opFd (w.toNat % 2 ^ 6)) := by
      rcases hd with hd | hd
      · exact operand_reg (isBranch r) off (isRegKind_of_isFrKind hd) hsd
      · have := himm r.opFd .hd (by simp) (by simp [hd, isRegKind, regFile])
          (by simp [hd, operandWidth]) (by simp [hd]) (by simp [hd])
        rwa [operandWidth_last (.inr hd)] at this
    simp [restSlots, h1, h2, h3, unpack, operandWidth_of_isFrKind hb, operandWidth_of_isFrKind hc,
      operandWidth_last hd]

/-- The kinds of the four slots of a row with a register or the minor opcode in the first. -/
lemma expectedRow_slots (r : DadaoOpcode) :
    [(expectedRow r).op1, (expectedRow r).op2, (expectedRow r).op3, (expectedRow r).op4] =
      if r.opFa = .op then restSlots r ++ [.none]
      else disKind (isBranch r) .ha r.opFa :: restSlots r := by
  by_cases hop : r.opFa = .op <;> simp [expectedRow, restSlots, hop]

/-- The printed line of a row in terms of its slots. -/
lemma printEntry_expectedRow (w : BitVec 32) (i : ℕ) (r : DadaoOpcode) {slots : List DisassembleType}
    (h : [(expectedRow r).op1, (expectedRow r).op2, (expectedRow r).op3, (expectedRow r).op4] =
      slots) :
    (printEntry w i (expectedRow r)).operands =
      (((operandKinds r).map (disConversion (isBranch r))).zip
        (slots.map fun s => (analyzeOperand s w).1)).map fun c => Conversion.operand
          (((slots.filterMap fun s => (analyzeOperand s w).2).getLast?).map (calOffset · w))
          c.2 c.1 := by
  simp only [Printed.operands, printEntry, h, List.map_map, List.filterMap_map]
  rfl

/-- **What the disassembler prints** for a word of a row: the operand values of the layout. -/
lemma printed_operands_eq {r : DadaoOpcode} (w : BitVec 32) (i : ℕ) (hr : wellShaped r = true) :
    (printEntry w i (expectedRow r)).operands = operands r (decode r w.toNat) := by
  simp only [wellShaped, Bool.and_eq_true, Bool.or_eq_true, decide_eq_true_eq, beq_iff_eq] at hr
  obtain ⟨-, hshape⟩ := hr
  rw [printEntry_expectedRow w i r (expectedRow_slots r), operands, decode, widths]
  rcases hshape with ⟨hfa, hrest⟩ | ⟨⟨⟨hfa, hfb⟩, hfc⟩, hfd⟩
  · by_cases hop : r.opFa = .op
    · rw [if_pos hop, operandKinds_op hop, List.map_append]
      refine restSlots_operands w _ hrest (fun k hk hbr hs => ?_) _
      rw [List.filterMap_append, restSlots_offset w hrest hk hbr hs]
      simp [analyzeOperand]
    · have hreg := isRegKind_of_isFaKind hfa hop
      have hw : operandWidth r.opFa = 6 := by
        cases h : r.opFa <;> simp_all [isFaKind, operandWidth]
      have hnone : (analyzeOperand (disKind (isBranch r) .ha r.opFa) w).2 = none := by
        rw [disKind_reg _ _ hreg]
        rfl
      have hfirst := operand_reg (isBranch r)
        (((restSlots r).filterMap fun s => (analyzeOperand s w).2).getLast?.map (calOffset · w))
        hreg (toNat_slots w).1
      have hrest' := restSlots_operands w
        (((restSlots r).filterMap fun s => (analyzeOperand s w).2).getLast?.map (calOffset · w))
        hrest (fun k hk hbr hs => by rw [restSlots_offset w hrest hk hbr hs]; rfl) []
      rw [List.append_nil] at hrest'
      rw [if_neg hop, operandKinds_reg hfa hop,
        List.filterMap_cons_none (f := fun s => (analyzeOperand s w).2) hnone]
      simp only [List.map_cons, List.zip_cons_cons, hfirst, hrest', unpack, List.zipWith_cons_cons,
        restWidths_sum hrest, hw]
  · have hk : operandKinds r = [.imms24] := by simp [operandKinds, hfa, hfb, hfc, hfd]
    have hslots : restSlots r = [.none, .none, .none] := by simp [restSlots, hfb, hfc, hfd, disKind]
    have h := operand_imm (k := .imms24) (isBranch r) .ha w (some (calOffset 24 w)) rfl
      (by simp [operandWidth]) (by simp) fun _ => rfl
    simpa [hk, hfa, hslots, disKind, analyzeOperand, unpack] using h

/-! ## Encoding and decoding -/

section Codec

variable {r : DadaoOpcode} {vals : List ℤ}

/-- The fields of operands in range fit their widths. -/
lemma fields_lt {ks : List OperandType} (hv : List.Forall₂ InRange ks vals) :
    List.Forall₂ (fun w v => v < 2 ^ w) (ks.map operandWidth) (List.zipWith fieldOf ks vals) := by
  induction hv with
  | nil => exact .nil
  | cons _ _ ih => exact .cons (fieldOf_lt _ _) ih

/-- The values of the fields of operands in range. -/
lemma zipWith_valueOf_fieldOf {ks : List OperandType} (hv : List.Forall₂ InRange ks vals) :
    List.zipWith valueOf ks (List.zipWith fieldOf ks vals) = vals := by
  induction hv with
  | nil => rfl
  | cons h _ ih => simp [valueOf_fieldOf h, ih]

/-- The fields of the values of fields that fit. -/
lemma zipWith_fieldOf_valueOf {ks : List OperandType} {fs : List ℕ}
    (h : List.Forall₂ (fun w v => v < 2 ^ w) (ks.map operandWidth) fs) :
    List.zipWith fieldOf ks (List.zipWith valueOf ks fs) = fs := by
  induction ks generalizing fs with
  | nil =>
    cases h
    rfl
  | cons k ks ih =>
    obtain _ | ⟨h, hrest⟩ := h
    simp [fieldOf_valueOf h, ih hrest]

/-- The values of fields that fit are in range. -/
lemma forall₂_inRange_valueOf {ks : List OperandType} {fs : List ℕ}
    (h : List.Forall₂ (fun w v => v < 2 ^ w) (ks.map operandWidth) fs) :
    List.Forall₂ InRange ks (List.zipWith valueOf ks fs) := by
  induction ks generalizing fs with
  | nil => exact .nil
  | cons k ks ih =>
    obtain _ | ⟨h, hrest⟩ := h
    exact .cons (inRange_valueOf h) (ih hrest)

/-- Decoding the word of operands in range. -/
lemma decode_encode (hv : List.Forall₂ InRange (operandKinds r) vals) :
    decode r (encode r vals) = vals := by
  rw [decode, encode, Nat.add_comm, unpack_add_mul, widths, unpack_pack (fields_lt hv),
    zipWith_valueOf_fieldOf hv]

/-- Encoding the operands of a word of the row. -/
lemma encode_decode {w : ℕ} (h : w / 2 ^ (widths r).sum = header r) :
    encode r (decode r w) = w := by
  have hfields : List.zipWith fieldOf (operandKinds r) (decode r w) = unpack (widths r) w :=
    zipWith_fieldOf_valueOf (unpack_lt _ _)
  rw [encode, hfields, pack_unpack, ← h, Nat.mul_comm, Nat.div_add_mod]

/-- The operands of any word are in range. -/
lemma inRange_decode (r : DadaoOpcode) (w : ℕ) :
    List.Forall₂ InRange (operandKinds r) (decode r w) :=
  forall₂_inRange_valueOf (unpack_lt _ _)

/-- The opcode bits of a word of the row. -/
lemma encode_div (hv : List.Forall₂ InRange (operandKinds r) vals) :
    encode r vals / 2 ^ (widths r).sum = header r := by
  have hlt : pack (widths r) _ < 2 ^ (widths r).sum := pack_lt (fields_lt hv)
  rw [encode, Nat.mul_comm, Nat.mul_add_div (Nat.two_pow_pos _), Nat.div_eq_of_lt hlt,
    Nat.add_zero]

/-- The widths of the opcode and of the operands make a word. -/
lemma widths_sum (hr : wellShaped r = true) :
    (widths r).sum = (if r.opFa = .op then 18 else 24) ∧
      header r < 2 ^ (if r.opFa = .op then 14 else 8) := by
  simp only [wellShaped, Bool.and_eq_true, Bool.or_eq_true, decide_eq_true_eq, beq_iff_eq] at hr
  obtain ⟨⟨⟨hM, hm⟩, -⟩, ⟨hfa, hrest⟩ | ⟨⟨⟨hfa, hfb⟩, hfc⟩, hfd⟩⟩ := hr
  · by_cases hop : r.opFa = .op
    · rw [widths, operandKinds_op hop, restWidths_sum hrest, header]
      rw [if_pos hop, if_pos hop, if_pos hop]
      omega
    · have hw : operandWidth r.opFa = 6 := by
        cases h : r.opFa <;> simp_all [isFaKind, operandWidth]
      rw [widths, operandKinds_reg hfa hop, List.map_cons, List.sum_cons, restWidths_sum hrest, hw,
        header]
      rw [if_neg hop, if_neg hop, if_neg hop]
      omega
  · simp [widths, operandKinds, hfa, hfb, hfc, hfd, operandWidth, header]
    omega

/-- A word has the match bits of a row when its top bits are the opcode. -/
lemma matches_iff (hr : wellShaped r = true) (w : BitVec 32) :
    w &&& (expectedRow r).opcodeMask = (expectedRow r).opcodeMatch ↔
      w.toNat / 2 ^ (widths r).sum = header r := by
  obtain ⟨hsum, hlt⟩ := widths_sum hr
  have hw := w.isLt
  rw [← BitVec.toNat_inj, hsum]
  by_cases hop : r.opFa = .op
  · simp only [hop, if_true] at hlt ⊢
    rw [show (expectedRow r).opcodeMask = 0xfffc0000#32 by simp [expectedRow, hop],
      toNat_and_high _ _ 18 (by decide) (by omega),
      show (expectedRow r).opcodeMatch = BitVec.ofNat 32 (header r * 2 ^ 18) by
        simp [expectedRow, hop], BitVec.toNat_ofNat, Nat.mod_eq_of_lt (by omega)]
    omega
  · simp only [hop, if_false] at hlt ⊢
    rw [show (expectedRow r).opcodeMask = 0xff000000#32 by simp [expectedRow, hop],
      toNat_and_high _ _ 24 (by decide) (by omega),
      show (expectedRow r).opcodeMatch = BitVec.ofNat 32 (header r * 2 ^ 24) by
        simp [expectedRow, hop], BitVec.toNat_ofNat, Nat.mod_eq_of_lt (by omega)]
    omega

/-- The word of operands in range has 32 bits. -/
lemma encode_lt (hr : wellShaped r = true) (hv : List.Forall₂ InRange (operandKinds r) vals) :
    encode r vals < 2 ^ 32 := by
  obtain ⟨hsum, hlt⟩ := widths_sum hr
  have hpack : pack (widths r) _ < 2 ^ (widths r).sum := pack_lt (fields_lt hv)
  rw [hsum] at hpack
  rw [encode, hsum]
  by_cases hop : r.opFa = .op
  · rw [if_pos hop] at hlt hpack ⊢
    omega
  · rw [if_neg hop] at hlt hpack ⊢
    omega

end Codec

end Dadao.Gas
