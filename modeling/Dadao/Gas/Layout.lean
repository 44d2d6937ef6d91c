import Dadao.Gas.Disassemble
import Dadao.Lib.Bits
import Mathlib.Data.List.Forall2
import Mathlib.Tactic.SplitIfs

set_option relaxedAutoImplicit false
set_option autoImplicit false

/-!
# The layout of instruction words

Every row of the assembler's table puts its operands into consecutive fields of the word, below
the opcode. This file states that layout once, as `encode` and `decode`, and shows that
`dd_get_insn_code` builds `encode`.

## Main definitions

* `Dadao.Gas.InRange` — the values an operand kind declares.
* `Dadao.Gas.encode`, `Dadao.Gas.decode` — the word of a row and its operands.

## Main results

* `Dadao.Gas.ddGetInsnCode_eq_encode` — what `dd_get_insn_code` builds.
* `Dadao.Gas.ddGetInsnCode_eq_none` — a row whose kinds clash with the operands rejects them.
-/

namespace Dadao.Gas

open Dadao.Opcodes Dadao.Bits

/-! ## Operands and their ranges -/

/-- The number of bits of an operand. -/
def operandWidth : OperandType → ℕ
  | .rd | .rb | .rf | .ra | .cp | .cr | .immu6 => 6
  | .immu12 | .imms12 => 12
  | .immu18 | .imms18 => 18
  | .imms24 => 24
  | .ww => 2
  | .immu16 => 16
  | .none | .op | .noop => 0

/-- The signed immediates. -/
def operandSigned : OperandType → Bool
  | .imms12 | .imms18 | .imms24 => true
  | _ => false

/-- The values an operand kind declares: register numbers, wyde positions and immediates. -/
def InRange (k : OperandType) (v : ℤ) : Prop :=
  if operandSigned k then -2 ^ (operandWidth k - 1) ≤ v ∧ v < 2 ^ (operandWidth k - 1)
  else 0 ≤ v ∧ v < 2 ^ operandWidth k

instance (k : OperandType) (v : ℤ) : Decidable (InRange k v) :=
  inferInstanceAs (Decidable (if operandSigned k then _ else _))

/-- The register files, with the number of their first register. -/
def regFile : OperandType → Option (String × ℤ)
  | .rd => some ("rd", 0)
  | .rb => some ("rb", 0x40)
  | .rf => some ("rf", 0x80)
  | .ra => some ("ra", 0xC0)
  | .cp => some ("cp", 0x100)
  | .cr => some ("cr", 0x140)
  | _ => none

/-- The parsed form of an operand of a kind with a given value. -/
def operandExp (k : OperandType) (v : ℤ) : ExpressionS :=
  match regFile k with
  | some (_, base) => ⟨.register, base + v, 0, 0⟩
  | none => if k = .ww then ⟨.wyde, v, 0, 0⟩ else .const v

/-- The kinds of the operands of a row, in source order. -/
def operandKinds (r : DadaoOpcode) : List OperandType :=
  [r.opFa, r.opFb, r.opFc, r.opFd].filter fun k => k != .op && k != .none

/-- The operands of a row with given values. -/
def operands (r : DadaoOpcode) (vals : List ℤ) : List ExpressionS :=
  List.zipWith operandExp (operandKinds r) vals

/-- The operand array starts with the given operands; what follows them is not looked at. -/
def HasOperands (exp : ℕ → ExpressionS) (ops : List ExpressionS) : Prop :=
  ∀ i e, ops[i]? = some e → exp i = e

/-! ## Fields -/

/-- The field an operand value is stored as. -/
def fieldOf (k : OperandType) (v : ℤ) : ℕ := (v % 2 ^ operandWidth k).toNat

/-- The operand value a field stands for. -/
def valueOf (k : OperandType) (n : ℕ) : ℤ :=
  if operandSigned k ∧ 2 ^ (operandWidth k - 1) ≤ n then n - 2 ^ operandWidth k else n

/-- A field fits its width. -/
lemma fieldOf_lt (k : OperandType) (v : ℤ) : fieldOf k v < 2 ^ operandWidth k := by
  cases k <;> simp only [fieldOf, operandWidth] <;> omega

/-- The value of the field of a value in range. -/
lemma valueOf_fieldOf {k : OperandType} {v : ℤ} (h : InRange k v) : valueOf k (fieldOf k v) = v := by
  cases k <;> simp [InRange, operandWidth, operandSigned] at h <;>
    simp [valueOf, fieldOf, operandWidth, operandSigned] <;> omega

/-- The field of the value of a field. -/
lemma fieldOf_valueOf {k : OperandType} {n : ℕ} (h : n < 2 ^ operandWidth k) :
    fieldOf k (valueOf k n) = n := by
  cases k <;> simp [operandWidth] at h <;>
    simp [valueOf, fieldOf, operandWidth, operandSigned] <;> omega

/-- The value of a field is in range. -/
lemma inRange_valueOf {k : OperandType} {n : ℕ} (h : n < 2 ^ operandWidth k) :
    InRange k (valueOf k n) := by
  cases k <;> simp [operandWidth] at h <;>
    simp [valueOf, InRange, operandWidth, operandSigned] <;> omega

/-! ## Well-shaped rows -/

/-- The kinds of the first slot: a register or the minor opcode. -/
def isFaKind : OperandType → Bool
  | .rd | .rb | .rf | .ra | .cp | .op => true
  | _ => false

/-- The register kinds of the other slots. -/
def isFrKind : OperandType → Bool
  | .rd | .rb | .rf | .ra | .cr => true
  | _ => false

/-- The kinds of the last three slots of a row with a register or minor opcode in the first:
`riii`, `rrii`, `rwii` and `rrrr`. -/
def isRest : OperandType → OperandType → OperandType → Bool
  | .imms18, .none, .none | .immu18, .none, .none => true
  | .ww, .immu16, .none => true
  | b, .imms12, .none | b, .immu12, .none => isFrKind b
  | b, c, .immu6 => isFrKind b && isFrKind c
  | b, c, d => isFrKind b && isFrKind c && isFrKind d

/-- The rows the layout below describes. -/
def wellShaped (r : DadaoOpcode) : Bool :=
  decide (r.majorOpcode.toNat < 256) && decide (r.minorOpcode.toNat < 64) &&
    r.operandsNum == (operandKinds r).length &&
    (isFaKind r.opFa && isRest r.opFb r.opFc r.opFd ||
      r.opFa == .imms24 && r.opFb == .none && r.opFc == .none && r.opFd == .none)

/-- The opcode bits of a row: the major opcode, and the minor one if it has one. -/
def header (r : DadaoOpcode) : ℕ :=
  if r.opFa = .op then r.majorOpcode.toNat * 64 + r.minorOpcode.toNat else r.majorOpcode.toNat

/-- The widths of the operands. -/
def widths (r : DadaoOpcode) : List ℕ := (operandKinds r).map operandWidth

/-- The word of a row with given operand values. -/
def encode (r : DadaoOpcode) (vals : List ℤ) : ℕ :=
  header r * 2 ^ (widths r).sum + pack (widths r) (List.zipWith fieldOf (operandKinds r) vals)

/-- The operand values in a word of a row. -/
def decode (r : DadaoOpcode) (w : ℕ) : List ℤ :=
  List.zipWith valueOf (operandKinds r) (unpack (widths r) w)

/-- The rows of one shape. -/
lemma isRest_cases {b c d : OperandType} (h : isRest b c d = true) :
    ((b = .imms18 ∨ b = .immu18) ∧ c = .none ∧ d = .none) ∨
    (b = .ww ∧ c = .immu16 ∧ d = .none) ∨
    (isFrKind b = true ∧ (c = .imms12 ∨ c = .immu12) ∧ d = .none) ∨
    (isFrKind b = true ∧ isFrKind c = true ∧ (isFrKind d = true ∨ d = .immu6)) := by
  revert h
  unfold isRest
  split <;> simp_all [isFrKind]

/-! ## The operand macros -/

/-- The macro for a register kind. -/
def macroOf : OperandType → ExpressionS → Except Ret (BitVec 32)
  | .rd => expShouldBeRd
  | .rb => expShouldBeRb
  | .rf => expShouldBeRf
  | .ra => expShouldBeRa
  | .cp => expShouldBeCp
  | .cr => expShouldBeCr
  | _ => fun _ => .error none

/-- The register kinds. -/
def isRegKind (k : OperandType) : Bool := (regFile k).isSome

/-- The register macro on a number of its file. -/
lemma expShouldBeReg_ok {lo hi : ℤ} {e : ExpressionS} (hop : e.xOp = .register)
    (hlo : lo ≤ e.xAddNumber) (hhi : e.xAddNumber ≤ hi) :
    expShouldBeReg lo hi e = .ok (BitVec.ofInt 32 (e.xAddNumber - lo)) := by
  rw [expShouldBeReg, if_neg (by simp [hop]), if_neg (by omega), if_neg (by omega)]

/-- The register macro on anything else. -/
lemma expShouldBeReg_error {lo hi : ℤ} {e : ExpressionS}
    (h : e.xOp = .register → e.xAddNumber < lo ∨ hi < e.xAddNumber) :
    expShouldBeReg lo hi e = .error none := by
  unfold expShouldBeReg
  split_ifs with hop hhi hlo
  · rfl
  · rfl
  · rfl
  · rcases h (not_not.mp hop) with h | h <;> omega

/-- The macro for `rd` agrees with the others wherever register numbers are not negative. -/
lemma expShouldBeRd_eq {e : ExpressionS} (h : e.xOp = .register → 0 ≤ e.xAddNumber) :
    expShouldBeRd e = expShouldBeReg 0 0x3F e := by
  unfold expShouldBeRd expShouldBeReg
  by_cases hop : e.xOp = .register
  · simp only [sub_zero, if_neg (not_lt.mpr (h hop))]
  · simp only [ne_eq, hop, not_false_eq_true, if_true]

/-- The register an operand of a register kind names; other operands name none. -/
lemma operandExp_register {k : OperandType} {v : ℤ} (hv : InRange k v)
    (hop : (operandExp k v).xOp = .register) :
    ∃ f base, regFile k = some (f, base) ∧ (operandExp k v).xAddNumber = base + v ∧
      0 ≤ base ∧ 0 ≤ v ∧ v ≤ 0x3F := by
  cases k <;> simp_all [operandExp, regFile, ExpressionS.const, InRange, operandSigned,
    operandWidth] <;> omega

/-- The common form of the register macros. -/
lemma macroOf_eq {k k' : OperandType} {v : ℤ} {f : String} {base : ℤ}
    (hk' : regFile k' = some (f, base)) (hv : InRange k v) :
    macroOf k' (operandExp k v) = expShouldBeReg base (base + 0x3F) (operandExp k v) := by
  cases k' <;> simp [regFile] at hk' <;> obtain ⟨rfl, rfl⟩ := hk' <;> try rfl
  refine expShouldBeRd_eq fun hop => ?_
  obtain ⟨_, base, _, hnum, hbase, hv0, _⟩ := operandExp_register hv hop
  omega

/-- A macro takes a register of its file. -/
lemma macroOf_operandExp {k : OperandType} {v : ℤ} (hk : isRegKind k = true) (hv : InRange k v) :
    macroOf k (operandExp k v) = .ok (BitVec.ofNat 32 (fieldOf k v)) := by
  obtain ⟨⟨f, base⟩, hf⟩ := Option.isSome_iff_exists.mp hk
  have hop : (operandExp k v).xOp = .register := by rw [operandExp, hf]
  have hnum : (operandExp k v).xAddNumber = base + v := by rw [operandExp, hf]
  have hv' : 0 ≤ v ∧ v ≤ 0x3F ∧ v = (fieldOf k v : ℤ) := by
    cases k <;> simp [regFile] at hf <;> simp [InRange, operandSigned, operandWidth] at hv <;>
      simp [fieldOf, operandWidth] <;> omega
  have hb : BitVec.ofInt 32 v = BitVec.ofNat 32 (fieldOf k v) := by
    conv_lhs => rw [hv'.2.2]
    exact BitVec.ofInt_natCast 32 _
  rw [macroOf_eq hf hv, expShouldBeReg_ok hop (by omega) (by omega), hnum, add_sub_cancel_left, hb]

/-- A macro rejects the operands of every other kind. -/
lemma macroOf_clash {k k' : OperandType} {v : ℤ} (hk' : isRegKind k' = true) (hne : k ≠ k')
    (hv : InRange k v) : macroOf k' (operandExp k v) = .error none := by
  obtain ⟨⟨f', base'⟩, hf'⟩ := Option.isSome_iff_exists.mp hk'
  rw [macroOf_eq hf' hv]
  refine expShouldBeReg_error fun hop => ?_
  obtain ⟨f, base, hf, hnum, -, hv0, hv1⟩ := operandExp_register hv hop
  have hfar : base + 0x40 ≤ base' ∨ base' + 0x40 ≤ base := by
    cases k <;> simp [regFile] at hf <;> cases k' <;> simp [regFile] at hf' hne <;> omega
  omega

lemma isRegKind_of_isFrKind {k : OperandType} (h : isFrKind k = true) : isRegKind k = true := by
  cases k <;> simp_all [isFrKind, isRegKind, regFile]

/-- The first switch on a register. -/
lemma switchFa_reg {r : DadaoOpcode} (exp : ℕ → ExpressionS) (h : isFaKind r.opFa = true)
    (hop : r.opFa ≠ .op) :
    switchFa r exp = (macroOf r.opFa (exp 0)).bind fun v => .ok (v, 1) := by
  unfold switchFa
  cases hk : r.opFa <;> simp_all [isFaKind, macroOf, bind, pure, Except.pure]

/-- The second switch on a register. -/
lemma switchFb_reg {r : DadaoOpcode} (exp : ℕ → ExpressionS) (ha : BitVec 32) (n : ℕ)
    (h : isFrKind r.opFb = true) :
    switchFb r exp ha n = (macroOf r.opFb (exp n)).bind fun v => .ok (v, n + 1) := by
  unfold switchFb
  cases hk : r.opFb <;> simp_all [isFrKind, macroOf, bind, pure, Except.pure]

/-- The third switch on a register. -/
lemma switchFc_reg {r : DadaoOpcode} (ha hb : BitVec 32) (e e' : ExpressionS)
    (h : isFrKind r.opFc = true) : switchFc r ha hb e e' = macroOf r.opFc e' := by
  unfold switchFc
  cases hk : r.opFc <;> simp_all [isFrKind, macroOf]

/-- The fourth switch on a register. -/
lemma switchFd_reg {r : DadaoOpcode} (e : ExpressionS)
    (h : isFrKind r.opFd = true) : switchFd r e = macroOf r.opFd e := by
  unfold switchFd
  cases hk : r.opFd <;> simp_all [isFrKind, macroOf]

/-- The immediate macro takes a value in its bounds. -/
lemma expShouldBeImm_const {v : ℤ} (lo hi : ℤ) (h : lo ≤ v ∧ v ≤ hi) :
    expShouldBeImm (.const v) lo hi = .ok (BitVec.ofInt 32 v) := by
  have hnum : (ExpressionS.const v).xAddNumber = v := rfl
  rw [expShouldBeImm, if_neg (by simp [ExpressionS.const]), if_neg (by omega), if_neg (by omega),
    hnum]

/-- The low bits of an immediate are its field. -/
lemma ofInt_and_mask {k : OperandType} {v : ℤ} (m : BitVec 32)
    (hm : m.toNat = 2 ^ operandWidth k - 1) :
    BitVec.ofInt 32 v &&& m = BitVec.ofNat 32 (fieldOf k v) := by
  apply BitVec.eq_of_toNat_eq
  rw [toNat_and_mask _ _ _ hm]
  have := fieldOf_lt k v
  cases k <;> simp [operandWidth, fieldOf, BitVec.toNat_ofInt] at this ⊢ <;> omega

/-! ## `dd_get_insn_code` builds the layout -/

/-- The kinds of the operands after the first slot. -/
def restKinds (r : DadaoOpcode) : List OperandType :=
  [r.opFb, r.opFc, r.opFd].filter fun k => k != .op && k != .none

/-- The body of `dd_get_insn_code` from the second switch on. -/
def bodyRest (g : ℕ → ExpressionS) (r : DadaoOpcode) (exp : ℕ → ExpressionS) (nOperands : ℕ)
    (ha : BitVec 32) (n : ℕ) : Except Ret (BitVec 32) := do
  let (hb, n) ← switchFb r exp ha n
  let (expNext, expLast) ← expNextLast g r exp nOperands n
  let hc ← switchFc r ha hb (exp n) expNext
  let hd ← switchFd r expLast
  return r.majorOpcode <<< 24 ||| ha <<< 18 ||| hb <<< 12 ||| hc <<< 6 ||| hd

/-- The word of a success, whether returned early or at the end. -/
def resultOf : Except Ret (BitVec 32) → Ret
  | .error r => r
  | .ok code => some (.normal, code)

/-- The first switch and the rest. -/
lemma ddGetInsnCode_eq (g : ℕ → ExpressionS) (r : DadaoOpcode) (exp : ℕ → ExpressionS) :
    ddGetInsnCode g r exp r.operandsNum =
      resultOf ((switchFa r exp).bind fun p => bodyRest g r exp r.operandsNum p.1 p.2) := by
  unfold ddGetInsnCode getInsnCodeBody
  simp only [ne_eq, not_true_eq_false, if_false]
  rfl

/-- The word from the opcode, the first field and the rest. -/
lemma word_eq {M : BitVec 32} {ha low : ℕ} {x : BitVec 32} (hM : M.toNat < 256) (hha : ha < 64)
    (hx : x.toNat = low) (hlow : low < 2 ^ 18) :
    M <<< 24 ||| BitVec.ofNat 32 ha <<< 18 ||| x =
      BitVec.ofNat 32 (M.toNat * 2 ^ 24 + ha * 2 ^ 18 + low) := by
  have hha' : (BitVec.ofNat 32 ha).toNat = ha := by
    rw [BitVec.toNat_ofNat, Nat.mod_eq_of_lt (by omega)]
  have h1 : (M <<< 24).toNat = M.toNat * 2 ^ 24 := toNat_shiftLeft_of_lt (by omega)
  have h2 := toNat_or_field (x := M <<< 24) (v := BitVec.ofNat 32 ha) 18 6 (by omega) (by omega)
    (by omega)
  have h3 := toNat_or_eq_add (a := M <<< 24 ||| BitVec.ofNat 32 ha <<< 18) (b := x) 18
    (by omega) (by omega)
  apply BitVec.eq_of_toNat_eq
  rw [h3, h2, h1, hha', hx, BitVec.toNat_ofNat, Nat.mod_eq_of_lt (by omega)]

/-- An immediate operand of the width the slot asks for. -/
lemma operandExp_imm {k : OperandType} {v : ℤ} (hreg : isRegKind k = false) (hw : k ≠ .ww) :
    operandExp k v = .const v := by
  have : regFile k = none := by simpa [isRegKind] using hreg
  simp [operandExp, this, hw]

section Rest

variable {g : ℕ → ExpressionS} {r : DadaoOpcode} {exp : ℕ → ExpressionS} {nOperands ha n : ℕ}

/-- The value of a field as a word. -/
lemma toNat_field (k : OperandType) (v : ℤ) : (BitVec.ofNat 32 (fieldOf k v)).toNat = fieldOf k v := by
  have := fieldOf_lt k v
  rw [BitVec.toNat_ofNat, Nat.mod_eq_of_lt]
  cases k <;> simp [operandWidth] at this ⊢ <;> omega

/-- The zero field is the field of zero. -/
lemma ofNat_field_eq_zero_iff {k : OperandType} {v : ℤ} (hv : InRange k v) :
    BitVec.ofNat 32 (fieldOf k v) = 0 ↔ v = 0 := by
  rw [← BitVec.toNat_inj, toNat_field]
  cases k <;> simp [InRange, operandSigned, operandWidth] at hv <;>
    simp [fieldOf, operandWidth] <;> omega

/-- The fields of registers have six bits. -/
lemma fieldOf_lt_64 {k : OperandType} (v : ℤ) (hk : operandWidth k = 6) : fieldOf k v < 64 := by
  simpa [hk] using fieldOf_lt k v

lemma operandWidth_of_isFrKind {k : OperandType} (h : isFrKind k = true) : operandWidth k = 6 := by
  cases k <;> simp_all [isFrKind, operandWidth]

/-- The next two operands without a shift expression. -/
lemma expNextLast_eq (hns : nOperands = 3 → (exp 2).xOp ≠ .leftShift) (m : ℕ) :
    expNextLast g r exp nOperands m = .ok (exp m, exp (m + 1)) := by
  rw [expNextLast, if_neg fun h => hns h.1 h.2]

lemma operandWidth_last {k : OperandType} (h : isFrKind k = true ∨ k = .immu6) :
    operandWidth k = 6 := by
  rcases h with h | rfl
  · exact operandWidth_of_isFrKind h
  · rfl

lemma operandWidth_imm12 {k : OperandType} (h : k = .imms12 ∨ k = .immu12) :
    operandWidth k = 12 := by
  rcases h with rfl | rfl <;> rfl

variable (hM : r.majorOpcode.toNat < 256) (hha : ha < 64)

include hM hha

/-- Rows with an 18-bit immediate. -/
lemma bodyRest_imm18 {v : ℤ} (hb : r.opFb = .imms18 ∨ r.opFb = .immu18) (hv : InRange r.opFb v)
    (he : exp n = operandExp r.opFb v) :
    resultOf (bodyRest g r exp nOperands (BitVec.ofNat 32 ha) n) =
      some (.normal, BitVec.ofNat 32
        (r.majorOpcode.toNat * 2 ^ 24 + ha * 2 ^ 18 + fieldOf r.opFb v)) := by
  have hw : operandWidth r.opFb = 18 := by rcases hb with hb | hb <;> simp [hb, operandWidth]
  have hlt : fieldOf r.opFb v < 2 ^ 18 := by simpa [hw] using fieldOf_lt r.opFb v
  have hword := word_eq (x := BitVec.ofInt 32 v &&& 0x3FFFF#32) hM hha
    (by rw [ofInt_and_mask (k := r.opFb) _ (by simp [hw]), toNat_field]) hlt
  rcases hb with hb | hb
  · have himm := expShouldBeImm_const (v := v) (-0x20000) 0x1FFFF (by
      simp [hb, InRange, operandSigned, operandWidth] at hv
      omega)
    rw [hb, operandExp_imm rfl (by simp)] at he
    simp only [bodyRest, switchFb, hb, he, himm, bind, Except.bind, ExpressionS.const_xOp, if_true,
      resultOf] at hword ⊢
    rw [hword]
  · have himm := expShouldBeImm_const (v := v) 0 0x3FFFF (by
      simp [hb, InRange, operandSigned, operandWidth] at hv
      omega)
    rw [hb, operandExp_imm rfl (by simp)] at he
    simp only [bodyRest, switchFb, hb, he, himm, bind, Except.bind, resultOf] at hword ⊢
    rw [hword]

variable (hns : nOperands = 3 → (exp 2).xOp ≠ .leftShift)

include hns

/-- Rows with a wyde position and a 16-bit immediate. -/
lemma bodyRest_wyde {v v' : ℤ} (hb : r.opFb = .ww) (hc : r.opFc = .immu16)
    (hv : InRange .ww v) (hv' : InRange .immu16 v')
    (he : exp n = operandExp .ww v) (he' : exp (n + 1) = operandExp .immu16 v') :
    resultOf (bodyRest g r exp nOperands (BitVec.ofNat 32 ha) n) =
      some (.normal, BitVec.ofNat 32 (r.majorOpcode.toNat * 2 ^ 24 + ha * 2 ^ 18 +
        (fieldOf .ww v * 2 ^ 16 + fieldOf .immu16 v'))) := by
  have hlt : fieldOf .ww v < 4 := fieldOf_lt .ww v
  have hlt' : fieldOf .immu16 v' < 2 ^ 16 := fieldOf_lt .immu16 v'
  simp [InRange, operandSigned, operandWidth] at hv hv'
  have hww : expShouldBeWw (exp n) = .ok (BitVec.ofNat 32 (fieldOf .ww v)) := by
    have hf : BitVec.ofInt 32 v = BitVec.ofNat 32 (fieldOf .ww v) := by
      rw [← BitVec.ofInt_natCast]
      congr 1
      simp [fieldOf, operandWidth]
      omega
    rw [he, expShouldBeWw, if_neg (by simp [operandExp, regFile]),
      if_neg (by simp [operandExp, regFile]; omega), ← hf]
    rfl
  have himm : expShouldBeImm (exp (n + 1)) 0 0xFFFF = .ok (BitVec.ofInt 32 v') := by
    rw [he', operandExp_imm rfl (by simp), expShouldBeImm_const _ _ (by omega)]
  have hlow : (BitVec.ofNat 32 (fieldOf .ww v) <<< 16 ||| (BitVec.ofInt 32 v' &&& 0xFFFF#32)).toNat
      = fieldOf .ww v * 2 ^ 16 + fieldOf .immu16 v' := by
    have h1 : (BitVec.ofNat 32 (fieldOf .ww v) <<< 16).toNat = fieldOf .ww v * 2 ^ 16 := by
      rw [toNat_shiftLeft_of_lt (by rw [toNat_field]; omega), toNat_field]
    have h2 : (BitVec.ofInt 32 v' &&& 0xFFFF#32).toNat = fieldOf .immu16 v' := by
      rw [ofInt_and_mask (k := .immu16) _ rfl, toNat_field]
    rw [toNat_or_eq_add 16 (by omega) (by omega), h1, h2]
  have hword := word_eq hM hha hlow (by omega)
  simp only [bodyRest, switchFb, hb, hww, expNextLast_eq hns, switchFc, hc, himm, bind, Except.bind,
    pure, Except.pure, resultOf]
  rw [← hword, BitVec.or_assoc]

/-- Rows with a register and a 12-bit immediate; the one operand choice that is rejected is the
call through two zero registers. -/
lemma bodyRest_imm12 {v v' : ℤ} (hb : isFrKind r.opFb = true)
    (hc : r.opFc = .imms12 ∨ r.opFc = .immu12)
    (hv : InRange r.opFb v) (hv' : InRange r.opFc v')
    (he : exp n = operandExp r.opFb v) (he' : exp (n + 1) = operandExp r.opFc v') :
    resultOf (bodyRest g r exp nOperands (BitVec.ofNat 32 ha) n) =
      if r.opFc = .imms12 ∧ r.majorOpcode = 0x6D#32 ∧ r.operandsNum = 3 ∧ ha = 0 ∧ v = 0 ∧ v' = 0
      then none
      else some (.normal, BitVec.ofNat 32 (r.majorOpcode.toNat * 2 ^ 24 + ha * 2 ^ 18 +
        (fieldOf r.opFb v * 2 ^ 12 + fieldOf r.opFc v'))) := by
  have hw : operandWidth r.opFc = 12 := operandWidth_imm12 hc
  have hlt : fieldOf r.opFb v < 64 := fieldOf_lt_64 v (operandWidth_of_isFrKind hb)
  have hlt' : fieldOf r.opFc v' < 2 ^ 12 := by simpa [hw] using fieldOf_lt r.opFc v'
  have hreg := macroOf_operandExp (isRegKind_of_isFrKind hb) hv
  have himm12 : (BitVec.ofInt 32 v' &&& 0xFFF#32) = BitVec.ofNat 32 (fieldOf r.opFc v') :=
    ofInt_and_mask _ (by simp [hw])
  have hlow : (BitVec.ofNat 32 (fieldOf r.opFb v) <<< 12 ||| (BitVec.ofInt 32 v' &&& 0xFFF#32)).toNat
      = fieldOf r.opFb v * 2 ^ 12 + fieldOf r.opFc v' := by
    have h1 : (BitVec.ofNat 32 (fieldOf r.opFb v) <<< 12).toNat = fieldOf r.opFb v * 2 ^ 12 := by
      rw [toNat_shiftLeft_of_lt (by rw [toNat_field]; omega), toNat_field]
    have h2 : (BitVec.ofInt 32 v' &&& 0xFFF#32).toNat = fieldOf r.opFc v' := by
      rw [himm12, toNat_field]
    rw [toNat_or_eq_add 12 (by omega) (by omega), h1, h2]
  have hword := word_eq hM hha hlow (by omega)
  rw [← BitVec.or_assoc] at hword
  have hbody : ∀ hc', switchFc r (BitVec.ofNat 32 ha) (BitVec.ofNat 32 (fieldOf r.opFb v))
      (exp (n + 1)) (exp (n + 1)) = .error hc' →
      resultOf (bodyRest g r exp nOperands (BitVec.ofNat 32 ha) n) = hc' := by
    intro hc' hsw
    simp only [bodyRest, switchFb_reg _ _ _ hb, he, hreg, expNextLast_eq hns, hsw, bind,
      Except.bind, resultOf]
  rcases hc with hc | hc
  · have himm := expShouldBeImm_const (v := v') (-0x800) 0x7FF (by
      simp [hc, InRange, operandSigned, operandWidth] at hv'
      omega)
    have hzero : (BitVec.ofNat 32 ha = 0 ∧ BitVec.ofNat 32 (fieldOf r.opFb v) = 0 ∧
        BitVec.ofInt 32 v' &&& 0xFFF#32 = 0) ↔ ha = 0 ∧ v = 0 ∧ v' = 0 := by
      rw [himm12, ← ofNat_field_eq_zero_iff hv, ← ofNat_field_eq_zero_iff hv',
        ← BitVec.toNat_inj, BitVec.toNat_ofNat, Nat.mod_eq_of_lt (by omega)]
      simp
    apply hbody
    rw [he', hc, operandExp_imm rfl (by simp)]
    simp only [switchFc, hc, ExpressionS.const_xOp, himm, bind, Except.bind, reduceCtorEq, if_false,
      hzero, true_and]
    split_ifs with h
    · rfl
    · rw [hword, hc]
  · have himm := expShouldBeImm_const (v := v') 0 0xFFF (by
      simp [hc, InRange, operandSigned, operandWidth] at hv'
      omega)
    rw [if_neg (by simp [hc])]
    apply hbody
    rw [he', hc, operandExp_imm rfl (by simp)]
    simp only [switchFc, hc, himm, bind, Except.bind]
    rw [hword, hc]

/-- Rows with registers, or a shift amount in the last slot. -/
lemma bodyRest_reg {v v' v'' : ℤ} (hb : isFrKind r.opFb = true) (hc : isFrKind r.opFc = true)
    (hd : isFrKind r.opFd = true ∨ r.opFd = .immu6)
    (hv : InRange r.opFb v) (hv' : InRange r.opFc v') (hv'' : InRange r.opFd v'')
    (he : exp n = operandExp r.opFb v) (he' : exp (n + 1) = operandExp r.opFc v')
    (he'' : exp (n + 2) = operandExp r.opFd v'') :
    resultOf (bodyRest g r exp nOperands (BitVec.ofNat 32 ha) n) =
      some (.normal, BitVec.ofNat 32 (r.majorOpcode.toNat * 2 ^ 24 + ha * 2 ^ 18 +
        (fieldOf r.opFb v * 2 ^ 12 + (fieldOf r.opFc v' * 2 ^ 6 + fieldOf r.opFd v'')))) := by
  have hlt : fieldOf r.opFb v < 64 := fieldOf_lt_64 v (operandWidth_of_isFrKind hb)
  have hlt' : fieldOf r.opFc v' < 64 := fieldOf_lt_64 v' (operandWidth_of_isFrKind hc)
  have hlt'' : fieldOf r.opFd v'' < 64 := fieldOf_lt_64 v'' (operandWidth_last hd)
  have hlast : switchFd r (exp (n + 1 + 1)) = .ok (BitVec.ofNat 32 (fieldOf r.opFd v'')) := by
    rcases hd with hd | hd
    · rw [switchFd_reg _ hd, he'', macroOf_operandExp (isRegKind_of_isFrKind hd) hv'']
    · have hf : BitVec.ofInt 32 v'' = BitVec.ofNat 32 (fieldOf .immu6 v'') := by
        rw [← BitVec.ofInt_natCast]
        congr 1
        simp [hd, InRange, operandSigned, operandWidth] at hv''
        simp [fieldOf, operandWidth]
        omega
      rw [switchFd, hd, he'', hd, operandExp_imm rfl (by simp)]
      simp only [ExpressionS.const_xOp, if_true]
      rw [expShouldBeImm_const, hf]
      simp [hd, InRange, operandSigned, operandWidth] at hv''
      omega
  have hlow : (BitVec.ofNat 32 (fieldOf r.opFb v) <<< 12 |||
      BitVec.ofNat 32 (fieldOf r.opFc v') <<< 6 ||| BitVec.ofNat 32 (fieldOf r.opFd v'')).toNat
      = fieldOf r.opFb v * 2 ^ 12 + (fieldOf r.opFc v' * 2 ^ 6 + fieldOf r.opFd v'') := by
    have h1 : (BitVec.ofNat 32 (fieldOf r.opFb v) <<< 12).toNat = fieldOf r.opFb v * 2 ^ 12 := by
      rw [toNat_shiftLeft_of_lt (by rw [toNat_field]; omega), toNat_field]
    have h2 := toNat_or_field (x := BitVec.ofNat 32 (fieldOf r.opFb v) <<< 12)
      (v := BitVec.ofNat 32 (fieldOf r.opFc v')) 6 6 (by omega) (by rw [toNat_field]; omega)
      (by omega)
    rw [toNat_field, h1] at h2
    rw [toNat_or_eq_add 6 (by omega) (by rw [toNat_field]; omega), h2, toNat_field]
    omega
  have hword := word_eq hM hha hlow (by omega)
  simp only [bodyRest, switchFb_reg _ _ _ hb, he, macroOf_operandExp (isRegKind_of_isFrKind hb) hv,
    expNextLast_eq hns, switchFc_reg _ _ _ _ hc, he',
    macroOf_operandExp (isRegKind_of_isFrKind hc) hv', hlast, bind, Except.bind, pure, Except.pure,
    resultOf]
  rw [← hword]
  simp only [BitVec.or_assoc]

omit hM hha hns in
/-- The kinds after the first slot fill eighteen bits. -/
lemma restKinds_cases (h : isRest r.opFb r.opFc r.opFd = true) :
    ((r.opFb = .imms18 ∨ r.opFb = .immu18) ∧ restKinds r = [r.opFb]) ∨
    (r.opFb = .ww ∧ r.opFc = .immu16 ∧ restKinds r = [.ww, .immu16]) ∨
    (isFrKind r.opFb = true ∧ (r.opFc = .imms12 ∨ r.opFc = .immu12) ∧
      restKinds r = [r.opFb, r.opFc]) ∨
    (isFrKind r.opFb = true ∧ isFrKind r.opFc = true ∧
      (isFrKind r.opFd = true ∨ r.opFd = .immu6) ∧ restKinds r = [r.opFb, r.opFc, r.opFd]) := by
  have hfr : ∀ {k}, isFrKind k = true → (k != .op && k != .none) = true := by
    intro k hk
    cases k <;> simp_all [isFrKind]
  rcases isRest_cases h with ⟨hb, hc, hd⟩ | ⟨hb, hc, hd⟩ | ⟨hb, hc, hd⟩ | ⟨hb, hc, hd⟩
  · refine .inl ⟨hb, ?_⟩
    rcases hb with hb | hb <;> simp [restKinds, hb, hc, hd]
  · exact .inr (.inl ⟨hb, hc, by simp [restKinds, hb, hc, hd]⟩)
  · refine .inr (.inr (.inl ⟨hb, hc, ?_⟩))
    rcases hc with hc | hc <;> simp [restKinds, hfr hb, hc, hd]
  · refine .inr (.inr (.inr ⟨hb, hc, hd, ?_⟩))
    rcases hd with hd | hd <;> simp [restKinds, hfr hb, hfr hc, hd, hfr]

/-- The word built after the first switch. -/
lemma bodyRest_eq {rvals : List ℤ} (h : isRest r.opFb r.opFc r.opFd = true)
    (hv : List.Forall₂ InRange (restKinds r) rvals)
    (hexp : ∀ i e, (List.zipWith operandExp (restKinds r) rvals)[i]? = some e → exp (n + i) = e) :
    resultOf (bodyRest g r exp nOperands (BitVec.ofNat 32 ha) n) =
      if r.opFc = .imms12 ∧ r.majorOpcode = 0x6D#32 ∧ r.operandsNum = 3 ∧ ha = 0 ∧ rvals = [0, 0]
      then none
      else some (.normal, BitVec.ofNat 32 (r.majorOpcode.toNat * 2 ^ 24 + ha * 2 ^ 18 +
        pack ((restKinds r).map operandWidth) (List.zipWith fieldOf (restKinds r) rvals))) := by
  rcases restKinds_cases h with ⟨hb, hk⟩ | ⟨hb, hc, hk⟩ | ⟨hb, hc, hk⟩ | ⟨hb, hc, hd, hk⟩ <;>
    rw [hk] at hv hexp ⊢
  · obtain _ | ⟨hv, _ | _⟩ := hv
    have he : exp n = _ := hexp 0 _ rfl
    rw [bodyRest_imm18 hM hha hb hv he, if_neg (by simp)]
    simp [pack]
  · obtain _ | ⟨hv, _ | ⟨hv', _ | _⟩⟩ := hv
    have he : exp n = _ := hexp 0 _ rfl
    rw [bodyRest_wyde hM hha hns hb hc hv hv' he (hexp 1 _ rfl), if_neg (by simp [hc])]
    simp [pack, operandWidth]
  · obtain _ | ⟨hv, _ | ⟨hv', _ | _⟩⟩ := hv
    have he : exp n = _ := hexp 0 _ rfl
    have hw : operandWidth r.opFc = 12 := operandWidth_imm12 hc
    rw [bodyRest_imm12 hM hha hns hb hc hv hv' he (hexp 1 _ rfl)]
    simp [pack, hw]
  · obtain _ | ⟨hv, _ | ⟨hv', _ | ⟨hv'', _ | _⟩⟩⟩ := hv
    have he : exp n = _ := hexp 0 _ rfl
    have hw' : operandWidth r.opFc = 6 := operandWidth_of_isFrKind hc
    have hw : operandWidth r.opFd = 6 := operandWidth_last hd
    rw [bodyRest_reg hM hha hns hb hc hd hv hv' hv'' he (hexp 1 _ rfl) (hexp 2 _ rfl),
      if_neg (by simp)]
    simp [pack, hw, hw']

end Rest

/-- The operands of a call through two zero registers, which the assembler says does not exist. -/
def IsCallZero (r : DadaoOpcode) (vals : List ℤ) : Prop :=
  r.opFc = .imms12 ∧ r.majorOpcode = 0x6D#32 ∧ r.operandsNum = 3 ∧ vals = [0, 0, 0]

instance (r : DadaoOpcode) (vals : List ℤ) : Decidable (IsCallZero r vals) :=
  inferInstanceAs (Decidable (_ ∧ _))

/-- A row whose first slot is the minor opcode has no operand there. -/
lemma operandKinds_op {r : DadaoOpcode} (h : r.opFa = .op) : operandKinds r = restKinds r := by
  simp [operandKinds, restKinds, h]

/-- A row whose first slot is a register. -/
lemma operandKinds_reg {r : DadaoOpcode} (h : isFaKind r.opFa = true) (hop : r.opFa ≠ .op) :
    operandKinds r = r.opFa :: restKinds r := by
  have hk : (r.opFa != .op && r.opFa != .none) = true := by
    cases hk : r.opFa <;> simp_all [isFaKind]
  simp [operandKinds, restKinds, hk]

/-- The operands after the first slot fill eighteen bits. -/
lemma restWidths_sum {r : DadaoOpcode} (h : isRest r.opFb r.opFc r.opFd = true) :
    ((restKinds r).map operandWidth).sum = 18 := by
  rcases restKinds_cases h with ⟨hb, hk⟩ | ⟨hb, hc, hk⟩ | ⟨hb, hc, hk⟩ | ⟨hb, hc, hd, hk⟩
  · rcases hb with hb | hb <;> simp [hk, hb, operandWidth]
  · simp [hk, operandWidth]
  · simp [hk, operandWidth_imm12 hc, operandWidth_of_isFrKind hb]
  · simp [hk, operandWidth_of_isFrKind hb, operandWidth_of_isFrKind hc, operandWidth_last hd]

/-- No operand of a row is a shift expression. -/
lemma operandExp_ne_leftShift (k : OperandType) (v : ℤ) :
    (operandExp k v).xOp ≠ .leftShift := by
  cases k <;> simp [operandExp, regFile]

/-- **What `dd_get_insn_code` builds**: the word of the layout, except that it rejects the call
through two zero registers.

**Proof sketch.** The first slot is the minor opcode, a register or a 24-bit immediate; in the
first two cases the remaining switches are those of `bodyRest_eq`. -/
lemma ddGetInsnCode_eq_encode {g : ℕ → ExpressionS} {r : DadaoOpcode} {exp : ℕ → ExpressionS}
    {vals : List ℤ} (hr : wellShaped r = true) (hv : List.Forall₂ InRange (operandKinds r) vals)
    (hexp : HasOperands exp (operands r vals)) :
    ddGetInsnCode g r exp vals.length =
      if IsCallZero r vals then none else some (.normal, BitVec.ofNat 32 (encode r vals)) := by
  simp only [wellShaped, Bool.and_eq_true, Bool.or_eq_true, decide_eq_true_eq, beq_iff_eq] at hr
  obtain ⟨⟨⟨hM, hm⟩, hnum⟩, hshape⟩ := hr
  have hlen : vals.length = r.operandsNum := by rw [hnum, hv.length_eq]
  have hns : r.operandsNum = 3 → (exp 2).xOp ≠ .leftShift := by
    intro h3
    have h2 : 2 < (operandKinds r).length := by omega
    have h2' : 2 < vals.length := by omega
    rw [hexp 2 (operandExp (operandKinds r)[2] vals[2]) (by simp [operands, h2, h2'])]
    exact operandExp_ne_leftShift _ _
  rw [hlen, ddGetInsnCode_eq]
  rcases hshape with ⟨hfa, hrest⟩ | ⟨⟨⟨hfa, hfb⟩, hfc⟩, hfd⟩
  · have hsum := restWidths_sum hrest
    by_cases hop : r.opFa = .op
    · have hk := operandKinds_op hop
      have hsw : switchFa r exp = .ok (BitVec.ofNat 32 r.minorOpcode.toNat, 0) := by
        simp [switchFa, hop]
      rw [hk] at hv
      rw [hsw]
      simp only [Except.bind]
      rw [bodyRest_eq hM hm hns hrest hv (by simpa [HasOperands, operands, hk] using hexp)]
      have hnz : ¬ (r.opFc = .imms12 ∧ r.majorOpcode = 0x6D#32 ∧ r.operandsNum = 3 ∧
          r.minorOpcode.toNat = 0 ∧ vals = [0, 0]) := by
        rintro ⟨-, -, h3, -, rfl⟩
        simp at hlen
        omega
      have hnz' : ¬ IsCallZero r vals := by
        rintro ⟨hc, -, -, rfl⟩
        have := hv.length_eq
        rcases restKinds_cases hrest with ⟨_, hk⟩ | ⟨_, _, hk⟩ | ⟨_, _, hk⟩ | ⟨_, hc', _, _⟩
        · simp [hk] at this
        · simp [hk] at this
        · simp [hk] at this
        · simp [hc, isFrKind] at hc'
      rw [if_neg hnz, if_neg hnz']
      have hhead : (r.majorOpcode.toNat * 64 + r.minorOpcode.toNat) * 2 ^ 18 =
          r.majorOpcode.toNat * 2 ^ 24 + r.minorOpcode.toNat * 2 ^ 18 := by omega
      simp only [encode, widths, header, hk, hsum, if_pos hop, hhead]
    · have hk := operandKinds_reg hfa hop
      have hreg : isRegKind r.opFa = true := by
        cases h : r.opFa <;> simp_all [isFaKind, isRegKind, regFile]
      have hw : operandWidth r.opFa = 6 := by
        cases h : r.opFa <;> simp_all [isFaKind, operandWidth]
      rw [hk] at hv
      obtain _ | ⟨hv0, hv⟩ := hv
      rename_i v rvals
      have he0 : exp 0 = operandExp r.opFa v := hexp 0 _ (by simp [operands, hk])
      rw [switchFa_reg exp hfa hop, he0, macroOf_operandExp hreg hv0]
      simp only [Except.bind]
      rw [bodyRest_eq hM (fieldOf_lt_64 v hw) hns hrest hv (by
        intro i e hi
        rw [Nat.add_comm]
        exact hexp (i + 1) e (by simpa [operands, hk] using hi))]
      have hzero : fieldOf r.opFa v = 0 ↔ v = 0 := by
        rw [← ofNat_field_eq_zero_iff hv0, ← BitVec.toNat_inj, toNat_field]
        simp
      simp only [IsCallZero, hzero, List.cons.injEq, encode, widths, header, hk, hop, if_false,
        List.map_cons, List.sum_cons, hw, hsum, List.zipWith_cons_cons, pack, Nat.add_assoc]
  · have hk : operandKinds r = [.imms24] := by simp [operandKinds, hfa, hfb, hfc, hfd]
    rw [hk] at hv
    obtain _ | ⟨hv, _ | _⟩ := hv
    rename_i v
    have he : exp 0 = .const v := by
      rw [← operandExp_imm (k := .imms24) rfl (by simp)]
      exact hexp 0 _ (by simp [operands, hk])
    have himm := expShouldBeImm_const (v := v) (-0x800000) 0x7FFFFF (by
      simp [InRange, operandSigned, operandWidth] at hv
      omega)
    have hlt : fieldOf .imms24 v < 2 ^ 24 := fieldOf_lt .imms24 v
    have hword : r.majorOpcode <<< 24 ||| (BitVec.ofInt 32 v &&& 0xFFFFFF#32) =
        BitVec.ofNat 32 (r.majorOpcode.toNat * 2 ^ 24 + fieldOf .imms24 v) := by
      have h1 : (r.majorOpcode <<< 24).toNat = r.majorOpcode.toNat * 2 ^ 24 :=
        toNat_shiftLeft_of_lt (by omega)
      apply BitVec.eq_of_toNat_eq
      rw [ofInt_and_mask (k := .imms24) _ rfl, toNat_or_eq_add 24 (by omega)
        (by rw [toNat_field]; omega), h1, toNat_field, BitVec.toNat_ofNat,
        Nat.mod_eq_of_lt (by omega)]
    rw [if_neg (by simp [IsCallZero])]
    simp only [switchFa, hfa, he, ExpressionS.const_xOp, if_true, himm, bind, Except.bind,
      resultOf, hword]
    simp [encode, header, widths, hk, hfa, pack, operandWidth]

/-! ## Rows that reject the operands of another row -/

/-- The kind of some operand is not the given one. -/
def otherKind (ks : List OperandType) (i : ℕ) (k : OperandType) : Bool := ks[i]?.any (· != k)

/-- The slots of `r'` after the first reject operands of the kinds `ks` from position `n` on: a
register slot meets an operand of another kind, or an immediate meets a register. -/
def clashesRest (r' : DadaoOpcode) (ks : List OperandType) (n : ℕ) : Bool :=
  isFrKind r'.opFb && (otherKind ks n r'.opFb ||
    (r'.opFc == .imms12 || r'.opFc == .immu12) && ks[n + 1]?.any isRegKind ||
    isFrKind r'.opFc && isFrKind r'.opFd &&
      (otherKind ks (n + 1) r'.opFc || otherKind ks (n + 2) r'.opFd))

/-- The row `r'` rejects operands of the kinds `ks`: their number differs or a slot meets an
operand it does not take. -/
def clashes (r' : DadaoOpcode) (ks : List OperandType) : Bool :=
  ks.length != r'.operandsNum ||
    isFaKind r'.opFa && (if r'.opFa = .op then clashesRest r' ks 0
      else otherKind ks 0 r'.opFa || clashesRest r' ks 1)

/-- A macro fails or yields a field; it never leaves the function with a word. -/
lemma macroOf_bind_eq_none {k : OperandType} {e : ExpressionS}
    {f : BitVec 32 → Except Ret (BitVec 32)} (h : ∀ v, macroOf k e = .ok v → resultOf (f v) = none) :
    resultOf ((macroOf k e).bind f) = none := by
  cases hm : macroOf k e with
  | ok v => exact h v hm
  | error r =>
    have hr : r = none := by
      cases k <;> simp only [macroOf, expShouldBeRd, expShouldBeRb, expShouldBeRf, expShouldBeRa,
        expShouldBeCp, expShouldBeCr, expShouldBeReg] at hm <;> grind
    simp [Except.bind, resultOf, hr]

section Clash

variable {g : ℕ → ExpressionS} {r' : DadaoOpcode} {exp : ℕ → ExpressionS}
variable {ks : List OperandType} {vals : List ℤ}
variable (hv : List.Forall₂ InRange ks vals) (hexp : HasOperands exp (List.zipWith operandExp ks vals))

include hv hexp

/-- The operand at a position. -/
lemma operand_at {i : ℕ} {k : OperandType} (hi : ks[i]? = some k) :
    ∃ v, InRange k v ∧ exp i = operandExp k v := by
  obtain ⟨hlt, rfl⟩ := List.getElem?_eq_some_iff.mp hi
  have hlt' : i < vals.length := hv.length_eq ▸ hlt
  exact ⟨vals[i], (List.forall₂_iff_get.mp hv).2 i hlt hlt', hexp i _ (by simp [hlt, hlt'])⟩

/-- A register macro rejects an operand of another kind. -/
lemma macroOf_otherKind {i : ℕ} {k : OperandType} (hk : isRegKind k = true)
    (h : otherKind ks i k = true) : macroOf k (exp i) = .error none := by
  cases hi : ks[i]? with
  | none => simp [otherKind, hi] at h
  | some k' =>
    obtain ⟨v, hv', he⟩ := operand_at hv hexp hi
    rw [he, macroOf_clash hk (by simpa [otherKind, hi] using h) hv']

/-- The switches after the first reject the operands. -/
lemma bodyRest_eq_none {ha : BitVec 32} {n nOperands : ℕ}
    (hns : nOperands = 3 → (exp 2).xOp ≠ .leftShift) (h : clashesRest r' ks n = true) :
    resultOf (bodyRest g r' exp nOperands ha n) = none := by
  simp only [clashesRest, Bool.and_eq_true, Bool.or_eq_true, beq_iff_eq] at h
  obtain ⟨hfb, h⟩ := h
  have hbody : bodyRest g r' exp nOperands ha n = (macroOf r'.opFb (exp n)).bind fun hb =>
      (switchFc r' ha hb (exp (n + 1)) (exp (n + 1))).bind fun hc =>
      (switchFd r' (exp (n + 2))).bind fun hd =>
      .ok (r'.majorOpcode <<< 24 ||| ha <<< 18 ||| hb <<< 12 ||| hc <<< 6 ||| hd) := by
    rw [bodyRest, switchFb_reg _ _ _ hfb]
    cases macroOf r'.opFb (exp n) with
    | error e => rfl
    | ok v => simp only [bind, Except.bind, expNextLast_eq hns, pure, Except.pure]
  rw [hbody]
  refine macroOf_bind_eq_none fun hb hok => ?_
  rcases h with (h | ⟨hfc, h⟩) | ⟨⟨hfc, hfd⟩, h⟩
  · rw [macroOf_otherKind hv hexp (isRegKind_of_isFrKind hfb) h] at hok
    simp at hok
  · cases hi : ks[n + 1]? with
    | none => simp [hi] at h
    | some k =>
      obtain ⟨v, -, he⟩ := operand_at hv hexp hi
      have hop : (exp (n + 1)).xOp = .register := by
        obtain ⟨⟨f, base⟩, hf⟩ := Option.isSome_iff_exists.mp (show (regFile k).isSome = true by
          simpa [hi, isRegKind] using h)
        rw [he, operandExp, hf]
      rcases hfc with hfc | hfc <;>
        simp [switchFc, hfc, hop, expShouldBeImm, bind, Except.bind, resultOf]
  · rw [switchFc_reg _ _ _ _ hfc]
    refine macroOf_bind_eq_none fun hc hok => ?_
    rw [switchFd_reg _ hfd]
    refine macroOf_bind_eq_none fun hd hok' => ?_
    rcases h with h | h
    · rw [macroOf_otherKind hv hexp (isRegKind_of_isFrKind hfc) h] at hok
      simp at hok
    · rw [macroOf_otherKind hv hexp (isRegKind_of_isFrKind hfd) h] at hok'
      simp at hok'

/-- **A row that clashes rejects the operands.** -/
lemma ddGetInsnCode_eq_none (h : clashes r' ks = true) :
    ddGetInsnCode g r' exp vals.length = none := by
  by_cases hnum : vals.length = r'.operandsNum
  swap
  · simp [ddGetInsnCode, getInsnCodeBody, hnum, bind, Except.bind]
  have hlen : ks.length = r'.operandsNum := by rw [← hnum, hv.length_eq]
  have hns : r'.operandsNum = 3 → (exp 2).xOp ≠ .leftShift := by
    intro h3
    obtain ⟨v, -, he⟩ := operand_at hv hexp (List.getElem?_eq_getElem (by omega : 2 < ks.length))
    rw [he]
    exact operandExp_ne_leftShift _ _
  rw [hnum, ddGetInsnCode_eq]
  simp only [clashes, hlen, bne_self_eq_false, Bool.false_or, Bool.and_eq_true] at h
  obtain ⟨hfa, h⟩ := h
  by_cases hop : r'.opFa = .op
  · rw [if_pos hop] at h
    simp only [switchFa, hop, Except.bind]
    exact bodyRest_eq_none hv hexp hns h
  · rw [if_neg hop, Bool.or_eq_true] at h
    have hreg : isRegKind r'.opFa = true := by
      cases h : r'.opFa <;> simp_all [isFaKind, isRegKind, regFile]
    rw [switchFa_reg exp hfa hop]
    have hbind : ((macroOf r'.opFa (exp 0)).bind fun v => Except.ok (v, 1)).bind
        (fun p => bodyRest g r' exp r'.operandsNum p.1 p.2) =
        (macroOf r'.opFa (exp 0)).bind fun v => bodyRest g r' exp r'.operandsNum v 1 := by
      cases macroOf r'.opFa (exp 0) <;> rfl
    rw [hbind]
    refine macroOf_bind_eq_none fun ha hok => ?_
    rcases h with h | h
    · rw [macroOf_otherKind hv hexp hreg h] at hok
      simp at hok
    · exact bodyRest_eq_none hv hexp hns h

end Clash

end Dadao.Gas
