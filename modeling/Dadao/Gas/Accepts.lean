import Dadao.Gas.RoundTrip
import Dadao.Opcodes.Rows
import Mathlib.Tactic.Tauto

set_option relaxedAutoImplicit false
set_option autoImplicit false

/-!
# Which operands `dd_get_insn_code` accepts

Each row declares the classes and the ranges of its operands. This file compares them with what the macros and the
switches of `dd_get_insn_code` let pass: a register or a wyde position without a lower bound, anything but a constant
for a large immediate or a count, and a shifted register for the last two operands of three.

## Main definitions

* `Dadao.Gas.OfClass` — an operand as its kind declares it.
* `Dadao.Gas.Passes` — an operand that is let pass; `Dadao.Gas.Slip` — one that should not be.
* `Dadao.Gas.Checked` — the operands of a row are checked as declared.

## Main results

* `Dadao.Gas.map_fst_ddGetInsnCode` — the return value of `dd_get_insn_code` for all operands.
* `Dadao.Gas.checked_iff` — when the check is sound and complete.
-/

namespace Dadao.Gas

open Opcodes

/-! ## Classes of operands -/

/-- The number of the first register of a file. -/
def firstReg (k : OperandType) : ℤ := ((regFile k).map Prod.snd).getD 0

/-- The operator of an operand with a value. -/
def operandOp (k : OperandType) : OperatorT :=
  if isRegKind k then .register else if k = .ww then .wyde else .constant

/-- **An operand of the class and the range its kind declares**: a register, a wyde position or a constant. A signed
immediate may be a symbol, and a count may be omitted. -/
def OfClass (k : OperandType) (e : ExpressionS) : Prop :=
  e.xOp = operandOp k ∧ InRange k (e.xAddNumber - firstReg k) ∨
    operandSigned k = true ∧ e.xOp = .symbol ∨ k = .immu6 ∧ e.xOp = .absent

instance (k : OperandType) (e : ExpressionS) : Decidable (OfClass k e) :=
  inferInstanceAs (Decidable (_ ∨ _))

/-- The value of an operand; that of an omitted count is zero. -/
def operandValue (k : OperandType) (e : ExpressionS) : ℤ :=
  if e.xOp = .absent then 0 else e.xAddNumber - firstReg k

/-- The operands of a row are the declared ones. -/
def Declared (r : DadaoOpcode) (exp : ℕ → ExpressionS) : Prop :=
  ∀ (i : ℕ) k, (operandKinds r)[i]? = some k → OfClass k (exp i)

/-- An operand of a row is a symbol. -/
def HasSymbol (r : DadaoOpcode) (exp : ℕ → ExpressionS) : Prop :=
  ∃ (i : ℕ) (k : OperandType), (operandKinds r)[i]? = some k ∧ (exp i).xOp = .symbol

/-- The values of the operands of a row. -/
def operandValues (r : DadaoOpcode) (exp : ℕ → ExpressionS) : List ℤ :=
  (operandKinds r).mapIdx fun i k => operandValue k (exp i)

/-- `call rb0, rd0, 0`, which does not exist. -/
def CallZero (r : DadaoOpcode) (exp : ℕ → ExpressionS) : Prop :=
  r.opFc = .imms12 ∧ r.majorOpcode = 0x6D#32 ∧ r.operandsNum = 3 ∧
    BitVec.ofInt 32 ((exp 0).xAddNumber - firstReg r.opFa) = 0 ∧
    BitVec.ofInt 32 ((exp 1).xAddNumber - firstReg r.opFb) = 0 ∧
    (exp 2).xOp = .constant ∧ (exp 2).xAddNumber = 0

/-- **The operands are checked as declared**: what is accepted is declared, what is finished has each value in its
field and no symbol, and what is declared is accepted. -/
structure Checked (g : ℕ → ExpressionS) (r : DadaoOpcode) (exp : ℕ → ExpressionS) (nOperands : ℕ) : Prop where
  sound : ddGetInsnCode g r exp nOperands ≠ none → nOperands = r.operandsNum ∧ Declared r exp
  fields : ∀ w, ddGetInsnCode g r exp nOperands = some (.normal, w) →
    ¬HasSymbol r exp ∧ w = BitVec.ofNat 32 (encode r (operandValues r exp))
  complete : nOperands = r.operandsNum → Declared r exp → ¬CallZero r exp →
    ddGetInsnCode g r exp nOperands ≠ none

/-! ## What passes -/

/-- **An operand that is let pass** for a kind. -/
def Passes (k : OperandType) (e : ExpressionS) : Prop :=
  match k with
  | .rd => e.xOp = .register ∧ e.xAddNumber ≤ 0x3F
  | .ww => e.xOp = .wyde ∧ e.xAddNumber ≤ 0x3
  | .imms24 | .imms18 | .immu6 => e.xOp = .constant → InRange k e.xAddNumber
  | k => OfClass k e

/-- **An operand that should not pass**: a negative number of a register `rd` or of a wyde position, something else
than a symbol for a large immediate, a symbol in an instruction whose operand is not relocated, and something else than
a number for a count. -/
def Slip (type : InsnType) (k : OperandType) (e : ExpressionS) : Prop :=
  match k with
  | .rd | .ww => e.xAddNumber < 0
  | .imms24 | .imms18 | .imms12 => e.xOp ≠ .constant ∧ (e.xOp = .symbol → type = .normal)
  | .immu6 => e.xOp ≠ .constant ∧ e.xOp ≠ .absent
  | _ => False

/-- A shifted register `rg << i6` as the last of three operands. -/
def Shifted (exp : ℕ → ExpressionS) (nOperands : ℕ) : Prop := nOperands = 3 ∧ (exp 2).xOp = .leftShift

instance (exp : ℕ → ExpressionS) (nOperands : ℕ) : Decidable (Shifted exp nOperands) :=
  inferInstanceAs (Decidable (_ ∧ _))

/-- The operands of a row are let pass. Of a shifted register the two parts are; the operand before it is not looked
at. -/
def Accepted (g : ℕ → ExpressionS) (r : DadaoOpcode) (exp : ℕ → ExpressionS) (nOperands : ℕ) : Prop :=
  nOperands = r.operandsNum ∧ ¬CallZero r exp ∧
    if Shifted exp nOperands then
      r.opFc = .rd ∧ r.opFd = .immu6 ∧ Passes r.opFb (exp 0) ∧ Passes .rd (g (exp 2).xAddSymbol) ∧
        Passes .immu6 (g (exp 2).xOpSymbol)
    else ∀ (i : ℕ) k, (operandKinds r)[i]? = some k → Passes k (exp i)

/-- **Nothing slips**: operands that all pass have no shifted register and none of them should not pass. -/
def Fits (g : ℕ → ExpressionS) (r : DadaoOpcode) (exp : ℕ → ExpressionS) (nOperands : ℕ) : Prop :=
  Accepted g r exp nOperands → ¬Shifted exp nOperands ∧
    ∀ (i : ℕ) k, (operandKinds r)[i]? = some k → ¬Slip r.type k (exp i)

section Classes

variable {t : InsnType} {k : OperandType} {e : ExpressionS}

/-- What passes and does not slip is declared. -/
lemma ofClass_of_passes (h : Passes k e) (hslip : ¬Slip t k e) : OfClass k e := by
  cases k
  case rd =>
    have hlo : 0 ≤ e.xAddNumber := not_lt.mp hslip
    have hrange : InRange .rd (e.xAddNumber - 0) := by
      simp only [InRange, operandSigned, operandWidth]
      exact ⟨by omega, by have := h.2; norm_num; omega⟩
    exact .inl ⟨h.1, hrange⟩
  case ww =>
    have hlo : 0 ≤ e.xAddNumber := not_lt.mp hslip
    have hrange : InRange .ww (e.xAddNumber - 0) := by
      simp only [InRange, operandSigned, operandWidth]
      exact ⟨by omega, by have := h.2; norm_num; omega⟩
    exact .inl ⟨h.1, hrange⟩
  case imms24 | imms18 =>
    by_cases hop : e.xOp = .constant
    · exact .inl ⟨hop, by simpa [firstReg, regFile] using h hop⟩
    · exact .inr (.inl ⟨rfl, by_contra fun hsym => hslip ⟨hop, fun h => absurd h hsym⟩⟩)
  case immu6 =>
    by_cases hop : e.xOp = .constant
    · exact .inl ⟨hop, by simpa [firstReg, regFile] using h hop⟩
    · exact .inr (.inr ⟨rfl, by_contra fun habsent => hslip ⟨hop, habsent⟩⟩)
  all_goals exact h

/-- What is declared passes. -/
lemma passes_of_ofClass (h : OfClass k e) : Passes k e := by
  cases k
  case rd | ww =>
    rcases h with ⟨hop, hrange⟩ | h | h
    · simp [InRange, operandSigned, operandWidth, firstReg, regFile] at hrange
      exact ⟨hop, by omega⟩
    · exact absurd h.1 (by decide)
    · exact absurd h.1 (by decide)
  case imms24 | imms18 | immu6 =>
    intro hop
    rcases h with h | h | h
    · simpa [firstReg, regFile] using h.2
    · exact absurd (hop.symm.trans h.2) (by decide)
    · exact absurd (hop.symm.trans h.2) (by decide)
  all_goals exact h

/-- What is declared slips only as a symbol without relocation. -/
lemma symbol_of_slip (h : OfClass k e) (hslip : Slip t k e) : e.xOp = .symbol ∧ t = .normal := by
  cases k
  case rd | ww =>
    rcases h with ⟨hop, hrange⟩ | h | h
    · simp [InRange, operandSigned, operandWidth, firstReg, regFile] at hrange
      exact absurd hslip (not_lt.mpr hrange.1)
    · exact absurd h.1 (by decide)
    · exact absurd h.1 (by decide)
  case imms24 | imms18 | imms12 =>
    rcases h with h | h | h
    · exact absurd h.1 hslip.1
    · exact ⟨h.2, hslip.2 h.2⟩
    · exact absurd h.1 (by decide)
  case immu6 =>
    rcases h with h | h | h
    · exact absurd h.1 hslip.1
    · exact absurd h.1 (by decide)
    · exact absurd h.2 hslip.2
  all_goals exact hslip.elim

/-- A declared operand is no shifted register. -/
lemma ne_leftShift_of_ofClass (h : OfClass k e) : e.xOp ≠ .leftShift := by
  intro hop
  rcases h with h | h | h
  · rw [hop] at h
    cases k <;> simp [operandOp, isRegKind, regFile] at h
  · exact absurd (hop.symm.trans h.2) (by decide)
  · exact absurd (hop.symm.trans h.2) (by decide)

/-- A signed immediate that is a symbol slips if it is not relocated. -/
lemma slip_of_symbol (hsigned : operandSigned k = true) (hop : e.xOp = .symbol) : Slip .normal k e := by
  cases k <;> first
    | exact absurd hsigned (by decide)
    | exact ⟨by rw [hop]; decide, fun _ => rfl⟩

/-- A declared symbol is a signed immediate. -/
lemma signed_of_symbol (h : OfClass k e) (hop : e.xOp = .symbol) : operandSigned k = true := by
  rcases h with h | h | h
  · rw [hop] at h
    cases k <;> simp [operandOp, isRegKind, regFile] at h
  · exact h.1
  · rw [hop] at h
    exact absurd h.2 (by decide)

end Classes

/-! ## The macros -/

/-- An operand leaves `dd_get_insn_code` with the type of the instruction. -/
def Leaves (k : OperandType) (e : ExpressionS) : Prop := operandSigned k = true ∧ e.xOp ≠ .constant

instance (k : OperandType) (e : ExpressionS) : Decidable (Leaves k e) := inferInstanceAs (Decidable (_ ∧ _))

section Macros

variable {k : OperandType} {e : ExpressionS}

/-- The macro of a register kind on an operand that passes. -/
lemma macroOf_of_passes (hk : isRegKind k = true) (h : Passes k e) :
    macroOf k e = .ok (BitVec.ofInt 32 (e.xAddNumber - firstReg k)) := by
  cases k
  case rd =>
    have hsub : e.xAddNumber - firstReg .rd = e.xAddNumber := sub_zero _
    have hhi := h.2
    rw [hsub, macroOf, expShouldBeRd, if_neg (by simp [h.1]), if_neg (by omega)]
  case rb | rf | ra | cp | cr =>
    rcases h with ⟨hop, hrange⟩ | h | h
    · simp [InRange, operandSigned, operandWidth, firstReg, regFile] at hrange
      exact expShouldBeReg_ok hop (by omega) (by omega)
    · exact absurd h.1 (by decide)
    · exact absurd h.1 (by decide)
  all_goals exact absurd hk (by decide)

/-- The macro of a register kind on any other. -/
lemma macroOf_of_not_passes (h : ¬Passes k e) : macroOf k e = .error none := by
  cases k
  case rd =>
    rw [macroOf, expShouldBeRd]
    split_ifs with hop hhi
    · rfl
    · rfl
    · exact absurd ⟨not_not.mp hop, by omega⟩ h
  case rb | rf | ra | cp | cr =>
    refine expShouldBeReg_error fun hop => ?_
    by_contra hrange
    refine h (.inl ⟨hop, ?_⟩)
    simp [InRange, operandSigned, operandWidth, firstReg, regFile]
    omega
  all_goals rfl

/-- The immediate macro by the range of a kind. -/
lemma expShouldBeImm_eq {lo hi : ℤ} (h : ∀ v, InRange k v ↔ lo ≤ v ∧ v ≤ hi) : expShouldBeImm e lo hi =
    if e.xOp = .constant ∧ InRange k e.xAddNumber then .ok (BitVec.ofInt 32 e.xAddNumber) else .error none := by
  by_cases hpass : e.xOp = .constant ∧ InRange k e.xAddNumber
  · have hrange := (h _).mp hpass.2
    rw [if_pos hpass, expShouldBeImm, if_neg (by simp [hpass.1]), if_neg (by omega), if_neg (by omega)]
  · rw [if_neg hpass, expShouldBeImm]
    split_ifs with hop hhi hlo
    · rfl
    · rfl
    · rfl
    · exact absurd ⟨not_not.mp hop, (h _).mpr ⟨by omega, by omega⟩⟩ hpass

lemma inRange_imms12 (v : ℤ) : InRange .imms12 v ↔ -0x800 ≤ v ∧ v ≤ 0x7FF := by
  simp only [InRange, operandSigned, operandWidth, if_true]
  omega

lemma inRange_imms18 (v : ℤ) : InRange .imms18 v ↔ -0x20000 ≤ v ∧ v ≤ 0x1FFFF := by
  simp only [InRange, operandSigned, operandWidth, if_true]
  omega

lemma inRange_imms24 (v : ℤ) : InRange .imms24 v ↔ -0x800000 ≤ v ∧ v ≤ 0x7FFFFF := by
  simp only [InRange, operandSigned, operandWidth, if_true]
  omega

lemma inRange_immu6 (v : ℤ) : InRange .immu6 v ↔ 0 ≤ v ∧ v ≤ 0x3F := by
  simp only [InRange, operandSigned, operandWidth, Bool.false_eq_true, if_false]
  omega

lemma inRange_immu12 (v : ℤ) : InRange .immu12 v ↔ 0 ≤ v ∧ v ≤ 0xFFF := by
  simp only [InRange, operandSigned, operandWidth, Bool.false_eq_true, if_false]
  omega

lemma inRange_immu16 (v : ℤ) : InRange .immu16 v ↔ 0 ≤ v ∧ v ≤ 0xFFFF := by
  simp only [InRange, operandSigned, operandWidth, Bool.false_eq_true, if_false]
  omega

lemma inRange_immu18 (v : ℤ) : InRange .immu18 v ↔ 0 ≤ v ∧ v ≤ 0x3FFFF := by
  simp only [InRange, operandSigned, operandWidth, Bool.false_eq_true, if_false]
  omega

/-- An unsigned immediate passes if it is a number in its range. -/
lemma passes_immu {k : OperandType} (hk : k = .immu12 ∨ k = .immu16 ∨ k = .immu18) {e : ExpressionS} :
    Passes k e ↔ e.xOp = .constant ∧ InRange k e.xAddNumber := by
  rcases hk with rfl | rfl | rfl <;> simp [Passes, OfClass, operandOp, isRegKind, regFile, firstReg, operandSigned]

/-- A signed immediate of twelve bits may be a symbol. -/
lemma passes_imms12 {e : ExpressionS} :
    Passes .imms12 e ↔ e.xOp = .constant ∧ InRange .imms12 e.xAddNumber ∨ e.xOp = .symbol := by
  simp [Passes, OfClass, operandOp, isRegKind, regFile, firstReg, operandSigned]

end Macros

/-! ## The return value -/

section Rest

variable {g : ℕ → ExpressionS} {r : DadaoOpcode} {exp : ℕ → ExpressionS} {nOperands m : ℕ} {ha : BitVec 32}

open scoped Classical in
/-- The return value of a row with an 18-bit immediate. -/
lemma map_fst_imm18 (hb : r.opFb = .imms18 ∨ r.opFb = .immu18) :
    (resultOf (bodyRest g r exp nOperands ha m)).map Prod.fst =
      if Passes r.opFb (exp m) then some (if Leaves r.opFb (exp m) then r.type else .normal) else none := by
  rcases hb with hb | hb
  · by_cases hop : (exp m).xOp = .constant
    · have hpass : Passes .imms18 (exp m) ↔ InRange .imms18 (exp m).xAddNumber := ⟨fun h => h hop, fun h _ => h⟩
      have hstay : ¬Leaves .imms18 (exp m) := fun h => h.2 hop
      simp only [bodyRest, switchFb, hb, hop, if_true, expShouldBeImm_eq inRange_imms18, true_and, bind, hpass, hstay,
        if_false]
      by_cases hrange : InRange .imms18 (exp m).xAddNumber
      · rw [if_pos hrange, if_pos hrange]
        rfl
      · rw [if_neg hrange, if_neg hrange]
        rfl
    · have hpass : Passes .imms18 (exp m) := fun h => absurd h hop
      have hleave : Leaves .imms18 (exp m) := ⟨rfl, hop⟩
      simp only [bodyRest, switchFb, hb, hop, if_false, bind, Except.bind, hpass, hleave, if_true]
      rfl
  · have hstay : ¬Leaves .immu18 (exp m) := fun h => absurd h.1 Bool.false_ne_true
    simp only [bodyRest, switchFb, hb, expShouldBeImm_eq inRange_immu18, bind, passes_immu (.inr (.inr rfl)), hstay,
      if_false]
    by_cases hpass : (exp m).xOp = .constant ∧ InRange .immu18 (exp m).xAddNumber
    · rw [if_pos hpass, if_pos hpass]
      rfl
    · rw [if_neg hpass, if_neg hpass]
      rfl

open scoped Classical in
/-- The macro for a wyde position. -/
lemma expShouldBeWw_eq (e : ExpressionS) :
    expShouldBeWw e = if Passes .ww e then .ok (BitVec.ofInt 32 e.xAddNumber) else .error none := by
  by_cases hpass : Passes .ww e
  · have hhi := hpass.2
    rw [if_pos hpass, expShouldBeWw, if_neg (not_not.mpr hpass.1), if_neg (by omega)]
  · rw [if_neg hpass, expShouldBeWw]
    split_ifs with hop hhi
    · rfl
    · rfl
    · exact absurd ⟨not_not.mp hop, not_lt.mp hhi⟩ hpass

open scoped Classical in
/-- The return value of a row with a wyde position and a 16-bit immediate. -/
lemma map_fst_wyde (hns : ¬Shifted exp nOperands) (hb : r.opFb = .ww) (hc : r.opFc = .immu16) :
    (resultOf (bodyRest g r exp nOperands ha m)).map Prod.fst =
      if Passes .ww (exp m) ∧ Passes .immu16 (exp (m + 1)) then some .normal else none := by
  have hnext : expNextLast g r exp nOperands (m + 1) = .ok (exp (m + 1), exp (m + 1 + 1)) := if_neg hns
  simp only [bodyRest, switchFb, hb, expShouldBeWw_eq, switchFc, hc, expShouldBeImm_eq inRange_immu16, bind, pure,
    passes_immu (.inr (.inl rfl))]
  by_cases hpass : Passes .ww (exp m)
  · simp only [hpass, if_true, true_and, Except.bind, Except.pure, hnext]
    by_cases himm : (exp (m + 1)).xOp = .constant ∧ InRange .immu16 (exp (m + 1)).xAddNumber
    · rw [if_pos himm, if_pos himm]
      rfl
    · rw [if_neg himm, if_neg himm]
      rfl
  · simp only [hpass, if_false, false_and, Except.bind]
    rfl

open scoped Classical in
/-- The return value of a row with a register and a 12-bit immediate. -/
lemma map_fst_imm12 (hns : ¬Shifted exp nOperands) (hb : isFrKind r.opFb = true)
    (hc : r.opFc = .imms12 ∨ r.opFc = .immu12) :
    (resultOf (bodyRest g r exp nOperands ha m)).map Prod.fst =
      if Passes r.opFb (exp m) ∧ Passes r.opFc (exp (m + 1)) ∧
        ¬(r.opFc = .imms12 ∧ r.majorOpcode = 0x6D#32 ∧ r.operandsNum = 3 ∧ ha = 0 ∧
          BitVec.ofInt 32 ((exp m).xAddNumber - firstReg r.opFb) = 0 ∧ (exp (m + 1)).xOp = .constant ∧
          (exp (m + 1)).xAddNumber = 0)
      then some (if Leaves r.opFc (exp (m + 1)) then r.type else .normal) else none := by
  have hnext : expNextLast g r exp nOperands (m + 1) = .ok (exp (m + 1), exp (m + 1 + 1)) := if_neg hns
  by_cases hpass : Passes r.opFb (exp m)
  · simp only [bodyRest, switchFb_reg _ _ _ hb, macroOf_of_passes (isRegKind_of_isFrKind hb) hpass, hnext, bind,
      Except.bind, hpass, true_and]
    rcases hc with hc | hc
    · by_cases hsym : (exp (m + 1)).xOp = .symbol
      · have hleave : Leaves .imms12 (exp (m + 1)) := ⟨rfl, by rw [hsym]; decide⟩
        simp only [switchFc, hc, hsym, if_true, passes_imms12, or_true, reduceCtorEq, hleave, false_and, and_false,
          not_false_eq_true, and_self]
        rfl
      · have hand (hop : (exp (m + 1)).xOp = .constant) (hrange : InRange .imms12 (exp (m + 1)).xAddNumber) :
            BitVec.ofInt 32 (exp (m + 1)).xAddNumber &&& 0xFFF#32 = 0 ↔ (exp (m + 1)).xAddNumber = 0 := by
          rw [ofInt_and_mask (k := .imms12) _ rfl, ofNat_field_eq_zero_iff hrange]
        simp only [switchFc, hc, hsym, if_false, passes_imms12, or_false, bind, expShouldBeImm_eq inRange_imms12,
          true_and]
        by_cases himm : (exp (m + 1)).xOp = .constant ∧ InRange .imms12 (exp (m + 1)).xAddNumber
        · have hstay : ¬Leaves .imms12 (exp (m + 1)) := fun h => h.2 himm.1
          simp only [himm, and_self, if_true, true_and, Except.bind, hstay, if_false, hand himm.1 himm.2]
          split_ifs <;> rfl
        · simp only [himm, if_false, false_and, Except.bind]
          rfl
    · have hstay : ¬Leaves .immu12 (exp (m + 1)) := fun h => absurd h.1 Bool.false_ne_true
      simp only [switchFc, hc, passes_immu (.inl rfl), hstay, bind, expShouldBeImm_eq inRange_immu12, reduceCtorEq,
        false_and, not_false_eq_true, and_true, if_false]
      by_cases himm : (exp (m + 1)).xOp = .constant ∧ InRange .immu12 (exp (m + 1)).xAddNumber
      · rw [if_pos himm, if_pos himm]
        rfl
      · rw [if_neg himm, if_neg himm]
        rfl
  · simp only [bodyRest, switchFb_reg _ _ _ hb, macroOf_of_not_passes hpass, bind, Except.bind, hpass, false_and,
      if_false]
    rfl

/-- The fourth switch on a register or a count. -/
lemma switchFd_eq (hd : isFrKind r.opFd = true ∨ r.opFd = .immu6) (e : ExpressionS) :
    (∃ v, switchFd r e = .ok v) ∧ Passes r.opFd e ∨ switchFd r e = .error none ∧ ¬Passes r.opFd e := by
  by_cases hpass : Passes r.opFd e
  · refine .inl ⟨?_, hpass⟩
    rcases hd with hd | hd
    · exact ⟨_, (switchFd_reg _ hd).trans (macroOf_of_passes (isRegKind_of_isFrKind hd) hpass)⟩
    · rw [hd] at hpass
      simp only [switchFd, hd, expShouldBeImm_eq inRange_immu6]
      by_cases hop : e.xOp = .constant
      · exact ⟨_, by rw [if_pos hop, if_pos ⟨hop, hpass hop⟩]⟩
      · exact ⟨_, if_neg hop⟩
  · refine .inr ⟨?_, hpass⟩
    rcases hd with hd | hd
    · exact (switchFd_reg _ hd).trans (macroOf_of_not_passes hpass)
    · rw [hd] at hpass
      have hop : e.xOp = .constant := by_contra fun hop => hpass fun h => absurd h hop
      simp only [switchFd, hd, expShouldBeImm_eq inRange_immu6]
      rw [if_pos hop, if_neg fun h => hpass fun _ => h.2]

open scoped Classical in
/-- The return value of a row with registers, or a count in the last place. -/
lemma map_fst_reg {expNext expLast : ExpressionS} (hb : isFrKind r.opFb = true) (hc : isFrKind r.opFc = true)
    (hd : isFrKind r.opFd = true ∨ r.opFd = .immu6)
    (hnext : expNextLast g r exp nOperands (m + 1) = .ok (expNext, expLast)) :
    (resultOf (bodyRest g r exp nOperands ha m)).map Prod.fst =
      if Passes r.opFb (exp m) ∧ Passes r.opFc expNext ∧ Passes r.opFd expLast then some .normal else none := by
  by_cases hpass : Passes r.opFb (exp m)
  · by_cases hpass' : Passes r.opFc expNext
    · simp only [bodyRest, switchFb_reg _ _ _ hb, macroOf_of_passes (isRegKind_of_isFrKind hb) hpass, hnext, bind,
        Except.bind, hpass, true_and, switchFc_reg _ _ _ _ hc,
        macroOf_of_passes (isRegKind_of_isFrKind hc) hpass', hpass']
      rcases switchFd_eq hd expLast with ⟨⟨v, hv⟩, hpass''⟩ | ⟨hv, hpass''⟩
      · rw [hv, if_pos hpass'']
        rfl
      · rw [hv, if_neg hpass'']
        rfl
    · simp only [bodyRest, switchFb_reg _ _ _ hb, macroOf_of_passes (isRegKind_of_isFrKind hb) hpass, hnext, bind,
        Except.bind, hpass, true_and, switchFc_reg _ _ _ _ hc, macroOf_of_not_passes hpass', hpass', false_and,
        if_false]
      rfl
  · simp only [bodyRest, switchFb_reg _ _ _ hb, macroOf_of_not_passes hpass, bind, Except.bind, hpass, false_and,
      if_false]
    rfl

/-- A shifted register is rejected unless it stands for the last two operands. -/
lemma bodyRest_shifted (hs : Shifted exp nOperands) (hne : ¬(r.opFc = .rd ∧ r.opFd = .immu6))
    (hb : isFrKind r.opFb = true ∨ r.opFb = .ww) : resultOf (bodyRest g r exp nOperands ha m) = none := by
  have hnext (n : ℕ) : expNextLast g r exp nOperands n = .error none := by
    have hs' : nOperands = 3 ∧ (exp 2).xOp = .leftShift := hs
    rw [expNextLast, if_pos hs', if_pos (not_and_or.mp hne)]
  rcases hb with hb | hb
  · by_cases hpass : Passes r.opFb (exp m)
    · simp only [bodyRest, switchFb_reg _ _ _ hb, macroOf_of_passes (isRegKind_of_isFrKind hb) hpass, hnext, bind,
        Except.bind]
      rfl
    · simp only [bodyRest, switchFb_reg _ _ _ hb, macroOf_of_not_passes hpass, bind, Except.bind]
      rfl
  · by_cases hpass : Passes .ww (exp m)
    · simp only [bodyRest, switchFb, hb, expShouldBeWw_eq, hpass, if_true, hnext, bind, pure, Except.bind, Except.pure]
      rfl
    · simp only [bodyRest, switchFb, hb, expShouldBeWw_eq, hpass, if_false, bind, Except.bind]
      rfl

section Kinds

variable {α : Type} {P : ℕ → α → Prop} {a : α} {l : List α}

lemma forall_getElem?_cons :
    (∀ (i : ℕ) x, (a :: l)[i]? = some x → P i x) ↔ P 0 a ∧ ∀ (i : ℕ) x, l[i]? = some x → P (i + 1) x := by
  constructor
  · exact fun h => ⟨h 0 a rfl, fun i x hx => h (i + 1) x hx⟩
  · rintro ⟨hhead, htail⟩ i x hx
    cases i with
    | zero =>
      obtain rfl := Option.some.inj hx
      exact hhead
    | succ i => exact htail i x hx

lemma exists_getElem?_cons :
    (∃ (i : ℕ) (x : α), (a :: l)[i]? = some x ∧ P i x) ↔ P 0 a ∨ ∃ (i : ℕ) (x : α), l[i]? = some x ∧ P (i + 1) x := by
  constructor
  · rintro ⟨i, x, hx, hP⟩
    cases i with
    | zero =>
      obtain rfl := Option.some.inj hx
      exact .inl hP
    | succ i => exact .inr ⟨i, x, hx, hP⟩
  · rintro (hP | ⟨i, x, hx, hP⟩)
    · exact ⟨0, a, rfl, hP⟩
    · exact ⟨i + 1, x, hx, hP⟩

lemma forall_getElem?_nil : (∀ (i : ℕ) x, ([] : List α)[i]? = some x → P i x) ↔ True := by simp

lemma exists_getElem?_nil : (∃ (i : ℕ) (x : α), ([] : List α)[i]? = some x ∧ P i x) ↔ False := by simp

end Kinds

/-- The kinds that stay in `dd_get_insn_code`. -/
lemma not_leaves {k : OperandType} (hk : operandSigned k = false) (e : ExpressionS) : ¬Leaves k e := by
  rintro ⟨h, -⟩
  rw [hk] at h
  exact absurd h Bool.false_ne_true

lemma operandSigned_of_isFrKind {k : OperandType} (h : isFrKind k = true) : operandSigned k = false := by
  cases k <;> first | rfl | exact absurd h (by decide)

/-- The operands behind the first slot are let pass. -/
def RestAccepted (g : ℕ → ExpressionS) (r : DadaoOpcode) (exp : ℕ → ExpressionS) (m : ℕ) (ha : BitVec 32) : Prop :=
  ¬(r.opFc = .imms12 ∧ r.majorOpcode = 0x6D#32 ∧ r.operandsNum = 3 ∧ ha = 0 ∧
      BitVec.ofInt 32 ((exp m).xAddNumber - firstReg r.opFb) = 0 ∧ (exp (m + 1)).xOp = .constant ∧
      (exp (m + 1)).xAddNumber = 0) ∧
    if Shifted exp r.operandsNum then
      r.opFc = .rd ∧ r.opFd = .immu6 ∧ Passes r.opFb (exp m) ∧ Passes .rd (g (exp 2).xAddSymbol) ∧
        Passes .immu6 (g (exp 2).xOpSymbol)
    else ∀ (i : ℕ) k, (restKinds r)[i]? = some k → Passes k (exp (m + i))

open scoped Classical in
/-- **The return value of a row** behind its first slot. -/
lemma map_fst_bodyRest (hrest : isRest r.opFb r.opFc r.opFd = true) (hm : m ≤ 1)
    (hnum : r.operandsNum = m + (restKinds r).length) :
    (resultOf (bodyRest g r exp r.operandsNum ha m)).map Prod.fst =
      if RestAccepted g r exp m ha then
        some (if ∃ (i : ℕ) (k : OperandType), (restKinds r)[i]? = some k ∧ Leaves k (exp (m + i)) then r.type
          else .normal)
      else none := by
  rcases restKinds_cases hrest with ⟨hb, hk⟩ | ⟨hb, hc, hk⟩ | ⟨hb, hc, hk⟩ | ⟨hb, hc, hd, hk⟩ <;>
    rw [hk] at hnum
  · have hns : ¬Shifted exp r.operandsNum := fun h => by
      have h3 := h.1
      simp at hnum
      omega
    have hnz : r.operandsNum ≠ 3 := by
      simp at hnum
      omega
    simp only [map_fst_imm18 hb, RestAccepted, hns, if_false, hk, forall_getElem?_cons, forall_getElem?_nil,
      exists_getElem?_cons, exists_getElem?_nil, hnz, false_and, and_false, not_false_eq_true, true_and, and_true,
      or_false, Nat.add_zero]
  · have hww := not_leaves (k := .ww) rfl
    have himm := not_leaves (k := .immu16) rfl
    by_cases hs : Shifted exp r.operandsNum
    · rw [bodyRest_shifted hs (by simp [hc]) (.inr hb)]
      simp only [RestAccepted, hs, if_true, hc, reduceCtorEq, false_and, and_false, if_false]
      rfl
    · simp only [map_fst_wyde hs hb hc, RestAccepted, hs, if_false, hk, hc, forall_getElem?_cons, forall_getElem?_nil,
        exists_getElem?_cons, exists_getElem?_nil, reduceCtorEq, false_and, not_false_eq_true, true_and, and_true,
        or_false, Nat.add_zero, Nat.zero_add, hww, himm]
  · have hfb := not_leaves (operandSigned_of_isFrKind hb)
    by_cases hs : Shifted exp r.operandsNum
    · rw [bodyRest_shifted hs (by rcases hc with hc | hc <;> simp [hc]) (.inl hb)]
      have hcr : r.opFc ≠ .rd := by rcases hc with hc | hc <;> simp [hc]
      simp only [RestAccepted, hs, if_true, hcr, false_and, and_false, if_false]
      rfl
    · rw [map_fst_imm12 hs hb hc]
      simp only [RestAccepted, hs, if_false, hk, forall_getElem?_cons, forall_getElem?_nil,
        exists_getElem?_cons, exists_getElem?_nil, and_true, or_false, false_or, Nat.add_zero, Nat.zero_add, hfb]
      refine if_congr ?_ rfl rfl
      tauto
  · have hfb := not_leaves (operandSigned_of_isFrKind hb)
    have hfc := not_leaves (operandSigned_of_isFrKind hc)
    have hfd : ∀ e, ¬Leaves r.opFd e := by
      rcases hd with hd | hd
      · exact not_leaves (operandSigned_of_isFrKind hd)
      · exact not_leaves (by rw [hd]; rfl)
    have hci : r.opFc ≠ .imms12 := fun h => by simp [h, isFrKind] at hc
    by_cases hs : Shifted exp r.operandsNum
    · by_cases hlast : r.opFc = .rd ∧ r.opFd = .immu6
      · have hnext : expNextLast g r exp r.operandsNum (m + 1) =
            .ok (g (exp 2).xAddSymbol, g (exp 2).xOpSymbol) := by
          have hs' : r.operandsNum = 3 ∧ (exp 2).xOp = .leftShift := hs
          rw [expNextLast, if_pos hs', if_neg (by simp [hlast])]
        rw [map_fst_reg hb hc hd hnext]
        rw [hlast.1] at hfc
        rw [hlast.2] at hfd
        simp only [RestAccepted, hs, if_true, hk, exists_getElem?_cons, exists_getElem?_nil, hfb, hfc, hfd, or_false,
          if_false, hlast, reduceCtorEq, false_and, not_false_eq_true, true_and]
      · rw [bodyRest_shifted hs hlast (.inl hb)]
        have hno : ¬(r.opFc = .rd ∧ r.opFd = .immu6 ∧ Passes r.opFb (exp m) ∧ Passes .rd (g (exp 2).xAddSymbol) ∧
            Passes .immu6 (g (exp 2).xOpSymbol)) := fun h => hlast ⟨h.1, h.2.1⟩
        simp only [RestAccepted, hs, if_true, hno, and_false, if_false]
        rfl
    · have hnext : expNextLast g r exp r.operandsNum (m + 1) = .ok (exp (m + 1), exp (m + 2)) := if_neg hs
      rw [map_fst_reg hb hc hd hnext]
      simp only [RestAccepted, hs, if_false, hk, forall_getElem?_cons, forall_getElem?_nil,
        exists_getElem?_cons, exists_getElem?_nil, hfb, hfc, hfd, or_false, and_true, Nat.add_zero, Nat.zero_add, hci,
        false_and, not_false_eq_true, true_and]

end Rest

/-! ## Operands of one value -/

/-- Two operands that the macros do not tell apart: an omitted count is zero. -/
def Agree (k : OperandType) (e e' : ExpressionS) : Prop :=
  e.xOp = e'.xOp ∧ e.xAddNumber = e'.xAddNumber ∨ k = .immu6 ∧ e.xOp ≠ .constant ∧ e' = .const 0

section Agree

variable {k : OperandType} {e e' : ExpressionS}

lemma Agree.of_ne (h : Agree k e e') (hk : k ≠ .immu6) : e.xOp = e'.xOp ∧ e.xAddNumber = e'.xAddNumber :=
  h.resolve_right fun h => hk h.1

lemma Agree.macroOf (h : Agree k e e') : macroOf k e = macroOf k e' := by
  rcases h with ⟨hop, hnum⟩ | ⟨rfl, -⟩
  · cases k <;> simp only [Gas.macroOf, expShouldBeRd, expShouldBeRb, expShouldBeRf, expShouldBeRa, expShouldBeCp,
      expShouldBeCr, expShouldBeReg, hop, hnum]
  · rfl

lemma Agree.expShouldBeImm (h : Agree k e e') (hk : k ≠ .immu6) (lo hi : ℤ) :
    expShouldBeImm e lo hi = expShouldBeImm e' lo hi := by
  obtain ⟨hop, hnum⟩ := h.of_ne hk
  simp only [Gas.expShouldBeImm, hop, hnum]

lemma Agree.expShouldBeWw (h : Agree k e e') (hk : k ≠ .immu6) : expShouldBeWw e = expShouldBeWw e' := by
  obtain ⟨hop, hnum⟩ := h.of_ne hk
  simp only [Gas.expShouldBeWw, hop, hnum]

lemma Agree.switchFd {r : DadaoOpcode} (hd : isFrKind r.opFd = true ∨ r.opFd = .immu6) (h : Agree r.opFd e e') :
    switchFd r e = switchFd r e' := by
  rcases hd with hd | hd
  · rw [switchFd_reg _ hd, switchFd_reg _ hd, h.macroOf]
  · rcases h with ⟨hop, hnum⟩ | ⟨-, hop, rfl⟩
    · simp only [Gas.switchFd, hd, Gas.expShouldBeImm, hop, hnum]
    · simp only [Gas.switchFd, hd, hop, if_false]
      rfl

/-- A declared operand but a symbol agrees with the one of its value. -/
lemma agree_operandExp (h : OfClass k e) (hop : e.xOp ≠ .symbol) : Agree k e (operandExp k (operandValue k e)) := by
  rcases h with ⟨hclass, -⟩ | h | ⟨rfl, habsent⟩
  · have hpresent : e.xOp ≠ .absent := by
      rw [hclass]
      cases k <;> decide
    refine .inl ?_
    rw [operandValue, if_neg hpresent, hclass]
    cases k <;> simp [operandExp, operandOp, isRegKind, regFile, firstReg, ExpressionS.const]
  · exact absurd h.2 hop
  · refine .inr ⟨rfl, by rw [habsent]; decide, ?_⟩
    rw [operandValue, if_pos habsent]
    rfl

/-- A declared operand but a symbol or a count. -/
lemma operandValue_of_class (h : OfClass k e) (hop : e.xOp ≠ .symbol) (hk : k ≠ .immu6) :
    e.xOp = operandOp k ∧ operandValue k e = e.xAddNumber - firstReg k := by
  rcases h with ⟨hclass, -⟩ | h | h
  · refine ⟨hclass, if_neg ?_⟩
    rw [hclass]
    cases k <;> decide
  · exact absurd h.2 hop
  · exact absurd h.1 hk

/-- The value of a declared operand but a symbol is in range. -/
lemma inRange_operandValue (h : OfClass k e) (hop : e.xOp ≠ .symbol) : InRange k (operandValue k e) := by
  rcases h with ⟨hclass, hrange⟩ | h | ⟨rfl, habsent⟩
  · have hpresent : e.xOp ≠ .absent := by
      rw [hclass]
      cases k <;> decide
    rwa [operandValue, if_neg hpresent]
  · exact absurd h.2 hop
  · rw [operandValue, if_pos habsent]
    decide

/-- Behind the first slot the operands count by their values. -/
lemma bodyRest_congr {g : ℕ → ExpressionS} {r : DadaoOpcode} {exp exp' : ℕ → ExpressionS} {nOperands m : ℕ}
    {ha : BitVec 32} (hrest : isRest r.opFb r.opFc r.opFd = true) (hns : ¬Shifted exp nOperands)
    (hns' : ¬Shifted exp' nOperands)
    (h : ∀ (i : ℕ) k, (restKinds r)[i]? = some k → Agree k (exp (m + i)) (exp' (m + i))) :
    bodyRest g r exp nOperands ha m = bodyRest g r exp' nOperands ha m := by
  have hnext (n : ℕ) : expNextLast g r exp nOperands n = .ok (exp n, exp (n + 1)) := if_neg hns
  have hnext' (n : ℕ) : expNextLast g r exp' nOperands n = .ok (exp' n, exp' (n + 1)) := if_neg hns'
  rcases restKinds_cases hrest with ⟨hb, hk⟩ | ⟨hb, hc, hk⟩ | ⟨hb, hc, hk⟩ | ⟨hb, hc, hd, hk⟩
  · have h0 : Agree r.opFb (exp m) (exp' m) := h 0 _ (by rw [hk]; rfl)
    have hne : r.opFb ≠ .immu6 := by rcases hb with hb | hb <;> simp [hb]
    obtain ⟨hop, -⟩ := h0.of_ne hne
    rcases hb with hb | hb
    · simp only [bodyRest, switchFb, hb, h0.expShouldBeImm hne, hop, bind]
      split_ifs
      · cases expShouldBeImm (exp' m) (-0x20000) 0x1FFFF <;> rfl
      · rfl
    · simp only [bodyRest, switchFb, hb, h0.expShouldBeImm hne, bind]
      cases expShouldBeImm (exp' m) 0 0x3FFFF <;> rfl
  · have h0 : Agree .ww (exp m) (exp' m) := h 0 _ (by rw [hk]; rfl)
    have h1 : Agree .immu16 (exp (m + 1)) (exp' (m + 1)) := h 1 _ (by rw [hk]; rfl)
    simp only [bodyRest, switchFb, hb, h0.expShouldBeWw (by decide), hnext, hnext', bind, pure]
    cases expShouldBeWw (exp' m) with
    | error r => rfl
    | ok v =>
      simp only [Except.bind, Except.pure, switchFc, hc, h1.expShouldBeImm (by decide), bind]
      cases expShouldBeImm (exp' (m + 1)) 0 0xFFFF <;> rfl
  · have h0 : Agree r.opFb (exp m) (exp' m) := h 0 _ (by rw [hk]; rfl)
    have h1 : Agree r.opFc (exp (m + 1)) (exp' (m + 1)) := h 1 _ (by rw [hk]; rfl)
    have hne : r.opFc ≠ .immu6 := by rcases hc with hc | hc <;> simp [hc]
    obtain ⟨hop, -⟩ := h1.of_ne hne
    simp only [bodyRest, switchFb_reg _ _ _ hb, h0.macroOf, hnext, hnext', bind]
    cases macroOf r.opFb (exp' m) with
    | error r => rfl
    | ok v =>
      rcases hc with hc | hc
      · simp only [Except.bind, switchFc, hc, h1.expShouldBeImm hne, hop, bind]
        split_ifs
        · rfl
        · cases expShouldBeImm (exp' (m + 1)) (-0x800) 0x7FF with
          | error r => rfl
          | ok v' =>
            simp only
            split_ifs <;> rfl
      · simp only [Except.bind, switchFc, hc, h1.expShouldBeImm hne, bind]
        cases expShouldBeImm (exp' (m + 1)) 0 0xFFF <;> rfl
  · have h0 : Agree r.opFb (exp m) (exp' m) := h 0 _ (by rw [hk]; rfl)
    have h1 : Agree r.opFc (exp (m + 1)) (exp' (m + 1)) := h 1 _ (by rw [hk]; rfl)
    have h2 : Agree r.opFd (exp (m + 2)) (exp' (m + 2)) := h 2 _ (by rw [hk]; rfl)
    simp only [bodyRest, switchFb_reg _ _ _ hb, h0.macroOf, hnext, hnext', bind]
    cases macroOf r.opFb (exp' m) with
    | error r => rfl
    | ok v =>
      simp only [Except.bind, switchFc_reg _ _ _ _ hc, h1.macroOf, h2.switchFd hd]

end Agree

section Row

variable {g : ℕ → ExpressionS} {r : DadaoOpcode} {exp : ℕ → ExpressionS} {nOperands : ℕ}

/-- The return value for another number of operands. -/
lemma ddGetInsnCode_of_ne (h : nOperands ≠ r.operandsNum) : ddGetInsnCode g r exp nOperands = none := by
  have hbody : getInsnCodeBody g r exp nOperands = .error none := by
    simp only [getInsnCodeBody, h, ne_eq, not_false_eq_true, if_true]
    rfl
  rw [ddGetInsnCode, hbody]

open scoped Classical in
/-- **The return value of `dd_get_insn_code`**: `-1` unless the operands are let pass; the type of the instruction if
one of them is a signed immediate without a number, and zero otherwise. -/
lemma map_fst_ddGetInsnCode (hr : wellShaped r = true) :
    (ddGetInsnCode g r exp nOperands).map Prod.fst =
      if Accepted g r exp nOperands then
        some (if ∃ (i : ℕ) (k : OperandType), (operandKinds r)[i]? = some k ∧ Leaves k (exp i) then r.type
          else .normal)
      else none := by
  by_cases hn : nOperands = r.operandsNum
  · rw [hn, ddGetInsnCode_eq]
    simp only [wellShaped, Bool.and_eq_true, Bool.or_eq_true, decide_eq_true_eq, beq_iff_eq] at hr
    obtain ⟨⟨⟨-, -⟩, hnum⟩, ⟨hfa, hrest⟩ | ⟨⟨⟨hfa, hfb⟩, hfc⟩, hfd⟩⟩ := hr
    · by_cases hop : r.opFa = .op
      · have hk := operandKinds_op hop
        have hsw : switchFa r exp = .ok (r.minorOpcode, 0) := by simp [switchFa, hop]
        rw [hk] at hnum
        have hnum' : r.operandsNum = 0 + (restKinds r).length := by omega
        have hnz : r.opFc = .imms12 → r.operandsNum ≠ 3 := fun hc => by
          rcases restKinds_cases hrest with ⟨_, hk⟩ | ⟨_, _, hk⟩ | ⟨_, _, hk⟩ | ⟨_, hc', _, _⟩
          · simp [hnum, hk]
          · simp [hnum, hk]
          · simp [hnum, hk]
          · simp [hc, isFrKind] at hc'
        have hiff : Accepted g r exp r.operandsNum ↔ RestAccepted g r exp 0 r.minorOpcode := by
          simp only [Accepted, RestAccepted, CallZero, hk, Nat.zero_add, true_and]
          refine and_congr ?_ Iff.rfl
          tauto
        rw [hsw]
        simp only [Except.bind, map_fst_bodyRest hrest (Nat.zero_le 1) hnum', hiff, hk, Nat.zero_add]
      · have hk := operandKinds_reg hfa hop
        have hreg : isRegKind r.opFa = true := by
          cases h : r.opFa <;> simp_all [isFaKind, isRegKind, regFile]
        have hstay := not_leaves (k := r.opFa) (by cases h : r.opFa <;> simp_all [isFaKind, operandSigned])
        have hnum' : r.operandsNum = 1 + (restKinds r).length := by rw [hnum, hk, List.length_cons, Nat.add_comm]
        have hns : Shifted exp r.operandsNum → ¬(r.opFc = .rd ∧ r.opFd = .immu6) := by
          rintro ⟨h3, -⟩ ⟨hc, hd⟩
          rcases restKinds_cases hrest with ⟨_, hk⟩ | ⟨_, hc', _⟩ | ⟨_, hc', _⟩ | ⟨_, _, _, hk⟩
          · simp [hnum', hk] at h3
          · simp [hc] at hc'
          · simp [hc] at hc'
          · simp [hnum', hk] at h3
        by_cases hpass : Passes r.opFa (exp 0)
        · have hiff : Accepted g r exp r.operandsNum ↔
              RestAccepted g r exp 1 (BitVec.ofInt 32 ((exp 0).xAddNumber - firstReg r.opFa)) := by
            simp only [Accepted, RestAccepted, CallZero, true_and]
            refine and_congr Iff.rfl ?_
            by_cases hs : Shifted exp r.operandsNum
            · have hne := hns hs
              simp only [hs, if_true]
              tauto
            · simp only [hs, if_false, hk, forall_getElem?_cons, hpass, true_and, Nat.add_comm]
          rw [switchFa_reg exp hfa hop, macroOf_of_passes hreg hpass]
          simp only [Except.bind, map_fst_bodyRest hrest (le_refl 1) hnum', hiff, hk, exists_getElem?_cons, hstay,
            false_or, Nat.add_comm]
        · have hfail : ¬Accepted g r exp r.operandsNum := by
            rintro ⟨-, -, h⟩
            by_cases hs : Shifted exp r.operandsNum
            · rw [if_pos hs] at h
              exact hns hs ⟨h.1, h.2.1⟩
            · rw [if_neg hs, hk] at h
              exact hpass (h 0 _ rfl)
          rw [switchFa_reg exp hfa hop, macroOf_of_not_passes hpass, if_neg hfail]
          rfl
    · have hk : operandKinds r = [.imms24] := by simp [operandKinds, hfa, hfb, hfc, hfd]
      have hnum' : r.operandsNum = 1 := by rw [hnum, hk]; rfl
      have hns : ¬Shifted exp r.operandsNum := fun h => by
        have h3 := h.1
        omega
      simp only [Accepted, CallZero, hns, if_false, hk, forall_getElem?_cons, forall_getElem?_nil,
        exists_getElem?_cons, exists_getElem?_nil, hfc, reduceCtorEq, false_and, not_false_eq_true, true_and, and_true,
        or_false]
      by_cases hop : (exp 0).xOp = .constant
      · have hpass : Passes .imms24 (exp 0) ↔ InRange .imms24 (exp 0).xAddNumber :=
          ⟨fun h => h hop, fun h _ => h⟩
        have hstay : ¬Leaves .imms24 (exp 0) := fun h => h.2 hop
        simp only [switchFa, hfa, hop, if_true, expShouldBeImm_eq inRange_imms24, true_and, bind, hpass, hstay,
          if_false]
        by_cases hrange : InRange .imms24 (exp 0).xAddNumber
        · rw [if_pos hrange, if_pos hrange]
          rfl
        · rw [if_neg hrange, if_neg hrange]
          rfl
      · have hpass : Passes .imms24 (exp 0) := fun h => absurd h hop
        have hleave : Leaves .imms24 (exp 0) := ⟨rfl, hop⟩
        simp only [switchFa, hfa, hop, if_false, Except.bind, hpass, hleave, if_true]
        rfl
  · rw [ddGetInsnCode_of_ne hn, if_neg fun h => hn h.1]
    rfl

/-- Operands are accepted exactly if the return value is not `-1`. -/
lemma ne_none_iff_accepted (hr : wellShaped r = true) :
    ddGetInsnCode g r exp nOperands ≠ none ↔ Accepted g r exp nOperands := by
  have hret := @map_fst_ddGetInsnCode g r exp nOperands hr
  by_cases h : Accepted g r exp nOperands
  · rw [if_pos h] at hret
    refine iff_of_true (fun hnone => ?_) h
    rw [hnone] at hret
    exact absurd hret (by simp)
  · rw [if_neg h, Option.map_eq_none_iff] at hret
    exact iff_of_false (fun hne => hne hret) h

/-- No row has a shifted register for an operand. -/
lemma not_shifted (hr : wellShaped r = true) (hn : nOperands = r.operandsNum) (hdeclared : Declared r exp) :
    ¬Shifted exp nOperands := by
  rintro ⟨h3, hop⟩
  simp only [wellShaped, Bool.and_eq_true, beq_iff_eq] at hr
  have h2 : 2 < (operandKinds r).length := by omega
  exact ne_leftShift_of_ofClass (hdeclared 2 _ (List.getElem?_eq_getElem h2)) hop

/-- The operands that have the values of the given ones. -/
def canonical (r : DadaoOpcode) (exp : ℕ → ExpressionS) (i : ℕ) : ExpressionS :=
  match (operandKinds r)[i]? with
  | some k => operandExp k (operandValue k (exp i))
  | none => exp i

/-- What is declared and no symbol agrees with the values. -/
lemma agree_canonical (hdeclared : Declared r exp) (hsymbol : ¬HasSymbol r exp) {i : ℕ} {k : OperandType}
    (hk : (operandKinds r)[i]? = some k) : Agree k (exp i) (canonical r exp i) := by
  rw [canonical, hk]
  exact agree_operandExp (hdeclared i k hk) fun hop => hsymbol ⟨i, k, hk, hop⟩

lemma not_shifted_canonical (hr : wellShaped r = true) : ¬Shifted (canonical r exp) r.operandsNum := by
  rintro ⟨h3, hop⟩
  simp only [wellShaped, Bool.and_eq_true, beq_iff_eq] at hr
  have h2 : 2 < (operandKinds r).length := by omega
  rw [canonical, List.getElem?_eq_getElem h2] at hop
  exact operandExp_ne_leftShift _ _ hop

/-- **The operands count by their values.** -/
lemma ddGetInsnCode_canonical (hr : wellShaped r = true) (hdeclared : Declared r exp) (hsymbol : ¬HasSymbol r exp) :
    ddGetInsnCode g r exp r.operandsNum = ddGetInsnCode g r (canonical r exp) r.operandsNum := by
  have hns := not_shifted hr rfl hdeclared
  have hns' := @not_shifted_canonical r exp hr
  have hagree := @agree_canonical r exp hdeclared hsymbol
  rw [ddGetInsnCode_eq, ddGetInsnCode_eq]
  simp only [wellShaped, Bool.and_eq_true, Bool.or_eq_true, decide_eq_true_eq, beq_iff_eq] at hr
  obtain ⟨-, ⟨hfa, hrest⟩ | ⟨⟨⟨hfa, hfb⟩, hfc⟩, hfd⟩⟩ := hr
  · by_cases hop : r.opFa = .op
    · have hsw (exp : ℕ → ExpressionS) : switchFa r exp = .ok (r.minorOpcode, 0) := by simp [switchFa, hop]
      have hrest' := @bodyRest_congr g r _ _ _ 0 r.minorOpcode hrest hns hns' fun i k hk => by
        rw [Nat.zero_add]
        exact hagree (by rw [operandKinds_op hop]; exact hk)
      rw [hsw, hsw]
      exact congrArg resultOf hrest'
    · have hfirst : Agree r.opFa (exp 0) (canonical r exp 0) := hagree (by rw [operandKinds_reg hfa hop]; rfl)
      rw [switchFa_reg exp hfa hop, switchFa_reg (canonical r exp) hfa hop, hfirst.macroOf]
      cases macroOf r.opFa (canonical r exp 0) with
      | error r => rfl
      | ok v =>
        refine congrArg resultOf (bodyRest_congr (m := 1) hrest hns hns' fun i k hk => ?_)
        rw [Nat.add_comm]
        exact hagree (by rw [operandKinds_reg hfa hop]; exact hk)
  · have hk : operandKinds r = [.imms24] := by simp [operandKinds, hfa, hfb, hfc, hfd]
    have hfirst : Agree .imms24 (exp 0) (canonical r exp 0) := hagree (by rw [hk]; rfl)
    obtain ⟨hop, -⟩ := hfirst.of_ne (by decide)
    simp only [switchFa, hfa, hop, hfirst.expShouldBeImm (by decide), bind]
    split_ifs
    · cases expShouldBeImm (canonical r exp 0) (-0x800000) 0x7FFFFF <;> rfl
    · rfl

lemma getElem?_operandValues (i : ℕ) :
    (operandValues r exp)[i]? = (operandKinds r)[i]?.map fun k => operandValue k (exp i) := by
  rw [operandValues, List.getElem?_mapIdx]

/-- The values of what is declared are in range. -/
lemma inRange_operandValues (hdeclared : Declared r exp) (hsymbol : ¬HasSymbol r exp) :
    List.Forall₂ InRange (operandKinds r) (operandValues r exp) := by
  refine List.forall₂_iff_get.mpr ⟨by rw [operandValues, List.length_mapIdx], fun i hi hi' => ?_⟩
  have hk := List.getElem?_eq_getElem hi
  have hv := @getElem?_operandValues r exp i
  rw [hk, List.getElem?_eq_getElem hi', Option.map_some, Option.some_inj] at hv
  rw [List.get_eq_getElem, List.get_eq_getElem, hv]
  exact inRange_operandValue (hdeclared i _ hk) fun hop => hsymbol ⟨i, _, hk, hop⟩

lemma hasOperands_canonical : HasOperands (canonical r exp) (operands r (operandValues r exp)) := by
  intro i e he
  rw [operands, List.getElem?_zipWith, getElem?_operandValues] at he
  rw [canonical]
  cases hk : (operandKinds r)[i]? with
  | none => simp [hk] at he
  | some k =>
    rw [hk] at he
    exact Option.some.inj he

/-- `call rb0, rd0, 0` by its values. -/
lemma callZero_of_isCallZero (hr : wellShaped r = true) (hdeclared : Declared r exp) (hsymbol : ¬HasSymbol r exp)
    (h : IsCallZero r (operandValues r exp)) : CallZero r exp := by
  obtain ⟨hc, hmajor, hnum, hvals⟩ := h
  simp only [wellShaped, Bool.and_eq_true, Bool.or_eq_true, decide_eq_true_eq, beq_iff_eq] at hr
  obtain ⟨⟨-, hlength⟩, ⟨hfa, hrest⟩ | ⟨⟨-, hfc⟩, -⟩⟩ := hr
  · rcases restKinds_cases hrest with ⟨hb, hk⟩ | ⟨_, hc', _⟩ | ⟨hb, _, hk⟩ | ⟨_, hc', _⟩
    · by_cases hop : r.opFa = .op
      · simp [hnum, operandKinds_op hop, hk] at hlength
      · simp [hnum, operandKinds_reg hfa hop, hk] at hlength
    · simp [hc] at hc'
    · by_cases hop : r.opFa = .op
      · simp [hnum, operandKinds_op hop, hk] at hlength
      · have hkinds : operandKinds r = [r.opFa, r.opFb, .imms12] := by rw [operandKinds_reg hfa hop, hk, hc]
        have hzero {i : ℕ} {k : OperandType} (hi : (operandKinds r)[i]? = some k) (hk : k ≠ .immu6)
            (h0 : [(0 : ℤ), 0, 0][i]? = some 0) :
            (exp i).xOp = operandOp k ∧ (exp i).xAddNumber - firstReg k = 0 := by
          have hv := @getElem?_operandValues r exp i
          obtain ⟨hclass, hvalue⟩ :=
            operandValue_of_class (hdeclared i k hi) (fun hop => hsymbol ⟨i, k, hi, hop⟩) hk
          rw [hvals, h0, hi] at hv
          exact ⟨hclass, hvalue.symm.trans (Option.some.inj hv).symm⟩
        have hfirst := hzero (i := 0) (by rw [hkinds]; rfl) (by rintro h; simp [h, isFaKind] at hfa) rfl
        have hsecond := hzero (i := 1) (by rw [hkinds]; rfl) (by rintro h; simp [h, isFrKind] at hb) rfl
        have hthird := hzero (i := 2) (k := .imms12) (by rw [hkinds]; rfl) (by decide) rfl
        exact ⟨hc, hmajor, hnum, by rw [hfirst.2]; rfl, by rw [hsecond.2]; rfl, hthird.1,
          by simpa [firstReg, regFile] using hthird.2⟩
    · simp [hc, isFrKind] at hc'
  · simp [hc] at hfc

/-- **What is finished is the word of the layout.** -/
lemma ddGetInsnCode_of_declared (hr : wellShaped r = true) (hdeclared : Declared r exp)
    (hsymbol : ¬HasSymbol r exp) (hnz : ¬CallZero r exp) :
    ddGetInsnCode g r exp r.operandsNum = some (.normal, BitVec.ofNat 32 (encode r (operandValues r exp))) := by
  have hnum : (operandValues r exp).length = r.operandsNum := by
    simp only [wellShaped, Bool.and_eq_true, beq_iff_eq] at hr
    rw [hr.1.2, operandValues, List.length_mapIdx]
  have hcode := ddGetInsnCode_eq_encode (g := g) hr (inRange_operandValues hdeclared hsymbol)
    (@hasOperands_canonical r exp)
  rw [hnum, if_neg fun h => hnz (callZero_of_isCallZero hr hdeclared hsymbol h)] at hcode
  rw [ddGetInsnCode_canonical hr hdeclared hsymbol, hcode]

end Row

/-- **The operands of a row are checked as declared** exactly if nothing slips. -/
theorem checked_iff {g : ℕ → ExpressionS} {r : DadaoOpcode} {exp : ℕ → ExpressionS} {nOperands : ℕ}
    (hr : r ∈ opcTable) : Checked g r exp nOperands ↔ Fits g r exp nOperands := by
  have hshape := wellShaped_of_mem hr
  have haccepted := @ne_none_iff_accepted g r exp nOperands hshape
  constructor
  · intro h hpass
    obtain ⟨hn, hdeclared⟩ := h.sound (haccepted.mpr hpass)
    have hns := not_shifted hshape hn hdeclared
    refine ⟨hns, fun i k hk hslip => ?_⟩
    obtain ⟨hop, htype⟩ := symbol_of_slip (hdeclared i k hk) hslip
    have hleaves : Leaves k (exp i) := ⟨signed_of_symbol (hdeclared i k hk) hop, by rw [hop]; decide⟩
    have hret := @map_fst_ddGetInsnCode g r exp nOperands hshape
    rw [if_pos hpass, if_pos ⟨i, k, hk, hleaves⟩, htype] at hret
    obtain ⟨⟨t, w⟩, hcode, rfl⟩ := Option.map_eq_some_iff.mp hret
    exact (h.fields w hcode).1 ⟨i, k, hk, hop⟩
  · intro h
    have hdeclared : ddGetInsnCode g r exp nOperands ≠ none → nOperands = r.operandsNum ∧ Declared r exp := by
      intro hne
      have hpass := haccepted.mp hne
      obtain ⟨hns, hslip⟩ := h hpass
      obtain ⟨hn, -, hall⟩ := hpass
      rw [if_neg hns] at hall
      exact ⟨hn, fun i k hk => ofClass_of_passes (hall i k hk) (hslip i k hk)⟩
    refine ⟨hdeclared, fun w hcode => ?_, fun hn hdecl hnz => ?_⟩
    · have hne : ddGetInsnCode g r exp nOperands ≠ none := by simp [hcode]
      have hpass := haccepted.mp hne
      obtain ⟨hns, hslip⟩ := h hpass
      obtain ⟨hn, hdecl⟩ := hdeclared hne
      have hsymbol : ¬HasSymbol r exp := by
        rintro ⟨i, k, hk, hop⟩
        have hleaves : Leaves k (exp i) := ⟨signed_of_symbol (hdecl i k hk) hop, by rw [hop]; decide⟩
        have hret := @map_fst_ddGetInsnCode g r exp nOperands hshape
        rw [if_pos hpass, if_pos ⟨i, k, hk, hleaves⟩, hcode] at hret
        have htype : .normal = r.type := Option.some.inj hret
        exact hslip i k hk (htype ▸ slip_of_symbol hleaves.1 hop)
      refine ⟨hsymbol, ?_⟩
      rw [hn, ddGetInsnCode_of_declared hshape hdecl hsymbol hpass.2.1] at hcode
      exact ((Prod.mk.injEq ..).mp (Option.some.inj hcode)).2.symm
    · refine haccepted.mpr ⟨hn, hnz, ?_⟩
      rw [if_neg (not_shifted hshape hn hdecl)]
      exact fun i k hk => passes_of_ofClass (hdecl i k hk)

/-- `addi rd, rd, imms12`. -/
def addiRow : DadaoOpcode := ⟨"addi", 3, 25, 0, .rd, .rd, .imms12, .none, .normal⟩

lemma addiRow_mem : addiRow ∈ opcTable := by
  rw [opcTable_eq]
  exact List.mem_of_getElem? (i := 70) rfl

/-- The operands of `addi rd1, rd2` with a third one. -/
def addiOperands (third : ExpressionS) : ℕ → ExpressionS
  | 0 => ⟨.register, 1, 0, 0⟩
  | 1 => ⟨.register, 2, 0, 0⟩
  | _ => third

/-- `addi rd1, rd2, 5`. -/
theorem checked_iff_addi : Checked (fun _ => .const 0) addiRow (addiOperands (.const 5)) 3 := by
  refine (checked_iff addiRow_mem).mpr fun _ => ⟨fun h => absurd h.2 (by decide), ?_⟩
  have hk : operandKinds addiRow = [.rd, .rd, .imms12] := rfl
  rw [hk, forall_getElem?_cons, forall_getElem?_cons, forall_getElem?_cons]
  refine ⟨?_, ?_, ?_, fun i k h => absurd h (by simp)⟩
  · exact fun h : (1 : ℤ) < 0 => absurd h (by decide)
  · exact fun h : (2 : ℤ) < 0 => absurd h (by decide)
  · exact fun h => absurd rfl h.1

/-- **`addi rd1, rd2, foo`** is finished as `addi rd1, rd2, 0`. -/
theorem addi_symbol_not_checked : addiRow ∈ opcTable ∧
    ¬Checked (fun _ => .const 0) addiRow (addiOperands ⟨.symbol, 0, 1, 0⟩) 3 := by
  refine ⟨addiRow_mem, fun h => ?_⟩
  have hcode : ddGetInsnCode (fun _ => .const 0) addiRow (addiOperands ⟨.symbol, 0, 1, 0⟩) 3 =
      some (.normal, 0x19042000#32) := by decide
  exact (h.fields _ hcode).1 ⟨2, .imms12, rfl, rfl⟩

end Dadao.Gas
