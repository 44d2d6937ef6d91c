import Dadao.Gas.Printed
import Mathlib.Logic.Function.Basic
import Mathlib.Tactic.IntervalCases

set_option relaxedAutoImplicit false
set_option autoImplicit false

/-!
# The offset field of an instruction

`dd_set_addr_offset` of `gas/config/tc-dadao.c`, which fills in an offset that is known to the assembler. The
range it accepts is that of a field with one bit more, and the bits of the offset are added to those that
are in the field.

## Main definitions

* `Dadao.Gas.ddSetAddrOffset` — the function.
* `Dadao.Gas.StoresOffset` — what is stored is what will be decoded.

## Main results

* `Dadao.Gas.ddSetAddrOffset_eq` — the word with an offset that is accepted.
* `Dadao.Gas.storesOffset_iff` — the offsets and words for which the function is right.
-/

namespace Dadao.Gas

open Dadao.Opcodes Dadao.Bits

/-! ## The function -/

/-- The bytes of an instruction. -/
abbrev Bytes := ℕ → BitVec 8

/-- `|=` on a byte. -/
def orByte (insn : Bytes) (i : ℕ) (v : BitVec 64) : Bytes :=
  Function.update insn i (insn i ||| v.setWidth 8)

/-- `DDOP_SET_FA`. -/
def ddopSetFa (insn : Bytes) (fa : BitVec 64) : Bytes := orByte insn 2 ((fa &&& 0x3F) <<< 2)

/-- `DDOP_SET_FB`. -/
def ddopSetFb (insn : Bytes) (fb : BitVec 64) : Bytes :=
  orByte (orByte insn 2 ((fb &&& 0x3F) >>> 4)) 1 ((fb &&& 0xF) <<< 4)

/-- `DDOP_SET_FC`. -/
def ddopSetFc (insn : Bytes) (fc : BitVec 64) : Bytes :=
  orByte (orByte insn 1 ((fc &&& 0x3F) >>> 2)) 0 ((fc &&& 0x3) <<< 6)

/-- `DDOP_SET_FD`. -/
def ddopSetFd (insn : Bytes) (fd : BitVec 64) : Bytes := orByte insn 0 (fd &&& 0x3F)

/-- The minus of `offsetT`; that of the least value is not defined, and is `junk` here. -/
def negOffset (junk value : BitVec 64) : BitVec 64 := if value = BitVec.intMin 64 then junk else -value

/-- The switch of `dd_set_addr_offset`; its cases fall through. -/
def setOffsetFields (opcodep : Bytes) (value : BitVec 64) (bitcount : ℕ) : Option Bytes :=
  let fcfd insn := ddopSetFd (ddopSetFc insn (value.sshiftRight 6 &&& 0x3F)) (value &&& 0x3F)
  let fb insn := ddopSetFb insn (value.sshiftRight 12 &&& 0x3F)
  let fa insn := ddopSetFa insn (value.sshiftRight 18 &&& 0x3F)
  match bitcount with
  | 24 => some (fcfd (fb (fa opcodep)))
  | 18 => some (fcfd (fb opcodep))
  | 12 => some (fcfd opcodep)
  | _ => none

/-- **`dd_set_addr_offset`**; `none` is `as_fatal`. -/
def ddSetAddrOffset (junk : BitVec 64) (opcodep : Bytes) (value : BitVec 64) (bitcount : ℕ) (isInsn : Bool) :
    Option Bytes :=
  if isInsn ∧ value &&& 0x3 ≠ 0 then none
  else
    let value := if isInsn then value.sdiv 4 else value
    let limit := BitVec.ofNat 64 (1 <<< bitcount)
    if BitVec.slt 0 value ∧ limit.sle value then none
    else if value.slt 0 ∧ limit.slt (negOffset junk value) then none
    else setOffsetFields opcodep value bitcount

/-! ## What it is for -/

/-- The value of a field for an offset. -/
def fieldValue (isInsn : Bool) (value : BitVec 64) : ℤ := if isInsn then value.toInt / 4 else value.toInt

/-- An offset that a signed field of `n` bits holds. -/
def FitsField (n : ℕ) (isInsn : Bool) (value : BitVec 64) : Prop :=
  (isInsn = true → 4 ∣ value.toInt) ∧
    -2 ^ (n - 1) ≤ fieldValue isInsn value ∧ fieldValue isInsn value < 2 ^ (n - 1)

/-- **What is stored is what will be decoded**: the signed field is the offset, the bits outside it are those
of the word, and an offset that does not fit is rejected. -/
structure StoresOffset (out : Option Bytes) (w : BitVec 32) (n : ℕ) (isInsn : Bool) (value : BitVec 64) :
    Prop where
  decoded : ∀ b, out = some b →
    ((readInsn b).setWidth n).toInt * (if isInsn then 4 else 1) = value.toInt
  outside : ∀ b, out = some b → ∀ i, n ≤ i → (readInsn b).getLsbD i = w.getLsbD i
  rejected : ¬ FitsField n isInsn value → out = none

/-- The offsets that are rejected, whatever is made of the minus of the least value. -/
def Rejected (n : ℕ) (isInsn : Bool) (value : BitVec 64) : Prop :=
  isInsn = true ∧ ¬ 4 ∣ value.toInt ∨ 2 ^ n ≤ fieldValue isInsn value ∨
    fieldValue isInsn value < -2 ^ n ∧ ¬ (isInsn = false ∧ value = BitVec.intMin 64)

/-- The bits that are set in the field of a word are set in the offset. -/
def FieldWithin (w : BitVec 32) (n : ℕ) (isInsn : Bool) (value : BitVec 64) : Prop :=
  w.setWidth n &&& ~~~ BitVec.ofInt n (fieldValue isInsn value) = 0

/-! ## The fields -/

section Fields

variable (w : BitVec 32) (v : BitVec 64)

/-- Bytes that are those of a word bit by bit. -/
lemma eq_mdNumberToChars {b : Bytes} {x : BitVec 32}
    (h : ∀ j < 8, (b 0).getLsbD j = x.getLsbD j ∧ (b 1).getLsbD j = x.getLsbD (8 + j) ∧
      (b 2).getLsbD j = x.getLsbD (16 + j) ∧ ∀ i, (b (i + 3)).getLsbD j = x.getLsbD (24 + j)) :
    b = mdNumberToChars x := by
  funext i
  apply BitVec.eq_of_getLsbD_eq
  intro j hj
  obtain ⟨h0, h1, h2, h3⟩ := h j hj
  rcases i with _ | _ | _ | i
  · exact h0.trans (by simp [mdNumberToChars, hj])
  · exact h1.trans (by simp [mdNumberToChars, hj])
  · exact h2.trans (by simp [mdNumberToChars, hj])
  · exact (h3 i).trans (by simp [mdNumberToChars, hj])

/-- **The fields of an offset** are added to those of the word. -/
lemma setOffsetFields_eq {n : ℕ} (hn : n = 12 ∨ n = 18 ∨ n = 24) :
    setOffsetFields (mdNumberToChars w) v n = some (mdNumberToChars (w ||| (v.setWidth n).setWidth 32)) := by
  rcases hn with rfl | rfl | rfl
  all_goals
    simp only [setOffsetFields, Option.some.injEq]
    refine eq_mdNumberToChars fun j hj => ?_
    interval_cases j <;> simp [ddopSetFd, ddopSetFc, ddopSetFb, ddopSetFa, orByte, mdNumberToChars,
      Function.update, BitVec.getElem_sshiftRight]

/-- The field of a word to which an offset is added. -/
lemma setWidth_or_offset {n : ℕ} (hn : n ≤ 32) :
    (w ||| (v.setWidth n).setWidth 32).setWidth n = w.setWidth n ||| BitVec.ofInt n v.toInt := by
  have hv : v.setWidth n = BitVec.ofInt n v.toInt :=
    (BitVec.signExtend_eq_setWidth_of_le v (by omega)).symm
  have hself : (v.setWidth n).setWidth 32 = (v.setWidth n).setWidth 32 := rfl
  rw [BitVec.setWidth_or, BitVec.setWidth_setWidth_of_le _ hn, BitVec.setWidth_eq, hv]

/-- The bits behind the field. -/
lemma getLsbD_or_offset {n i : ℕ} (hi : n ≤ i) :
    (w ||| (v.setWidth n).setWidth 32).getLsbD i = w.getLsbD i := by
  rw [BitVec.getLsbD_or, BitVec.getLsbD_setWidth, BitVec.getLsbD_of_ge _ _ hi, Bool.and_false, Bool.or_false]

end Fields

/-- Adding bits that are there already. -/
lemma or_eq_right_iff {n : ℕ} (x y : BitVec n) : x ||| y = y ↔ x &&& ~~~y = 0 := by
  constructor
  · intro h
    rw [← h, BitVec.not_or, ← BitVec.and_assoc, BitVec.and_not_self]
    exact BitVec.zero_and
  · intro h
    apply BitVec.eq_of_getLsbD_eq
    intro i hi
    have hbit := congrArg (fun z => z.getLsbD i) h
    simp only [BitVec.getLsbD_and, BitVec.getLsbD_not, hi, decide_true, Bool.true_and] at hbit
    rw [BitVec.getLsbD_or]
    cases hx : x.getLsbD i <;> cases hy : y.getLsbD i <;> simp_all

/-! ## The checks -/

/-- The offset as the switch takes it. -/
def offsetOf (isInsn : Bool) (value : BitVec 64) : BitVec 64 := if isInsn then value.sdiv 4 else value

section Checks

variable {n : ℕ} {isInsn : Bool} {value : BitVec 64}

/-- The test for a misaligned offset. -/
lemma and_three_ne_zero_iff : value &&& 0x3 ≠ 0 ↔ ¬ 4 ∣ value.toInt := by
  have hmod : (value &&& 0x3).toNat = value.toNat % 4 := toNat_and_mask _ _ 2 rfl
  have hzero : value &&& 0x3 = 0 ↔ value.toNat % 4 = 0 := by
    rw [← hmod]
    exact ⟨fun h => by rw [h]; rfl, fun h => BitVec.eq_of_toNat_eq h⟩
  rw [ne_eq, hzero, BitVec.toInt_eq_toNat_cond]
  split_ifs <;> omega

lemma toInt_offsetOf (h : isInsn = true → 4 ∣ value.toInt) :
    (offsetOf isInsn value).toInt = fieldValue isInsn value := by
  cases isInsn with
  | false => rfl
  | true =>
    have hfour : (4 : BitVec 64).toInt = 4 := rfl
    have hne : (4 : BitVec 64) ≠ -1#64 := by decide
    rw [offsetOf, fieldValue, if_pos rfl, if_pos rfl, BitVec.toInt_sdiv_of_ne_or_ne _ _ (.inr hne), hfour]
    exact Int.tdiv_eq_ediv_of_dvd (h rfl)

/-- Only the least value has no minus, and it is no multiple of four over four. -/
lemma toInt_negOffset (junk : BitVec 64) (h : isInsn = true → 4 ∣ value.toInt)
    (hmin : ¬ (isInsn = false ∧ value = BitVec.intMin 64)) :
    (negOffset junk (offsetOf isInsn value)).toInt = -fieldValue isInsn value := by
  have hvalue := toInt_offsetOf h
  have hne : offsetOf isInsn value ≠ BitVec.intMin 64 := by
    cases isInsn with
    | false => exact fun heq => hmin ⟨rfl, heq⟩
    | true =>
      intro heq
      have hmin : (BitVec.intMin 64).toInt = -2 ^ 63 := rfl
      have hle := BitVec.le_toInt value
      rw [heq, hmin, fieldValue, if_pos rfl] at hvalue
      omega
  rw [negOffset, if_neg hne, BitVec.toInt_neg_of_ne_intMin hne, hvalue]

/-- **The checks.** -/
lemma ddSetAddrOffset_eq (hn : n = 12 ∨ n = 18 ∨ n = 24) (junk : BitVec 64) (b : Bytes)
    (h : isInsn = true → 4 ∣ value.toInt) :
    ddSetAddrOffset junk b value n isInsn =
      if 2 ^ n ≤ fieldValue isInsn value ∨ fieldValue isInsn value < 0 ∧
        2 ^ n < (negOffset junk (offsetOf isInsn value)).toInt then none
      else setOffsetFields b (offsetOf isInsn value) n := by
  have hlimit : (BitVec.ofNat 64 (1 <<< n)).toInt = 2 ^ n := by
    rcases hn with rfl | rfl | rfl <;> rfl
  have hzero : (0 : BitVec 64).toInt = 0 := rfl
  have hpos : (0 : ℤ) < 2 ^ n := by
    rcases hn with rfl | rfl | rfl <;> decide
  have haligned : ¬ (isInsn = true ∧ value &&& 0x3 ≠ 0) := by
    rw [and_three_ne_zero_iff]
    exact fun hnot => hnot.2 (h hnot.1)
  rw [ddSetAddrOffset, if_neg haligned]
  simp only [BitVec.slt_iff_toInt_lt, BitVec.sle_iff_toInt_le, hlimit, hzero]
  rw [← offsetOf, toInt_offsetOf h]
  split_ifs <;> first
    | rfl
    | omega

/-- An offset that is rejected. -/
lemma ddSetAddrOffset_eq_none (hn : n = 12 ∨ n = 18 ∨ n = 24) (junk : BitVec 64) (b : Bytes)
    (h : Rejected n isInsn value) : ddSetAddrOffset junk b value n isInsn = none := by
  by_cases haligned : isInsn = true → 4 ∣ value.toInt
  · rw [ddSetAddrOffset_eq hn junk b haligned]
    rcases h with h | h | ⟨h, hmin⟩
    · exact absurd haligned fun hall => h.2 (hall h.1)
    · exact if_pos (.inl h)
    · refine if_pos (.inr ⟨?_, ?_⟩)
      · have hpos : (0 : ℤ) ≤ 2 ^ n := by
          rcases hn with rfl | rfl | rfl <;> decide
        omega
      · rw [toInt_negOffset junk haligned hmin]
        omega
  · rw [not_forall, exists_prop] at haligned
    exact if_pos ⟨haligned.1, and_three_ne_zero_iff.mpr haligned.2⟩

/-- **An offset that is accepted** is added to the field. -/
lemma ddSetAddrOffset_eq_some (hn : n = 12 ∨ n = 18 ∨ n = 24) {junk : BitVec 64} (w : BitVec 32)
    (h : isInsn = true → 4 ∣ value.toInt) (hlt : fieldValue isInsn value < 2 ^ n)
    (hle : fieldValue isInsn value < 0 → (negOffset junk (offsetOf isInsn value)).toInt ≤ 2 ^ n) :
    ddSetAddrOffset junk (mdNumberToChars w) value n isInsn =
      some (mdNumberToChars (w ||| ((offsetOf isInsn value).setWidth n).setWidth 32)) := by
  rw [ddSetAddrOffset_eq hn junk _ h, if_neg, setOffsetFields_eq w _ hn]
  rintro (hle' | ⟨hneg, hgt⟩)
  · omega
  · have := hle hneg
    omega

/-- What is stored is right if the offset fits and the field has no other bits. -/
lemma storesOffset_some_iff (hn : n = 12 ∨ n = 18 ∨ n = 24) (w : BitVec 32)
    (h : isInsn = true → 4 ∣ value.toInt) :
    StoresOffset (some (mdNumberToChars (w ||| ((offsetOf isInsn value).setWidth n).setWidth 32))) w n isInsn
      value ↔ FitsField n isInsn value ∧ FieldWithin w n isInsn value := by
  have hle : n ≤ 32 := by omega
  have hfield := setWidth_or_offset w (offsetOf isInsn value) hle
  rw [toInt_offsetOf h] at hfield
  have hscale : fieldValue isInsn value * (if isInsn then 4 else 1) = value.toInt := by
    cases isInsn with
    | false => exact Int.mul_one _
    | true => exact Int.ediv_mul_cancel (h rfl)
  have hne : (if isInsn then 4 else 1 : ℤ) ≠ 0 := by
    cases isInsn <;> decide
  constructor
  · rintro ⟨hdecoded, -, hrejected⟩
    have hfits : FitsField n isInsn value := by
      by_contra hnot
      exact absurd (hrejected hnot) (Option.some_ne_none _)
    have hvalue := hdecoded _ rfl
    rw [readInsn_mdNumberToChars, hfield, ← hscale] at hvalue
    have heq := Int.eq_of_mul_eq_mul_right hne hvalue
    refine ⟨hfits, (or_eq_right_iff _ _).mp (BitVec.eq_of_toInt_eq ?_)⟩
    rw [heq, BitVec.toInt_ofInt_eq_self (by omega) hfits.2.1 hfits.2.2]
  · rintro ⟨hfits, hwithin⟩
    refine ⟨fun b hb => ?_, fun b hb i hi => ?_, fun hnot => absurd hfits hnot⟩
    · obtain rfl := Option.some.inj hb
      rw [readInsn_mdNumberToChars, hfield, (or_eq_right_iff _ _).mpr hwithin, ← hscale,
        BitVec.toInt_ofInt_eq_self (by omega) hfits.2.1 hfits.2.2]
    · obtain rfl := Option.some.inj hb
      rw [readInsn_mdNumberToChars, getLsbD_or_offset w _ hi]

end Checks

/-- **`dd_set_addr_offset` is right** exactly for the offsets that it rejects, and for those that fit the field
of a word that has no other bits in it. -/
theorem storesOffset_iff {n : ℕ} (hn : n = 12 ∨ n = 18 ∨ n = 24) (w : BitVec 32) (isInsn : Bool)
    (value : BitVec 64) :
    (∀ junk, StoresOffset (ddSetAddrOffset junk (mdNumberToChars w) value n isInsn) w n isInsn value) ↔
      Rejected n isInsn value ∨ FitsField n isInsn value ∧ FieldWithin w n isInsn value := by
  constructor
  · intro h
    refine or_iff_not_imp_left.mpr fun hnot => ?_
    simp only [Rejected, not_or, not_and, not_not] at hnot
    obtain ⟨haligned, hlt, hmin⟩ := hnot
    have hzero := h 0
    rw [ddSetAddrOffset_eq_some hn w haligned (by omega) fun hneg => ?_, storesOffset_some_iff hn w haligned]
      at hzero
    · exact hzero
    · by_cases hle : fieldValue isInsn value < -2 ^ n
      · -- the least value, whose minus is not defined
        obtain ⟨rfl, rfl⟩ : isInsn = false ∧ value = BitVec.intMin 64 := by
          by_contra hboth
          exact hmin hle fun hinsn hvalue => hboth ⟨hinsn, hvalue⟩
        have hpos : (0 : ℤ) ≤ 2 ^ n := by
          rcases hn with rfl | rfl | rfl <;> decide
        exact hpos
      · have hne : ¬ (isInsn = false ∧ value = BitVec.intMin 64) := by
          rintro ⟨rfl, rfl⟩
          refine hle ?_
          rcases hn with rfl | rfl | rfl <;> decide
        rw [toInt_negOffset 0 haligned hne]
        omega
  · rintro (hrejected | ⟨hfits, hwithin⟩) junk
    · rw [ddSetAddrOffset_eq_none hn junk _ hrejected]
      exact ⟨fun b hb => absurd hb.symm (Option.some_ne_none b),
        fun b hb => absurd hb.symm (Option.some_ne_none b), fun _ => rfl⟩
    · obtain ⟨haligned, hge, hlt⟩ := hfits
      have hpow : (2 : ℤ) ^ (n - 1) ≤ 2 ^ n ∧ (2 : ℤ) ^ n ≤ 2 ^ 24 := by
        rcases hn with rfl | rfl | rfl <;> decide
      have hne : ¬ (isInsn = false ∧ value = BitVec.intMin 64) := by
        rintro ⟨rfl, rfl⟩
        have hmin : fieldValue false (BitVec.intMin 64) = -2 ^ 63 := rfl
        omega
      rw [ddSetAddrOffset_eq_some hn w haligned (by omega) fun _ => by
        rw [toInt_negOffset junk haligned hne]
        omega, storesOffset_some_iff hn w haligned]
      exact ⟨⟨haligned, hge, hlt⟩, hwithin⟩

/-- `brn rd8` with an offset of eight bytes. -/
theorem storesOffset_iff_brn :
    (∀ junk, StoresOffset (ddSetAddrOffset junk (mdNumberToChars 0x28200000) 8 18 true) 0x28200000 18 true 8) ↔
      Rejected 18 true 8 ∨ FitsField 18 true 8 ∧ FieldWithin 0x28200000 18 true 8 :=
  storesOffset_iff (.inr (.inl rfl)) 0x28200000 true 8

/-- **An offset of `2 ^ 19` bytes**, one too many for the field of 18 bits, is stored as its opposite. -/
theorem not_storesOffset_brn :
    ¬ StoresOffset (ddSetAddrOffset 0 (mdNumberToChars 0x28200000) (2 ^ 19) 18 true) 0x28200000 18 true
      (2 ^ 19) := by
  intro h
  have hnot : ¬ FitsField 18 true (2 ^ 19) := by
    rintro ⟨-, -, hlt⟩
    exact absurd hlt (by decide)
  exact absurd (h.rejected hnot) (by decide)

end Dadao.Gas
