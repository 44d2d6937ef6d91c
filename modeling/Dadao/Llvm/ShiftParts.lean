import Dadao.Llvm.Lowering

set_option relaxedAutoImplicit false
set_option autoImplicit false

/-!
# Shifts of two words

`LowerSHL_PARTS` and `LowerSRL_PARTS` of `DadaoISelLowering.cpp`: the graphs by which a value of 128
bits in two words is shifted, over 64-bit shifts that take their amount modulo 64.

The graph of the right shift reuses the high word, which it has already cleared, and its carry is a left
shift by `64 - amt`; for an amount above 64 this is not the right shift by `amt - 64`.

## Main definitions

* `Dadao.Llvm.DagNode`, `Dadao.Llvm.DagNode.eval` — the nodes of the graphs.
* `Dadao.Llvm.lowerSHL_PARTS`, `Dadao.Llvm.lowerSRL_PARTS` — the two functions.
* `Dadao.Llvm.ShiftsParts` — the two words of the shifted value.

## Main results

* `Dadao.Llvm.shl_parts` — the left shift.
* `Dadao.Llvm.shiftsParts_iff` — when both shifts are right.
-/

namespace Dadao.Llvm

/-! ## The graphs -/

/-- The nodes the two functions build, over the operands of the shift. -/
inductive DagNode where
  | operand (n : ℕ)
  | const (c : BitVec 64)
  | sub (a b : DagNode)
  | or (a b : DagNode)
  | shl (a amt : DagNode)
  | srl (a amt : DagNode)
  | setcc (a b : DagNode) (cc : CondCode)
  | select (c x y : DagNode)
  deriving DecidableEq, Repr

/-- The value of a node. -/
def DagNode.eval (env : ℕ → BitVec 64) : DagNode → BitVec 64
  | .operand n => env n
  | .const c => c
  | .sub a b => a.eval env - b.eval env
  | .or a b => a.eval env ||| b.eval env
  | .shl a amt => a.eval env <<< ((amt.eval env).toNat % 64)
  | .srl a amt => a.eval env >>> ((amt.eval env).toNat % 64)
  | .setcc a b cc => if cc.Holds (a.eval env) (b.eval env) then 1 else 0
  | .select c x y => if c.eval env ≠ 0 then x.eval env else y.eval env

/-- `LowerSHL_PARTS`: the low and the high word. -/
def lowerSHL_PARTS (shOpLo shOpHi shAmt : DagNode) : DagNode × DagNode :=
  let vtBits := 64
  let revShAmt := DagNode.sub (.const vtBits) shAmt
  let zero := DagNode.const 0
  let loBitsForHi := DagNode.select (.setcc shAmt zero .seteq) zero (.srl shOpLo revShAmt)
  let extraShAmt := DagNode.sub shAmt (.const vtBits)
  let hiForNormalShift := DagNode.or loBitsForHi (.shl shOpHi shAmt)
  let hiForBigShift := DagNode.shl shOpLo extraShAmt
  let setCC := DagNode.setcc extraShAmt zero .setge
  let hi := DagNode.select setCC hiForBigShift hiForNormalShift
  let lo := DagNode.select setCC (.const 0) (.shl shOpLo shAmt)
  (lo, hi)

/-- `LowerSRL_PARTS`: the low and the high word. -/
def lowerSRL_PARTS (shOpLo shOpHi shAmt : DagNode) : DagNode × DagNode :=
  let vtBits := 64
  let zero := DagNode.const 0
  let negatedPlus32 := DagNode.sub (.const vtBits) shAmt
  let setCC := DagNode.setcc negatedPlus32 zero .setle
  let hi := DagNode.select setCC zero (.srl shOpHi shAmt)
  let lo := DagNode.select setCC hi (.srl shOpLo shAmt)
  let carryBits := DagNode.shl shOpHi negatedPlus32
  let shiftIsZero := DagNode.setcc shAmt zero .seteq
  (.select shiftIsZero lo (.or lo carryBits), hi)

/-- The operands of a shift. -/
def shiftOperands (lo hi amt : BitVec 64) : ℕ → BitVec 64
  | 0 => lo
  | 1 => hi
  | _ => amt

/-- What a pair of nodes computes from the operands, the high word first. -/
def evalParts (parts : DagNode → DagNode → DagNode → DagNode × DagNode) (lo hi amt : BitVec 64) :
    BitVec 128 :=
  let r := parts (.operand 0) (.operand 1) (.operand 2)
  r.2.eval (shiftOperands lo hi amt) ++ r.1.eval (shiftOperands lo hi amt)

/-- **Both graphs shift the value of two words.** -/
def ShiftsParts (lo hi amt : BitVec 64) : Prop :=
  evalParts lowerSHL_PARTS lo hi amt = (hi ++ lo) <<< amt.toNat ∧
    evalParts lowerSRL_PARTS lo hi amt = (hi ++ lo) >>> amt.toNat

/-! ## The tests and the amounts -/

section Amount

variable {amt : BitVec 64}

lemma toNat_extraShAmt : (amt - 64).toNat = (2 ^ 64 - 64 + amt.toNat) % 2 ^ 64 := BitVec.toNat_sub ..

lemma toNat_revShAmt : (64 - amt).toNat = (2 ^ 64 - amt.toNat + 64) % 2 ^ 64 := BitVec.toNat_sub ..

lemma holds_amt_zero : CondCode.seteq.Holds amt 0 ↔ amt.toNat = 0 := BitVec.toNat_eq

/-- The test for a big shift to the left. -/
lemma holds_extraShAmt (h : amt.toNat < 128) : CondCode.setge.Holds (amt - 64) 0 ↔ 64 ≤ amt.toNat := by
  have hsign : (amt - 64).toInt = (amt.toNat : ℤ) - 64 := by
    rw [BitVec.toInt_eq_toNat_cond, toNat_extraShAmt]
    split_ifs <;> omega
  have hzero : (0 : BitVec 64).toInt = 0 := rfl
  rw [CondCode.Holds, hsign, hzero]
  omega

/-- The test for a big shift to the right. -/
lemma holds_negatedPlus32 (h : amt.toNat < 128) : CondCode.setle.Holds (64 - amt) 0 ↔ 64 ≤ amt.toNat := by
  have hsign : (64 - amt).toInt = 64 - (amt.toNat : ℤ) := by
    rw [BitVec.toInt_eq_toNat_cond, toNat_revShAmt]
    split_ifs <;> omega
  have hzero : (0 : BitVec 64).toInt = 0 := rfl
  rw [CondCode.Holds, hsign, hzero]
  omega

end Amount

/-! ## What the graphs compute -/

section Graphs

variable (lo hi : BitVec 64) {amt : BitVec 64}

/-- A node for a comparison, tested. -/
lemma ite_ne_zero (p : Prop) [Decidable p] : (if p then (1 : BitVec 64) else 0) ≠ 0 ↔ p := by
  by_cases h : p <;> simp [h]

/-- The left shift, case by case. -/
lemma evalParts_shl (h : amt.toNat < 128) : evalParts lowerSHL_PARTS lo hi amt =
    if 64 ≤ amt.toNat then lo <<< (amt.toNat - 64) ++ 0#64
    else (lo >>> (64 - amt.toNat) ||| hi <<< amt.toNat) ++ lo <<< amt.toNat := by
  simp only [evalParts, lowerSHL_PARTS, DagNode.eval, shiftOperands, ite_ne_zero, holds_extraShAmt h,
    holds_amt_zero, toNat_extraShAmt, toNat_revShAmt]
  by_cases hbig : 64 ≤ amt.toNat
  · have hamount : (2 ^ 64 - 64 + amt.toNat) % 2 ^ 64 % 64 = amt.toNat - 64 := by omega
    rw [if_pos hbig, if_pos hbig, if_pos hbig, hamount]
    rfl
  · have hamount : amt.toNat % 64 = amt.toNat := by omega
    rw [if_neg hbig, if_neg hbig, if_neg hbig, hamount]
    by_cases hzero : amt.toNat = 0
    · rw [if_pos hzero, hzero, BitVec.ushiftRight_eq_zero (Nat.le_refl 64)]
      rfl
    · have hrev : (2 ^ 64 - amt.toNat + 64) % 2 ^ 64 % 64 = 64 - amt.toNat := by omega
      rw [if_neg hzero, hrev]

/-- The right shift, case by case; the low word of a big shift is the carry alone. -/
lemma evalParts_srl (h : amt.toNat < 128) : evalParts lowerSRL_PARTS lo hi amt =
    if 64 ≤ amt.toNat then 0#64 ++ hi <<< ((128 - amt.toNat) % 64)
    else hi >>> amt.toNat ++ (lo >>> amt.toNat ||| hi <<< (64 - amt.toNat)) := by
  simp only [evalParts, lowerSRL_PARTS, DagNode.eval, shiftOperands, ite_ne_zero, holds_negatedPlus32 h,
    holds_amt_zero, toNat_revShAmt]
  by_cases hbig : 64 ≤ amt.toNat
  · have hamount : (2 ^ 64 - amt.toNat + 64) % 2 ^ 64 % 64 = (128 - amt.toNat) % 64 := by omega
    rw [if_pos hbig, if_pos hbig, if_pos hbig, if_neg (by omega), hamount]
    exact congrArg (0#64 ++ ·) BitVec.zero_or
  · have hamount : amt.toNat % 64 = amt.toNat := by omega
    rw [if_neg hbig, if_neg hbig, if_neg hbig, hamount]
    by_cases hzero : amt.toNat = 0
    · rw [if_pos hzero, hzero, BitVec.shiftLeft_eq_zero (Nat.le_refl 64), BitVec.or_zero]
    · have hrev : (2 ^ 64 - amt.toNat + 64) % 2 ^ 64 % 64 = 64 - amt.toNat := by omega
      rw [if_neg hzero, hrev]

/-- **The left shift is right** for every amount. -/
theorem shl_parts (h : amt.toNat < 128) :
    evalParts lowerSHL_PARTS lo hi amt = (hi ++ lo) <<< amt.toNat := by
  rw [evalParts_shl lo hi h]
  generalize amt.toNat = n at h
  apply BitVec.eq_of_getLsbD_eq
  intro i hi128
  rw [BitVec.getLsbD_shiftLeft, BitVec.getLsbD_append]
  by_cases hbig : 64 ≤ n
  · rw [if_pos hbig, BitVec.getLsbD_append]
    by_cases hlow : i < 64
    · simp [hlow, show i < n by omega]
    · rw [if_neg hlow, BitVec.getLsbD_shiftLeft]
      by_cases hin : i < n
      · simp [hin, show i - 64 < n - 64 by omega]
      · simp [hin, show ¬ i - 64 < n - 64 by omega, show i - 64 - (n - 64) = i - n by omega,
          show i - 64 < 64 by omega, show i < 128 by omega, show i - n < 64 by omega]
  · rw [if_neg hbig, BitVec.getLsbD_append]
    by_cases hlow : i < 64
    · simp [hlow, show i < 128 by omega, show i - n < 64 by omega]
    · rw [if_neg hlow, BitVec.getLsbD_or, BitVec.getLsbD_ushiftRight, BitVec.getLsbD_shiftLeft]
      by_cases hin : i < n + 64
      · simp [show i - 64 < n by omega, show ¬ i < n by omega, show i < 128 by omega, show i - n < 64 by omega,
          show 64 - n + (i - 64) = i - n by omega]
      · simp [BitVec.getLsbD_of_ge lo (64 - n + (i - 64)) (by omega), show ¬ i - 64 < n by omega,
          show ¬ i < n by omega, show i < 128 by omega, show i - 64 < 64 by omega, show ¬ i - n < 64 by omega,
          show i - 64 - n = i - n - 64 by omega]

/-- **The right shift by up to a word is right.** -/
lemma srl_parts_of_le (h : amt.toNat ≤ 64) :
    evalParts lowerSRL_PARTS lo hi amt = (hi ++ lo) >>> amt.toNat := by
  rw [evalParts_srl lo hi (by omega)]
  generalize amt.toNat = n at h
  apply BitVec.eq_of_getLsbD_eq
  intro i hi128
  rw [BitVec.getLsbD_ushiftRight, BitVec.getLsbD_append]
  by_cases hbig : 64 ≤ n
  · obtain rfl : n = 64 := by omega
    have hword : hi <<< ((128 - 64) % 64) = hi := BitVec.shiftLeft_zero hi
    rw [if_pos hbig, BitVec.getLsbD_append, if_neg (show ¬ 64 + i < 64 by omega), hword,
      show 64 + i - 64 = i by omega]
    by_cases hlow : i < 64
    · rw [if_pos hlow]
    · rw [if_neg hlow, BitVec.getLsbD_zero, BitVec.getLsbD_of_ge hi i (by omega)]
  · rw [if_neg hbig, BitVec.getLsbD_append]
    by_cases hlow : i < 64
    · rw [if_pos hlow, BitVec.getLsbD_or, BitVec.getLsbD_ushiftRight, BitVec.getLsbD_shiftLeft]
      by_cases hin : n + i < 64
      · simp [hin, show i < 64 - n by omega]
      · simp [hin, hlow, BitVec.getLsbD_of_ge lo (n + i) (by omega), show ¬ i < 64 - n by omega,
          show i - (64 - n) = n + i - 64 by omega]
    · rw [if_neg hlow, BitVec.getLsbD_ushiftRight, if_neg (by omega), show n + (i - 64) = n + i - 64 by omega]

/-- **A right shift by more** leaves a left shift in the low word. -/
lemma srl_parts_iff_of_gt (h : amt.toNat < 128) (hgt : 64 < amt.toNat) :
    evalParts lowerSRL_PARTS lo hi amt = (hi ++ lo) >>> amt.toNat ↔ hi = 0 := by
  rw [evalParts_srl lo hi h]
  generalize amt.toNat = n at h hgt
  rw [if_pos (by omega), Nat.mod_eq_of_lt (by omega)]
  constructor
  · intro heq
    apply BitVec.eq_of_getLsbD_eq
    intro i hi64
    -- Bit `i` leaves the low word to the left or to the right, and is zero in the other shift.
    by_cases hleft : i < n - 64
    · have hbit := congrArg (fun x => x.getLsbD (i + 128 - n)) heq
      simp only [BitVec.getLsbD_append, BitVec.getLsbD_shiftLeft, BitVec.getLsbD_ushiftRight] at hbit
      rw [if_pos (by omega), if_neg (by omega), show i + 128 - n - (128 - n) = i by omega,
        show n + (i + 128 - n) - 64 = i + 64 by omega, BitVec.getLsbD_of_ge hi (i + 64) (by omega)] at hbit
      simpa [show i + 128 - n < 64 by omega, show ¬ i + 128 - n < 128 - n by omega] using hbit
    · have hbit := congrArg (fun x => x.getLsbD (i + 64 - n)) heq
      simp only [BitVec.getLsbD_append, BitVec.getLsbD_shiftLeft, BitVec.getLsbD_ushiftRight] at hbit
      rw [if_pos (by omega), if_neg (by omega), show n + (i + 64 - n) - 64 = i by omega] at hbit
      simpa [show i + 64 - n < 128 - n by omega] using hbit.symm
  · rintro rfl
    apply BitVec.eq_of_getLsbD_eq
    intro i hi128
    rw [BitVec.getLsbD_ushiftRight, BitVec.getLsbD_append, BitVec.getLsbD_append,
      if_neg (show ¬ n + i < 64 by omega)]
    simp

end Graphs

/-- **When both shifts are right**: for amounts up to a word, and for a value of one word. -/
theorem shiftsParts_iff (lo hi amt : BitVec 64) (h : amt.toNat < 128) :
    ShiftsParts lo hi amt ↔ amt.toNat ≤ 64 ∨ hi = 0 := by
  have hshl := shl_parts lo hi h
  rcases Nat.lt_or_ge 64 amt.toNat with hgt | hle
  · rw [ShiftsParts, srl_parts_iff_of_gt lo hi h hgt]
    exact ⟨fun hboth => Or.inr hboth.2, fun hor => ⟨hshl, hor.resolve_left (by omega)⟩⟩
  · exact ⟨fun _ => Or.inl hle, fun _ => ⟨hshl, srl_parts_of_le lo hi hle⟩⟩

/-- The high word shifted by one word. -/
theorem shiftsParts_iff_64 : (64 : BitVec 64).toNat < 128 ∧
    (ShiftsParts 0 1 64 ↔ (64 : BitVec 64).toNat ≤ 64 ∨ (1 : BitVec 64) = 0) :=
  ⟨by decide, shiftsParts_iff 0 1 64 (by decide)⟩

/-- **`2 ^ 65` shifted right by 65** is `2 ^ 63 * 2`, which is lost, and not 1. -/
theorem srl_65_not_right : ¬ ShiftsParts 0 2 65 := by
  intro h
  exact absurd h.2 (by decide)

end Dadao.Llvm
