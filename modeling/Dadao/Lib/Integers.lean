import Mathlib.Algebra.Group.Nat.Defs
import Mathlib.Algebra.Ring.Int.Defs
import Mathlib.Data.Int.DivMod

set_option relaxedAutoImplicit false
set_option autoImplicit false

/-!
# Words and the integers they stand for

The operations of a 64-bit machine on words, as operations of the integers they stand for: sums and
products with both halves, quotients, shifts as products and quotients by powers of two.

## Main definitions

* `Dadao.Integers.low`, `Dadao.Integers.high` — the halves of an integer of 128 bits.

## Main results

* `Dadao.Integers.low_wide`, `Dadao.Integers.high_wide` — the halves of a word of 128 bits.
* `Dadao.Integers.shiftLeft_sshiftRight`, `Dadao.Integers.shiftLeft_ushiftRight` — two shifts by the same
  amount extend the rest.
-/

namespace Dadao.Integers

/-- The lower half of an integer. -/
def low (v : ℤ) : BitVec 64 := BitVec.ofInt 64 v

/-- The upper half of an integer of 128 bits. -/
def high (v : ℤ) : BitVec 64 := BitVec.ofInt 64 (v / 2 ^ 64)

variable (x y : BitVec 64)

/-! ## Halves -/

/-- The lower half of a word of 128 bits. -/
lemma low_wide (v : ℤ) : (BitVec.ofInt 128 v).setWidth 64 = low v := by
  apply BitVec.eq_of_toNat_eq
  rw [BitVec.toNat_setWidth, low, BitVec.toNat_ofInt, BitVec.toNat_ofInt]
  omega

/-- The upper half of a word of 128 bits. -/
lemma high_wide (v : ℤ) : (BitVec.ofInt 128 v >>> 64).setWidth 64 = high v := by
  apply BitVec.eq_of_toNat_eq
  rw [BitVec.toNat_setWidth, BitVec.toNat_ushiftRight, Nat.shiftRight_eq_div_pow, high, BitVec.toNat_ofInt,
    BitVec.toNat_ofInt]
  omega

/-- A word with its sign as the upper half. -/
lemma sign_append : x.sshiftRight 63 ++ x = BitVec.ofInt 128 x.toInt := by
  have hlow := BitVec.le_toInt x
  have hhigh := BitVec.toInt_lt (x := x)
  have hnat : (x.toInt : ℤ) = if 2 * x.toNat < 2 ^ 64 then (x.toNat : ℤ) else x.toNat - 2 ^ 64 :=
    BitVec.toInt_eq_toNat_cond x
  apply BitVec.eq_of_toInt_eq
  rw [BitVec.toInt_append, BitVec.toInt_sshiftRight, BitVec.toInt_ofInt, if_neg (by decide),
    Int.shiftRight_eq_div_pow, Int.bmod_eq_of_le (by omega) (by omega)]
  split_ifs at hnat <;> omega

/-- A word with zero as the upper half. -/
lemma setWidth_eq : x.setWidth 128 = BitVec.ofInt 128 x.toNat := by
  apply BitVec.eq_of_toNat_eq
  have hlt := x.isLt
  rw [BitVec.toNat_setWidth, BitVec.toNat_ofInt]
  omega

/-! ## Sums, products and quotients -/

lemma add_eq : x + y = low (x.toInt + y.toInt) := by
  rw [low, BitVec.ofInt_add, BitVec.ofInt_toInt, BitVec.ofInt_toInt]

lemma sub_eq : x - y = low (x.toInt - y.toInt) := by
  rw [low, Int.sub_eq_add_neg, BitVec.ofInt_add, BitVec.ofInt_neg, BitVec.ofInt_toInt, BitVec.ofInt_toInt,
    BitVec.sub_eq_add_neg]

lemma sdiv_eq : x.sdiv y = low (x.toInt.tdiv y.toInt) := by
  apply BitVec.eq_of_toInt_eq
  rw [BitVec.toInt_sdiv, low, BitVec.toInt_ofInt]

lemma srem_eq : x.srem y = low (x.toInt.tmod y.toInt) := by
  rw [low, ← BitVec.toInt_srem, BitVec.ofInt_toInt]

lemma udiv_eq : x.udiv y = low (x.toNat / y.toNat : ℕ) := by
  apply BitVec.eq_of_toNat_eq
  have hlt := Nat.lt_of_le_of_lt (Nat.div_le_self x.toNat y.toNat) x.isLt
  rw [BitVec.udiv_eq, BitVec.toNat_udiv, low, BitVec.toNat_ofInt]
  generalize x.toNat / y.toNat = q at hlt ⊢
  omega

lemma umod_eq : x.umod y = low (x.toNat % y.toNat : ℕ) := by
  apply BitVec.eq_of_toNat_eq
  have hlt := Nat.lt_of_le_of_lt (Nat.mod_le x.toNat y.toNat) x.isLt
  rw [BitVec.umod_eq, BitVec.toNat_umod, low, BitVec.toNat_ofInt]
  generalize x.toNat % y.toNat = r at hlt ⊢
  omega

/-! ## Shifts -/

variable (n : ℕ)

lemma shiftLeft_eq : x <<< n = low (x.toNat * 2 ^ n : ℕ) := by
  apply BitVec.eq_of_toNat_eq
  rw [BitVec.toNat_shiftLeft, Nat.shiftLeft_eq, low, BitVec.toNat_ofInt]
  omega

lemma ushiftRight_eq : x >>> n = low (x.toNat / 2 ^ n : ℕ) := by
  apply BitVec.eq_of_toNat_eq
  have hlt := Nat.lt_of_le_of_lt (Nat.div_le_self x.toNat (2 ^ n)) x.isLt
  rw [BitVec.toNat_ushiftRight, Nat.shiftRight_eq_div_pow, low, BitVec.toNat_ofInt]
  generalize x.toNat / 2 ^ n = q at hlt ⊢
  omega

lemma sshiftRight_eq : x.sshiftRight n = low (x.toInt / 2 ^ n) := by
  rw [low, ← BitVec.ofInt_toInt (x := x.sshiftRight n), BitVec.toInt_sshiftRight, Int.shiftRight_eq_div_pow]
  norm_cast

/-- The balanced remainder of a multiple, for an even modulus. -/
lemma mul_bmod_mul (v : ℤ) {p h : ℕ} (hp : 0 < p) : (v * p).bmod (2 * h * p) = v.bmod (2 * h) * p := by
  have hmod : v * p % ((2 * h * p : ℕ) : ℤ) = v % ((2 * h : ℕ) : ℤ) * p := by
    rw [Int.natCast_mul, Int.mul_comm v, Int.mul_comm ((2 * h : ℕ) : ℤ),
      Int.mul_emod_mul_of_pos _ _ (by omega), Int.mul_comm]
  have hhalf : ((2 * h * p : ℕ) + 1 : ℤ) / 2 = h * p := by
    rw [Nat.mul_assoc, Int.natCast_mul, Int.natCast_mul]
    omega
  have hhalf' : ((2 * h : ℕ) + 1 : ℤ) / 2 = h := by omega
  rw [Int.bmod_def, Int.bmod_def, hmod, hhalf, hhalf']
  by_cases hlt : v % ((2 * h : ℕ) : ℤ) < h
  · rw [if_pos hlt, if_pos (Int.mul_lt_mul_of_pos_right hlt (by omega))]
  · rw [if_neg hlt, if_neg fun hlt' => hlt (Int.lt_of_mul_lt_mul_right hlt' (by omega)), Int.sub_mul,
      Int.natCast_mul (2 * h)]

variable {n} in
/-- **Two shifts extend the sign** of what is left by the first. -/
lemma shiftLeft_sshiftRight (hn : n < 64) :
    (x <<< n).sshiftRight n = low ((x.toNat : ℤ).bmod (2 ^ (64 - n))) := by
  have hpos : 0 < 2 ^ n := Nat.two_pow_pos n
  have hsplit : 2 ^ 64 = 2 * 2 ^ (63 - n) * 2 ^ n := by
    rw [← Nat.pow_succ', ← Nat.pow_add]
    congr 1
    omega
  have hpow : 2 ^ (64 - n) = 2 * 2 ^ (63 - n) := by
    rw [← Nat.pow_succ']
    congr 1
    omega
  have hint : (x <<< n).toInt = (x.toNat : ℤ).bmod (2 ^ (64 - n)) * (2 ^ n : ℕ) := by
    rw [BitVec.toInt_shiftLeft, Nat.shiftLeft_eq, hsplit, hpow, ← mul_bmod_mul _ hpos, Int.natCast_mul]
  have hne : ((2 : ℤ) ^ n) ≠ 0 := by
    have hcast : ((2 ^ n : ℕ) : ℤ) = 2 ^ n := Int.natCast_pow 2 n
    omega
  rw [sshiftRight_eq, hint, Int.natCast_pow]
  exact congrArg low (Int.mul_ediv_cancel _ hne)

variable {n} in
/-- **Two shifts clear** what is shifted out by the first. -/
lemma shiftLeft_ushiftRight (hn : n < 64) : x <<< n >>> n = low (x.toNat % 2 ^ (64 - n) : ℕ) := by
  have hpos : 0 < 2 ^ n := Nat.two_pow_pos n
  have hsplit : 2 ^ 64 = 2 ^ n * 2 ^ (64 - n) := by
    rw [← Nat.pow_add]
    congr 1
    omega
  rw [ushiftRight_eq, BitVec.toNat_shiftLeft, Nat.shiftLeft_eq, Nat.mul_comm x.toNat, hsplit,
    Nat.mul_mod_mul_left, Nat.mul_div_cancel_left _ hpos]

end Dadao.Integers
