import Mathlib.Algebra.Order.Ring.Int
import Mathlib.Data.BitVec
import Mathlib.Data.Nat.Bitwise
import Mathlib.Tactic.Ring

set_option relaxedAutoImplicit false
set_option autoImplicit false

/-!
# Fields of machine words

Words are built from fields by shifts and bitwise or and taken apart by shifts and masks. The
lemmas here move such expressions to sums, quotients and remainders of natural numbers, where
linear arithmetic decides them.

## Main results

* `Dadao.Bits.or_eq_add` — disjoint fields: bitwise or is addition.
* `Dadao.Bits.toNat_and_mask` — a low mask is a remainder.
* `Dadao.Bits.unpack_pack`, `Dadao.Bits.pack_unpack` — a list of fields and the number they make.
* `Dadao.Bits.and_eq_of_matches` — two masked patterns a word has agree where both masks are set.
* `Dadao.Bits.signExtend_ofInt_mul_four_iff` — the offsets a signed field of words can hold.
-/

namespace Dadao.Bits

/-- A number below `2 ^ n` fills the low bits of a multiple of `2 ^ n`. -/
lemma or_eq_add {a b n : ℕ} (ha : a % 2 ^ n = 0) (hb : b < 2 ^ n) : a ||| b = a + b := by
  obtain ⟨c, rfl⟩ := Nat.dvd_of_mod_eq_zero ha
  exact (Nat.two_pow_add_eq_or_of_lt hb c).symm

/-- The top bit of an `n + 1`-bit field. -/
lemma bit_eq_one_iff (x n : ℕ) : x / 2 ^ n % 2 = 1 ↔ 2 ^ n ≤ x % 2 ^ (n + 1) := by
  rw [Nat.mod_pow_succ]
  have hlt : x % 2 ^ n < 2 ^ n := Nat.mod_lt _ (Nat.two_pow_pos n)
  rcases Nat.mod_two_eq_zero_or_one (x / 2 ^ n) with h | h <;> rw [h] <;> omega

section Fields

/-! ## Lists of fields -/

/-- The number made of fields of the given widths, most significant first. -/
def pack : List ℕ → List ℕ → ℕ
  | _ :: ws, v :: vs => v * 2 ^ ws.sum + pack ws vs
  | _, _ => 0

/-- The fields of the given widths in the low bits of a number, most significant first. -/
def unpack : List ℕ → ℕ → List ℕ
  | [], _ => []
  | w :: ws, n => n / 2 ^ ws.sum % 2 ^ w :: unpack ws n

attribute [local simp] pack unpack

/-- Fields that fit their widths make a number that fits the total width. -/
lemma pack_lt {ws vs : List ℕ} (h : List.Forall₂ (fun w v => v < 2 ^ w) ws vs) :
    pack ws vs < 2 ^ ws.sum := by
  induction h with
  | nil => simp [pack]
  | @cons w v ws vs hv _ ih =>
    simp only [pack, List.sum_cons, pow_add]
    calc v * 2 ^ ws.sum + pack ws vs < v * 2 ^ ws.sum + 2 ^ ws.sum := by omega
      _ = (v + 1) * 2 ^ ws.sum := by ring
      _ ≤ 2 ^ w * 2 ^ ws.sum := Nat.mul_le_mul_right _ hv

/-- The fields of a number depend on its low bits only. -/
lemma unpack_add_mul (ws : List ℕ) (n k : ℕ) : unpack ws (n + k * 2 ^ ws.sum) = unpack ws n := by
  induction ws generalizing k with
  | nil => rfl
  | cons w ws ih =>
    have hk : k * 2 ^ (w :: ws).sum = k * 2 ^ w * 2 ^ ws.sum := by
      rw [List.sum_cons, pow_add, mul_assoc]
    simp only [unpack, hk, ih]
    rw [Nat.add_mul_div_right _ _ (Nat.two_pow_pos _), Nat.add_mul_mod_self_right]

/-- Reading back the fields a number was made of. -/
lemma unpack_pack {ws vs : List ℕ} (h : List.Forall₂ (fun w v => v < 2 ^ w) ws vs) :
    unpack ws (pack ws vs) = vs := by
  induction h with
  | nil => rfl
  | @cons w v ws vs hv hrest ih =>
    have hlt : pack ws vs < 2 ^ ws.sum := pack_lt hrest
    simp only [pack, unpack]
    congr 1
    · rw [Nat.mul_comm, Nat.mul_add_div (Nat.two_pow_pos _), Nat.div_eq_of_lt hlt, Nat.add_zero,
        Nat.mod_eq_of_lt hv]
    · rw [Nat.add_comm, unpack_add_mul, ih]

/-- Putting the fields of a number together again. -/
lemma pack_unpack (ws : List ℕ) (n : ℕ) : pack ws (unpack ws n) = n % 2 ^ ws.sum := by
  induction ws with
  | nil => simp [pack, Nat.mod_one]
  | cons w ws ih =>
    rw [unpack, pack, ih, List.sum_cons, pow_add, Nat.mul_comm (2 ^ w), Nat.mod_mul]
    ring

/-- Every field read fits its width. -/
lemma unpack_lt (ws : List ℕ) (n : ℕ) :
    List.Forall₂ (fun w v => v < 2 ^ w) ws (unpack ws n) := by
  induction ws with
  | nil => exact .nil
  | cons w ws ih => exact .cons (Nat.mod_lt _ (Nat.two_pow_pos _)) ih

end Fields

section Words

/-! ## Words -/

variable {w : ℕ}

/-- A mask of the low `n` bits takes the remainder. -/
lemma toNat_and_mask (x m : BitVec w) (n : ℕ) (hm : m.toNat = 2 ^ n - 1) :
    (x &&& m).toNat = x.toNat % 2 ^ n := by
  rw [BitVec.toNat_and, hm, Nat.and_two_pow_sub_one_eq_mod]

/-- A mask of all bits from `n` on rounds down to a multiple of `2 ^ n`. -/
lemma toNat_and_high (x m : BitVec w) (n : ℕ) (hm : m.toNat = 2 ^ w - 2 ^ n) (hn : n ≤ w) :
    (x &&& m).toNat = x.toNat / 2 ^ n * 2 ^ n := by
  have hm' : m.toNat = (2 ^ (w - n) - 1) * 2 ^ n := by
    rw [hm, Nat.sub_mul, ← pow_add, Nat.sub_add_cancel hn, one_mul]
  rw [BitVec.toNat_and, hm']
  refine Nat.eq_of_testBit_eq fun i => ?_
  rw [Nat.testBit_and, Nat.testBit_mul_two_pow, Nat.testBit_mul_two_pow,
    Nat.testBit_two_pow_sub_one, Nat.testBit_div_two_pow]
  by_cases hi : n ≤ i
  · by_cases hw : i < w
    · simp [hi, Nat.sub_lt_sub_right hi hw]
    · have : x.toNat.testBit i = false :=
        Nat.testBit_lt_two_pow (lt_of_lt_of_le x.isLt (Nat.pow_le_pow_right (by omega) (by omega)))
      simp [hi, this]
  · simp [hi]

/-- The bit `n` of a word, as a mask tests it. -/
lemma and_bit_ne_zero_iff (x m : BitVec w) (n : ℕ) (hm : m.toNat = 2 ^ n) :
    x &&& m ≠ 0 ↔ x.toNat / 2 ^ n % 2 = 1 := by
  have h : (x &&& m).toNat = (x.toNat / 2 ^ n % 2) * 2 ^ n := by
    rw [BitVec.toNat_and, hm, Nat.and_two_pow]
    rcases Nat.mod_two_eq_zero_or_one (x.toNat / 2 ^ n) with h0 | h1
    · simp [Nat.testBit, Nat.shiftRight_eq_div_pow, Nat.one_and_eq_mod_two, h0]
    · simp [Nat.testBit, Nat.shiftRight_eq_div_pow, Nat.one_and_eq_mod_two, h1]
  have h0 : x &&& m = 0 ↔ (x &&& m).toNat = 0 := by
    rw [← BitVec.toNat_inj]
    simp
  rw [ne_eq, h0, h]
  have : 0 < 2 ^ n := Nat.two_pow_pos n
  rcases Nat.mod_two_eq_zero_or_one (x.toNat / 2 ^ n) with h0 | h1
  · simp [h0]
  · simp [h1]

/-- Bitwise or of two words whose fields are disjoint. -/
lemma toNat_or_eq_add {a b : BitVec w} (n : ℕ) (ha : a.toNat % 2 ^ n = 0)
    (hb : b.toNat < 2 ^ n) : (a ||| b).toNat = a.toNat + b.toNat := by
  rw [BitVec.toNat_or, or_eq_add ha hb]

/-- A shift to the left that loses no bits. -/
lemma toNat_shiftLeft_of_lt {a : BitVec w} {n : ℕ} (h : a.toNat * 2 ^ n < 2 ^ w) :
    (a <<< n).toNat = a.toNat * 2 ^ n := by
  rw [BitVec.toNat_shiftLeft, Nat.shiftLeft_eq, Nat.mod_eq_of_lt h]

/-- One more field below the fields already in a word: `m` bits at bit `n`. -/
lemma toNat_or_field {x v : BitVec w} (n m : ℕ) (hx : x.toNat % 2 ^ (n + m) = 0)
    (hv : v.toNat < 2 ^ m) (hw : n + m ≤ w) :
    (x ||| v <<< n).toNat = x.toNat + v.toNat * 2 ^ n := by
  have hlt : v.toNat * 2 ^ n < 2 ^ (n + m) := by
    rw [pow_add, Nat.mul_comm (2 ^ n)]
    exact Nat.mul_lt_mul_of_pos_right hv (Nat.two_pow_pos n)
  have hshift := toNat_shiftLeft_of_lt (lt_of_lt_of_le hlt (Nat.pow_le_pow_right (by omega) hw))
  rw [toNat_or_eq_add (n + m) hx (hshift ▸ hlt), hshift]

/-- Two patterns under masks that one word has agree on the common part of the masks. -/
lemma and_eq_of_matches {x m₁ m₂ p₁ p₂ : BitVec w} (h₁ : x &&& m₁ = p₁) (h₂ : x &&& m₂ = p₂) :
    p₁ &&& m₂ = p₂ &&& m₁ := by
  rw [← h₁, ← h₂, BitVec.and_assoc, BitVec.and_assoc, BitVec.and_comm m₁]

end Words

section Signed

/-! ## Signed fields -/

/-- A word holds the integers of its signed range. -/
lemma toInt_ofInt_of_mem {n : ℕ} {q : ℤ} (hq : -2 ^ n ≤ q ∧ q < 2 ^ n) :
    (BitVec.ofInt (n + 1) q).toInt = q :=
  BitVec.toInt_ofInt_eq_self (by omega) hq.1 hq.2

/-- The signed range of a word. -/
lemma toInt_mem {n : ℕ} (x : BitVec (n + 1)) : -2 ^ n ≤ x.toInt ∧ x.toInt < 2 ^ n :=
  ⟨BitVec.le_toInt x, BitVec.toInt_lt⟩

/-- **A signed field of words** gives back the byte offset it was made of exactly when the offset is
in the range of the field. -/
lemma signExtend_ofInt_mul_four_iff {n : ℕ} (hn : n ≤ 61) {q : ℤ} (hq : -2 ^ 61 ≤ q ∧ q < 2 ^ 61) :
    (BitVec.ofInt (n + 1) q).signExtend 64 * 4 = BitVec.ofInt 64 (4 * q) ↔
      -2 ^ n ≤ q ∧ q < 2 ^ n := by
  have hmul : ∀ r : ℤ, BitVec.ofInt 64 r * 4 = BitVec.ofInt 64 (4 * r) := by
    intro r
    rw [mul_comm, BitVec.ofInt_mul]
    rfl
  rw [BitVec.signExtend, hmul]
  constructor
  · intro h
    have hpow : (2 : ℤ) ^ n ≤ 2 ^ 61 := pow_le_pow_right₀ (by omega) hn
    obtain ⟨hlow, hhigh⟩ := toInt_mem (BitVec.ofInt (n + 1) q)
    have htoInt := congrArg BitVec.toInt h
    rw [toInt_ofInt_of_mem (n := 63) (by omega), toInt_ofInt_of_mem (n := 63) (by omega)] at htoInt
    have hself : (BitVec.ofInt (n + 1) q).toInt = q := by omega
    rw [hself] at hlow hhigh
    exact ⟨hlow, hhigh⟩
  · intro h
    rw [toInt_ofInt_of_mem h]

end Signed

end Dadao.Bits
