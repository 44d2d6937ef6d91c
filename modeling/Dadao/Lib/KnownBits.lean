import Mathlib.Algebra.Group.Nat.Defs
import Mathlib.Data.Nat.Notation
import Mathlib.Logic.Basic

set_option relaxedAutoImplicit false
set_option autoImplicit false

/-!
# Known bits

What is known of a word bit by bit: two masks name the bits that are known to be zero and to be one.

## Main definitions

* `KnownBits.Allows` — a word has the known bits.
* `KnownBits.commonBits` — what is known of both of two words.
* `KnownBits.At.set` — a word with one bit replaced.

## Main results

* `KnownBits.allows_commonBits` — what is known of both is known of either.
* `KnownBits.allows_makeConstant_iff` — of a constant, all is known.
* `KnownBits.At.allows_set` — a bit that is not known can have any value.
-/

variable {w : ℕ}

/-- The masks of the bits that are known to be zero and to be one. -/
structure KnownBits (w : ℕ) where
  zero : BitVec w
  one : BitVec w

namespace KnownBits

variable (a b : KnownBits w)

/-- Bit `i` is known to be `v`. -/
def Knows (i : ℕ) (v : Bool) : Prop := (if v then a.one else a.zero).getLsbD i = true

/-- The word has the known bits. -/
def Allows (x : BitVec w) : Prop := ∀ i v, a.Knows i v → x.getLsbD i = v

/-- Nothing is known. -/
def unknown (w : ℕ) : KnownBits w := ⟨0, 0⟩

/-- All is known of a constant. -/
def makeConstant (c : BitVec w) : KnownBits w := ⟨~~~c, c⟩

/-- What is known of both of two words. -/
def commonBits : KnownBits w := ⟨a.zero &&& b.zero, a.one &&& b.one⟩

/-- The mask of the bits from `lo` below `hi`. -/
def bitsFrom (w lo hi : ℕ) : BitVec w := BitVec.ofNat w (2 ^ hi - 2 ^ lo)

lemma knows_commonBits (i : ℕ) (v : Bool) : (a.commonBits b).Knows i v ↔ a.Knows i v ∧ b.Knows i v := by
  cases v <;> simp [Knows, commonBits]

/-- **What is known of both** is known of either. -/
lemma allows_commonBits {x : BitVec w} (h : a.Allows x ∨ b.Allows x) : (a.commonBits b).Allows x := by
  intro i v hknows
  obtain ⟨ha, hb⟩ := (knows_commonBits a b i v).mp hknows
  rcases h with h | h
  · exact h i v ha
  · exact h i v hb

lemma knows_makeConstant {c : BitVec w} {i : ℕ} (hi : i < w) (v : Bool) :
    (makeConstant c).Knows i v ↔ c.getLsbD i = v := by
  cases v <;> simp [Knows, makeConstant, hi]

/-- A known bit is one of the word. -/
lemma Knows.lt {a : KnownBits w} {i : ℕ} {v : Bool} (h : a.Knows i v) : i < w := by
  cases v <;> exact BitVec.lt_of_getLsbD h

/-- **Of a constant, all is known.** -/
lemma allows_makeConstant_iff (c x : BitVec w) : (makeConstant c).Allows x ↔ x = c := by
  constructor
  · intro h
    apply BitVec.eq_of_getLsbD_eq
    intro i hi
    exact h i (c.getLsbD i) ((knows_makeConstant hi _).mpr rfl)
  · rintro rfl i v hknows
    exact (knows_makeConstant hknows.lt v).mp hknows

/-- A word of a single bit has the bits above it zero. -/
lemma allows_bitsFrom_one (hw : 1 < w) (p : Prop) [Decidable p] :
    (⟨bitsFrom w 1 w, 0⟩ : KnownBits w).Allows (if p then 1 else 0) := by
  intro i v hknows
  cases v with
  | true => simp [Knows] at hknows
  | false =>
    have hi := hknows.lt
    have hpos : i ≠ 0 := by
      rintro rfl
      have hpow : 2 ^ w = 2 * 2 ^ (w - 1) := by
        rw [← Nat.pow_succ']
        congr 1
        omega
      simp only [Knows, bitsFrom, Bool.false_eq_true, if_false, BitVec.getLsbD_ofNat, Nat.testBit_zero] at hknows
      simp only [Bool.and_eq_true, decide_eq_true_eq] at hknows
      omega
    by_cases hp : p
    · rw [if_pos hp]
      exact BitVec.getLsbD_one.trans (by simp [hpos])
    · rw [if_neg hp]
      exact BitVec.getLsbD_zero

namespace At

/-- The word with bit `i` replaced. -/
def set (x : BitVec w) (i : ℕ) (v : Bool) : BitVec w :=
  if v then x ||| BitVec.twoPow w i else x &&& ~~~BitVec.twoPow w i

lemma getLsbD_set (x : BitVec w) {i : ℕ} (hi : i < w) (v : Bool) (j : ℕ) :
    (set x i v).getLsbD j = if j = i then v else x.getLsbD j := by
  by_cases hj : j = i
  · subst hj
    cases v <;> simp [set, hi]
  · have hji : i ≠ j := Ne.symm hj
    cases v
    · by_cases hlt : j < w
      · simp [set, hj, hlt]
      · simp [set, hj, hlt, BitVec.getLsbD_of_ge x j (by omega)]
    · simp [set, hj, hji]

/-- **A bit that is not known** can have the other value. -/
lemma allows_set {a : KnownBits w} {x : BitVec w} (h : a.Allows x) {i : ℕ} (hi : i < w) {v : Bool}
    (hnot : ¬a.Knows i v) : a.Allows (set x i !v) := by
  intro j u hknows
  rw [getLsbD_set x hi]
  by_cases hj : j = i
  · rw [if_pos hj]
    subst hj
    cases u <;> cases v <;> first | rfl | exact absurd hknows hnot
  · rw [if_neg hj]
    exact h j u hknows

end At

end KnownBits
