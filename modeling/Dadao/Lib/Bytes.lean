import Dadao.Lib.Memory

set_option relaxedAutoImplicit false
set_option autoImplicit false

/-!
# The bytes of a bit vector

A bit vector looked at byte by byte, from the low end. Shifts by whole bytes move bytes, extensions
repeat one, and a load from memory puts the bytes it reads side by side; two octas with the same
bytes are equal.

## Main definitions

* `Dadao.byte` — a byte of a bit vector.

## Main results

* `Dadao.eq_of_byte` — octas are equal if their bytes are.
* `Dadao.byte_load` — the bytes of a load.
* `Dadao.store_eq_store_iff` — when a shorter store does as much as a longer one.
-/

namespace Dadao

variable {w : ℕ}

/-- Byte `k` of a bit vector, counted from the low end. -/
def byte (x : BitVec w) (k : ℕ) : BitVec 8 := (x >>> (8 * k)).setWidth 8

/-- The bits of a byte. -/
lemma getLsbD_byte (x : BitVec w) (k i : ℕ) :
    (byte x k).getLsbD i = (decide (i < 8) && x.getLsbD (8 * k + i)) := by
  simp [byte, BitVec.getLsbD_setWidth]

/-- **Octas with the same bytes** are equal. -/
lemma eq_of_byte {x y : BitVec 64} (h : ∀ k < 8, byte x k = byte y k) : x = y := by
  refine BitVec.eq_of_getLsbD_eq fun i hi => ?_
  have hbyte := congrArg (fun b : BitVec 8 => b.getLsbD (i % 8)) (h (i / 8) (by omega))
  simp only [getLsbD_byte, Nat.div_add_mod, Nat.mod_lt i (show 8 > 0 by omega), decide_true,
    Bool.true_and] at hbyte
  exact hbyte

/-- A byte is its own byte. -/
lemma byte_zero (x : BitVec 8) : byte x 0 = x := by
  refine BitVec.eq_of_getLsbD_eq fun i hi => ?_
  rw [getLsbD_byte, Nat.mul_zero, Nat.zero_add]
  simp [hi]

/-- A byte behind the end. -/
lemma byte_of_le {x : BitVec w} {k : ℕ} (h : w ≤ 8 * k) : byte x k = 0 := by
  refine BitVec.eq_of_getLsbD_eq fun i hi => ?_
  rw [getLsbD_byte, BitVec.getLsbD_of_ge x _ (by omega)]
  simp

/-- The bytes of a shorter or longer vector. -/
lemma byte_setWidth {w' : ℕ} (x : BitVec w) {k : ℕ} (h : 8 * k + 8 ≤ w') :
    byte (x.setWidth w') k = byte x k := by
  refine BitVec.eq_of_getLsbD_eq fun i hi => ?_
  rw [getLsbD_byte, getLsbD_byte, BitVec.getLsbD_setWidth]
  simp [hi, show 8 * k + i < w' by omega]

/-- The bytes of a sign extension of whole bytes: the bytes there were, then copies of the sign. -/
lemma byte_signExtend {n w' : ℕ} (x : BitVec (8 * n)) {k : ℕ} (hk : 8 * k + 8 ≤ w') :
    byte (x.signExtend w') k =
      if k < n then byte x k else if x.msb then BitVec.allOnes 8 else 0 := by
  refine BitVec.eq_of_getLsbD_eq fun i hi => ?_
  rw [getLsbD_byte, BitVec.getLsbD_signExtend]
  by_cases hkn : k < n
  · rw [if_pos hkn, getLsbD_byte]
    simp [hi, show 8 * k + i < w' by omega, show 8 * k + i < 8 * n by omega]
  · rw [if_neg hkn]
    have hlarge : ¬ 8 * k + i < 8 * n := by omega
    simp only [hi, decide_true, show 8 * k + i < w' by omega, hlarge, if_false, Bool.true_and]
    cases x.msb with
    | false => rw [if_neg (by decide)]; simp
    | true => rw [if_pos rfl, BitVec.getLsbD_allOnes]; simp [hi]

/-- Shifting down by whole bytes. -/
lemma byte_ushiftRight (x : BitVec w) (n k : ℕ) : byte (x >>> (8 * n)) k = byte x (n + k) := by
  refine BitVec.eq_of_getLsbD_eq fun i hi => ?_
  rw [getLsbD_byte, getLsbD_byte, BitVec.getLsbD_ushiftRight]
  congr 2
  omega

/-- Shifting up by whole bytes. -/
lemma byte_shiftLeft (x : BitVec w) {n k : ℕ} (hk : 8 * k + 8 ≤ w) :
    byte (x <<< (8 * n)) k = if k < n then 0 else byte x (k - n) := by
  refine BitVec.eq_of_getLsbD_eq fun i hi => ?_
  rw [getLsbD_byte, BitVec.getLsbD_shiftLeft]
  by_cases hkn : k < n
  · rw [if_pos hkn]
    simp [show 8 * k + i < 8 * n by omega]
  · rw [if_neg hkn, getLsbD_byte, show 8 * (k - n) + i = 8 * k + i - 8 * n by omega]
    simp [hi, show ¬ 8 * k + i < 8 * n by omega, show 8 * k + i < w by omega]

/-- **The bytes of a load.** -/
lemma byte_load (m : Memory) (a : BitVec 64) {n : ℕ} (hn : n ≤ 8) {k : ℕ} (hk : k < 8) :
    byte (m.load a n) k = if k < n then m (a + BitVec.ofNat 64 k) else 0 := by
  induction n generalizing a k with
  | zero =>
    rw [Memory.load, if_neg (by omega)]
    refine BitVec.eq_of_getLsbD_eq fun i hi => ?_
    simp [getLsbD_byte]
  | succ n ih =>
    have hor : byte (m.load a (n + 1)) k =
        byte ((m a).setWidth 64) k ||| byte (m.load (a + 1) n <<< (8 * 1)) k := by
      refine BitVec.eq_of_getLsbD_eq fun i hi => ?_
      rw [BitVec.getLsbD_or, getLsbD_byte, getLsbD_byte, getLsbD_byte, Memory.load,
        BitVec.getLsbD_or, Bool.and_or_distrib_left]
    rw [hor, byte_shiftLeft _ (by omega)]
    cases k with
    | zero =>
      rw [if_pos (by omega), if_pos (by omega), byte_setWidth _ (by omega)]
      rw [byte_zero]
      simp
    | succ k =>
      have hhigh : byte ((m a).setWidth 64) (k + 1) = 0 := by
        rw [byte_setWidth _ (by omega), byte_of_le (by omega)]
      rw [hhigh, if_neg (by omega), Nat.add_sub_cancel, ih (a + 1) (by omega) (by omega),
        Memory.add_one_add]
      simp

/-- **A shorter store does as much** if the bytes it leaves out are there already. -/
lemma store_eq_store_iff (m : Memory) (a v : BitVec 64) {k n : ℕ} (hkn : k ≤ n) (hn : n ≤ 8) :
    m.store a k v = m.store a n v ↔
      ∀ i < n, k ≤ i → m (a + BitVec.ofNat 64 i) = byte v i := by
  constructor
  · intro heq i hi hki
    have hat := congrFun heq (a + BitVec.ofNat 64 i)
    rw [Memory.store_apply m a n v hi hn, Memory.store, Memory.offsetFrom_add (by omega),
      if_neg (by omega)] at hat
    exact hat
  · intro hbytes
    funext x
    by_cases hx : k ≤ Memory.offsetFrom a x ∧ Memory.offsetFrom a x < n
    · have hat := hbytes _ hx.2 hx.1
      rw [Memory.add_offsetFrom] at hat
      rw [Memory.store, Memory.store, if_neg (by omega), if_pos hx.2, hat, byte]
    · by_cases hxk : Memory.offsetFrom a x < k
      · rw [Memory.store, Memory.store, if_pos hxk, if_pos (by omega)]
      · rw [Memory.store, Memory.store, if_neg hxk, if_neg (by omega)]

end Dadao
