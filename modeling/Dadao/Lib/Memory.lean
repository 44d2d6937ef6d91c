import Mathlib.Algebra.Group.Nat.Defs
import Mathlib.Data.Nat.Notation
import Mathlib.Tactic.Lemma
import Mathlib.Tactic.SplitIfs

set_option relaxedAutoImplicit false
set_option autoImplicit false

/-!
# Byte-addressed memory

A flat memory of bytes under 64-bit addresses that wrap around, with little endian accesses of up
to eight bytes.

## Main definitions

* `Dadao.Memory.load`, `Dadao.Memory.store` — accesses of `n` bytes.
* `Dadao.Memory.storeAll` — several stores one after the other.

## Main results

* `Dadao.Memory.load_store_same` — an octa is read back.
* `Dadao.Memory.store_load_same` — storing what is there changes nothing.
* `Dadao.Memory.load_store_of_apart` — an access to other bytes does not see the store.
* `Dadao.Memory.toNat_load_storeAll` — elements stored side by side are read back.
-/

namespace Dadao

/-- A memory: a byte at every address. -/
abbrev Memory := BitVec 64 → BitVec 8

namespace Memory

/-- The number of bytes from `a` up to `x`, going up and wrapping around. -/
def offsetFrom (a x : BitVec 64) : ℕ := (x - a).toNat

/-- Store the `n` low bytes of `v` at `a` and the addresses above it. -/
def store (m : Memory) (a : BitVec 64) (n : ℕ) (v : BitVec 64) : Memory := fun x =>
  if offsetFrom a x < n then (v >>> (8 * offsetFrom a x)).setWidth 8 else m x

/-- Load `n` bytes at `a`, zero extended. -/
def load (m : Memory) (a : BitVec 64) : ℕ → BitVec 64
  | 0 => 0
  | n + 1 => (m a).setWidth 64 ||| load m (a + 1) n <<< 8

/-- Store `k` values one after the other, each at its own address. -/
def storeAll (n : ℕ) (addr val : ℕ → BitVec 64) : ℕ → Memory → Memory
  | 0, m => m
  | k + 1, m => (storeAll n addr val k m).store (addr k) n (val k)

attribute [local simp] load storeAll

/-- Two accesses share no byte: none of the `n` bytes at `b` is among the `k` bytes at `a`. -/
def Apart (a : BitVec 64) (k : ℕ) (b : BitVec 64) (n : ℕ) : Prop :=
  ∀ i < n, k ≤ offsetFrom a (b + BitVec.ofNat 64 i)

/-- The distance up to a higher address. -/
lemma offsetFrom_of_le {a x : BitVec 64} (h : a.toNat ≤ x.toNat) :
    offsetFrom a x = x.toNat - a.toNat := by
  have hx := x.isLt
  rw [offsetFrom, BitVec.toNat_sub]
  omega

/-- The addresses of an access that does not wrap around. -/
lemma offsetFrom_lt_iff {a x : BitVec 64} {n : ℕ} (h : a.toNat + n ≤ 2 ^ 64) :
    offsetFrom a x < n ↔ a.toNat ≤ x.toNat ∧ x.toNat < a.toNat + n := by
  have hx := x.isLt
  rw [offsetFrom, BitVec.toNat_sub]
  omega

/-- The distance up to an address above. -/
lemma offsetFrom_add {a : BitVec 64} {i : ℕ} (hi : i < 2 ^ 64) :
    offsetFrom a (a + BitVec.ofNat 64 i) = i := by
  rw [offsetFrom, BitVec.add_comm, BitVec.add_sub_cancel, BitVec.toNat_ofNat,
    Nat.mod_eq_of_lt hi]

/-- The distance of two addresses above the same one. -/
lemma offsetFrom_add_add (a : BitVec 64) {i j : ℕ} (hi : i < 2 ^ 64) (hj : j < 2 ^ 64) :
    offsetFrom (a + BitVec.ofNat 64 i) (a + BitVec.ofNat 64 j) = if i ≤ j then j - i else 2 ^ 64 + j - i := by
  rw [offsetFrom, BitVec.toNat_sub, BitVec.toNat_add, BitVec.toNat_add, BitVec.toNat_ofNat, BitVec.toNat_ofNat]
  split_ifs <;> omega

/-- An address by its distance from another. -/
lemma add_offsetFrom (a x : BitVec 64) : a + BitVec.ofNat 64 (offsetFrom a x) = x := by
  rw [offsetFrom, BitVec.ofNat_toNat, BitVec.setWidth_eq, BitVec.add_comm, BitVec.sub_add_cancel]

/-- Addresses counted from the next byte. -/
lemma add_one_add (a : BitVec 64) (i : ℕ) :
    a + 1 + BitVec.ofNat 64 i = a + BitVec.ofNat 64 (i + 1) := by
  rw [Nat.add_comm i 1, BitVec.ofNat_add, BitVec.add_assoc]
  rfl

/-- A load depends on the bytes it reads only, wherever they are. -/
lemma load_congr_shift {m m' : Memory} {a a' : BitVec 64} {n : ℕ}
    (h : ∀ i < n, m (a + BitVec.ofNat 64 i) = m' (a' + BitVec.ofNat 64 i)) :
    load m a n = load m' a' n := by
  induction n generalizing a a' with
  | zero => rfl
  | succ n ih =>
    have h0 : m a = m' a' := by simpa using h 0 (by omega)
    have hrest : load m (a + 1) n = load m' (a' + 1) n := by
      refine ih fun i hi => ?_
      rw [add_one_add, add_one_add]
      exact h (i + 1) (by omega)
    rw [load, load, h0, hrest]

/-- A load depends on the bytes it reads only. -/
lemma load_congr {m m' : Memory} {a : BitVec 64} {n : ℕ}
    (h : ∀ i < n, m (a + BitVec.ofNat 64 i) = m' (a + BitVec.ofNat 64 i)) :
    load m a n = load m' a n := load_congr_shift h

/-- **A store to other bytes is not seen.** -/
lemma load_store_of_apart (m : Memory) {a b : BitVec 64} {k n : ℕ} (v : BitVec 64)
    (h : Apart a k b n) : load (store m a k v) b n = load m b n := by
  refine load_congr fun i hi => ?_
  rw [store, if_neg (Nat.not_lt.mpr (h i hi))]

/-- The bytes a store puts down. -/
lemma store_apply (m : Memory) (a : BitVec 64) (n : ℕ) (v : BitVec 64) {i : ℕ} (hi : i < n)
    (hn : n ≤ 8) : store m a n v (a + BitVec.ofNat 64 i) = (v >>> (8 * i)).setWidth 8 := by
  rw [store, offsetFrom_add (by omega), if_pos hi]

/-- Reading bytes that are those of a value. -/
lemma load_eq_of_bytes {m : Memory} {a v : BitVec 64} {n : ℕ} (hn : n ≤ 8)
    (h : ∀ i < n, m (a + BitVec.ofNat 64 i) = (v >>> (8 * i)).setWidth 8) :
    (load m a n).toNat = v.toNat % 2 ^ (8 * n) := by
  induction n generalizing a v with
  | zero => simp [load, Nat.mod_one]
  | succ n ih =>
    have h0 : ((m a).setWidth 64).toNat = v.toNat % 2 ^ 8 := by
      have hbyte : m a = v.setWidth 8 := by simpa using h 0 (by omega)
      rw [hbyte, BitVec.toNat_setWidth, BitVec.toNat_setWidth]
      omega
    have hrest : (load m (a + 1) n).toNat = v.toNat / 2 ^ 8 % 2 ^ (8 * n) := by
      rw [ih (v := v >>> 8) (by omega), BitVec.toNat_ushiftRight, Nat.shiftRight_eq_div_pow]
      intro i hi
      rw [add_one_add, h (i + 1) (by omega), ← BitVec.shiftRight_add]
      congr 2
      omega
    have hlt : v.toNat / 2 ^ 8 % 2 ^ (8 * n) < 2 ^ 56 :=
      Nat.lt_of_lt_of_le (Nat.mod_lt _ (Nat.two_pow_pos _))
        (Nat.pow_le_pow_right (by omega) (by omega))
    have hshift : (load m (a + 1) n <<< 8).toNat = v.toNat / 2 ^ 8 % 2 ^ (8 * n) * 2 ^ 8 := by
      rw [BitVec.toNat_shiftLeft, Nat.shiftLeft_eq, hrest, Nat.mod_eq_of_lt (by omega)]
    rw [load, BitVec.toNat_or, h0, hshift, Nat.or_comm, Nat.mul_comm,
      ← Nat.two_pow_add_eq_or_of_lt (Nat.mod_lt _ (by omega))]
    rw [show 8 * (n + 1) = 8 + 8 * n by omega, Nat.pow_add, Nat.mod_mul, Nat.add_comm]

/-- **The bytes stored are read back.** -/
lemma toNat_load_store (m : Memory) (a v : BitVec 64) {n : ℕ} (hn : n ≤ 8) :
    (load (store m a n v) a n).toNat = v.toNat % 2 ^ (8 * n) :=
  load_eq_of_bytes hn fun _ hi => store_apply m a n v hi hn

/-- **An octa is read back** from where it was stored. -/
lemma load_store_same (m : Memory) (a v : BitVec 64) : load (store m a 8 v) a 8 = v := by
  apply BitVec.eq_of_toNat_eq
  rw [toNat_load_store m a v (by omega)]
  exact Nat.mod_eq_of_lt v.isLt

/-- What `n` bytes hold fits them. -/
lemma load_lt (m : Memory) (a : BitVec 64) (n : ℕ) (hn : n ≤ 8) :
    (load m a n).toNat < 2 ^ (8 * n) := by
  induction n generalizing a with
  | zero => simp [load]
  | succ n ih =>
    have hshift : (load m (a + 1) n <<< 8).toNat < 2 ^ (8 * (n + 1)) := by
      have hlt := ih (a + 1) (by omega)
      rw [BitVec.toNat_shiftLeft, Nat.shiftLeft_eq]
      refine Nat.lt_of_le_of_lt (Nat.mod_le _ _) ?_
      rw [show 8 * (n + 1) = 8 * n + 8 by omega, Nat.pow_add]
      omega
    have hbyte : ((m a).setWidth 64).toNat < 2 ^ (8 * (n + 1)) := by
      rw [BitVec.toNat_setWidth]
      have hpow : 2 ^ 8 ≤ 2 ^ (8 * (n + 1)) := Nat.pow_le_pow_right (by omega) (by omega)
      have := (m a).isLt
      omega
    rw [load, BitVec.toNat_or]
    exact Nat.or_lt_two_pow hbyte hshift

/-- The bytes of a load are those of the memory. -/
lemma byte_load (m : Memory) (a : BitVec 64) {n i : ℕ} (hi : i < n) (hn : n ≤ 8) :
    (load m a n >>> (8 * i)).setWidth 8 = m (a + BitVec.ofNat 64 i) := by
  induction n generalizing a i with
  | zero => omega
  | succ n ih =>
    cases i with
    | zero =>
      ext j hj
      simp [load]
    | succ i =>
      rw [← add_one_add, ← ih (a + 1) (Nat.lt_of_succ_lt_succ hi) (by omega)]
      ext j hj
      have hlow : ¬ 8 * (i + 1) + j < 8 := by omega
      have hsub : 8 * (i + 1) + j - 8 = 8 * i + j := by omega
      have hbyte : (m a).getLsbD (8 * (i + 1) + j) = false := BitVec.getLsbD_of_ge _ _ (by omega)
      simp [load, hlow, hsub, hbyte, show 8 * (i + 1) + j < 64 by omega, BitVec.getLsbD_eq_getElem,
        show 8 * i + j < 64 by omega]

/-- **Storing what is there** changes nothing. -/
lemma store_load_same (m : Memory) (a : BitVec 64) : store m a 8 (load m a 8) = m := by
  funext x
  rw [store]
  by_cases hx : offsetFrom a x < 8
  · rw [if_pos hx, byte_load m a hx (by omega), add_offsetFrom]
  · rw [if_neg hx]

/-! ## Several stores -/

section StoreAll

variable {n : ℕ} {addr val : ℕ → BitVec 64} {m : Memory}

/-- The same addresses and values. -/
lemma storeAll_congr {addr' val' : ℕ → BitVec 64} {k : ℕ} (haddr : ∀ i < k, addr i = addr' i)
    (hval : ∀ i < k, val i = val' i) : storeAll n addr val k m = storeAll n addr' val' k m := by
  induction k with
  | zero => rfl
  | succ k ih =>
    rw [storeAll, storeAll, ih (fun i hi => haddr i (by omega)) fun i hi => hval i (by omega),
      haddr k (by omega), hval k (by omega)]

/-- Stores in two groups. -/
lemma storeAll_add (i k : ℕ) : storeAll n addr val (i + k) m =
    storeAll n (fun j => addr (i + j)) (fun j => val (i + j)) k (storeAll n addr val i m) := by
  induction k with
  | zero => rfl
  | succ k ih => rw [← Nat.add_assoc, storeAll, ih, storeAll]

/-- A byte that none of the stores puts down. -/
lemma storeAll_of_le {x : BitVec 64} {k : ℕ} (h : ∀ i < k, n ≤ offsetFrom (addr i) x) :
    storeAll n addr val k m x = m x := by
  induction k with
  | zero => rfl
  | succ k ih =>
    rw [storeAll, store, if_neg (Nat.not_lt.mpr (h k (by omega))), ih fun i hi => h i (by omega)]

/-- A byte is a byte of one of the values or was there before. -/
lemma storeAll_cases (x : BitVec 64) (k : ℕ) : storeAll n addr val k m x = m x ∨
    ∃ i < k, ∃ j, storeAll n addr val k m x = (val i >>> (8 * j)).setWidth 8 := by
  induction k with
  | zero => exact .inl rfl
  | succ k ih =>
    rw [storeAll, store]
    split_ifs
    · exact .inr ⟨k, by omega, _, rfl⟩
    · rcases ih with hold | ⟨i, hi, j, hij⟩
      · exact .inl hold
      · exact .inr ⟨i, by omega, j, hij⟩

/-- **Elements side by side** keep their bytes. -/
lemma storeAll_apply {a : BitVec 64} {k i j : ℕ} (hn : n ≤ 8) (hi : i < k) (hj : j < n)
    (hsmall : k * n ≤ 2 ^ 64) :
    storeAll n (fun i => a + BitVec.ofNat 64 (i * n)) val k m (a + BitVec.ofNat 64 (i * n) + BitVec.ofNat 64 j) =
      (val i >>> (8 * j)).setWidth 8 := by
  induction k with
  | zero => omega
  | succ k ih =>
    rw [storeAll]
    by_cases hik : i = k
    · rw [hik]
      exact store_apply _ _ _ _ hj hn
    · have hle : (i + 1) * n ≤ k * n := Nat.mul_le_mul_right n (by omega)
      have hsucc : (k + 1) * n = k * n + n := Nat.succ_mul k n
      have hisucc : (i + 1) * n = i * n + n := Nat.succ_mul i n
      have hfar : n ≤ offsetFrom (a + BitVec.ofNat 64 (k * n))
          (a + BitVec.ofNat 64 (i * n) + BitVec.ofNat 64 j) := by
        rw [BitVec.add_assoc, ← BitVec.ofNat_add, offsetFrom_add_add a (by omega) (by omega)]
        split_ifs <;> omega
      rw [store, if_neg (Nat.not_lt.mpr hfar), ih (by omega) (by omega)]

/-- An element is read back. -/
lemma toNat_load_storeAll {a : BitVec 64} {k i : ℕ} (hn : n ≤ 8) (hi : i < k) (hsmall : k * n ≤ 2 ^ 64) :
    (load (storeAll n (fun i => a + BitVec.ofNat 64 (i * n)) val k m) (a + BitVec.ofNat 64 (i * n)) n).toNat =
      (val i).toNat % 2 ^ (8 * n) :=
  load_eq_of_bytes hn fun _ hj => storeAll_apply hn hi hj hsmall

end StoreAll

end Memory

end Dadao
