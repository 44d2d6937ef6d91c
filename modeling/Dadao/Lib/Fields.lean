import Mathlib.Algebra.Group.Nat.Defs
import Mathlib.Data.Nat.Notation
import Mathlib.Data.List.Nodup

set_option relaxedAutoImplicit false
set_option autoImplicit false

/-!
# Words made of fixed bits and named fields

A format says of every bit of a word whether it is fixed or which bit of which named field it shows. The
bits of a field may lie anywhere in the word, and need not all be shown.

## Main definitions

* `Fields.Format` — a format, the lowest bit first.
* `Fields.extract`, `Fields.insert` — the value of a field of a word, and the word with given fields.

## Main results

* `Fields.toNat_insert_append` — the number of a word by its parts.
* `Fields.insert_extract` — inserting what was extracted gives the word back.
* `Fields.extract_insert` — extracting what was inserted gives the shown bits back.
-/

namespace Fields

variable {α : Type} {n : ℕ}

/-- A bit of a format: fixed, or a bit of a field. -/
inductive FormatBit (α : Type) where
  | const (b : Bool)
  | var (name : α) (i : ℕ)
  deriving DecidableEq, Repr

/-- A format, the lowest bit first. -/
abbrev Format (α : Type) := List (FormatBit α)

/-- The word of `n` bits, given one by one. -/
def ofBits (n : ℕ) (f : ℕ → Bool) : BitVec n := (BitVec.ofBoolListLE ((List.range n).map f)).setWidth n

lemma getLsbD_ofBits (f : ℕ → Bool) (i : ℕ) : (ofBits n f).getLsbD i = (decide (i < n) && f i) := by
  rw [ofBits, BitVec.getLsbD_setWidth, BitVec.getLsbD_ofBoolListLE]
  by_cases hi : i < n
  · simp [hi]
  · simp [hi]

/-- The fixed bits of a value. -/
def constBits (len v : ℕ) : Format α := (List.range len).map fun i => .const (v.testBit i)

/-- The bits `lo`, `lo + 1`, … of a field. -/
def varBits (name : α) (lo len : ℕ) : Format α := (List.range len).map fun i => .var name (lo + i)

/-- The fixed bits agree with a word. -/
def agrees (fmt : Format α) (w : BitVec n) : Bool :=
  (List.range n).all fun p => match fmt[p]? with
    | some (.const b) => w.getLsbD p == b
    | some (.var _ _) => true
    | none => false

/-- The word with given fields. -/
def insert (fmt : Format α) (vals : α → BitVec n) : BitVec n :=
  ofBits n fun p => match fmt[p]? with
    | some (.const b) => b
    | some (.var name i) => (vals name).getLsbD i
    | none => false

/-! ## The number of a word -/

section Number

variable {f g : Format α} {vals : α → BitVec n}

/-- The bits of a word, one by one. -/
lemma testBit_insert (fmt : Format α) (vals : α → BitVec n) (p : ℕ) : (insert fmt vals).toNat.testBit p =
    (decide (p < n) && match fmt[p]? with
      | some (.const b) => b
      | some (.var name i) => (vals name).getLsbD i
      | none => false) :=
  getLsbD_ofBits _ p

lemma testBit_insert_of_length_le {p : ℕ} (h : f.length ≤ p) : (insert f vals).toNat.testBit p = false := by
  rw [testBit_insert, List.getElem?_eq_none h, Bool.and_false]

/-- The bits of a word are those of its format. -/
lemma insert_lt (f : Format α) (vals : α → BitVec n) : (insert f vals).toNat < 2 ^ f.length :=
  Nat.lt_pow_two_of_testBit _ fun _ hp => testBit_insert_of_length_le hp

/-- **One part of a word above another.** -/
lemma toNat_insert_append (h : f.length + g.length ≤ n) : (insert (f ++ g) vals).toNat =
    2 ^ f.length * (insert g vals).toNat + (insert f vals).toNat := by
  apply Nat.eq_of_testBit_eq
  intro p
  rw [Nat.testBit_two_pow_mul_add _ (insert_lt f vals), testBit_insert]
  by_cases hp : p < f.length
  · have hlt : p < n := by omega
    rw [if_pos hp, testBit_insert, List.getElem?_append_left hp]
  · rw [if_neg hp, List.getElem?_append_right (by omega)]
    by_cases hg : p - f.length < g.length
    · have hlt : p < n := by omega
      have hlt' : p - f.length < n := by omega
      rw [testBit_insert, decide_eq_true hlt, decide_eq_true hlt']
    · rw [testBit_insert_of_length_le (by omega), List.getElem?_eq_none (by omega), Bool.and_false]

@[simp] lemma length_constBits (len v : ℕ) : (constBits len v : Format α).length = len := by simp [constBits]

@[simp] lemma length_varBits (name : α) (lo len : ℕ) : (varBits name lo len).length = len := by simp [varBits]

/-- The number of a fixed part. -/
lemma toNat_insert_constBits {len v : ℕ} (h : len ≤ n) (hv : v < 2 ^ len) :
    (insert (constBits len v) vals).toNat = v := by
  apply Nat.eq_of_testBit_eq
  intro p
  by_cases hp : p < len
  · have hlt : p < n := by omega
    rw [testBit_insert, decide_eq_true hlt, constBits, List.getElem?_map, List.getElem?_range hp]
    rfl
  · rw [testBit_insert_of_length_le (by simp; omega), Nat.testBit_lt_two_pow]
    exact Nat.lt_of_lt_of_le hv (Nat.pow_le_pow_right (by omega) (by omega))

/-- The number of a part that shows a field. -/
lemma toNat_insert_varBits {name : α} {lo len : ℕ} (h : len ≤ n) :
    (insert (varBits name lo len) vals).toNat = (vals name).toNat / 2 ^ lo % 2 ^ len := by
  apply Nat.eq_of_testBit_eq
  intro p
  rw [Nat.testBit_mod_two_pow, Nat.testBit_div_two_pow]
  by_cases hp : p < len
  · have hlt : p < n := by omega
    rw [testBit_insert, decide_eq_true hlt, varBits, List.getElem?_map, List.getElem?_range hp,
      decide_eq_true hp, Nat.add_comm]
    rfl
  · rw [testBit_insert_of_length_le (by simp; omega), decide_eq_false hp, Bool.false_and]

end Number

/-- Every bit of a field is shown at most once, and fields are no longer than the word. -/
structure Proper (fmt : Format α) (n : ℕ) : Prop where
  length : fmt.length = n
  once : ∀ p q : ℕ, ∀ (a : α) (i : ℕ), fmt[p]? = some (.var a i) → fmt[q]? = some (.var a i) → p = q
  bound : ∀ (a : α) (i : ℕ), .var a i ∈ fmt → i < n

/-- The bits of a format that show a field. -/
def vars (fmt : Format α) : List (α × ℕ) := fmt.filterMap fun
  | .const _ => none
  | .var a i => some (a, i)

/-- No number stands twice in a list. -/
def distinct : List ℕ → Bool
  | [] => true
  | k :: ks => ks.all (fun k' => !k.beq k') && distinct ks

lemma distinct_eq_true_iff {ks : List ℕ} : distinct ks = true ↔ ks.Nodup := by
  induction ks with
  | nil => exact iff_of_true rfl List.nodup_nil
  | cons k ks ih =>
    rw [distinct, Bool.and_eq_true, ih, List.nodup_cons, List.all_eq_true]
    refine and_congr_left fun _ => ⟨fun h hk => ?_, fun h k' hk' => ?_⟩
    · have hself := h k hk
      rw [Bool.not_eq_true', ← Bool.not_eq_true, Nat.beq_eq] at hself
      exact hself rfl
    · rw [Bool.not_eq_true', ← Bool.not_eq_true, Nat.beq_eq]
      rintro rfl
      exact h hk'

/-- Nothing stands twice in a list when no number does. -/
lemma decide_nodup_eq [DecidableEq α] {key : α → ℕ} (hkey : Function.Injective key) (l : List α) :
    decide l.Nodup = distinct (l.map key) := by
  rw [Bool.eq_iff_iff, decide_eq_true_iff, distinct_eq_true_iff, List.nodup_map_iff hkey]

/-- The inserted bits. -/
lemma getLsbD_insert {fmt : Format α} (h : Proper fmt n) {p : ℕ} {a : α} {i : ℕ}
    (hp : fmt[p]? = some (.var a i)) (vals : α → BitVec n) :
    (insert fmt vals).getLsbD p = (vals a).getLsbD i := by
  have hlt : p < n := h.length ▸ (List.getElem?_eq_some_iff.mp hp).1
  simp only [insert, getLsbD_ofBits, hlt, decide_true, Bool.true_and, hp]

/-- A check for proper formats. -/
lemma proper_of_check {fmt : Format α} (hlen : fmt.length = n) (hnodup : (vars fmt).Nodup)
    (hbound : ∀ v ∈ vars fmt, v.2 < n) : Proper fmt n := by
  refine ⟨hlen, ?_, ?_⟩
  · clear hlen hbound
    induction fmt with
    | nil =>
      intro p q a i hp
      simp at hp
    | cons b fmt ih =>
      have hmem : ∀ {p : ℕ} {a : α} {i : ℕ}, fmt[p]? = some (.var a i) → (a, i) ∈ vars fmt := fun hp =>
        List.mem_filterMap.mpr ⟨_, List.mem_of_getElem? hp, rfl⟩
      intro p q a i hp hq
      cases b with
      | const b =>
        cases p with
        | zero => simp at hp
        | succ p =>
          cases q with
          | zero => simp at hq
          | succ q => exact congrArg (· + 1) (ih hnodup p q a i hp hq)
      | var a' i' =>
        have hcons : vars (.var a' i' :: fmt) = (a', i') :: vars fmt := rfl
        rw [hcons, List.nodup_cons] at hnodup
        cases p with
        | zero =>
          cases q with
          | zero => rfl
          | succ q =>
            rw [List.getElem?_cons_zero, Option.some.injEq, FormatBit.var.injEq] at hp
            obtain ⟨rfl, rfl⟩ := hp
            exact absurd (hmem hq) hnodup.1
        | succ p =>
          cases q with
          | zero =>
            rw [List.getElem?_cons_zero, Option.some.injEq, FormatBit.var.injEq] at hq
            obtain ⟨rfl, rfl⟩ := hq
            exact absurd (hmem hp) hnodup.1
          | succ q => exact congrArg (· + 1) (ih hnodup.2 p q a i hp hq)
  · intro a i hi
    exact hbound (a, i) (List.mem_filterMap.mpr ⟨_, hi, rfl⟩)

section Extract

variable [DecidableEq α]

/-- The value of a field of a word; bits that are not shown are zero. -/
def extract (fmt : Format α) (name : α) (w : BitVec n) : BitVec n :=
  ofBits n fun i => match fmt.findIdx? (· == .var name i) with
    | some p => w.getLsbD p
    | none => false

/-- The format shows a bit of a field. -/
def shows (fmt : Format α) (name : α) : Bool := fmt.any fun
  | .const _ => false
  | .var a _ => a == name

/-- The extracted bit is the one shown. -/
lemma getLsbD_extract {fmt : Format α} (h : Proper fmt n) {p : ℕ} {a : α} {i : ℕ}
    (hp : fmt[p]? = some (.var a i)) (w : BitVec n) : (extract fmt a w).getLsbD i = w.getLsbD p := by
  have hi : i < n := h.bound a i (List.mem_of_getElem? hp)
  have hfind : fmt.findIdx? (· == .var a i) = some p := by
    cases hq : fmt.findIdx? (· == .var a i) with
    | none =>
      rw [List.findIdx?_eq_none_iff] at hq
      have hne := hq _ (List.mem_of_getElem? hp)
      rw [beq_self_eq_true] at hne
      exact absurd hne (by decide)
    | some q =>
      obtain ⟨hlt, heq, -⟩ := List.findIdx?_eq_some_iff_getElem.mp hq
      have hq' : fmt[q]? = some (.var a i) := by
        rw [List.getElem?_eq_getElem hlt, eq_of_beq heq]
      rw [h.once p q a i hp hq']
  simp only [extract, getLsbD_ofBits, hi, decide_true, Bool.true_and, hfind]

/-- Only shown bits are extracted. -/
lemma getLsbD_extract_of_notMem {fmt : Format α} {a : α} {i : ℕ} (hi : .var a i ∉ fmt) (w : BitVec n) :
    (extract fmt a w).getLsbD i = false := by
  have hfind : fmt.findIdx? (· == .var a i) = none := by
    rw [List.findIdx?_eq_none_iff]
    intro b hb
    rw [beq_eq_false_iff_ne]
    exact fun heq => hi (heq ▸ hb)
  simp only [extract, getLsbD_ofBits, hfind, Bool.and_false]

/-- A field of `k` shown bits is below `2 ^ k`. -/
lemma extract_lt {fmt : Format α} {a : α} {k : ℕ} (h : ∀ i, .var a i ∈ fmt → i < k) (w : BitVec n) :
    (extract fmt a w).toNat < 2 ^ k := by
  apply Nat.lt_pow_two_of_testBit
  intro i hi
  rw [BitVec.testBit_toNat]
  exact getLsbD_extract_of_notMem (fun hmem => absurd (h i hmem) (by omega)) w

/-- **Inserting what was extracted** gives the word back. -/
lemma insert_extract {fmt : Format α} (h : Proper fmt n) {w : BitVec n} (hw : agrees fmt w = true)
    {vals : α → BitVec n}
    (hvals : ∀ a i, .var a i ∈ fmt → (vals a).getLsbD i = (extract fmt a w).getLsbD i) :
    insert fmt vals = w := by
  apply BitVec.eq_of_getLsbD_eq
  intro p hp
  have hbit := List.all_eq_true.mp hw p (List.mem_range.mpr hp)
  obtain ⟨b, hsome⟩ : ∃ b, fmt[p]? = some b :=
    ⟨_, List.getElem?_eq_getElem (by rw [h.length]; exact hp)⟩
  cases b with
  | const b =>
    rw [hsome] at hbit
    simp only [insert, getLsbD_ofBits, hp, decide_true, Bool.true_and, hsome]
    exact (eq_of_beq hbit).symm
  | var a i =>
    rw [getLsbD_insert h hsome, hvals a i (List.mem_of_getElem? hsome), getLsbD_extract h hsome]

/-- **Extracting what was inserted** gives the shown bits back. -/
lemma extract_insert {fmt : Format α} (h : Proper fmt n) {a : α} {i : ℕ} (hi : .var a i ∈ fmt)
    (vals : α → BitVec n) : (extract fmt a (insert fmt vals)).getLsbD i = (vals a).getLsbD i := by
  obtain ⟨p, hp⟩ := List.getElem?_of_mem hi
  rw [getLsbD_extract h hp, getLsbD_insert h hp]

end Extract

end Fields
