import Mathlib.Data.List.Basic
import Mathlib.Logic.Function.Basic

set_option relaxedAutoImplicit false
set_option autoImplicit false

/-!
# Radix tables

Tables of cells, in which a cell that is not empty refers to a table of the next level. Every name has a
table of its own at the top; a path of indices leads from there to a table of the last level, whose cells
hold the values. A forest keeps the tables apart by giving each one owner, a name and a path.

## Main definitions

* `Dadao.Radix.descend` — follow a path.
* `Dadao.Radix.lookup` — the value under a name, a path and a last index.
* `Dadao.Radix.Forest` — every table has one owner.

## Main results

* `Dadao.Radix.Forest.lookup_store` — a store is seen by its own path and by no other.
* `Dadao.Radix.Forest.lookup_populate`, `Dadao.Radix.Forest.lookup_plant` — new tables hold nothing.
-/

namespace Dadao.Radix

variable {A T I V : Type}

section Descend

variable [DecidableEq V] (dec : V → T) (empty : V)

/-- **Follow a path** from a table, through cells that are not empty. -/
def descend (cells : T → I → V) : T → List I → Option T
  | t, [] => some t
  | t, i :: is => if cells t i = empty then none else descend cells (dec (cells t i)) is

lemma descend_append (cells : T → I → V) (t : T) (is js : List I) :
    descend dec empty cells t (is ++ js) =
      (descend dec empty cells t is).bind fun t' => descend dec empty cells t' js := by
  induction is generalizing t with
  | nil => rfl
  | cons i is ih =>
    rw [List.cons_append, descend, descend]
    split_ifs
    · rfl
    · exact ih _

/-- The value under a name, a path and a last index. -/
def lookup (cells : T → I → V) (roots : A → Option T) (a : A) (is : List I) (i : I) : Option V :=
  (roots a).bind fun t => (descend dec empty cells t is).map fun t' => cells t' i

end Descend

/-- **A forest** of `n` levels above the values: the owner of a table is found again on every way to it. -/
structure Forest (dec : V → T) (empty : V) (n : ℕ) (cells : T → I → V) (roots : A → Option T)
    (owner : T → Option (A × List I)) : Prop where
  root : ∀ a t, roots a = some t → owner t = some (a, [])
  child : ∀ t a p i, owner t = some (a, p) → p.length < n → cells t i ≠ empty →
    owner (dec (cells t i)) = some (a, p ++ [i])

/-- What a new table adds to a lookup. -/
def Grows (empty : V) (old new : Option V) : Prop := new = old ∨ old = none ∧ new = some empty

namespace Forest

variable [DecidableEq V] {dec : V → T} {empty : V} {n : ℕ} {cells cells' : T → I → V}
  {roots : A → Option T} {owner : T → Option (A × List I)} {a : A} {p is : List I} {t t' : T} {i : I}

/-- A path leads to the table that owns it. -/
lemma owner_descend (h : Forest dec empty n cells roots owner) (ht : owner t = some (a, p))
    (hlen : p.length + is.length ≤ n) (hd : descend dec empty cells t is = some t') :
    owner t' = some (a, p ++ is) := by
  induction is generalizing t p with
  | nil =>
    obtain rfl := Option.some.inj hd
    rw [ht, List.append_nil]
  | cons i is ih =>
    rw [descend] at hd
    rw [List.length_cons] at hlen
    split_ifs at hd with hempty
    have hchild := h.child t a p i ht (by omega) hempty
    have hend := ih hchild (by simp; omega) hd
    rwa [List.append_assoc, List.singleton_append] at hend

/-- The table of a lookup. -/
lemma exists_of_lookup (h : Forest dec empty n cells roots owner) (hlen : is.length ≤ n) {v : V}
    (hv : lookup dec empty cells roots a is i = some v) :
    ∃ t t', roots a = some t ∧ descend dec empty cells t is = some t' ∧ owner t' = some (a, is) ∧
      cells t' i = v := by
  obtain ⟨t, ht, hv⟩ := Option.bind_eq_some_iff.mp hv
  obtain ⟨t', hd, hv⟩ := Option.map_eq_some_iff.mp hv
  exact ⟨t, t', ht, hd, h.owner_descend (h.root a t ht) (by simpa using hlen) hd, hv⟩

/-- Cells of the last level do not matter to a path. -/
lemma descend_congr (h : Forest dec empty n cells roots owner)
    (hcells : ∀ t a p i, owner t = some (a, p) → p.length < n → cells' t i = cells t i)
    (ht : owner t = some (a, p)) (hlen : p.length + is.length ≤ n) :
    descend dec empty cells' t is = descend dec empty cells t is := by
  induction is generalizing t p with
  | nil => rfl
  | cons i is ih =>
    rw [List.length_cons] at hlen
    have hlt : p.length < n := by omega
    rw [descend, descend, hcells t a p i ht hlt]
    split_ifs with hempty
    · rfl
    · exact ih (h.child t a p i ht hlt hempty) (by simp; omega)

/-! ## Stores -/

section Store

variable {t₀ : T} {i₀ : I} {a₀ : A} {p₀ : List I} (h : Forest dec empty n cells roots owner)
  (ht₀ : owner t₀ = some (a₀, p₀)) (hp₀ : p₀.length = n)
  (hcells : ∀ t i, owner t ≠ none → (t, i) ≠ (t₀, i₀) → cells' t i = cells t i)

include ht₀ hp₀ hcells

omit [DecidableEq V] in
/-- A store at the last level is to no cell above it. -/
lemma inner_store {t : T} {p : List I} (i : I) (ht : owner t = some (a, p)) (hlt : p.length < n) :
    cells' t i = cells t i := by
  refine hcells t i (by simp [ht]) fun heq => ?_
  rw [(Prod.mk.inj heq).1, ht₀, Option.some.injEq, Prod.mk.injEq] at ht
  rw [← ht.2, hp₀] at hlt
  exact Nat.lt_irrefl n hlt

include h

omit [DecidableEq V] in
/-- A store at the last level keeps the forest. -/
lemma store : Forest dec empty n cells' roots owner := by
  refine ⟨h.root, fun t a p i ht hlt hne => ?_⟩
  rw [inner_store ht₀ hp₀ hcells i ht hlt] at hne ⊢
  exact h.child t a p i ht hlt hne

/-- **A store** changes the lookup of its own path and of no other. -/
theorem lookup_store (hlen : is.length = n) (hne : (a, is, i) ≠ (a₀, p₀, i₀)) :
    lookup dec empty cells' roots a is i = lookup dec empty cells roots a is i := by
  unfold lookup
  cases hroot : roots a with
  | none => rfl
  | some t =>
    have ht := h.root a t hroot
    rw [Option.bind_some, Option.bind_some, h.descend_congr
      (fun t a p i ht hlt => inner_store ht₀ hp₀ hcells i ht hlt) ht (by simp [hlen])]
    cases hd : descend dec empty cells t is with
    | none => rfl
    | some t' =>
      have hown := h.owner_descend ht (by simp [hlen]) hd
      rw [List.nil_append] at hown
      rw [Option.map_some, Option.map_some, hcells t' i (by simp [hown])]
      intro heq
      obtain ⟨rfl, rfl⟩ := Prod.mk.inj heq
      rw [ht₀, Option.some.injEq, Prod.mk.injEq] at hown
      exact hne (by rw [hown.1, hown.2])

/-- The lookup of a stored value. -/
lemma lookup_store_self {t : T} (hroot : roots a₀ = some t)
    (hd : descend dec empty cells t p₀ = some t₀) :
    lookup dec empty cells' roots a₀ p₀ i₀ = some (cells' t₀ i₀) := by
  rw [lookup, hroot, Option.bind_some, h.descend_congr
    (fun t a p i ht hlt => inner_store ht₀ hp₀ hcells i ht hlt) (h.root a₀ t hroot) (by simp [hp₀]),
    hd, Option.map_some]

end Store

/-! ## New tables -/

/-- A new table takes no other's owner. -/
lemma update_owner [DecidableEq T] {t₁ : T} (ht₁ : owner t₁ = none) (x : A × List I)
    (ht : owner t = some (a, p)) : Function.update owner t₁ (some x) t = some (a, p) := by
  have hne : t ≠ t₁ := by
    rintro rfl
    simp [ht₁] at ht
  rw [Function.update_of_ne hne, ht]

section Populate

variable {t₀ t₁ : T} {i₀ : I} {a₀ : A} {p₀ : List I} (h : Forest dec empty n cells roots owner)
  (hnew : ∀ i, cells' t₁ i = empty)

include h hnew

section Child

variable (ht₀ : owner t₀ = some (a₀, p₀)) (hp₀ : p₀.length < n) (hempty : cells t₀ i₀ = empty)
  (hdec : dec (cells' t₀ i₀) = t₁)
  (hcells : ∀ t i, owner t ≠ none → (t, i) ≠ (t₀, i₀) → cells' t i = cells t i)

include ht₀ hdec hcells

omit [DecidableEq V] in
/-- Filling in an empty cell with a new table keeps the forest. -/
lemma populate [DecidableEq T] (ht₁ : owner t₁ = none) :
    Forest dec empty n cells' roots (Function.update owner t₁ (some (a₀, p₀ ++ [i₀]))) := by
  refine ⟨fun a t hroot => update_owner ht₁ _ (h.root a t hroot), fun t a p i ht hlt hne => ?_⟩
  by_cases heq : t = t₁
  · rw [heq, hnew] at hne
    exact absurd rfl hne
  rw [Function.update_of_ne heq] at ht
  by_cases hcell : (t, i) = (t₀, i₀)
  · obtain ⟨rfl, rfl⟩ := Prod.mk.inj hcell
    rw [ht₀, Option.some.injEq, Prod.mk.injEq] at ht
    rw [hdec, Function.update_self, ht.1, ht.2]
  · rw [hcells t i (by simp [ht]) hcell] at hne ⊢
    exact update_owner ht₁ _ (h.child t a p i ht hlt hne)

include hempty

/-- Paths lead where they led, or to the new table. -/
lemma descend_populate (ht : owner t = some (a, p)) (hlen : p.length + is.length ≤ n) :
    descend dec empty cells' t is = descend dec empty cells t is ∨
      descend dec empty cells t is = none ∧ descend dec empty cells' t is = some t₁ := by
  induction is generalizing t p with
  | nil => exact .inl rfl
  | cons i is ih =>
    rw [List.length_cons] at hlen
    rw [descend, descend]
    by_cases hcell : (t, i) = (t₀, i₀)
    · obtain ⟨rfl, rfl⟩ := Prod.mk.inj hcell
      rw [if_pos hempty, hdec]
      by_cases hnone : cells' t i = empty
      · exact .inl (if_pos hnone)
      · rw [if_neg hnone]
        cases is with
        | nil => exact .inr ⟨rfl, rfl⟩
        | cons j is => exact .inl (if_pos (hnew j))
    · rw [hcells t i (by simp [ht]) hcell]
      by_cases hnone : cells t i = empty
      · rw [if_pos hnone, if_pos hnone]
        exact .inl rfl
      · rw [if_neg hnone, if_neg hnone]
        exact ih (h.child t a p i ht (by omega) hnone) (by simp; omega)

include hp₀

/-- **A new table below another** holds nothing. -/
theorem lookup_populate (hlen : is.length = n) : Grows empty (lookup dec empty cells roots a is i)
    (lookup dec empty cells' roots a is i) := by
  unfold lookup
  cases hroot : roots a with
  | none => exact .inl rfl
  | some t =>
    have ht := h.root a t hroot
    rw [Option.bind_some, Option.bind_some]
    rcases h.descend_populate hnew ht₀ hempty hdec hcells ht (by simp [hlen] : _ + is.length ≤ n)
      with hd | ⟨hnone, hd⟩
    · rw [hd]
      cases hd' : descend dec empty cells t is with
      | none => exact .inl rfl
      | some t' =>
        have hown := h.owner_descend ht (by simp [hlen]) hd'
        rw [List.nil_append] at hown
        refine .inl (congrArg some (hcells t' i (by simp [hown]) fun heq => ?_))
        rw [(Prod.mk.inj heq).1, ht₀, Option.some.injEq, Prod.mk.injEq] at hown
        rw [hown.2, hlen] at hp₀
        exact Nat.lt_irrefl n hp₀
    · rw [hnone, hd]
      exact .inr ⟨rfl, congrArg some (hnew i)⟩

end Child

section Plant

variable [DecidableEq A] (hroot₀ : roots a₀ = none)
  (hcells : ∀ t i, owner t ≠ none → cells' t i = cells t i)

include hcells

omit [DecidableEq V] in
/-- A new name keeps the forest. -/
lemma plant [DecidableEq T] (ht₁ : owner t₁ = none) : Forest dec empty n cells' (Function.update roots a₀ (some t₁))
    (Function.update owner t₁ (some (a₀, []))) := by
  refine ⟨fun a t hroot => ?_, fun t a p i ht hlt hne => ?_⟩
  · by_cases ha : a = a₀
    · rw [ha, Function.update_self, Option.some.injEq] at hroot
      rw [← hroot, ha, Function.update_self]
    · rw [Function.update_of_ne ha] at hroot
      exact update_owner ht₁ _ (h.root a t hroot)
  · by_cases heq : t = t₁
    · rw [heq, hnew] at hne
      exact absurd rfl hne
    rw [Function.update_of_ne heq] at ht
    rw [hcells t i (by simp [ht])] at hne ⊢
    exact update_owner ht₁ _ (h.child t a p i ht hlt hne)

include hroot₀

/-- **A new name** has no values, and the others keep theirs. -/
theorem lookup_plant (hlen : is.length = n) : Grows empty (lookup dec empty cells roots a is i)
    (lookup dec empty cells' (Function.update roots a₀ (some t₁)) a is i) := by
  unfold lookup
  by_cases ha : a = a₀
  · rw [ha, Function.update_self, hroot₀, Option.bind_some]
    cases is with
    | nil => exact .inr ⟨rfl, congrArg some (hnew i)⟩
    | cons j is =>
      rw [descend, if_pos (hnew j)]
      exact .inl rfl
  · rw [Function.update_of_ne ha]
    cases hroot : roots a with
    | none => exact .inl rfl
    | some t =>
      have ht := h.root a t hroot
      rw [Option.bind_some, Option.bind_some, h.descend_congr
        (fun t a p i ht _ => hcells t i (by simp [ht])) ht (by simp [hlen])]
      cases hd : descend dec empty cells t is with
      | none => exact .inl rfl
      | some t' =>
        have hown := h.owner_descend ht (by simp [hlen]) hd
        exact .inl (congrArg some (hcells t' i (by simp [hown])))

end Plant

end Populate

end Forest

end Dadao.Radix
