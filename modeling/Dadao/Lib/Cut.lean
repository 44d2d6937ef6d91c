import Mathlib.Data.List.Basic
import Mathlib.Data.Nat.Notation
import Mathlib.Logic.Function.Basic
import Mathlib.Logic.Function.Iterate
import Mathlib.Tactic.Lemma

set_option relaxedAutoImplicit false
set_option autoImplicit false

/-!
# Cutting positions out of a sequence

When `count` positions are cut out of a sequence at `addr`, the positions up to `addr` stay where
they are and those from `addr + count` on move down. A mark, the offset of something that points into
the sequence, is kept when it goes where its position goes.

Marks are also kept in tables that are visited entry by entry, where one entry may be visited several
times.

## Main definitions

* `Dadao.Cut.Moves` — where a position goes.
* `Dadao.visit` — apply a function at every index of a list.

## Main results

* `Dadao.Cut.moves_self_iff`, `Dadao.Cut.moves_sub_iff` — a mark that stays, and one that moves down.
* `Dadao.visit_apply` — a visited entry is changed as often as it is visited.
-/

namespace Dadao

/-- The `count` positions at `addr` are cut out. -/
structure Cut where
  addr : ℕ
  count : ℕ
  deriving DecidableEq, Repr

namespace Cut

variable (c : Cut) {p q : ℕ}

/-- The positions that are cut out. -/
def Deleted (p : ℕ) : Prop := c.addr ≤ p ∧ p < c.addr + c.count

/-- The positions between two of those: a mark there has nowhere to go. -/
def Inside (p : ℕ) : Prop := c.addr < p ∧ p < c.addr + c.count

/-- The position `p` goes to `q`. -/
def Moves (p q : ℕ) : Prop := p ≤ c.addr ∧ q = p ∨ c.addr + c.count ≤ p ∧ q + c.count = p

instance : DecidablePred c.Deleted := fun _ => inferInstanceAs (Decidable (_ ∧ _))

instance : DecidablePred c.Inside := fun _ => inferInstanceAs (Decidable (_ ∧ _))

instance : Decidable (c.Moves p q) := inferInstanceAs (Decidable (_ ∨ _))

/-- A mark that stays is right up to the cut. -/
lemma moves_self_iff : c.Moves p p ↔ c.count = 0 ∨ p ≤ c.addr := by
  unfold Moves
  omega

/-- A mark that moves down is right after the cut. -/
lemma moves_sub_iff (h : q + c.count = p) : c.Moves p q ↔ c.count = 0 ∨ c.addr + c.count ≤ p := by
  unfold Moves
  omega

end Cut

section Visit

variable {ι α : Type} [DecidableEq ι]

/-- Apply `f` to the entries of a table, at every index of a list in turn. -/
def visit (f : α → α) (is : List ι) (table : ι → α) : ι → α :=
  is.foldl (fun t i => Function.update t i (f (t i))) table

/-- **An entry is changed as often as it is visited.** -/
lemma visit_apply (f : α → α) (is : List ι) (table : ι → α) (k : ι) :
    visit f is table k = f^[is.count k] (table k) := by
  induction is generalizing table with
  | nil => rfl
  | cons i is ih =>
    have hvisit : visit f (i :: is) table k = f^[is.count k] (Function.update table i (f (table i)) k) :=
      ih _
    rw [hvisit, List.count_cons]
    by_cases hik : i = k
    · subst hik
      rw [Function.update_self, if_pos (beq_self_eq_true i), Function.iterate_succ_apply]
    · rw [Function.update_of_ne (Ne.symm hik), if_neg (by simpa using hik), Nat.add_zero]

end Visit

end Dadao
