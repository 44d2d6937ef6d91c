import Mathlib.Data.List.Pairwise
import Mathlib.Logic.Function.Basic

set_option relaxedAutoImplicit false
set_option autoImplicit false

/-!
# Moves one after the other

A list of assignments of registers to registers, executed in its order, and when this is the same as
executing all of them at once.

## Main definitions

* `Dadao.Moves.run` — the moves one after the other.
* `Dadao.Moves.Ordered` — no move reads or assigns what one before it has assigned.

## Main results

* `Dadao.Moves.run_of_mem`, `Dadao.Moves.run_of_forall_ne` — ordered moves are simultaneous.
-/

namespace Dadao.Moves

variable {R V : Type} [DecidableEq R]

/-- Moves from a source, the second component, to a destination. -/
def run (moves : List (R × R)) (env : R → V) : R → V :=
  moves.foldl (fun env m => Function.update env m.1 (env m.2)) env

@[simp] lemma run_nil (env : R → V) : run [] env = env := rfl

@[simp] lemma run_cons (m : R × R) (moves : List (R × R)) (env : R → V) :
    run (m :: moves) env = run moves (Function.update env m.1 (env m.2)) := rfl

omit [DecidableEq R] in
/-- No move reads or assigns what one before it has assigned. -/
def Ordered (moves : List (R × R)) : Prop := moves.Pairwise fun m m' => m.1 ≠ m'.2 ∧ m.1 ≠ m'.1

/-- A register that no move assigns. -/
lemma run_of_forall_ne {moves : List (R × R)} {r : R} (h : ∀ m ∈ moves, m.1 ≠ r) (env : R → V) :
    run moves env r = env r := by
  induction moves generalizing env with
  | nil => rfl
  | cons m moves ih =>
    simp only [List.mem_cons, forall_eq_or_imp] at h
    rw [run_cons, ih h.2, Function.update_of_ne (Ne.symm h.1)]

/-- **Ordered moves are simultaneous**: each destination gets what its source had at first. -/
theorem run_of_mem {moves : List (R × R)} (h : Ordered moves) {m : R × R} (hm : m ∈ moves) (env : R → V) :
    run moves env m.1 = env m.2 := by
  induction moves generalizing env with
  | nil => exact absurd hm List.not_mem_nil
  | cons m' moves ih =>
    obtain ⟨hfirst, hrest⟩ := List.pairwise_cons.mp h
    rw [run_cons]
    rcases List.mem_cons.mp hm with rfl | hm
    · rw [run_of_forall_ne fun m' hm' => Ne.symm (hfirst m' hm').2, Function.update_self]
    · rw [ih hrest hm, Function.update_of_ne (Ne.symm (hfirst m hm).1)]

omit [DecidableEq R] in
/-- Fewer moves. -/
lemma Ordered.sublist {moves moves' : List (R × R)} (h : Ordered moves) (hsub : moves'.Sublist moves) :
    Ordered moves' := List.Pairwise.sublist hsub h

end Dadao.Moves
