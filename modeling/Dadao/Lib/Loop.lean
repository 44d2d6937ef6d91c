import Mathlib.Data.List.Range
import Mathlib.Logic.Function.Iterate

set_option relaxedAutoImplicit false
set_option autoImplicit false

/-!
# Loops that test at the end

A `do … while` loop whose body emits a list and changes a state, with fuel. The loop is described by
the states its body goes through: it ends with the first of them that fails the test, or never.

## Main definitions

* `Dadao.Loop.doWhile` — the loop.

## Main results

* `Dadao.Loop.doWhile_eq_some`, `Dadao.Loop.doWhile_mono` — the output of a loop that ends.
* `Dadao.Loop.doWhile_eq_none` — a loop whose test never fails runs out of every fuel.
-/

namespace Dadao.Loop

variable {σ ε : Type}

/-- `do body while (test)`; `none` when the fuel is used up. -/
def doWhile (emit : σ → List ε) (next : σ → σ) (test : σ → Bool) : ℕ → σ → Option (List ε)
  | 0, _ => none
  | fuel + 1, s =>
    if test (next s) then (doWhile emit next test fuel (next s)).map (emit s ++ ·) else some (emit s)

attribute [local simp] doWhile

variable {emit : σ → List ε} {next : σ → σ} {test : σ → Bool}

/-- **A loop that ends** after its body was executed `n + 1` times. -/
lemma doWhile_eq_some {n fuel : ℕ} (hfuel : n < fuel) {s : σ}
    (hloop : ∀ k < n, test (next^[k + 1] s) = true) (hend : test (next^[n + 1] s) = false) :
    doWhile emit next test fuel s =
      some ((List.range (n + 1)).flatMap fun k => emit (next^[k] s)) := by
  induction n generalizing fuel s with
  | zero =>
    obtain ⟨fuel, rfl⟩ : ∃ m, fuel = m + 1 := ⟨fuel - 1, by omega⟩
    have hstop : test (next s) = false := hend
    simp [doWhile, hstop]
  | succ n ih =>
    obtain ⟨fuel, rfl⟩ : ∃ m, fuel = m + 1 := ⟨fuel - 1, by omega⟩
    have hgo : test (next s) = true := hloop 0 (by omega)
    have hrest : doWhile emit next test fuel (next s) = _ :=
      ih (by omega) (fun k hk => hloop (k + 1) (by omega)) hend
    rw [doWhile, if_pos hgo, hrest, Option.map_some, List.range_succ_eq_map (n := n + 1),
      List.flatMap_cons, List.flatMap_map]
    rfl

/-- More fuel does not change the output. -/
lemma doWhile_mono {fuel fuel' : ℕ} (h : fuel ≤ fuel') {s : σ} {out : List ε}
    (hout : doWhile emit next test fuel s = some out) :
    doWhile emit next test fuel' s = some out := by
  induction fuel generalizing fuel' s out with
  | zero => exact absurd hout (by simp [doWhile])
  | succ fuel ih =>
    obtain ⟨fuel', rfl⟩ : ∃ m, fuel' = m + 1 := ⟨fuel' - 1, by omega⟩
    rw [doWhile] at hout ⊢
    by_cases hgo : test (next s) = true
    · rw [if_pos hgo] at hout ⊢
      obtain ⟨rest, hrest, rfl⟩ := Option.map_eq_some_iff.mp hout
      rw [ih (by omega) hrest, Option.map_some]
    · rw [if_neg hgo] at hout ⊢
      exact hout

/-- **A loop that does not end.** -/
lemma doWhile_eq_none (fuel : ℕ) {s : σ} (hloop : ∀ k, test (next^[k + 1] s) = true) :
    doWhile emit next test fuel s = none := by
  induction fuel generalizing s with
  | zero => rfl
  | succ fuel ih =>
    have hgo : test (next s) = true := hloop 0
    rw [doWhile, if_pos hgo, ih fun k => hloop (k + 1), Option.map_none]

/-- Everything a loop emits is emitted by one round. -/
lemma forall_doWhile {P : ε → Prop} (hemit : ∀ s, ∀ e ∈ emit s, P e) {fuel : ℕ} {s : σ} {out : List ε}
    (hout : doWhile emit next test fuel s = some out) : ∀ e ∈ out, P e := by
  induction fuel generalizing s out with
  | zero => exact absurd hout (by simp [doWhile])
  | succ fuel ih =>
    rw [doWhile] at hout
    by_cases hgo : test (next s) = true
    · rw [if_pos hgo] at hout
      obtain ⟨rest, hrest, rfl⟩ := Option.map_eq_some_iff.mp hout
      intro e he
      rcases List.mem_append.mp he with he | he
      · exact hemit s e he
      · exact ih hrest e he
    · rw [if_neg hgo] at hout
      rw [← Option.some.inj hout]
      exact hemit s

end Dadao.Loop
