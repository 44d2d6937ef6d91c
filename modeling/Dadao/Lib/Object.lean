import Mathlib.Data.Nat.Notation
import Mathlib.Logic.Function.Basic
import Mathlib.Logic.Relation
import Mathlib.Tactic.Lemma

set_option relaxedAutoImplicit false
set_option autoImplicit false

/-!
# Atomic objects

A shared value and the calls of any number of callers. A call takes effect at one instant between
its invocation and its return: it replaces the value and fixes the result that is returned later. A
history of invocations and returns is explained by the object if some choice of these instants
yields it.

## Main definitions

* `Dadao.Object`, `Dadao.Object.Step` — the object and its steps.
* `Dadao.Object.Explains` — a history and the value at its end.

## Main results

* `Dadao.Object.Reaches.returned` — a call can take effect as it returns.
* `Dadao.Object.simulates_run` — a system whose every step is steps of the object.
-/

namespace Dadao

/-- A sequential object: the value after a call and the result of the call. -/
structure Object (V C R : Type) where
  next : C → V → V
  result : C → V → R

namespace Object

/-- What callers see. -/
inductive Event (ι C R : Type) where
  | called (i : ι) (c : C)
  | returned (i : ι) (c : C) (r : R)

/-- A caller: no call, a call without effect so far, a call that has taken effect. -/
inductive Phase (C R : Type) where
  | idle
  | waiting (c : C)
  | done (c : C) (r : R)

/-- The value, the callers, and the events so far, the newest first. -/
structure State (ι V C R : Type) where
  value : V
  phase : ι → Phase C R
  log : List (Event ι C R)

/-- No caller has called. -/
def start (ι C R : Type) {V : Type} (v : V) : State ι V C R := ⟨v, fun _ => .idle, []⟩

variable {ι V C R : Type} [DecidableEq ι] {o : Object V C R}

/-- An invocation, the instant of a call, a return. -/
inductive Step (o : Object V C R) : State ι V C R → State ι V C R → Prop
  | call {s : State ι V C R} {i : ι} (c : C) (h : s.phase i = .idle) : Step o s
      ⟨s.value, Function.update s.phase i (.waiting c), .called i c :: s.log⟩
  | effect {s : State ι V C R} {i : ι} {c : C} (h : s.phase i = .waiting c) : Step o s
      ⟨o.next c s.value, Function.update s.phase i (.done c (o.result c s.value)), s.log⟩
  | ret {s : State ι V C R} {i : ι} {c : C} {r : R} (h : s.phase i = .done c r) : Step o s
      ⟨s.value, Function.update s.phase i .idle, .returned i c r :: s.log⟩

/-- Any number of steps. -/
def Reaches (o : Object V C R) : State ι V C R → State ι V C R → Prop :=
  Relation.ReflTransGen (Step o)

/-- **A history of an atomic object** whose value was `v₀` and is `v`. -/
def Explains (o : Object V C R) (v₀ v : V) (log : List (Event ι C R)) : Prop :=
  ∃ phase, Reaches o (start ι C R v₀) ⟨v, phase, log⟩

/-- **A call can take effect as it returns.** -/
lemma Reaches.returned {s : State ι V C R} {i : ι} {c : C} (h : s.phase i = .waiting c) :
    Reaches o s ⟨o.next c s.value, Function.update s.phase i .idle,
      .returned i c (o.result c s.value) :: s.log⟩ := by
  refine .tail (.single (.effect h)) ?_
  have hret := Step.ret (o := o) (s := ⟨o.next c s.value,
    Function.update s.phase i (.done c (o.result c s.value)), s.log⟩) (i := i)
    (Function.update_self i _ s.phase)
  rwa [Function.update_idem] at hret

/-- **A system whose every step is steps of the object**, in states that stand for states of it. -/
lemma simulates_run {S : Type} {step : S → S → Prop} {sim : S → State ι V C R → Prop}
    (hstep : ∀ s s' a, sim s a → step s s' → ∃ a', Reaches o a a' ∧ sim s' a')
    {s₀ s : S} {a₀ : State ι V C R} (h₀ : sim s₀ a₀) (hrun : Relation.ReflTransGen step s₀ s) :
    ∃ a, Reaches o a₀ a ∧ sim s a := by
  induction hrun with
  | refl => exact ⟨a₀, .refl, h₀⟩
  | tail _ hlast ih =>
    obtain ⟨a, hreach, hsim⟩ := ih
    obtain ⟨a', hreach', hsim'⟩ := hstep _ _ a hsim hlast
    exact ⟨a', hreach.trans hreach', hsim'⟩

end Object

end Dadao
