import Mathlib.Data.Nat.Notation
import Mathlib.Tactic.Lemma
import Mathlib.Tactic.SplitIfs

set_option relaxedAutoImplicit false
set_option autoImplicit false

/-!
# Clocked circuits

A synchronous circuit is a state and a function from the state and the inputs of a cycle to the next
state. A run is a list of inputs, one a cycle. What is required of a run, and what is proved of it,
are properties of each cycle: the state the cycle starts in and its inputs.

## Main definitions

* `Dadao.Clocked.run` — the state after a list of inputs.
* `Dadao.Clocked.EveryCycle` — a property of every cycle of a run.
* `Dadao.Clocked.events` — the number of cycles of a run in which something happens.

## Main results

* `Dadao.Clocked.EveryCycle.of_invariant` — an invariant carried through a run.
* `Dadao.Clocked.run_simulates` — a circuit that takes a step of a slower machine in some cycles.
* `Dadao.Clocked.events_le` — a bound on the cycles to each event.
-/

namespace Dadao

namespace Clocked

variable {σ ι : Type*} {step : σ → ι → σ}

/-- The state after the cycles of a run. -/
def run (step : σ → ι → σ) : σ → List ι → σ
  | s, [] => s
  | s, i :: is => run step (step s i) is

/-- A run of two parts. -/
lemma run_append (s : σ) (is js : List ι) : run step s (is ++ js) = run step (run step s is) js := by
  induction is generalizing s with
  | nil => rfl
  | cons i is ih => exact ih (step s i)

/-- What every cycle keeps is kept by a run. -/
lemma run_of_forall {P : σ → Prop} {is : List ι} (h : ∀ s, ∀ i ∈ is, P s → P (step s i)) {s : σ}
    (hs : P s) : P (run step s is) := by
  induction is generalizing s with
  | nil => exact hs
  | cons i is ih =>
    refine ih (fun s j hj => h s j (List.mem_cons_of_mem i hj)) ?_
    exact h s i List.mem_cons_self hs

/-- A property of every cycle of a run: of the state it starts in and its inputs. -/
def EveryCycle (step : σ → ι → σ) (P : σ → ι → Prop) : σ → List ι → Prop
  | _, [] => True
  | s, i :: is => P s i ∧ EveryCycle step P (step s i) is

/-- A decidable property of every cycle. -/
instance decidableEveryCycle {P : σ → ι → Prop} [∀ s i, Decidable (P s i)] :
    ∀ (s : σ) (is : List ι), Decidable (EveryCycle step P s is)
  | _, [] => isTrue trivial
  | s, i :: is =>
    have := decidableEveryCycle (P := P) (step s i) is
    inferInstanceAs (Decidable (P s i ∧ EveryCycle step P (step s i) is))

/-- **The invariant rule.** If the invariant holds at the start and every cycle that meets the
condition keeps it and has the property, then every cycle of a run that meets the condition has the
property. -/
lemma EveryCycle.of_invariant {C P : σ → ι → Prop} (Inv : σ → Prop)
    (hstep : ∀ s i, Inv s → C s i → Inv (step s i)) (hcycle : ∀ s i, Inv s → C s i → P s i) {s : σ}
    (hinit : Inv s) {is : List ι} (hrun : EveryCycle step C s is) : EveryCycle step P s is := by
  induction is generalizing s with
  | nil => trivial
  | cons i is ih =>
    obtain ⟨hC, hrest⟩ := hrun
    exact ⟨hcycle s i hinit hC, ih (hstep s i hinit hC) hrest⟩

/-- A property that follows in every cycle. -/
lemma EveryCycle.mono {P Q : σ → ι → Prop} (h : ∀ s i, P s i → Q s i) {s : σ} {is : List ι}
    (hrun : EveryCycle step P s is) : EveryCycle step Q s is := by
  induction is generalizing s with
  | nil => trivial
  | cons i is ih => exact ⟨h s i hrun.1, ih hrun.2⟩

/-- Two properties of every cycle. -/
lemma EveryCycle.and {P Q : σ → ι → Prop} {s : σ} {is : List ι} (hP : EveryCycle step P s is)
    (hQ : EveryCycle step Q s is) : EveryCycle step (fun s i => P s i ∧ Q s i) s is := by
  induction is generalizing s with
  | nil => trivial
  | cons i is ih => exact ⟨⟨hP.1, hQ.1⟩, ih hP.2 hQ.2⟩

/-! ### Events -/

/-- The number of cycles of a run in which something happens. -/
def events (step : σ → ι → σ) (happens : σ → ι → Bool) : σ → List ι → ℕ
  | _, [] => 0
  | s, i :: is => (if happens s i then 1 else 0) + events step happens (step s i) is

attribute [local simp] events run

/-- **The simulation rule.** A circuit implements a machine that is slower: some of its cycles take the
next step of the machine, and the others take none. What is assumed of the steps is assumed of those
the run comes to. -/
lemma run_simulates {happens : σ → ι → Bool} {R : σ → ℕ → Prop} {G : ℕ → Prop}
    (hstep : ∀ s i k, R s k → G k → R (step s i) (if happens s i then k + 1 else k)) {s : σ} {k : ℕ}
    (h : R s k) {is : List ι} (hG : ∀ j, k ≤ j → j ≤ k + events step happens s is → G j) :
    R (run step s is) (k + events step happens s is) := by
  induction is generalizing s k with
  | nil => exact h
  | cons i is ih =>
    have hnext := hstep s i k h (hG k (Nat.le_refl k) (Nat.le_add_right _ _))
    have hcount : (if happens s i then k + 1 else k) + events step happens (step s i) is =
        k + events step happens s (i :: is) := by
      rw [events]
      split_ifs <;> omega
    rw [← hcount]
    refine ih hnext fun j hj hle => hG j (Nat.le_trans ?_ hj) (hcount ▸ hle)
    split_ifs <;> omega

/-- **The progress rule.** A measure of what has to be waited for falls in every cycle of one kind in which
nothing happens, never rises by itself, and is at most `b` after something has happened: then there are at
most `b + 1` cycles of the kind to each event. -/
lemma events_le {happens asked : σ → ι → Bool} {R : σ → ℕ → Prop} {G : ℕ → Prop} (wait : σ → ℕ) {b : ℕ}
    (hstep : ∀ s i k, R s k → G k → R (step s i) (if happens s i then k + 1 else k))
    (hwait : ∀ s i k, R s k → G k → wait (step s i) + (if asked s i then 1 else 0) ≤
      if happens s i then b + 1 else wait s) {s : σ} {k : ℕ} (h : R s k) {is : List ι}
    (hG : ∀ j, k ≤ j → j ≤ k + events step happens s is → G j) :
    events step asked s is ≤ (b + 1) * events step happens s is + wait s := by
  induction is generalizing s k with
  | nil => exact Nat.zero_le _
  | cons i is ih =>
    have hnow := hwait s i k h (hG k (Nat.le_refl k) (Nat.le_add_right _ _))
    have hnext := hstep s i k h (hG k (Nat.le_refl k) (Nat.le_add_right _ _))
    have hrest : events step asked (step s i) is ≤
        (b + 1) * events step happens (step s i) is + wait (step s i) := by
      refine ih hnext fun j hj hle => hG j (Nat.le_trans ?_ hj) (Nat.le_trans hle ?_)
      · split_ifs <;> omega
      · rw [events]
        split_ifs <;> omega
    rw [events, events, Nat.mul_add]
    split_ifs at hnow ⊢ <;> omega

end Clocked

end Dadao
