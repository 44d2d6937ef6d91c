import Dadao.Lib.Tcg

set_option relaxedAutoImplicit false
set_option autoImplicit false

/-!
# Traces of emitted code

The execution of a list of operations whose meaning is a parameter: the operations that are executed,
the states they find, and the state at the end. Branches go forward to a label, as in `Tcg.exec`.

## Main definitions

* `Dadao.Tcg.Dialect` — what an operation does, and the label it sets.
* `Dadao.Tcg.Dialect.visits`, `Dadao.Tcg.Dialect.final` — a trace and its end.
* `Dadao.Tcg.FaultsFirst` — that no operation that can fault stands behind one with an effect.

## Main results

* `Dadao.Tcg.Dialect.inv` — what every operation preserves holds throughout.
* `Dadao.Tcg.Dialect.visits_of_faultsFirst` — a fault finds the state of the start.
* `Dadao.Tcg.Dialect.final_append_straight` — lists without branches are executed in place.
-/

namespace Dadao.Tcg

/-- The meaning of operations: what one does to a state, and the label it sets. -/
structure Dialect (ι σ : Type) where
  step : ι → σ → σ × Control
  label : ι → Option ℕ

namespace Dialect

variable {ι σ : Type} (D : Dialect ι σ)

/-- The operations that are executed, each with the state it finds; `skip` is the label that is being
looked for. -/
def visits : List ι → Option ℕ → σ → List (ι × σ)
  | [], _, _ => []
  | o :: os, some l, s => if D.label o = some l then visits os none s else visits os (some l) s
  | o :: os, none, s =>
    (o, s) :: match (D.step o s).2 with
      | .next => visits os none (D.step o s).1
      | .skip l => visits os (some l) (D.step o s).1
      | .raise _ => []

/-- The state at the end, and the exception if one is raised. -/
def final : List ι → Option ℕ → σ → σ × Option ℕ
  | [], _, s => (s, none)
  | o :: os, some l, s => if D.label o = some l then final os none s else final os (some l) s
  | o :: os, none, s =>
    match (D.step o s).2 with
    | .next => final os none (D.step o s).1
    | .skip l => final os (some l) (D.step o s).1
    | .raise e => ((D.step o s).1, some e)

attribute [local simp] visits final

variable {D} {os rest : List ι} {o : ι} {l : Option ℕ} {s : σ}

/-! ## The first operation -/

section First

variable {s' : σ} {k : ℕ}

lemma final_next (h : D.step o s = (s', .next)) : D.final (o :: os) none s = D.final os none s' := by
  rw [final, h]

lemma visits_next (h : D.step o s = (s', .next)) :
    D.visits (o :: os) none s = (o, s) :: D.visits os none s' := by
  rw [visits, h]

lemma final_skip (h : D.step o s = (s', .skip k)) :
    D.final (o :: os) none s = D.final os (some k) s' := by
  rw [final, h]

lemma visits_skip (h : D.step o s = (s', .skip k)) :
    D.visits (o :: os) none s = (o, s) :: D.visits os (some k) s' := by
  rw [visits, h]

lemma final_raise (h : D.step o s = (s', .raise k)) : D.final (o :: os) none s = (s', some k) := by
  rw [final, h]

lemma visits_raise (h : D.step o s = (s', .raise k)) : D.visits (o :: os) none s = [(o, s)] := by
  rw [visits, h]

end First

/-! ## Whole traces -/

/-- A visited operation is one of the list. -/
lemma mem_of_mem_visits {v : ι × σ} (h : v ∈ D.visits os l s) : v.1 ∈ os := by
  induction os generalizing l s with
  | nil => simp [visits] at h
  | cons o os ih =>
    cases l with
    | some l =>
      rw [visits] at h
      split_ifs at h
      · exact List.mem_cons_of_mem _ (ih h)
      · exact List.mem_cons_of_mem _ (ih h)
    | none =>
      rw [visits, List.mem_cons] at h
      rcases h with rfl | h
      · exact List.mem_cons_self
      · split at h
        · exact List.mem_cons_of_mem _ (ih h)
        · exact List.mem_cons_of_mem _ (ih h)
        · simp at h

/-- **What every operation preserves** holds throughout. -/
lemma inv {P : σ → Prop} (hstep : ∀ o ∈ os, ∀ s, P s → P (D.step o s).1) (hs : P s) :
    (∀ v ∈ D.visits os l s, P v.2) ∧ P (D.final os l s).1 := by
  induction os generalizing l s with
  | nil => exact ⟨by simp [visits], hs⟩
  | cons o os ih =>
    have hrest : ∀ o' ∈ os, ∀ s, P s → P (D.step o' s).1 :=
      fun o' ho' => hstep o' (List.mem_cons_of_mem o ho')
    have hnext : P (D.step o s).1 := hstep o List.mem_cons_self s hs
    cases l with
    | some l =>
      rw [visits, final]
      split_ifs
      · exact ih hrest hs
      · exact ih hrest hs
    | none =>
      rw [visits, final, List.forall_mem_cons]
      split
      · exact ⟨⟨hs, (ih hrest hnext).1⟩, (ih hrest hnext).2⟩
      · exact ⟨⟨hs, (ih hrest hnext).1⟩, (ih hrest hnext).2⟩
      · exact ⟨⟨hs, by simp⟩, hnext⟩

/-- An exception is raised by a visited operation. -/
lemma exists_visit_of_raised {e : ℕ} (h : (D.final os l s).2 = some e) :
    ∃ v ∈ D.visits os l s, D.step v.1 v.2 = ((D.final os l s).1, .raise e) := by
  induction os generalizing l s with
  | nil => simp [final] at h
  | cons o os ih =>
    cases l with
    | some l =>
      rw [final] at h ⊢
      rw [visits]
      split_ifs at h ⊢
      · exact ih h
      · exact ih h
    | none =>
      rw [final] at h ⊢
      rw [visits]
      split at h
      · obtain ⟨v, hv, hraise⟩ := ih h
        exact ⟨v, List.mem_cons_of_mem _ hv, hraise⟩
      · obtain ⟨v, hv, hraise⟩ := ih h
        exact ⟨v, List.mem_cons_of_mem _ hv, hraise⟩
      · rename_i e' hcontrol
        simp only [Option.some.injEq] at h
        subst h
        exact ⟨(o, s), List.mem_cons_self, Prod.ext rfl hcontrol⟩

/-! ## Lists without branches -/

/-- Operations that go on to the next one. -/
def Straight (D : Dialect ι σ) (os : List ι) : Prop := ∀ o ∈ os, ∀ s, (D.step o s).2 = .next

/-- The state after a straight list. -/
def run (D : Dialect ι σ) (os : List ι) (s : σ) : σ := os.foldl (fun s o => (D.step o s).1) s

@[simp] lemma run_nil : D.run [] s = s := rfl

@[simp] lemma run_cons : D.run (o :: os) s = D.run os (D.step o s).1 := rfl

lemma run_append : D.run (os ++ rest) s = D.run rest (D.run os s) := List.foldl_append

lemma Straight.tail (h : D.Straight (o :: os)) : D.Straight os :=
  fun o' ho' => h o' (List.mem_cons_of_mem o ho')

lemma Straight.append (h : D.Straight os) (h' : D.Straight rest) : D.Straight (os ++ rest) := by
  intro o ho
  rcases List.mem_append.mp ho with ho | ho
  · exact h o ho
  · exact h' o ho

/-- **A straight list is executed in place.** -/
lemma final_append_straight (h : D.Straight os) :
    D.final (os ++ rest) none s = D.final rest none (D.run os s) := by
  induction os generalizing s with
  | nil => rfl
  | cons o os ih =>
    have hnext : (D.step o s).2 = .next := h o List.mem_cons_self s
    rw [List.cons_append, final, hnext, run_cons]
    exact ih h.tail

/-- The end of a straight list. -/
lemma final_straight (h : D.Straight os) : D.final os none s = (D.run os s, none) := by
  have hall : D.final (os ++ []) none s = D.final [] none (D.run os s) := final_append_straight h
  rw [List.append_nil] at hall
  rw [hall, final]

/-- The trace of a straight list and of what follows it. -/
lemma visits_append_straight (h : D.Straight os) :
    D.visits (os ++ rest) none s = D.visits os none s ++ D.visits rest none (D.run os s) := by
  induction os generalizing s with
  | nil => rfl
  | cons o os ih =>
    have hnext : (D.step o s).2 = .next := h o List.mem_cons_self s
    rw [List.cons_append, visits, visits, hnext, run_cons, List.cons_append]
    exact congrArg _ (ih h.tail)

/-- The trace of one straight list for each number. -/
lemma mem_visits_flatMap {f : ℕ → List ι} (h : ∀ k, D.Straight (f k)) {n : ℕ} {v : ι × σ} :
    v ∈ D.visits ((List.range n).flatMap f) none s ↔
      ∃ k < n, v ∈ D.visits (f k) none (D.run ((List.range k).flatMap f) s) := by
  have hall : ∀ n, D.Straight ((List.range n).flatMap f) := by
    intro n o ho
    obtain ⟨k, -, ho⟩ := List.mem_flatMap.mp ho
    exact h k o ho
  induction n with
  | zero => simp [visits]
  | succ n ih =>
    rw [List.range_succ, List.flatMap_append, visits_append_straight (hall n), List.mem_append,
      List.flatMap_singleton]
    constructor
    · rintro (hv | hv)
      · obtain ⟨k, hk, hv⟩ := ih.mp hv
        exact ⟨k, by omega, hv⟩
      · exact ⟨n, by omega, hv⟩
    · rintro ⟨k, hk, hv⟩
      rcases Nat.lt_succ_iff_lt_or_eq.mp hk with hk | rfl
      · exact .inl (ih.mpr ⟨k, hk, hv⟩)
      · exact .inr hv

/-- A visit of a straight list finds the state after the operations before it. -/
lemma exists_of_mem_visits (h : D.Straight os) {v : ι × σ} (hv : v ∈ D.visits os none s) :
    ∃ before after, os = before ++ v.1 :: after ∧ v.2 = D.run before s := by
  induction os generalizing s with
  | nil => simp [visits] at hv
  | cons o os ih =>
    have hnext : (D.step o s).2 = .next := h o List.mem_cons_self s
    rw [visits, hnext, List.mem_cons] at hv
    rcases hv with rfl | hv
    · exact ⟨[], os, rfl, rfl⟩
    · obtain ⟨before, after, rfl, hstate⟩ := ih h.tail hv
      exact ⟨o :: before, after, rfl, hstate⟩

/-- A list without the label is passed over. -/
lemma final_append_skip {l : ℕ} (h : ∀ o ∈ os, D.label o ≠ some l) :
    D.final (os ++ rest) (some l) s = D.final rest (some l) s ∧
      D.visits (os ++ rest) (some l) s = D.visits rest (some l) s := by
  induction os with
  | nil => exact ⟨rfl, rfl⟩
  | cons o os ih =>
    have hne : D.label o ≠ some l := h o List.mem_cons_self
    rw [List.cons_append, final, visits, if_neg hne, if_neg hne]
    exact ih fun o' ho' => h o' (List.mem_cons_of_mem o ho')

/-! ## Branches inside a list -/

/-- Every branch finds its label behind it. -/
def Closed (D : Dialect ι σ) : List ι → Prop
  | [] => True
  | o :: os => (∀ s l, (D.step o s).2 = .skip l → ∃ o' ∈ os, D.label o' = some l) ∧ Closed D os

/-- A straight list has no branches. -/
lemma Straight.closed (h : D.Straight os) : D.Closed os := by
  induction os with
  | nil => trivial
  | cons o os ih =>
    refine ⟨fun s l hskip => ?_, ih h.tail⟩
    rw [h o List.mem_cons_self s] at hskip
    exact absurd hskip (by simp)

/-- **What follows a list** whose branches stay inside it is executed unless an exception is raised. -/
lemma final_append (h : D.Closed os) (hl : ∀ k, l = some k → ∃ o ∈ os, D.label o = some k) :
    D.final (os ++ rest) l s = (if (D.final os l s).2 = none then
        D.final rest none (D.final os l s).1 else D.final os l s) ∧
      D.visits (os ++ rest) l s = D.visits os l s ++ (if (D.final os l s).2 = none then
        D.visits rest none (D.final os l s).1 else []) := by
  induction os generalizing l s with
  | nil =>
    cases l with
    | none => exact ⟨rfl, rfl⟩
    | some k =>
      obtain ⟨o, ho, -⟩ := hl k rfl
      exact absurd ho List.not_mem_nil
  | cons o os ih =>
    have hnone : ∀ k, (none : Option ℕ) = some k → ∃ o ∈ os, D.label o = some k := by simp
    cases l with
    | some k =>
      rw [List.cons_append, final, final, visits, visits]
      by_cases hlabel : D.label o = some k
      · rw [if_pos hlabel, if_pos hlabel, if_pos hlabel, if_pos hlabel]
        exact ih h.2 hnone
      · rw [if_neg hlabel, if_neg hlabel, if_neg hlabel, if_neg hlabel]
        refine ih h.2 fun k' hk' => ?_
        obtain ⟨o', ho', hlabel'⟩ := hl k' hk'
        rcases List.mem_cons.mp ho' with rfl | ho'
        · rw [← hk'] at hlabel'
          exact absurd hlabel' hlabel
        · exact ⟨o', ho', hlabel'⟩
    | none =>
      rw [List.cons_append, final, final, visits, visits, List.cons_append]
      cases hcontrol : (D.step o s).2 with
      | next =>
        obtain ⟨hfinal, hvisits⟩ := @ih none (D.step o s).1 h.2 hnone
        exact ⟨hfinal, congrArg _ hvisits⟩
      | skip k =>
        have hsome : ∀ k', some k = some k' → ∃ o' ∈ os, D.label o' = some k' := by
          intro k' hk'
          rw [← Option.some.inj hk']
          exact h.1 s k hcontrol
        obtain ⟨hfinal, hvisits⟩ := @ih (some k) (D.step o s).1 h.2 hsome
        exact ⟨hfinal, congrArg _ hvisits⟩
      | raise e => simp

end Dialect

/-! ## Faults before effects -/

/-- No operation that can fault stands behind one with an effect. -/
def FaultsFirst {ι : Type} (effect fault : ι → Bool) : List ι → Prop
  | [] => True
  | o :: os => (effect o = true → ∀ o' ∈ os, fault o' = false) ∧ FaultsFirst effect fault os

section FaultsFirst

variable {ι σ : Type} {effect fault : ι → Bool} {os : List ι}

/-- **A fault finds the state of the start**, up to a relation that operations without an effect keep. -/
lemma Dialect.visits_of_faultsFirst {D : Dialect ι σ} {R : σ → σ → Prop} (hrefl : ∀ s, R s s)
    (htrans : ∀ s t u, R s t → R t u → R s u) (hstep : ∀ o s, effect o = false → R (D.step o s).1 s)
    (hfirst : FaultsFirst effect fault os) {l : Option ℕ} {s : σ} {v : ι × σ}
    (hv : v ∈ D.visits os l s) (hfault : fault v.1 = true) : R v.2 s := by
  induction os generalizing l s with
  | nil => simp [Dialect.visits] at hv
  | cons o os ih =>
    -- behind an operation with an effect nothing can fault
    have hbehind : ∀ l', v ∈ D.visits os l' (D.step o s).1 → R v.2 s := by
      intro l' hv'
      cases heffect : effect o with
      | true =>
        have hnone : fault v.1 = false := hfirst.1 heffect v.1 (Dialect.mem_of_mem_visits hv')
        rw [hnone] at hfault
        exact absurd hfault Bool.false_ne_true
      | false => exact htrans _ _ _ (ih hfirst.2 hv') (hstep o s heffect)
    cases l with
    | some l =>
      rw [Dialect.visits] at hv
      split_ifs at hv
      · exact ih hfirst.2 hv
      · exact ih hfirst.2 hv
    | none =>
      rw [Dialect.visits, List.mem_cons] at hv
      rcases hv with rfl | hv
      · exact hrefl s
      · split at hv
        · exact hbehind _ hv
        · exact hbehind _ hv
        · simp at hv

/-- A list without effects. -/
lemma faultsFirst_of_pure (h : ∀ o ∈ os, effect o = false) : FaultsFirst effect fault os := by
  induction os with
  | nil => trivial
  | cons o os ih =>
    refine ⟨fun heffect => ?_, ih fun o' ho' => h o' (List.mem_cons_of_mem o ho')⟩
    rw [h o List.mem_cons_self] at heffect
    exact absurd heffect Bool.false_ne_true

/-- A list without faults. -/
lemma faultsFirst_of_safe (h : ∀ o ∈ os, fault o = false) : FaultsFirst effect fault os := by
  induction os with
  | nil => trivial
  | cons o os ih =>
    have hrest : ∀ o' ∈ os, fault o' = false := fun o' ho' => h o' (List.mem_cons_of_mem o ho')
    exact ⟨fun _ => hrest, ih hrest⟩

/-- Nothing behind the list can fault. -/
lemma FaultsFirst.append_safe (h : FaultsFirst effect fault os) {rest : List ι}
    (hsafe : ∀ o ∈ rest, fault o = false) : FaultsFirst effect fault (os ++ rest) := by
  induction os with
  | nil => exact faultsFirst_of_safe hsafe
  | cons o os ih =>
    refine ⟨fun heffect o' ho' => ?_, ih h.2⟩
    rcases List.mem_append.mp ho' with ho' | ho'
    · exact h.1 heffect o' ho'
    · exact hsafe o' ho'

end FaultsFirst

/-! ## What an operation reads and writes -/

section Operations

variable {G : Type}

/-- The variables an operation reads. -/
def Op.reads : Op G → List (Var G)
  | .mov _ a => [a]
  | .bin _ _ a b | .setcond _ _ a b | .brcond _ a b _ | .qemuSt a b _ => [a, b]
  | .wide _ _ _ al ah bl bh => [al, ah, bl, bh]
  | .movcond _ _ a b x y => [a, b, x, y]
  | .qemuLd _ a _ => [a]
  | .atomicCmpxchg _ a x y _ => [a, x, y]
  | .br _ | .setLabel _ | .mb | .exception _ => []

/-- The variables an operation assigns. -/
def Op.writes : Op G → List (Var G)
  | .mov d _ | .bin _ d _ _ | .setcond _ d _ _ | .movcond _ d _ _ _ _ | .qemuLd d _ _
  | .atomicCmpxchg d _ _ _ _ => [d]
  | .wide _ dl dh _ _ _ _ => [dl, dh]
  | .brcond .. | .qemuSt .. | .br _ | .setLabel _ | .mb | .exception _ => []

/-- An access to memory. -/
def Op.accesses : Op G → Bool
  | .qemuLd .. | .qemuSt .. | .atomicCmpxchg .. => true
  | _ => false

/-- An operation that can be the last one executed: an access to memory or an exception. -/
def Op.mayFault : Op G → Bool
  | .exception _ => true
  | o => o.accesses

/-- The label an operation can branch to. -/
def Op.target : Op G → Option ℕ
  | .brcond _ _ _ l | .br l => some l
  | _ => none

attribute [local simp] Op.accesses Op.mayFault Op.target

variable [DecidableEq G]

/-- A global that is not assigned keeps its value. -/
lemma Env.write_globals_of_ne {d : Var G} {g : G} (h : d ≠ .global g) (e : Env G) (v : BitVec 64) :
    (e.write d v).globals g = e.globals g := by
  cases d with
  | global g' => exact if_neg fun hg => h (by rw [hg])
  | temp n => rfl
  | const c => rfl

/-- **A global that an operation does not write** keeps its value. -/
lemma stepOp_globals {o : Op G} {g : G} (h : .global g ∉ o.writes) (s : Machine G) :
    (stepOp o s).1.env.globals g = s.env.globals g := by
  cases o with
  | wide f dl dh al ah bl bh =>
    simp only [Op.writes, List.mem_cons, List.not_mem_nil, or_false, not_or] at h
    simp only [stepOp, Machine.write_env]
    rw [Env.write_globals_of_ne (Ne.symm h.2), Env.write_globals_of_ne (Ne.symm h.1)]
  | brcond | br | setLabel | qemuSt | mb | exception => rfl
  | _ =>
    simp only [Op.writes, List.mem_cons, List.not_mem_nil, or_false] at h
    exact Env.write_globals_of_ne (Ne.symm h) _ _

/-- An operation branches to its target. -/
lemma target_of_stepOp {o : Op G} {s : Machine G} {l : ℕ} (h : (stepOp o s).2 = .skip l) :
    o.target = some l := by
  cases o with
  | brcond c a b l' =>
    simp only [stepOp] at h
    split_ifs at h
    exact congrArg some (Control.skip.inj h)
  | br l' => exact congrArg some (Control.skip.inj h)
  | _ => simp [stepOp] at h

end Operations

end Dadao.Tcg
