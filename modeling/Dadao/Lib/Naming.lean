import Mathlib.Data.List.Basic
import Mathlib.Logic.Relation

set_option relaxedAutoImplicit false
set_option autoImplicit false

/-!
# Names for cells

A program over names is executed with one cell for every name, and with one cell for every class of names
that a map takes to the same cell. What its instructions compute and where they go on is left open. The two
executions find the same values at every use exactly if no instruction assigns a name while another name of
the same cell is live.

## Main definitions

* `Dadao.Naming.Program` — the names an instruction uses and assigns, and its successors.
* `Dadao.Naming.Live` — the names whose value may still be used.
* `Dadao.Naming.Faithful` — both executions find the same values.
* `Dadao.Naming.Apart` — no live name shares its cell with an assigned one.

## Main results

* `Dadao.Naming.faithful_iff` — when a naming of the cells is faithful.
-/

namespace Dadao.Naming

variable {R C P V : Type}

/-- An instruction by its names: the ones it uses, the ones it assigns, in this order, and the places it
may go on at. -/
structure Insn (R P : Type) where
  uses : List R
  defs : List R
  succs : List P

/-- A program: its instructions and where it starts. -/
structure Program (R P : Type) where
  insn : P → Insn R P
  entry : P

/-- What an instruction does on one execution: from the values it uses, the values it assigns and where it
goes on. -/
abbrev Act (R P V : Type) := List V → (R → V) × P

section Exec

variable [DecidableEq C] [DecidableEq P] (f : R → C) (prog : Program R P)

/-- The last of the assigned names that is one for the cell. -/
def lastDef (defs : List R) (c : C) : Option R := (defs.filter fun r => f r = c).getLast?

/-- The cells after an assignment. -/
def assign (defs : List R) (out : R → V) (s : C → V) : C → V := fun c =>
  match lastDef f defs c with
  | some r => out r
  | none => s c

/-- The values an instruction finds. -/
def reads (x : P × (C → V)) : List V := (prog.insn x.1).uses.map fun r => x.2 (f r)

/-- **Execution**, with `f` for the cells of the names, until an action leaves the program. -/
def exec : List (Act R P V) → P × (C → V) → Option (P × (C → V))
  | [], x => some x
  | act :: acts, x =>
    let y := act (reads f prog x)
    if y.2 ∈ (prog.insn x.1).succs then exec acts (y.2, assign f (prog.insn x.1).defs y.1 x.2) else none

/-- Where an execution is and what it finds there. -/
def observe (acts : List (Act R P V)) (x : P × (C → V)) : Option (P × List V) :=
  (exec f prog acts x).map fun x => (x.1, reads f prog x)

end Exec

/-- **A live name**: its value is used before it is assigned. -/
inductive Live (prog : Program R P) (r : R) : P → Prop
  | use {p : P} (h : r ∈ (prog.insn p).uses) : Live prog r p
  | flow {p q : P} (hsucc : q ∈ (prog.insn p).succs) (hdef : r ∉ (prog.insn p).defs) (h : Live prog r q) :
    Live prog r p

/-- The places a program can come to. -/
def Reachable (prog : Program R P) : P → Prop :=
  Relation.ReflTransGen (fun p q => q ∈ (prog.insn p).succs) prog.entry

section Faithful

variable [DecidableEq R] [DecidableEq C] [DecidableEq P]

/-- **A faithful naming**: whatever the instructions do, the executions with one cell for a name and with
the given cells go to the same places and find the same values there. They start with the same values of
the live names. -/
def Faithful (V : Type) (f : R → C) (prog : Program R P) : Prop :=
  ∀ (acts : List (Act R P V)) (s : R → V) (u : C → V), (∀ r, Live prog r prog.entry → s r = u (f r)) →
    observe id prog acts (prog.entry, s) = observe f prog acts (prog.entry, u)

/-- **An instruction keeps the names apart**: a name that is live behind it is the last one assigned, if
any is, of those for its cell. -/
def Apart (f : R → C) (prog : Program R P) (p : P) : Prop :=
  ∀ q ∈ (prog.insn p).succs, ∀ r, Live prog r q → ∀ d, lastDef f (prog.insn p).defs (f r) = some d → d = r

end Faithful

section Lemmas

variable [DecidableEq C] [DecidableEq P] {f : R → C} {prog : Program R P} {defs : List R}

lemma lastDef_spec {c : C} {r : R} (h : lastDef f defs c = some r) : r ∈ defs ∧ f r = c := by
  have hmem := List.mem_of_getLast? h
  simpa using hmem

lemma lastDef_eq_none {c : C} (h : lastDef f defs c = none) {r : R} (hr : r ∈ defs) : f r ≠ c := by
  intro hc
  have hmem : r ∈ defs.filter fun r => f r = c := by simpa [hc] using hr
  rw [lastDef, List.getLast?_eq_none_iff] at h
  rw [h] at hmem
  exact absurd hmem List.not_mem_nil

/-- With one cell for a name, an assignment is of the assigned names. -/
lemma assign_id [DecidableEq R] (out : R → V) (s : R → V) (r : R) :
    assign id defs out s r = if r ∈ defs then out r else s r := by
  rw [assign]
  cases h : lastDef id defs r with
  | some d =>
    obtain ⟨hmem, heq⟩ := lastDef_spec h
    obtain rfl : d = r := heq
    exact (if_pos hmem).symm
  | none => exact (if_neg fun hmem => lastDef_eq_none h hmem rfl).symm

lemma exec_append (acts acts' : List (Act R P V)) (x : P × (C → V)) :
    exec f prog (acts ++ acts') x = (exec f prog acts x).bind (exec f prog acts') := by
  induction acts generalizing x with
  | nil => rfl
  | cons act acts ih =>
    rw [List.cons_append, exec, exec]
    split_ifs
    · exact ih _
    · rfl

/-- One action. -/
lemma exec_singleton (out : R → V) {x : P × (C → V)} {q : P} (hq : q ∈ (prog.insn x.1).succs) :
    exec f prog [fun _ => (out, q)] x = some (q, assign f (prog.insn x.1).defs out x.2) := if_pos hq

end Lemmas

/-! ## Names that are kept apart -/

section Apart

variable {f : R → C} {prog : Program R P}

/-- The live names have the values of their cells. -/
def Matches (f : R → C) (prog : Program R P) (p : P) (s : R → V) (u : C → V) : Prop :=
  ∀ r, Live prog r p → s r = u (f r)

lemma Matches.reads {p : P} {s : R → V} {u : C → V} (h : Matches f prog p s u) :
    reads id prog (p, s) = reads f prog (p, u) :=
  List.map_congr_left fun r hr => h r (.use hr)

variable [DecidableEq R] [DecidableEq C]

/-- **One step** keeps the live names and their cells together. -/
lemma Matches.step {p q : P} {s : R → V} {u : C → V} (h : Matches f prog p s u)
    (hapart : Apart f prog p) (hq : q ∈ (prog.insn p).succs) (out : R → V) :
    Matches f prog q (assign id (prog.insn p).defs out s) (assign f (prog.insn p).defs out u) := by
  intro r hr
  rw [assign_id, assign]
  cases hlast : lastDef f (prog.insn p).defs (f r) with
  | some d =>
    obtain rfl := hapart q hq r hr d hlast
    rw [if_pos (lastDef_spec hlast).1]
  | none =>
    have hdef : r ∉ (prog.insn p).defs := fun hmem => lastDef_eq_none hlast hmem rfl
    rw [if_neg hdef]
    exact h r (.flow hq hdef hr)

/-- Whole runs find the same values. -/
lemma Matches.observe_eq [DecidableEq P] {p : P} {s : R → V} {u : C → V} (h : Matches f prog p s u)
    (hreach : Reachable prog p) (hapart : ∀ p, Reachable prog p → Apart f prog p)
    (acts : List (Act R P V)) : observe id prog acts (p, s) = observe f prog acts (p, u) := by
  induction acts generalizing p s u with
  | nil => exact congrArg (fun vs => some (p, vs)) h.reads
  | cons act acts ih =>
    rw [observe, observe, exec, exec, h.reads]
    by_cases hq : (act (Naming.reads f prog (p, u))).2 ∈ (prog.insn p).succs
    · simp only [if_pos hq]
      exact ih (h.step (hapart p hreach) hq _) (hreach.tail hq)
    · simp only [if_neg hq]
      rfl

end Apart

/-! ## Names that clash -/

section Clash

variable [DecidableEq R] [DecidableEq C] [DecidableEq P] {f : R → C} {prog : Program R P} {r : R}
  {v w : V}

/-- Every assignment to `r` is of `v` and every other of `w`. -/
def mark (r : R) (v w : V) : R → V := fun r' => if r' = r then v else w

/-- Until it is assigned, a name keeps its value, and its cell does not get it back. -/
lemma assign_mark {defs : List R} {s : R → V} {u : C → V} (hs : s r = v) (hu : u (f r) = w)
    (hdef : r ∉ defs) : assign id defs (mark r v w) s r = v ∧
      assign f defs (mark r v w) u (f r) = w := by
  refine ⟨?_, ?_⟩
  · rw [assign_id, if_neg hdef, hs]
  · rw [assign]
    cases hlast : lastDef f defs (f r) with
    | none => exact hu
    | some d =>
      refine if_neg fun heq => hdef ?_
      rw [← heq]
      exact (lastDef_spec hlast).1

/-- A name that has lost its cell is used wrongly. -/
lemma exists_of_live {p : P} (hlive : Live prog r p) {s : R → V} {u : C → V} (hs : s r = v)
    (hu : u (f r) = w) (hne : v ≠ w) :
    ∃ acts : List (Act R P V), observe id prog acts (p, s) ≠ observe f prog acts (p, u) := by
  induction hlive generalizing s u with
  | @use p h =>
    refine ⟨[], fun heq => hne ?_⟩
    have hreads : reads id prog (p, s) = reads f prog (p, u) :=
      (Prod.mk.inj (Option.some.inj heq)).2
    rw [← hs, ← hu]
    exact List.map_inj_left.mp hreads r h
  | @flow p q hsucc hdef hlive ih =>
    obtain ⟨hs', hu'⟩ := assign_mark (f := f) hs hu hdef
    obtain ⟨acts, hacts⟩ := ih hs' hu'
    refine ⟨(fun _ => (mark r v w, q)) :: acts, ?_⟩
    rw [observe, observe, ← List.singleton_append, exec_append, exec_append, exec_singleton _ hsucc,
      exec_singleton _ hsucc]
    exact hacts

/-- Every reachable place is reached with `v` in the name. -/
lemma exists_of_reachable {p : P} (hreach : Reachable prog p) (r : R) (f : R → C) (v w : V) :
    ∃ (acts : List (Act R P V)) (s : R → V) (u : C → V), s r = v ∧
      exec id prog acts (prog.entry, fun _ => v) = some (p, s) ∧
      exec f prog acts (prog.entry, fun _ => v) = some (p, u) := by
  induction hreach with
  | refl => exact ⟨[], _, _, rfl, rfl, rfl⟩
  | @tail p q hreach hsucc ih =>
    obtain ⟨acts, s, u, hs, hid, hf⟩ := ih
    refine ⟨acts ++ [fun _ => (mark r v w, q)], assign id (prog.insn p).defs (mark r v w) s,
      assign f (prog.insn p).defs (mark r v w) u, ?_, ?_, ?_⟩
    · rw [assign_id]
      split_ifs
      · exact if_pos rfl
      · exact hs
    · rw [exec_append, hid]
      exact exec_singleton _ hsucc
    · rw [exec_append, hf]
      exact exec_singleton _ hsucc

/-- **A clash** is seen by some execution. -/
lemma not_faithful_of_clash {p q : P} {d : R} (hreach : Reachable prog p)
    (hq : q ∈ (prog.insn p).succs) (hlive : Live prog r q)
    (hlast : lastDef f (prog.insn p).defs (f r) = some d) (hd : d ≠ r) (hne : v ≠ w) :
    ¬ Faithful V f prog := by
  intro h
  obtain ⟨acts, s, u, hs, hid, hf⟩ := exists_of_reachable hreach r f v w
  have hs' : assign id (prog.insn p).defs (mark r v w) s r = v := by
    rw [assign_id]
    split_ifs
    · exact if_pos rfl
    · exact hs
  have hu' : assign f (prog.insn p).defs (mark r v w) u (f r) = w := by
    rw [assign, hlast]
    exact if_neg hd
  obtain ⟨acts', hacts'⟩ := exists_of_live hlive hs' hu' hne
  have heq := h (acts ++ (fun _ => (mark r v w, q)) :: acts') (fun _ => v) (fun _ => v) fun _ _ => rfl
  rw [observe, observe, exec_append, exec_append, hid, hf, ← List.singleton_append, Option.bind_some,
    Option.bind_some, exec_append, exec_append, exec_singleton _ hq, exec_singleton _ hq] at heq
  exact hacts' heq

end Clash

section Main

variable [DecidableEq R] [DecidableEq C] [DecidableEq P]

/-- **When a naming is faithful**: no reachable instruction assigns a cell under one name while another
name for it is live. -/
theorem faithful_iff {f : R → C} {prog : Program R P} {v w : V} (hne : v ≠ w) :
    Faithful V f prog ↔ ∀ p, Reachable prog p → Apart f prog p := by
  constructor
  · intro h p hreach q hq r hlive d hlast
    by_contra hd
    exact not_faithful_of_clash hreach hq hlive hlast hd hne h
  · intro hapart acts s u hstart
    exact Matches.observe_eq hstart .refl hapart acts

end Main

end Dadao.Naming
