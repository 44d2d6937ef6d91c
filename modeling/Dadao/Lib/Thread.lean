import Dadao.Lib.Tcg
import Mathlib.Logic.Basic
import Mathlib.Tactic.SplitIfs

set_option relaxedAutoImplicit false
set_option autoImplicit false

/-!
# Interleaved intermediate code

A virtual CPU part way through a list of operations, and one operation of it on a memory it shares
with others. Between two operations of a CPU the memory can become anything; what a CPU does by
itself is described by a predicate transformer that takes every load and every compare-and-swap at
an arbitrary memory. A step of the CPU keeps the predicate, and steps of others do not touch it.

## Main definitions

* `Dadao.Tcg.Thread`, `Dadao.Tcg.Thread.step` — a CPU and its next operation.
* `Dadao.Tcg.Cas` — a compare-and-swap as it was carried out.
* `Dadao.Tcg.Wp` — what the rest of a list ends with, whatever the memory is.

## Main results

* `Dadao.Tcg.Thread.Meets.step` — a step keeps the predicate.
* `Dadao.Tcg.Thread.step_mem` — the memory after a step.
-/

namespace Dadao.Tcg

variable {G : Type}

/-- A CPU part way through a list of operations; `skip` is the label that is being looked for. -/
structure Thread (G : Type) where
  env : Env G
  ops : List (Op G)
  skip : Option ℕ

/-- A compare-and-swap as it was carried out: `old` is what the memory held. -/
structure Cas where
  addr : BitVec 64
  old : BitVec 64
  new : BitVec 64
  op : MemOp
  stored : Bool
  deriving DecidableEq

/-- The compare-and-swap an operation is. -/
def Op.cas (op : Op G) (e : Env G) (mem : Memory) : Option Cas :=
  match op with
  | .atomicCmpxchg _ a cmp new mo =>
    let old := mo.load mem (e.read a)
    some ⟨e.read a, old, e.read new, mo, old = e.read cmp⟩
  | _ => none

/-- The plain store an operation is: address, number of bytes and value. -/
def Op.plainStore (op : Op G) (e : Env G) : Option (BitVec 64 × ℕ × BitVec 64) :=
  match op with
  | .qemuSt v a mo => some (e.read a, mo.bytes, e.read v)
  | _ => none

namespace Thread

/-- The operation that is executed next, unless it is passed over. -/
def next (t : Thread G) : Option (Op G) :=
  match t.ops, t.skip with
  | op :: _, none => some op
  | _, _ => none

/-- The compare-and-swap of the next step. -/
def cas (t : Thread G) (mem : Memory) : Option Cas := t.next.bind fun op => op.cas t.env mem

/-- The plain store of the next step. -/
def plainStore (t : Thread G) : Option (BitVec 64 × ℕ × BitVec 64) :=
  t.next.bind fun op => op.plainStore t.env

/-- What a compare-and-swap found in the memory. -/
lemma old_of_cas {t : Thread G} {mem : Memory} {c : Cas} (h : t.cas mem = some c) :
    c.old = c.op.load mem c.addr := by
  obtain ⟨e, ops, skip⟩ := t
  cases ops with
  | nil => simp [cas, next] at h
  | cons op ops =>
    cases skip with
    | some l => simp [cas, next] at h
    | none =>
      cases op <;> simp [cas, next, Op.cas] at h
      rw [← h]

/-- The CPU after an operation. -/
def resume (ops : List (Op G)) (m : Machine G) : Control → Thread G
  | .next => ⟨m.env, ops, none⟩
  | .skip l => ⟨m.env, ops, some l⟩
  | .raise _ => ⟨m.env, [], none⟩

variable [DecidableEq G]

/-- The next step: execute an operation or pass over it. An exception ends the list. -/
def step (t : Thread G) (mem : Memory) : Thread G × Memory :=
  match t.ops, t.skip with
  | [], _ => (t, mem)
  | op :: ops, some l => (⟨t.env, ops, if op = .setLabel l then none else some l⟩, mem)
  | op :: ops, none =>
    let r := stepOp op ⟨t.env, mem⟩
    (resume ops r.1 r.2, r.1.mem)

/-- **The memory after a step**: only a compare-and-swap that succeeds and a plain store write. -/
lemma step_mem (t : Thread G) (mem : Memory) : (t.step mem).2 =
    match t.cas mem, t.plainStore with
    | some c, _ => if c.stored then mem.store c.addr c.op.bytes c.new else mem
    | none, some (a, n, v) => mem.store a n v
    | none, none => mem := by
  obtain ⟨e, ops, skip⟩ := t
  cases ops with
  | nil => rfl
  | cons op ops =>
    cases skip with
    | some l => rfl
    | none =>
      cases op with
      | atomicCmpxchg d a cmp new mo => simp [step, stepOp, cas, next, Op.cas]
      | _ => rfl

end Thread

variable [DecidableEq G]

/-- The rest of a list, with `c` the compare-and-swap so far: there is at most one, it meets `guard`,
and the end meets `Q`, whatever the memory is at each operation. -/
def Wp (guard : Cas → Prop) (Q : Env G → Option Cas → Prop) :
    List (Op G) → Option ℕ → Env G → Option Cas → Prop
  | [], _, e, c => Q e c
  | op :: ops, some l, e, c =>
    if op = .setLabel l then Wp guard Q ops none e c else Wp guard Q ops (some l) e c
  | op :: ops, none, e, c => ∀ mem : Memory, (∀ c', op.cas e mem = some c' → c = none ∧ guard c') ∧
    match stepOp op ⟨e, mem⟩ with
    | (m, .next) => Wp guard Q ops none m.env ((op.cas e mem).or c)
    | (m, .skip l) => Wp guard Q ops (some l) m.env ((op.cas e mem).or c)
    | (m, .raise _) => Q m.env ((op.cas e mem).or c)

/-- A CPU whose rest meets the predicate. -/
def Thread.Meets (t : Thread G) (guard : Cas → Prop) (Q : Env G → Option Cas → Prop)
    (c : Option Cas) : Prop := Wp guard Q t.ops t.skip t.env c

variable {guard : Cas → Prop} {Q : Env G → Option Cas → Prop}

/-- **A step keeps the predicate** and meets the guard. -/
lemma Thread.Meets.step {t : Thread G} {c : Option Cas} (h : t.Meets guard Q c) (mem : Memory) :
    (t.step mem).1.Meets guard Q ((t.cas mem).or c) ∧
      ∀ c', t.cas mem = some c' → c = none ∧ guard c' := by
  obtain ⟨e, ops, skip⟩ := t
  cases ops with
  | nil => exact ⟨h, by simp [Thread.cas, Thread.next]⟩
  | cons op ops =>
    cases skip with
    | some l =>
      refine ⟨?_, by simp [Thread.cas, Thread.next]⟩
      simp only [Thread.Meets, Wp] at h
      simp only [Thread.Meets, Thread.step, Thread.cas, Thread.next, Option.bind_none,
        Option.none_or]
      split_ifs at h ⊢ <;> exact h
    | none =>
      obtain ⟨hguard, hrest⟩ := h mem
      refine ⟨?_, hguard⟩
      simp only [Thread.step, Thread.cas, Thread.next, Option.bind_some]
      cases hstep : stepOp op ⟨e, mem⟩ with
      | mk m ctl =>
        rw [hstep] at hrest
        cases ctl <;> exact hrest

/-! ## Executing the predicate -/

section Rules

variable {ops : List (Op G)} {e : Env G} {c : Option Cas}

@[simp] lemma wp_nil {skip : Option ℕ} : Wp guard Q [] skip e c ↔ Q e c := by rw [Wp]

@[simp] lemma wp_skip {op : Op G} {l : ℕ} : Wp guard Q (op :: ops) (some l) e c ↔
    if op = .setLabel l then Wp guard Q ops none e c else Wp guard Q ops (some l) e c := by rw [Wp]

@[simp] lemma wp_mov {d a : Var G} : Wp guard Q (.mov d a :: ops) none e c ↔
    Wp guard Q ops none (e.write d (e.read a)) c := by
  simp [Wp, stepOp, Op.cas]

@[simp] lemma wp_bin {f : BinOp} {d a b : Var G} : Wp guard Q (.bin f d a b :: ops) none e c ↔
    Wp guard Q ops none (e.write d (f.eval (e.read a) (e.read b))) c := by
  simp [Wp, stepOp, Op.cas]

@[simp] lemma wp_setcond {k : Cond} {d a b : Var G} :
    Wp guard Q (.setcond k d a b :: ops) none e c ↔
      Wp guard Q ops none (e.write d (if k.holds (e.read a) (e.read b) then 1 else 0)) c := by
  simp [Wp, stepOp, Op.cas]

@[simp] lemma wp_setLabel {l : ℕ} : Wp guard Q (.setLabel l :: ops) none e c ↔
    Wp guard Q ops none e c := by
  simp [Wp, stepOp, Op.cas]

@[simp] lemma wp_mb : Wp guard Q (.mb :: ops) none e c ↔ Wp guard Q ops none e c := by
  simp [Wp, stepOp, Op.cas]

@[simp] lemma wp_br {l : ℕ} : Wp guard Q (.br l :: ops) none e c ↔
    Wp guard Q ops (some l) e c := by
  simp [Wp, stepOp, Op.cas]

@[simp] lemma wp_brcond {k : Cond} {a b : Var G} {l : ℕ} :
    Wp guard Q (.brcond k a b l :: ops) none e c ↔
      if k.holds (e.read a) (e.read b) then Wp guard Q ops (some l) e c
      else Wp guard Q ops none e c := by
  by_cases h : k.holds (e.read a) (e.read b) = true <;> simp [Wp, stepOp, Op.cas, h]

@[simp] lemma wp_exception {n : ℕ} : Wp guard Q (.exception n :: ops) none e c ↔ Q e c := by
  simp [Wp, stepOp, Op.cas]

@[simp] lemma wp_qemuLd {d a : Var G} {mo : MemOp} : Wp guard Q (.qemuLd d a mo :: ops) none e c ↔
    ∀ mem : Memory, Wp guard Q ops none (e.write d (mo.load mem (e.read a))) c := by
  simp [Wp, stepOp, Op.cas]

@[simp] lemma wp_atomicCmpxchg {d a x y : Var G} {mo : MemOp} :
    Wp guard Q (.atomicCmpxchg d a x y mo :: ops) none e c ↔ ∀ mem : Memory,
      let old := mo.load mem (e.read a)
      let c' : Cas := ⟨e.read a, old, e.read y, mo, old = e.read x⟩
      (c = none ∧ guard c') ∧ Wp guard Q ops none (e.write d old) (some c') := by
  simp [Wp, stepOp, Op.cas]

end Rules

/-- A list of which every operation keeps an invariant of the CPU and is no compare-and-swap. -/
lemma wp_of_invariant {I : Env G → Prop} {ops : List (Op G)}
    (hops : ∀ op ∈ ops, ∀ e mem, I e → op.cas e mem = none ∧ I (stepOp op ⟨e, mem⟩).1.env)
    (hQ : ∀ e c, I e → c = none → Q e c) (skip : Option ℕ) {e : Env G} (he : I e) :
    Wp guard Q ops skip e none := by
  induction ops generalizing skip e with
  | nil => exact hQ e none he rfl
  | cons op ops ih =>
    have hrest := fun op' hop' => hops op' (List.mem_cons_of_mem op hop')
    cases skip with
    | some l =>
      rw [wp_skip]
      split_ifs
      · exact ih hrest none he
      · exact ih hrest (some l) he
    | none =>
      intro mem
      obtain ⟨hcas, hinv⟩ := hops op (List.mem_cons_self ..) e mem he
      refine ⟨by simp [hcas], ?_⟩
      rw [hcas]
      cases hstep : stepOp op ⟨e, mem⟩ with
      | mk m ctl =>
        rw [hstep] at hinv
        cases ctl with
        | next => exact ih hrest none hinv
        | skip l => exact ih hrest (some l) hinv
        | raise _ => exact hQ m.env none hinv rfl

end Dadao.Tcg
