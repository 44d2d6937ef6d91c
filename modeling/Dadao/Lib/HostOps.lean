import Dadao.Lib.Tcg

set_option relaxedAutoImplicit false
set_option autoImplicit false

/-!
# Operations without a specified value

The shifts and divisions of the intermediate code have a specified value for some operands only. For the
others a host computes what it likes, or traps.

## Main definitions

* `Dadao.Tcg.BinOp.Specified` — the operands with a specified value.
* `Dadao.Tcg.Host`, `Dadao.Tcg.execOn` — what a host computes, and the execution of a list on it.
* `Dadao.Tcg.SpecifiedRun` — an execution that only meets operands with a specified value.

## Main results

* `Dadao.Tcg.specifiedRun_iff` — these are the executions that are the same on every host.
* `Dadao.Tcg.specifiedRun_append_straight` — lists one after the other.
-/

namespace Dadao.Tcg

/-- **The operands for which an operation has a specified value.** -/
def BinOp.Specified : BinOp → BitVec 64 → BitVec 64 → Prop
  | .shl, _, b | .shr, _, b | .sar, _, b => b.toNat < 64
  | .div, a, b | .rem, a, b => b ≠ 0 ∧ ¬ (a = BitVec.intMin 64 ∧ b = -1)
  | .divu, _, b | .remu, _, b => b ≠ 0
  | _, _, _ => True

instance BinOp.decidableSpecified : (f : BinOp) → (a b : BitVec 64) → Decidable (f.Specified a b)
  | .shl, _, b | .shr, _, b | .sar, _, b => inferInstanceAs (Decidable (b.toNat < 64))
  | .div, a, b | .rem, a, b => inferInstanceAs (Decidable (b ≠ 0 ∧ ¬ (a = BitVec.intMin 64 ∧ b = -1)))
  | .divu, _, b | .remu, _, b => inferInstanceAs (Decidable (b ≠ 0))
  | .add, _, _ | .sub, _, _ | .and, _, _ | .or, _, _ | .xor, _, _ => inferInstanceAs (Decidable True)

/-- What a host computes; `none` is a trap. -/
abbrev Host := BinOp → BitVec 64 → BitVec 64 → Option (BitVec 64)

/-- A host that computes the specified values. -/
def Host.Agrees (host : Host) : Prop :=
  ∀ f a b, f.Specified a b → host f a b = some (f.eval a b)

/-- The host that traps wherever no value is specified. -/
def strictHost : Host := fun f a b => if f.Specified a b then some (f.eval a b) else none

lemma strictHost_agrees : strictHost.Agrees := fun _ _ _ h => if_pos h

section Semantics

variable {G : Type} [DecidableEq G] {ops rest : List (Op G)} {l : Option ℕ} {s : Machine G}

/-- One operation on a host. -/
def stepOn (host : Host) (op : Op G) (s : Machine G) : Option (Machine G × Control) :=
  match op with
  | .bin f d a b => (host f (s.env.read a) (s.env.read b)).map fun v => (s.write d v, .next)
  | op => some (stepOp op s)

/-- **A list on a host**; `none` is a trap of the host. -/
def execOn (host : Host) : List (Op G) → Option ℕ → Machine G → Option (Outcome G)
  | [], _, s => some (.done s)
  | op :: ops, some l, s => if op = .setLabel l then execOn host ops none s else execOn host ops (some l) s
  | op :: ops, none, s =>
    match stepOn host op s with
    | none => none
    | some (s', .next) => execOn host ops none s'
    | some (s', .skip l) => execOn host ops (some l) s'
    | some (s', .raise e) => some (.raised e s')

omit [DecidableEq G] in
/-- An operation whose operands have a specified value. -/
def Op.Specified (op : Op G) (e : Env G) : Prop :=
  match op with
  | .bin f _ a b => f.Specified (e.read a) (e.read b)
  | _ => True

/-- **The operations that are executed** have operands with a specified value. -/
def SpecifiedRun : List (Op G) → Option ℕ → Machine G → Prop
  | [], _, _ => True
  | op :: ops, some l, s => if op = .setLabel l then SpecifiedRun ops none s else SpecifiedRun ops (some l) s
  | op :: ops, none, s =>
    op.Specified s.env ∧
      match stepOp op s with
      | (s', .next) => SpecifiedRun ops none s'
      | (s', .skip l) => SpecifiedRun ops (some l) s'
      | (_, .raise _) => True

attribute [local simp] execOn SpecifiedRun

/-! ## Hosts -/

/-- A specified operation is the same on every host. -/
lemma stepOn_of_specified {host : Host} (h : host.Agrees) {op : Op G} (hop : op.Specified s.env) :
    stepOn host op s = some (stepOp op s) := by
  cases op with
  | bin f d a b =>
    rw [stepOn, h _ _ _ hop]
    rfl
  | _ => rfl

/-- An operation that is not specified traps on the strict host. -/
lemma stepOn_strictHost {op : Op G} (hop : ¬ op.Specified s.env) : stepOn strictHost op s = none := by
  cases op with
  | bin f d a b =>
    have hop : ¬ f.Specified (s.env.read a) (s.env.read b) := hop
    rw [stepOn, strictHost, if_neg hop]
    rfl
  | _ => exact absurd trivial hop

/-- **Specified executions** are the same on every host. -/
theorem execOn_of_specifiedRun {host : Host} (h : host.Agrees) (hrun : SpecifiedRun ops l s) :
    execOn host ops l s = some (exec ops l s) := by
  induction ops generalizing l s with
  | nil => rfl
  | cons op ops ih =>
    cases l with
    | some l =>
      rw [SpecifiedRun] at hrun
      rw [execOn, exec]
      split_ifs at hrun ⊢
      · exact ih hrun
      · exact ih hrun
    | none =>
      obtain ⟨hop, hrun⟩ := hrun
      rw [execOn, exec, stepOn_of_specified h hop]
      rcases hstep : stepOp op s with ⟨s', _ | l | e⟩
      · rw [hstep] at hrun
        exact ih hrun
      · rw [hstep] at hrun
        exact ih hrun
      · rfl

/-- An execution that does not trap on the strict host is specified. -/
lemma specifiedRun_of_strictHost (h : execOn strictHost ops l s ≠ none) : SpecifiedRun ops l s := by
  induction ops generalizing l s with
  | nil => trivial
  | cons op ops ih =>
    cases l with
    | some l =>
      rw [execOn] at h
      rw [SpecifiedRun]
      split_ifs at h ⊢
      · exact ih h
      · exact ih h
    | none =>
      rw [execOn] at h
      by_cases hop : op.Specified s.env
      · refine ⟨hop, ?_⟩
        rw [stepOn_of_specified strictHost_agrees hop] at h
        rcases hstep : stepOp op s with ⟨s', _ | l | e⟩
        · rw [hstep] at h
          exact ih h
        · rw [hstep] at h
          exact ih h
        · trivial
      · rw [stepOn_strictHost hop] at h
        exact absurd rfl h

/-- **Only what is specified** is the same on every host. -/
theorem specifiedRun_iff : SpecifiedRun ops l s ↔
    ∀ host : Host, host.Agrees → execOn host ops l s = some (exec ops l s) := by
  constructor
  · exact fun hrun host h => execOn_of_specifiedRun h hrun
  · intro h
    refine specifiedRun_of_strictHost ?_
    rw [h strictHost strictHost_agrees]
    exact Option.some_ne_none _

/-! ## Lists -/

/-- A conditional branch. -/
lemma specifiedRun_brcond (c : Cond) (a b : Var G) (n : ℕ) :
    SpecifiedRun (.brcond c a b n :: ops) none s ↔
      if c.holds (s.env.read a) (s.env.read b) then SpecifiedRun ops (some n) s
      else SpecifiedRun ops none s := by
  by_cases h : c.holds (s.env.read a) (s.env.read b) = true
  · rw [SpecifiedRun, stepOp, if_pos h, if_pos h]
    exact and_iff_right trivial
  · rw [SpecifiedRun, stepOp, if_neg h, if_neg h]
    exact and_iff_right trivial

omit [DecidableEq G] in
/-- An operation that is specified whatever is in the registers. -/
def Op.alwaysSpecified : Op G → Bool
  | .bin .shl _ _ b | .bin .shr _ _ b | .bin .sar _ _ b =>
    match b with
    | .const c => decide (c.toNat < 64)
    | _ => false
  | .bin .div .. | .bin .rem .. | .bin .divu .. | .bin .remu .. => false
  | _ => true

omit [DecidableEq G] in
lemma Op.specified_of_always {op : Op G} (h : op.alwaysSpecified = true) (e : Env G) : op.Specified e := by
  cases op with
  | bin f d a b =>
    cases f with
    | shl | shr | sar =>
      cases b with
      | const c => exact of_decide_eq_true (p := c.toNat < 64) h
      | _ => exact absurd h Bool.false_ne_true
    | div | rem | divu | remu => exact absurd h Bool.false_ne_true
    | _ => trivial
  | _ => trivial

/-- A list of such operations behind another one. -/
lemma specifiedRun_append_always (hrest : rest.all Op.alwaysSpecified = true) :
    SpecifiedRun (ops ++ rest) l s ↔ SpecifiedRun ops l s := by
  have halways (rest : List (Op G)) (hrest : rest.all Op.alwaysSpecified = true) (l : Option ℕ)
      (s : Machine G) : SpecifiedRun rest l s := by
    induction rest generalizing l s with
    | nil => trivial
    | cons op rest ih =>
      rw [List.all_cons, Bool.and_eq_true] at hrest
      cases l with
      | some l =>
        rw [SpecifiedRun]
        split_ifs <;> exact ih hrest.2 _ _
      | none =>
        refine ⟨Op.specified_of_always hrest.1 _, ?_⟩
        rcases stepOp op s with ⟨s', _ | l | e⟩
        · exact ih hrest.2 _ _
        · exact ih hrest.2 _ _
        · trivial
  induction ops generalizing l s with
  | nil => exact iff_of_true (halways rest hrest l s) trivial
  | cons op ops ih =>
    rw [List.cons_append]
    cases l with
    | some l =>
      rw [SpecifiedRun, SpecifiedRun]
      split_ifs
      · exact ih
      · exact ih
    | none =>
      rw [SpecifiedRun, SpecifiedRun]
      refine and_congr_right fun _ => ?_
      rcases stepOp op s with ⟨s', _ | l | e⟩
      · exact ih
      · exact ih
      · exact Iff.rfl

/-- **Such operations** are a specified execution. -/
lemma specifiedRun_of_always (h : ops.all Op.alwaysSpecified = true) : SpecifiedRun ops l s := by
  have happend : SpecifiedRun ([] ++ ops) l s ↔ SpecifiedRun [] l s := specifiedRun_append_always h
  exact happend.mpr trivial

/-- **Lists one after the other**, the first one straight. -/
lemma specifiedRun_append_straight (h : ops.all Op.isStraight = true) :
    SpecifiedRun (ops ++ rest) none s ↔
      SpecifiedRun ops none s ∧ SpecifiedRun rest none (runStraight ops s) := by
  induction ops generalizing s with
  | nil => exact (iff_of_eq (true_and _)).symm
  | cons op ops ih =>
    rw [List.all_cons, Bool.and_eq_true] at h
    have hstep : stepOp op s = ((stepOp op s).1, .next) := by rw [← stepOp_straight h.1 s]
    rw [List.cons_append, SpecifiedRun, SpecifiedRun, hstep, and_assoc]
    exact and_congr_right fun _ => ih h.2

end Semantics

end Dadao.Tcg
