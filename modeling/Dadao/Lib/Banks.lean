import Mathlib.Data.List.Count
import Mathlib.Data.List.Nodup
import Mathlib.Logic.Function.Basic

set_option relaxedAutoImplicit false
set_option autoImplicit false

/-!
# Registers in banks and a stack

How a calling convention assigns places: each value asks for a bank of registers or for the stack, gets the
next register of its bank while there is one, and a place on the stack otherwise. Two sides that make
different requests agree as long as the difference has no effect.

## Main definitions

* `Dadao.Banks.alloc`, `Dadao.Banks.allocs` — a place for one request and for a list of them.
* `Dadao.Banks.granted` — the bank a request gets a register from.

## Main results

* `Dadao.Banks.allocs_eq_iff` — two lists of requests get the same places if and only if each of them is
  granted the same.
* `Dadao.Banks.nodup_allocs` — no place is assigned twice.
-/

namespace Dadao.Banks

/-- A register or an offset on the stack. -/
inductive Place (R : Type) where
  | reg (r : R)
  | stack (off : ℕ)
  deriving DecidableEq

/-- What has been assigned: registers of each bank and bytes of the stack. -/
structure Used (B : Type) where
  regs : B → ℕ
  stack : ℕ

variable {B R : Type} [DecidableEq B] (bank : B → List R)

/-- The place of a request: a bank, or none for the stack. -/
def alloc (u : Used B) : Option B → Place R × Used B
  | none => (.stack u.stack, { u with stack := u.stack + 8 })
  | some b =>
    match (bank b)[u.regs b]? with
    | some r => (.reg r, { u with regs := Function.update u.regs b (u.regs b + 1) })
    | none => (.stack u.stack, { u with stack := u.stack + 8 })

/-- The places of requests one after the other. -/
def allocs (u : Used B) : List (Option B) → List (Place R) × Used B
  | [] => ([], u)
  | q :: qs =>
    let (p, u) := alloc bank u q
    let (ps, u) := allocs u qs
    (p :: ps, u)

attribute [local simp] alloc allocs

@[simp] lemma length_allocs (u : Used B) (qs : List (Option B)) : (allocs bank u qs).1.length = qs.length := by
  induction qs generalizing u with
  | nil => rfl
  | cons q qs ih => simp [allocs, ih]

/-- The places of a longer list. -/
lemma allocs_append (u : Used B) (qs qs' : List (Option B)) :
    allocs bank u (qs ++ qs') = ((allocs bank u qs).1 ++ (allocs bank (allocs bank u qs).2 qs').1,
      (allocs bank (allocs bank u qs).2 qs').2) := by
  induction qs generalizing u with
  | nil => simp [allocs]
  | cons q qs ih => simp [allocs, ih]

/-- Requests for the stack get the next places on it. -/
lemma allocs_replicate_none (u : Used B) (n : ℕ) :
    (allocs bank u (List.replicate n none)).1 = (List.range n).map fun k => .stack (u.stack + 8 * k) := by
  induction n generalizing u with
  | zero => rfl
  | succ n ih =>
    rw [List.replicate_succ, allocs, List.range_succ_eq_map]
    simp only [alloc, ih, List.map_cons, List.map_map, Nat.mul_zero, Nat.add_zero, List.cons.injEq, true_and]
    refine List.map_congr_left fun k _ => ?_
    simp only [Function.comp_apply, Place.stack.injEq]
    omega

/-! ## What is granted -/

/-- The bank that the request at position `i` gets a register from: its registers are left unless as many
requests before it have asked for it. -/
def granted (u : Used B) (qs : List (Option B)) (i : ℕ) : Option B → Option B
  | none => none
  | some b => if u.regs b + (qs.take i).count (some b) < (bank b).length then some b else none

@[simp] lemma granted_none (u : Used B) (qs : List (Option B)) (i : ℕ) : granted bank u qs i none = none := rfl

/-- What the first request is granted. -/
lemma granted_zero (u : Used B) (qs : List (Option B)) (b : B) :
    granted bank u qs 0 (some b) = ((bank b)[u.regs b]?).map fun _ => b := by
  cases hb : (bank b)[u.regs b]? with
  | none =>
    have hfull := List.getElem?_eq_none_iff.mp hb
    rw [granted, List.take_zero, List.count_nil, if_neg (by omega)]
    rfl
  | some r =>
    have hlt := (List.getElem?_eq_some_iff.mp hb).1
    rw [granted, List.take_zero, List.count_nil, if_pos (by omega)]
    rfl

/-- The requests after the first one. -/
lemma granted_succ (u : Used B) (q : Option B) (qs : List (Option B)) (i : ℕ) (r : Option B) :
    granted bank u (q :: qs) (i + 1) r = granted bank (alloc bank u q).2 qs i r := by
  cases r with
  | none => rfl
  | some b =>
    simp only [granted, List.take_succ_cons, List.count_cons]
    cases q with
    | none =>
      have hne : ¬ ((none : Option B) == some b) = true := by simp
      simp only [alloc, if_neg hne, Nat.add_zero]
      rfl
    | some c =>
      by_cases hbc : c = b
      · subst hbc
        cases hreg : (bank c)[u.regs c]? with
        | none =>
          have hfull := List.getElem?_eq_none_iff.mp hreg
          simp only [alloc, hreg, beq_self_eq_true, if_true]
          rw [if_neg (by omega), if_neg (by omega)]
        | some r =>
          simp only [alloc, hreg, beq_self_eq_true, if_true, Function.update_self]
          have hcomm : u.regs c + ((qs.take i).count (some c) + 1) =
              u.regs c + 1 + (qs.take i).count (some c) := by omega
          rw [hcomm]
      · have hne : ¬ (some c == some b) = true := by simpa using hbc
        have hregs : (alloc bank u (some c)).2.regs b = u.regs b := by
          cases hc : (bank c)[u.regs c]? with
          | none => simp only [alloc, hc]
          | some r =>
            simp only [alloc, hc]
            exact Function.update_of_ne (Ne.symm hbc) _ _
        simp only [hregs, if_neg hne, Nat.add_zero]

section Distinct

variable (hbank : ∀ {b c : B} {i j : ℕ} {r : R}, (bank b)[i]? = some r → (bank c)[j]? = some r → b = c ∧ i = j)

include hbank

/-- Two requests get the same place if and only if they are granted the same. -/
lemma alloc_fst_eq_iff (u : Used B) (qs : List (Option B)) (q q' : Option B) :
    (alloc bank u q).1 = (alloc bank u q').1 ↔ granted bank u qs 0 q = granted bank u qs 0 q' := by
  cases q with
  | none =>
    cases q' with
    | none => simp
    | some c =>
      rw [granted_zero, granted_none]
      cases hc : (bank c)[u.regs c]? <;> simp [alloc, hc]
  | some b =>
    cases q' with
    | none =>
      rw [granted_zero, granted_none]
      cases hb : (bank b)[u.regs b]? <;> simp [alloc, hb]
    | some c =>
      rw [granted_zero, granted_zero]
      cases hb : (bank b)[u.regs b]? with
      | none => cases hc : (bank c)[u.regs c]? <;> simp [alloc, hb, hc]
      | some r =>
        cases hc : (bank c)[u.regs c]? with
        | none => simp [alloc, hb, hc]
        | some r' =>
          simp only [alloc, hb, hc, Option.map_some, Place.reg.injEq, Option.some.injEq]
          constructor
          · rintro rfl
            exact (hbank hb hc).1
          · rintro rfl
            exact Option.some.inj (hb.symm.trans hc)

omit hbank in
/-- Requests that are granted the same leave the same. -/
lemma alloc_snd_eq {u : Used B} {qs : List (Option B)} {q q' : Option B}
    (h : granted bank u qs 0 q = granted bank u qs 0 q') : (alloc bank u q).2 = (alloc bank u q').2 := by
  cases q with
  | none =>
    cases q' with
    | none => rfl
    | some c =>
      rw [granted_zero, granted_none] at h
      cases hc : (bank c)[u.regs c]? with
      | none => simp [alloc, hc]
      | some r => simp [hc] at h
  | some b =>
    cases q' with
    | none =>
      rw [granted_zero, granted_none] at h
      cases hb : (bank b)[u.regs b]? with
      | none => simp [alloc, hb]
      | some r => simp [hb] at h
    | some c =>
      rw [granted_zero, granted_zero] at h
      cases hb : (bank b)[u.regs b]? with
      | none =>
        cases hc : (bank c)[u.regs c]? with
        | none => simp [alloc, hb, hc]
        | some r => simp [hb, hc] at h
      | some r =>
        cases hc : (bank c)[u.regs c]? with
        | none => simp [hb, hc] at h
        | some r' =>
          obtain rfl : b = c := by simpa [hb, hc] using h
          rfl

/-- **Two lists of requests get the same places if and only if each request is granted the same.** -/
theorem allocs_eq_iff (u : Used B) {qs qs' : List (Option B)} (hlen : qs.length = qs'.length) :
    (allocs bank u qs).1 = (allocs bank u qs').1 ↔
      ∀ i (q q' : Option B), qs[i]? = some q → qs'[i]? = some q' →
        granted bank u qs i q = granted bank u qs i q' := by
  induction qs generalizing u qs' with
  | nil =>
    obtain rfl := List.length_eq_zero_iff.mp hlen.symm
    simp
  | cons q qs ih =>
    cases qs' with
    | nil => simp at hlen
    | cons q' qs' =>
      have hlen' : qs.length = qs'.length := by simpa using hlen
      simp only [allocs, List.cons.injEq, alloc_fst_eq_iff bank hbank u (q :: qs)]
      constructor
      · rintro ⟨hhead, htail⟩ i r r' hr hr'
        cases i with
        | zero =>
          simp only [List.getElem?_cons_zero, Option.some.injEq] at hr hr'
          rw [← hr, ← hr', hhead]
        | succ i =>
          rw [granted_succ, granted_succ]
          rw [alloc_snd_eq bank hhead.symm] at htail
          exact (ih _ hlen').mp htail i r r' hr hr'
      · intro h
        have hhead := h 0 q q' rfl rfl
        refine ⟨hhead, ?_⟩
        rw [alloc_snd_eq bank hhead.symm]
        refine (ih _ hlen').mpr fun i r r' hr hr' => ?_
        rw [← granted_succ, ← granted_succ]
        exact h (i + 1) r r' hr hr'

/-- A place that is not assigned yet. -/
def Free (u : Used B) : Place R → Prop
  | .reg r => ∀ b i, (bank b)[i]? = some r → u.regs b ≤ i
  | .stack off => u.stack ≤ off

omit [DecidableEq B] hbank in
lemma Free.mono {u v : Used B} {p : Place R} (hregs : ∀ b, u.regs b ≤ v.regs b) (hstack : u.stack ≤ v.stack)
    (h : Free bank v p) : Free bank u p := by
  cases p with
  | reg r => exact fun b i hi => Nat.le_trans (hregs b) (h b i hi)
  | stack off => exact Nat.le_trans hstack h

/-- An assigned place was free and is not any more. -/
lemma free_alloc (u : Used B) (q : Option B) :
    Free bank u (alloc bank u q).1 ∧ ¬ Free bank (alloc bank u q).2 (alloc bank u q).1 ∧
      (∀ b, u.regs b ≤ (alloc bank u q).2.regs b) ∧ u.stack ≤ (alloc bank u q).2.stack := by
  cases q with
  | none => simp [alloc, Free]
  | some c =>
    cases hc : (bank c)[u.regs c]? with
    | none => simp [alloc, hc, Free]
    | some r =>
      simp only [alloc, hc, Free]
      refine ⟨fun b i hi => ?_, fun h => ?_, fun b => ?_, Nat.le_refl _⟩
      · obtain ⟨rfl, rfl⟩ := hbank hi hc
        exact Nat.le_refl _
      · have hle := h c (u.regs c) hc
        rw [Function.update_self] at hle
        omega
      · by_cases hb : b = c
        · subst hb
          have hself : Function.update u.regs b (u.regs b + 1) b = u.regs b + 1 := Function.update_self ..
          omega
        · exact Nat.le_of_eq (Function.update_of_ne hb ..).symm

/-- **No place is assigned twice.** -/
theorem nodup_allocs (u : Used B) (qs : List (Option B)) :
    (allocs bank u qs).1.Nodup ∧ ∀ p ∈ (allocs bank u qs).1, Free bank u p := by
  induction qs generalizing u with
  | nil => simp [allocs]
  | cons q qs ih =>
    obtain ⟨hfree, hused, hregs, hstack⟩ := free_alloc bank hbank u q
    obtain ⟨hnodup, hrest⟩ := ih (alloc bank u q).2
    simp only [allocs, List.nodup_cons, List.mem_cons, forall_eq_or_imp]
    exact ⟨⟨fun hmem => hused (hrest _ hmem), hnodup⟩, hfree,
      fun p hp => (hrest p hp).mono bank hregs hstack⟩

end Distinct

end Dadao.Banks
