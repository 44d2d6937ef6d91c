import Dadao.Wuming.Stage1Timing

set_option relaxedAutoImplicit false
set_option autoImplicit false

/-!
# One word in the one-stage core

What a word does to the registers, the program counter, the return address stack and the memory when
no interrupt is pending, without the cycles it takes.

## Main definitions

* `Dadao.Wuming.Outcome` — what executing a word leaves.
* `Dadao.Wuming.Stage1.single` — the outcome of a word.
* `Dadao.Wuming.Stage1.Executes` — the first event of a run with quiet waiting cycles.

## Main results

* `Dadao.Wuming.Stage1.Executes.eq_single` — every timing of the memories leaves this outcome.
* `Dadao.Wuming.Stage1.executes_single` — it is left when every answer comes at once.
-/

namespace Dadao

namespace Wuming

/-- What executing a word leaves. -/
structure Outcome (μ : Type) where
  /-- The exception that is raised. -/
  exception : Option Cause
  /-- The registers, with the address of the next word. -/
  arch : Arch
  /-- The memory. -/
  mem : μ

namespace Stage1

open Clocked

/-- A CSR file without a pending interrupt, with the addresses of its handlers. -/
def vectored (evec : Cause → BitVec 64) : CsrFile Unit where
  interrupt _ := false
  eret _ _ := false
  evec _ x := evec x.cause
  rdata _ _ := 0
  next k _ := k

/-- The exception a word raises. -/
def fault (a : Arch) (word : BitVec 32) : Option Cause :=
  if exception a word true (csignals word).memEn false then some (exceptionCause a word true false)
  else none

variable {μ : Type} (bus : Bus μ) (evec : Cause → BitVec 64)

/-- **The outcome of the word at the program counter.** A data access that raises an exception which is
not its misalignment waits for ever, and the program counter stays. -/
def single (a : Arch) (m : μ) : Outcome μ :=
  let word := bus.fetch m a.pc
  let ras := a.ras.step (rasPush word) (rasPop word) (pcPlus4 a)
  match fault a word with
  | some cause =>
    { exception := some cause
      arch :=
        { a with
          pc :=
            if (csignals word).memEn && !dataMisaligned a word (csignals word).memEn then a.pc
            else evec cause
          ras := ras }
      mem := m }
  | none =>
    let answer := bus.access m (dmemReq a word)
    let data := wbData a word (if (csignals word).memEn then answer.1 else 0) 0
    { exception := none
      arch :=
        { (if (csignals word).rfWen then writeBack a word data (aluOut2 a word) else a) with
          pc := target a word (pcSelNoXept a word false)
          ras := ras }
      mem := if (csignals word).memEn then answer.2 else m }

/-- The core before the word is fetched. -/
def ready (a : Arch) (m : μ) : System Unit μ := ⟨⟨a, false, false, 0, false⟩, (), m⟩

/-- What a program sees of an event. -/
def Event.outcome (e : Event μ) : Outcome μ := ⟨e.exception.map Prod.fst, e.arch, e.mem⟩

/-- **The core executes the word at the program counter**: a run with any timing of the memories and
quiet waiting cycles, whose first event leaves the outcome. -/
def Executes (a : Arch) (m : μ) (o : Outcome μ) : Prop :=
  ∃ cs : List Timing,
    EveryCycle (System.step (vectored evec) bus) (System.Quiet (vectored evec) bus) (ready a m) cs ∧
      ((ready a m).trace (vectored evec) bus cs).head?.map Event.outcome = some o

/-- Without an interrupt no word goes to a handler by itself. -/
lemma pcSelNoXept_ne_excp (a : Arch) (word : BitVec 32) : pcSelNoXept a word false ≠ .excp := by
  unfold pcSelNoXept
  rw [if_neg (by decide)]
  split <;> first | decide | (split_ifs <;> decide)

section Instant

variable (a : Arch) (m : μ)

/-- The cycle in which every answer comes at once. -/
abbrev atOnce : Inputs := (ready a m).inputs (vectored evec) bus instant

/-- The exception of the cycle. -/
lemma excepts_atOnce :
    excepts (ready a m).core (atOnce bus evec a m) =
      exception a (bus.fetch m a.pc) true (csignals (bus.fetch m a.pc)).memEn false :=
  rfl

/-- The data access is answered, unless the word raises an exception. -/
lemma answered_atOnce :
    (ready a m).answered (vectored evec) bus instant =
      ((csignals (bus.fetch m a.pc)).memEn &&
        !exception a (bus.fetch m a.pc) true (csignals (bus.fetch m a.pc)).memEn false) := by
  show (dmemReqValid (ready a m).core _ && true) = _
  rw [Bool.and_true]
  rfl

/-- The cycle waits only for a data access that raises an exception. -/
lemma stall_atOnce :
    stall (ready a m).core (atOnce bus evec a m) =
      ((csignals (bus.fetch m a.pc)).memEn &&
        (exception a (bus.fetch m a.pc) true (csignals (bus.fetch m a.pc)).memEn false &&
          !dataMisaligned a (bus.fetch m a.pc) (csignals (bus.fetch m a.pc)).memEn)) := by
  show (false || !(((csignals (bus.fetch m a.pc)).memEn &&
    ((ready a m).answered (vectored evec) bus instant || dataMisaligned a (bus.fetch m a.pc) _)) ||
      !(csignals (bus.fetch m a.pc)).memEn)) = _
  rw [answered_atOnce]
  have hbool : ∀ x e d : Bool, (false || !((x && (x && !e || d)) || !x)) = (x && (e && !d)) := by decide
  exact hbool _ _ _

/-- The registers after the cycle, with what is pushed. -/
lemma arch_atOnce :
    ((ready a m).step (vectored evec) bus instant).core.toArch =
      { (if wbWen (ready a m).core (atOnce bus evec a m) then
          writeBack a (bus.fetch m a.pc)
            (wbData a (bus.fetch m a.pc) (atOnce bus evec a m).dmemData 0)
            (aluOut2 a (bus.fetch m a.pc))
        else a) with
        pc :=
          if stall (ready a m).core (atOnce bus evec a m) then a.pc
          else pcNext (ready a m).core (atOnce bus evec a m)
        ras := a.ras.step (rasPush (bus.fetch m a.pc)) (rasPop (bus.fetch m a.pc)) (pcPlus4 a) } := by
  have hras := ras_step (ready a m).core (atOnce bus evec a m)
  show archNext (ready a m).core (atOnce bus evec a m) = _
  calc archNext (ready a m).core (atOnce bus evec a m)
      = { archNext (ready a m).core (atOnce bus evec a m) with
          ras := (Stage1.step (ready a m).core (atOnce bus evec a m)).ras } := rfl
    _ = _ := by
      rw [hras]
      rfl

/-- **The event of the cycle has the outcome of the word.** -/
lemma event_atOnce :
    ((ready a m).event (vectored evec) bus instant).map Event.outcome = some (single bus evec a m) := by
  have hexcepts := excepts_atOnce bus evec a m
  have hstall := stall_atOnce bus evec a m
  have hanswered := answered_atOnce bus evec a m
  have harch := arch_atOnce bus evec a m
  have hmem : ((ready a m).step (vectored evec) bus instant).mem =
      if (ready a m).answered (vectored evec) bus instant then
        (bus.access m (dmemReq a (bus.fetch m a.pc))).2 else m := rfl
  have hdata : (atOnce bus evec a m).dmemData =
      if (ready a m).answered (vectored evec) bus instant then
        (bus.access m (dmemReq a (bus.fetch m a.pc))).1 else 0 := rfl
  have hwen : wbWen (ready a m).core (atOnce bus evec a m) =
      (!(stall (ready a m).core (atOnce bus evec a m) || excepts (ready a m).core (atOnce bus evec a m)) &&
        (csignals (bus.fetch m a.pc)).rfWen) := Bool.and_true _
  have hpc : pcNext (ready a m).core (atOnce bus evec a m) =
      if excepts (ready a m).core (atOnce bus evec a m) then
        evec (exceptionCause a (bus.fetch m a.pc) true false)
      else target a (bus.fetch m a.pc) (pcSelNoXept a (bus.fetch m a.pc) false) := by
    have hinst : inst (ready a m).core (atOnce bus evec a m) = bus.fetch m a.pc := rfl
    have hcause : (atOnce bus evec a m).csrEvec =
        evec (exceptionCause a (bus.fetch m a.pc) true false) := rfl
    have heret : (atOnce bus evec a m).csrEret = false := rfl
    have hedge : interruptEdge (ready a m).core (atOnce bus evec a m) = false := rfl
    rw [pcNext, heret, Bool.or_false, hinst, hcause, hedge]
    congr 1
    cases hsel : pcSelNoXept (ready a m).core.toArch (bus.fetch m a.pc) false with
    | excp => exact absurd hsel (pcSelNoXept_ne_excp a _)
    | _ => exact congrArg (target a (bus.fetch m a.pc)) hsel.symm
  cases hfault : exception a (bus.fetch m a.pc) true (csignals (bus.fetch m a.pc)).memEn false with
  | true =>
    rw [hfault] at hexcepts hstall hanswered
    rw [Bool.true_and] at hstall
    rw [Bool.not_true, Bool.and_false] at hanswered
    have hcause : ((ready a m).report (vectored evec) bus instant).cause =
        exceptionCause a (bus.fetch m a.pc) true false := rfl
    rw [hanswered] at hmem
    rw [hexcepts, Bool.or_true] at hwen
    rw [hexcepts, if_pos rfl] at hpc
    rw [hwen, hpc, hstall] at harch
    simp only [System.event, hexcepts, Bool.or_true, if_true, Option.map_some, Event.outcome, hcause,
      harch, hmem]
    rw [single, fault, hfault]
    rfl
  | false =>
    rw [hfault] at hexcepts hstall hanswered
    rw [Bool.false_and, Bool.and_false] at hstall
    rw [Bool.not_false, Bool.and_true] at hanswered
    rw [hanswered] at hmem hdata
    rw [hexcepts, hstall] at hwen
    rw [hexcepts] at hpc
    rw [hwen, hpc, hstall, hdata] at harch
    simp only [System.event, hexcepts, hstall, harch, hmem]
    rw [single, fault, hfault]
    rfl

end Instant

variable {bus evec} {a : Arch} {m : μ} {o : Outcome μ}

/-- **The word is executed when every answer comes at once.** -/
theorem executes_single : Executes bus evec a m (single bus evec a m) := by
  refine ⟨[instant], ⟨fun himiss => absurd himiss Bool.false_ne_true, trivial⟩, ?_⟩
  have hevent := event_atOnce bus evec a m
  cases he : (ready a m).event (vectored evec) bus instant with
  | none => simp [he] at hevent
  | some e =>
    rw [he] at hevent
    simpa [System.trace, he] using hevent

/-- **Every timing of the memories leaves the same outcome.** -/
theorem Executes.eq_single (h : Executes bus evec a m o) : o = single bus evec a m := by
  obtain ⟨cs, hquiet, hhead⟩ := h
  have hidle : (vectored evec).IdleKeeps := fun _ _ _ _ _ => rfl
  have hat : System.At bus (ready a m) ⟨a, (), m, false⟩ :=
    ⟨rfl, rfl, rfl, rfl, fun hwaiting => by cases hwaiting⟩
  obtain ⟨n, hn⟩ := hat.trace_eq hidle hquiet
  rw [hn] at hhead
  cases n with
  | zero => cases hhead
  | succ n =>
    have hevent := event_atOnce bus evec a m
    cases he : (ready a m).event (vectored evec) bus instant with
    | none => simp [he] at hevent
    | some e =>
      have hsystem : (⟨a, (), m, false⟩ : Prog Unit μ).system = ready a m := rfl
      rw [he] at hevent
      rw [Prog.trace, hsystem, he] at hhead
      simp only [Option.toList_some, List.singleton_append, List.head?_cons] at hhead
      rw [hevent] at hhead
      exact (Option.some.inj hhead).symm

end Stage1

end Wuming

end Dadao
