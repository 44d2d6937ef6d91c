import Dadao.Lib.Clocked
import Dadao.Wuming.CallStack
import Dadao.Wuming.Stage1

set_option relaxedAutoImplicit false
set_option autoImplicit false

/-!
# The return address stack of the one-stage core

The stack is to follow the calls and returns that retire. The push and pop enables look at the
decoded word alone, so the stack also moves in cycles that wait for the fetch, raise an exception
(among them the overflow and the underflow of the stack itself) or take an interrupt. The cycles in
which this happens are the only ones in which the stack goes wrong.

## Main definitions

* `Dadao.Wuming.Stage1.Traced` — the core and the addresses its retired calls have pushed.
* `Dadao.Wuming.Stage1.StackFollows` — the stack follows the retired calls and returns.

## Main results

* `Dadao.Wuming.Stage1.stackFollows_iff` — the runs in which it does.
-/

namespace Dadao

namespace Wuming

namespace Stage1

open Clocked

/-! ### Retired calls and returns -/

/-- The core with the return addresses of the retired calls that no retired return has taken. -/
structure Traced where
  /-- The core. -/
  core : State
  /-- The return addresses, the last one first. -/
  calls : List (BitVec 64)

/-- The return addresses after a cycle: those of the calls and returns that retire. -/
def callsNext (t : Traced) (i : Inputs) : List (BitVec 64) :=
  if retires t.core i then
    if rasPush (inst t.core i) then pcPlus4 t.core.toArch :: t.calls
    else if rasPop (inst t.core i) then t.calls.tail
    else t.calls
  else t.calls

/-- A cycle. -/
def Traced.step (t : Traced) (i : Inputs) : Traced := ⟨Stage1.step t.core i, callsNext t i⟩

/-- The command to the CSR file in a cycle. -/
def csrCmd (s : State) (i : Inputs) : CsrCmd :=
  if stall s i then .n else (csignals (inst s i)).csrCmd

/-- The CSR file redirects the program counter only on a system instruction. -/
def EretOnSystem (t : Traced) (i : Inputs) : Prop := i.csrEret → csrCmd t.core i = .i

/-- **The stack follows the retired calls and returns** in a cycle: `RASR_TOP` and the return
addresses become those that the retiring instruction makes of them, and stay as they are if none
retires; a return that retires goes to the address its call has pushed. -/
def StackFollows (t : Traced) (i : Inputs) : Prop :=
  (t.step i).core.ras =
      (if retires t.core i then
        t.core.ras.step (rasPush (inst t.core i)) (rasPop (inst t.core i)) (pcPlus4 t.core.toArch)
      else t.core.ras) ∧
    (retires t.core i → rasPop (inst t.core i) → t.calls.head? = some (t.step i).core.pc)

/-- A word that moves the stack retires in its cycle. -/
def MovesOnlyRetired (t : Traced) (i : Inputs) : Prop :=
  rasPush (inst t.core i) ∨ rasPop (inst t.core i) → retires t.core i

/-! ### A cycle -/

/-- A call writes back the address of the next word. -/
lemma wbData_of_rasPush {a : Arch} {w : BitVec 32} (h : rasPush w = true) (d r : BitVec 64) :
    wbData a w d r = pcPlus4 a := by
  have hsel : (csignals w).wbSel = .ra := by
    revert h
    unfold rasPush csignals
    cases Insn.decode w with
    | none => decide
    | some insn => cases insn <;> decide
  rw [wbData, hsel]

/-- A return goes to the address on top of the stack, and gives the CSR file no command. -/
lemma signals_of_rasPop {w : BitVec 32} (h : rasPop w = true) :
    (csignals w).ctrlFlow = .ret ∧ (csignals w).csrCmd = .n ∧ rasPush w = false := by
  revert h
  unfold rasPop rasPush csignals
  cases Insn.decode w with
  | none => decide
  | some insn => cases insn <;> decide

/-- What is pushed, if anything is. -/
lemma ras_step (s : State) (i : Inputs) :
    (step s i).ras = s.ras.step (rasPush (inst s i)) (rasPop (inst s i)) (pcPlus4 s.toArch) := by
  show s.ras.step _ _ (wbData s.toArch (inst s i) i.dmemData i.csrRdata) = _
  cases hpush : rasPush (inst s i) with
  | false => rfl
  | true => rw [wbData_of_rasPush hpush]

/-- An instruction that retires raises no exception of the stack. -/
lemma instRaspExcp_of_retires {s : State} {i : Inputs} (h : retires s i = true) :
    instRaspExcp s.toArch (inst s i) = false := by
  have hexcepts : excepts s i = false := by
    simp only [retires, Bool.and_eq_true, Bool.not_eq_true'] at h
    exact h.1.2
  simp only [excepts, exception, illegal, Bool.or_eq_false_iff] at hexcepts
  exact hexcepts.1.1.2

/-- **A return that retires** goes to the address on top of the stack, which is not empty. -/
lemma pc_step_of_ret {s : State} {i : Inputs} (hret : retires s i = true)
    (hpop : rasPop (inst s i) = true) (heret : i.csrEret = true → csrCmd s i = .i) :
    s.ras.top ≠ 0 ∧ (step s i).pc = s.ras.popData := by
  obtain ⟨hflow, hcmd, hpush⟩ := signals_of_rasPop hpop
  have hrasp := instRaspExcp_of_retires hret
  simp only [retires, Bool.and_eq_true, Bool.not_eq_true'] at hret
  obtain ⟨⟨hstall, hexcepts⟩, hedge⟩ := hret
  have hnoeret : i.csrEret = false := by
    by_contra h
    have hi := heret (by simpa using h)
    rw [csrCmd, hstall, if_neg (by decide), hcmd] at hi
    exact absurd hi (by decide)
  constructor
  · intro htop
    simp [instRaspExcp, hpop, htop] at hrasp
  · show (if stall s i then s.pc else pcNext s i) = _
    simp [hstall, pcNext, hexcepts, hnoeret, hedge, pcSelNoXept, hflow, target]

/-- The list the stack is to hold, and holds while only retired words move it. -/
def Inv (t : Traced) : Prop := t.core.ras.Holds t.calls

/-- **A cycle keeps the list.** -/
lemma Inv.step {t : Traced} {i : Inputs} (hinv : Inv t) (hmoves : MovesOnlyRetired t i) :
    Inv (t.step i) := by
  show (Stage1.step t.core i).ras.Holds (callsNext t i)
  rw [ras_step, callsNext]
  cases hpush : rasPush (inst t.core i) with
  | true =>
    have hretires := hmoves (Or.inl hpush)
    have hpop : rasPop (inst t.core i) = false := by
      cases hpop : rasPop (inst t.core i) with
      | false => rfl
      | true => exact absurd hpush (by rw [(signals_of_rasPop hpop).2.2]; decide)
    have hrasp := instRaspExcp_of_retires hretires
    have hfull : t.core.ras.top ≠ 63 := by
      intro htop
      simp [instRaspExcp, hpush, htop] at hrasp
    rw [hpop, if_pos hretires]
    exact hinv.push hfull _
  | false =>
    cases hpop : rasPop (inst t.core i) with
    | false =>
      rw [ReturnStack.step_false_false]
      simpa [Inv] using hinv
    | true =>
      have hretires := hmoves (Or.inr hpop)
      have hrasp := instRaspExcp_of_retires hretires
      have hne : t.core.ras.top ≠ 0 := by
        intro htop
        simp [instRaspExcp, hpop, htop] at hrasp
      obtain ⟨v, rest, hcons⟩ := hinv.exists_cons hne
      rw [Inv, hcons] at hinv
      simpa [hretires, hcons] using (hinv.pop _).2

/-- **A cycle in which only a retired word moves the stack** follows it. -/
lemma Inv.stackFollows {t : Traced} {i : Inputs} (hinv : Inv t) (heret : EretOnSystem t i)
    (hmoves : MovesOnlyRetired t i) : StackFollows t i := by
  constructor
  · show (Stage1.step t.core i).ras = _
    rw [ras_step]
    by_cases hretires : retires t.core i = true
    · rw [if_pos hretires]
    · have hstays : ¬ (rasPush (inst t.core i) = true ∨ rasPop (inst t.core i) = true) :=
        fun hmove => hretires (hmoves hmove)
      simp only [not_or, Bool.not_eq_true] at hstays
      rw [if_neg hretires, hstays.1, hstays.2, ReturnStack.step_false_false]
  · intro hretires hpop
    obtain ⟨hne, hpc⟩ := pc_step_of_ret hretires hpop heret
    obtain ⟨v, rest, hcons⟩ := hinv.exists_cons hne
    rw [Inv, hcons] at hinv
    show t.calls.head? = some (Stage1.step t.core i).pc
    rw [hpc, (hinv.pop 0).1, hcons]
    rfl

/-- A cycle that follows the retired word moves the stack with no other. -/
lemma movesOnlyRetired_of_stackFollows {t : Traced} {i : Inputs} (h : StackFollows t i) :
    MovesOnlyRetired t i := by
  intro hmove
  by_contra hretires
  have hras : (Stage1.step t.core i).ras = _ := h.1
  rw [ras_step, if_neg hretires] at hras
  exact ReturnStack.step_ne _ hmove _ hras

/-- **The runs in which the stack follows the retired calls and returns** are those in which every
call or return that is decoded retires in the same cycle: it neither waits for its fetch, nor raises
an exception, nor is interrupted. -/
theorem stackFollows_iff {s : State} (hempty : s.ras.top = 0) {is : List Inputs}
    (heret : EveryCycle Traced.step EretOnSystem ⟨s, []⟩ is) :
    EveryCycle Traced.step StackFollows ⟨s, []⟩ is ↔
      EveryCycle Traced.step MovesOnlyRetired ⟨s, []⟩ is := by
  constructor
  · exact fun hrun => hrun.mono fun t i => movesOnlyRetired_of_stackFollows
  · intro hrun
    have hinit : Inv ⟨s, []⟩ := ReturnStack.holds_nil hempty
    refine EveryCycle.of_invariant Inv ?_ ?_ hinit (heret.and hrun)
    · exact fun t i hinv hcycle => hinv.step hcycle.2
    · exact fun t i hinv hcycle => hinv.stackFollows hcycle.1 hcycle.2

/-- The core after a reset. -/
def reset (vector : BitVec 64) : State where
  pc := vector
  rd := fun _ => 0
  rb := fun _ => 0
  rf := fun _ => 0
  ras := ⟨0, fun _ => 0⟩
  regMemEn := false
  regDmiss := false
  ifInstBuffer := 0
  regInterruptEdge := false

/-- A cycle in which a word arrives, with the interrupt line. -/
def arrives (word : BitVec 32) (interrupt : Bool) : Inputs :=
  ⟨true, word, false, 0, interrupt, false, 0, 0⟩

/-- A call and its return. -/
theorem stackFollows_call_ret :
    EveryCycle Traced.step StackFollows ⟨reset 0x10000, []⟩
      [arrives 0x6c000002 false, arrives 0x6e000000 false] := by
  have heret : EveryCycle Traced.step EretOnSystem ⟨reset 0x10000, []⟩
      [arrives 0x6c000002 false, arrives 0x6e000000 false] :=
    ⟨fun heret => absurd heret (by decide), fun heret => absurd heret (by decide), trivial⟩
  refine (stackFollows_iff rfl heret).mpr ⟨?_, ?_, trivial⟩
  · exact fun _ => by decide +kernel
  · exact fun _ => by decide +kernel

/-- **A call that is interrupted** leaves its return address on the stack. -/
theorem not_stackFollows_interrupted_call :
    ¬ ∀ is : List Inputs, EveryCycle Traced.step EretOnSystem ⟨reset 0x10000, []⟩ is →
      EveryCycle Traced.step StackFollows ⟨reset 0x10000, []⟩ is := by
  intro hall
  have hcycle := (hall [arrives 0x6c000002 true]
    ⟨fun heret => absurd heret (by decide), trivial⟩).1.1
  have htop := congrArg ReturnStack.top hcycle
  exact absurd htop (by decide +kernel)

end Stage1

end Wuming

end Dadao
