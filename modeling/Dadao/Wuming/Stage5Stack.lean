import Dadao.Lib.Clocked
import Dadao.Wuming.CallStack
import Dadao.Wuming.Stage5
import Mathlib.Tactic.SplitIfs

set_option relaxedAutoImplicit false
set_option autoImplicit false

/-!
# The return address stack of the five-stage core

A call or return moves the stack as it leaves decode. The target of a return is read from the stack
in that cycle, into a register that is read again in every later cycle, so a return that stays in
execute takes the address of the caller of its caller. And nothing undoes the move of a call or
return that is killed behind decode.

## Main definitions

* `Dadao.Wuming.Stage5.Calls` — the core with the return addresses of the calls that left decode.
* `Dadao.Wuming.Stage5.Retired` — the core with those of the calls that retired.

## Main results

* `Dadao.Wuming.Stage5.everyCycle_returns` — returns that do not wait in execute go to their callers.
* `Dadao.Wuming.Stage5.everyCycle_holdsRetired` — the stack is that of the retired calls and returns
  and of those on their way, if none of them is killed.
-/

namespace Dadao

namespace Wuming

namespace Stage5

open Clocked

/-! ### Words that move the stack -/

/-- The stack after a word. -/
def applyWord (inst : BitVec 32) (pc : BitVec 64) (stk : List (BitVec 64)) : List (BitVec 64) :=
  match (csignals inst).regGrp with
  | .rasPush => (pc + 4) :: stk
  | .rasPop => stk.tail
  | _ => stk

/-- A word that does not move the stack. -/
def LeavesStack (inst : BitVec 32) : Prop :=
  (csignals inst).regGrp ≠ .rasPush ∧ (csignals inst).regGrp ≠ .rasPop

instance (inst : BitVec 32) : Decidable (LeavesStack inst) :=
  inferInstanceAs (Decidable (_ ∧ _))

/-- Such a word leaves every stack. -/
lemma LeavesStack.applyWord_eq {inst : BitVec 32} (h : LeavesStack inst) (pc : BitVec 64)
    (stk : List (BitVec 64)) : applyWord inst pc stk = stk := by
  rw [applyWord]
  split
  next hgrp => exact absurd hgrp h.1
  next hgrp => exact absurd hgrp h.2
  all_goals rfl

/-- A bubble leaves the stack. -/
lemma leavesStack_bubble : LeavesStack bubble := by
  decide +kernel

/-- A return is what pops. -/
lemma regGrp_of_ret {inst : BitVec 32} (h : (csignals inst).ctrlFlow = .ret) :
    (csignals inst).regGrp = .rasPop := by
  revert h
  unfold csignals
  cases Insn.decode inst with
  | none => decide
  | some insn => cases insn <;> decide

variable {s : State} {i : Inputs}

/-- The push enable of a word that leaves decode. -/
lemma rasPush_of_issues (h : issues s i = true) :
    rasPush s i = ((csignals s.dec.inst).regGrp == .rasPush) := by
  simp only [issues, advances, Bool.and_eq_true, Bool.not_eq_true'] at h
  simp [rasPush, cs, h.1.1.1, h.1.1.2, h.1.2, h.2]

/-- The pop enable of a word that leaves decode. -/
lemma rasPop_of_issues (h : issues s i = true) :
    rasPop s i = ((csignals s.dec.inst).regGrp == .rasPop) := by
  simp only [issues, advances, Bool.and_eq_true, Bool.not_eq_true'] at h
  simp [rasPop, cs, h.1.1.1, h.1.1.2, h.1.2, h.2]

/-- A word that does not leave decode does not move the stack. -/
lemma enables_of_not_issues (h : issues s i = false) : rasPush s i = false ∧ rasPop s i = false := by
  have hgate : (hazard s || fullStall s i || pipelineKill s i || decKill s i) = true := by
    simp only [issues, advances, Bool.and_eq_false_iff, Bool.not_eq_false'] at h
    rcases h with ((h | h) | h) | h <;> simp [h]
  rw [rasPush, rasPop, hgate]
  simp

/-- **The stack after a cycle**: that of the word leaving decode, if one does. -/
lemma Holds.step {stk : List (BitVec 64)} (h : s.ras.Holds stk)
    (hfull : rasPush s i = true → s.ras.top ≠ 63) (hempty : rasPop s i = true → s.ras.top ≠ 0) :
    (step s i).ras.Holds
      (if issues s i then applyWord s.dec.inst s.dec.pc stk else stk) := by
  show (s.ras.step (rasPush s i) (rasPop s i) (s.dec.pc + 4)).Holds _
  cases hissues : issues s i with
  | false =>
    obtain ⟨hpush, hpop⟩ := enables_of_not_issues hissues
    simpa [hpush, hpop] using h
  | true =>
    have hpush := rasPush_of_issues hissues
    have hpop := rasPop_of_issues hissues
    rw [if_pos rfl, applyWord]
    split
    next hgrp =>
      rw [hgrp] at hpush hpop
      rw [hpush, hpop]
      exact h.push (hfull hpush) _
    next hgrp =>
      rw [hgrp] at hpush hpop
      obtain ⟨v, rest, hcons⟩ := h.exists_cons (hempty hpop)
      rw [hcons] at h
      rw [hpush, hpop, hcons]
      exact (h.pop _).2
    next hne1 hne2 =>
      have hpush' : rasPush s i = false := by rw [hpush]; simpa using hne1
      have hpop' : rasPop s i = false := by rw [hpop]; simpa using hne2
      simpa [hpush', hpop'] using h

/-- The execute stage takes a word exactly if it leaves decode. -/
lemma exeNext_of_issues (h : issues s i = true) : exeNext s i = decoded s := by
  simp only [issues, Bool.and_eq_true, Bool.not_eq_true'] at h
  obtain ⟨⟨hadv, hkill⟩, hpipe⟩ := h
  have hhaz : hazard s = false := by
    simp only [advances, Bool.and_eq_true, Bool.not_eq_true'] at hadv
    exact hadv.1
  simp [exeNext, hhaz, hpipe, hadv, hkill]

/-- The execute stage keeps its word in a full stall. -/
lemma exeNext_of_fullStall (hkill : pipelineKill s i = false) (hstall : fullStall s i = true) :
    exeNext s i = s.exe := by
  simp [exeNext, hkill, hstall, advances]

/-- Otherwise it takes a bubble. -/
lemma exeNext_of_not_issues (h : issues s i = false)
    (hmove : pipelineKill s i = true ∨ fullStall s i = false) :
    (exeNext s i).valid = false ∧ (exeNext s i).inst = bubble ∧ (exeNext s i).cfType = .x ∧
      (exeNext s i).wbSel = .x ∧ (exeNext s i).memVal = false := by
  cases hkill : pipelineKill s i with
  | true => simp [exeNext, hkill, Exe.bubble]
  | false =>
    have hstall : fullStall s i = false := by simpa [hkill] using hmove
    cases hhaz : hazard s with
    | true => simp [exeNext, hstall, hhaz, Exe.bubble]
    | false =>
      have hadv : advances s i = true := by simp [advances, hhaz, hstall]
      have hdec : decKill s i = true := by simpa [issues, hadv, hkill] using h
      simp [exeNext, hkill, hhaz, hadv, hdec, Exe.bubble]

/-! ### Returns -/

/-- The core with the return addresses of the calls that left decode and that no return took, and
the one the return in execute took. -/
structure Calls where
  /-- The core. -/
  core : State
  /-- The return addresses, the last one first. -/
  calls : List (BitVec 64)
  /-- The return address of the return in execute. -/
  caller : BitVec 64

/-- A cycle. -/
def Calls.step (t : Calls) (i : Inputs) : Calls where
  core := Stage5.step t.core i
  calls := if issues t.core i then applyWord t.core.dec.inst t.core.dec.pc t.calls else t.calls
  caller := if rasPop t.core i then t.calls.headD 0 else t.caller

/-- Calls and returns are properly nested to depth at most 63, and nothing is killed by an exception
or an interrupt. -/
def Nested (t : Calls) (i : Inputs) : Prop :=
  pipelineKill t.core i = false ∧ (rasPush t.core i = true → t.calls.length < 63) ∧
    (rasPop t.core i = true → t.calls ≠ [])

/-- **A return goes to its caller**: with a return in execute, the fetch goes on at the return address
of the matching call. -/
def Returns (t : Calls) (i : Inputs) : Prop :=
  t.core.exe.cfType = .ret → (Stage5.step t.core i).ifPc = t.caller

/-- A return does not wait in execute. -/
def NoStalledReturn (t : Calls) (i : Inputs) : Prop :=
  t.core.exe.cfType = .ret → fullStall t.core i = false

/-- The stack holds the return addresses, and the target register the one of the return in execute. -/
def Calls.Inv (t : Calls) : Prop :=
  t.core.ras.Holds t.calls ∧ (t.core.exe.cfType = .ret → t.core.exeRetTarget = t.caller)

/-- **A cycle keeps the target of the return in execute.** -/
lemma Calls.Inv.step {t : Calls} {i : Inputs} (hinv : t.Inv) (hnested : Nested t i)
    (hstall : NoStalledReturn t i) : (t.step i).Inv := by
  obtain ⟨hholds, htarget⟩ := hinv
  obtain ⟨hkill, hpush, hpop⟩ := hnested
  have htop := hholds.1
  have hfull : rasPush t.core i = true → t.core.ras.top ≠ 63 := by
    intro henable h63
    have hlt := hpush henable
    rw [h63] at htop
    have h63' : (63 : BitVec 6).toNat = 63 := rfl
    omega
  have hempty : rasPop t.core i = true → t.core.ras.top ≠ 0 := by
    intro henable h0
    rw [h0] at htop
    exact hpop henable (List.length_eq_zero_iff.mp htop.symm)
  refine ⟨Holds.step hholds hfull hempty, fun hret => ?_⟩
  show t.core.ras.popData = if rasPop t.core i then t.calls.headD 0 else t.caller
  have hret' : (exeNext t.core i).cfType = .ret := hret
  cases hissues : issues t.core i with
  | true =>
    -- the return leaves decode in this cycle
    rw [exeNext_of_issues hissues] at hret'
    have henable : rasPop t.core i = true := by
      rw [rasPop_of_issues hissues, regGrp_of_ret hret']
      rfl
    obtain ⟨v, rest, hcons⟩ := hholds.exists_cons (hempty henable)
    rw [hcons] at hholds ⊢
    rw [if_pos henable, (hholds.pop 0).1]
    rfl
  | false =>
    cases hfs : fullStall t.core i with
    | false =>
      have hx := (exeNext_of_not_issues hissues (Or.inr hfs)).2.2.1
      rw [hx] at hret'
      cases hret'
    | true =>
      rw [exeNext_of_fullStall hkill hfs] at hret'
      rw [hstall hret'] at hfs
      cases hfs

/-- A return in execute redirects the fetch to the target register. -/
lemma ifPc_step_of_ret (hkill : pipelineKill s i = false) (hret : s.exe.cfType = .ret) :
    (step s i).ifPc = s.exeRetTarget := by
  have hsel : exePcSel s i = .rasp := by simp [exePcSel, hkill, hret]
  have hif : ifKill s i = true := by simp [ifKill, hsel]
  show (if _ || ifKill s i || _ then ifPcNext s i else s.ifPc) = _
  simp [hif, ifPcNext, hsel]

/-- **Returns go to their callers** in every run without an exception or interrupt whose calls and
returns are nested to depth at most 63, if no return waits in execute for the memory. -/
theorem everyCycle_returns {s : State} (hras : s.ras.top = 0) (hexe : s.exe.cfType = .x)
    {is : List Inputs} (hnested : EveryCycle Calls.step Nested ⟨s, [], 0⟩ is)
    (hstall : EveryCycle Calls.step NoStalledReturn ⟨s, [], 0⟩ is) :
    EveryCycle Calls.step Returns ⟨s, [], 0⟩ is := by
  have hinit : Calls.Inv ⟨s, [], 0⟩ :=
    ⟨ReturnStack.holds_nil hras, fun hret => by rw [hexe] at hret; cases hret⟩
  refine EveryCycle.of_invariant Calls.Inv ?_ ?_ hinit (hnested.and hstall)
  · exact fun t i hinv hcycle => hinv.step hcycle.1 hcycle.2
  · intro t i hinv hcycle hret
    rw [ifPc_step_of_ret hcycle.1.1 hret, hinv.2 hret]

/-- The core after a reset. -/
def reset (vector : BitVec 64) : State where
  ifPc := vector
  ifBuffer := none
  ifPcBuffer := none
  ifKilled := false
  dec := ⟨false, bubble, 0⟩
  exe := ⟨false, bubble, 0, 0, 0, 0, 0, 0, 0, 0, 0, 0, 0, 0, 0, .x, .n, .x, .x, false, false, .x, .n, 0⟩
  mem := ⟨false, bubble, 0, 0, 0, 0, 0, 0, 0, 0, .x, false, false, .x, .n⟩
  wb := ⟨false, 0, 0, 0, 0, 0, 0, .x⟩
  rd := fun _ => 0
  rb := fun _ => 0
  rf := fun _ => 0
  ras := ⟨0, fun _ => 0⟩
  exeRetTarget := 0
  exeDest := Dest.none
  memDest := Dest.none
  wbDest := Dest.none
  exeIsCsr := false
  exeIllegal := false
  regFencei := false
  regExcept := false
  regIllegal := false
  regExeInst := bubble
  regInterruptHandled := false

/-- A cycle in which a word arrives, with the answer of the data port and the interrupt line. -/
def feed (word : BitVec 32) (dmem interrupt : Bool) : Inputs :=
  ⟨true, word, dmem, 0, interrupt, false, 0, 0⟩

/-- A cycle in which no word arrives, with the answer of the data port and the interrupt line. -/
def await (dmem interrupt : Bool) : Inputs := ⟨false, 0, dmem, 0, interrupt, false, 0, 0⟩

instance (t : Calls) (i : Inputs) : Decidable (Nested t i) := inferInstanceAs (Decidable (_ ∧ _))

instance (t : Calls) (i : Inputs) : Decidable (NoStalledReturn t i) :=
  inferInstanceAs (Decidable (_ → _))

/-- A call of the next word, which loads, and a return behind the load: `calli`, `ldo`, `ret`. -/
def callLoadRet : List Inputs :=
  [feed 0x6c000001 true false, feed 0x10000000 true false, feed 0x10000000 true false,
    feed 0x33041000 true false, feed 0x6e000000 true false, feed 0x10000000 true false]

/-- The return goes to its caller if the load is answered at once. -/
theorem everyCycle_returns_callLoadRet :
    EveryCycle Calls.step Returns ⟨reset 0x10000, [], 0⟩
      (callLoadRet ++ [await true false]) :=
  everyCycle_returns rfl rfl (by decide +kernel) (by decide +kernel)

/-- **A return that waits for the load before it** does not: its target is read again from the stack
it has popped. -/
theorem not_returns_stalled :
    ¬ ∀ is : List Inputs, EveryCycle Calls.step Nested ⟨reset 0x10000, [], 0⟩ is →
      EveryCycle Calls.step Returns ⟨reset 0x10000, [], 0⟩ is := by
  intro hall
  have hrun := hall (callLoadRet ++ [await false false, await true false])
    (by decide +kernel)
  have hcycle := hrun.2.2.2.2.2.2.2.1 (by decide +kernel)
  exact absurd hcycle (by decide +kernel)

/-! ### Retired calls and returns -/

/-- The core with the return addresses of the retired calls that no retired return has taken. -/
structure Retired where
  /-- The core. -/
  core : State
  /-- The return addresses, the last one first. -/
  retired : List (BitVec 64)

/-- The instruction in the memory stage retires: it goes on to write back as valid. -/
def retires (s : State) (i : Inputs) : Bool :=
  !fullStall s i && s.mem.valid && !memException s && !interruptEdge s i

/-- A cycle. -/
def Retired.step (t : Retired) (i : Inputs) : Retired where
  core := Stage5.step t.core i
  retired :=
    if retires t.core i then applyWord t.core.mem.inst t.core.mem.pc t.retired else t.retired

/-- The stack a word entering decode has to see: that of the retired calls and returns, and of those
in the memory stage and in execute. -/
def Retired.stack (t : Retired) : List (BitVec 64) :=
  applyWord t.core.exe.inst t.core.exe.pc (applyWord t.core.mem.inst t.core.mem.pc t.retired)

/-- **The stack is that of the retired calls and returns** after a cycle, with those still on their
way before the next word. -/
def HoldsRetired (t : Retired) (i : Inputs) : Prop := (t.step i).core.ras.Holds (t.step i).stack

/-- No call or return is killed behind decode, none is pushed on a full stack or popped from an empty
one. -/
structure Settled (t : Retired) (i : Inputs) : Prop where
  /-- A kill finds no call or return in execute. -/
  exe : pipelineKill t.core i = true → LeavesStack t.core.exe.inst
  /-- A kill finds no call or return in the memory stage, unless it retires. -/
  mem : pipelineKill t.core i = true → retires t.core i = false → LeavesStack t.core.mem.inst
  /-- The stack is not full at a push. -/
  push : rasPush t.core i = true → t.core.ras.top ≠ 63
  /-- The stack is not empty at a pop. -/
  pop : rasPop t.core i = true → t.core.ras.top ≠ 0

/-- The stack, and that a stage without an instruction holds a bubble. -/
structure Retired.Inv (t : Retired) : Prop where
  /-- The stack. -/
  holds : t.core.ras.Holds t.stack
  /-- The decode stage. -/
  dec : t.core.dec.valid = false → t.core.dec.inst = bubble
  /-- The execute stage. -/
  exe : t.core.exe.valid = false → t.core.exe.inst = bubble
  /-- The memory stage. -/
  mem : t.core.mem.valid = false → t.core.mem.inst = bubble

/-- A decode stage without a word holds a bubble. -/
lemma inst_decNext (hdec : s.dec.valid = false → s.dec.inst = bubble)
    (h : (decNext s i).valid = false) : (decNext s i).inst = bubble := by
  unfold decNext at h ⊢
  split_ifs at h ⊢ <;> first | rfl | exact hdec h

/-- An execute stage without an instruction holds a bubble. -/
lemma inst_exeNext (hdec : s.dec.valid = false → s.dec.inst = bubble)
    (hexe : s.exe.valid = false → s.exe.inst = bubble) (h : (exeNext s i).valid = false) :
    (exeNext s i).inst = bubble := by
  unfold exeNext at h ⊢
  split_ifs at h ⊢
  · rfl
  · rfl
  · exact hdec h
  · exact hexe h

/-- A memory stage without an instruction holds a bubble. -/
lemma inst_memNext (hexe : s.exe.valid = false → s.exe.inst = bubble)
    (hmem : s.mem.valid = false → s.mem.inst = bubble) (h : (memNext s i).valid = false) :
    (memNext s i).inst = bubble := by
  unfold memNext at h ⊢
  split_ifs at h ⊢
  · rfl
  · exact hexe h
  · exact hexe h
  · exact hmem h

/-- **The stack on its way after a cycle** is the one before, with the word that leaves decode. -/
lemma Retired.Inv.stack_step {t : Retired} {i : Inputs} (hinv : t.Inv) (hsettled : Settled t i) :
    (t.step i).stack =
      if issues t.core i then applyWord t.core.dec.inst t.core.dec.pc t.stack else t.stack := by
  show applyWord (exeNext t.core i).inst (exeNext t.core i).pc
    (applyWord (memNext t.core i).inst (memNext t.core i).pc (t.step i).retired) = _
  cases hkill : pipelineKill t.core i with
  | true =>
    -- what is killed does not move the stack
    have hissues : issues t.core i = false := by simp [issues, hkill]
    have hexe := (exeNext_of_not_issues hissues (Or.inl hkill)).2.1
    have hmem : (memNext t.core i).inst = bubble := by simp [memNext, hkill]
    rw [hexe, hmem, leavesStack_bubble.applyWord_eq, leavesStack_bubble.applyWord_eq, hissues,
      if_neg (by decide), Retired.stack, (hsettled.exe hkill).applyWord_eq]
    show (if retires t.core i then _ else t.retired) = _
    cases hretires : retires t.core i with
    | true => rfl
    | false => exact ((hsettled.mem hkill hretires).applyWord_eq _ _).symm
  | false =>
    cases hstall : fullStall t.core i with
    | true =>
      have hissues : issues t.core i = false := by simp [issues, advances, hstall]
      have hretires : retires t.core i = false := by simp [retires, hstall]
      have hmem : memNext t.core i = t.core.mem := by simp [memNext, hkill, hstall]
      rw [exeNext_of_fullStall hkill hstall, hmem, hissues]
      show applyWord _ _ (applyWord _ _ (if retires t.core i then _ else t.retired)) = _
      rw [hretires]
      rfl
    | false =>
      have hmem : (memNext t.core i).inst = t.core.exe.inst ∧
          (memNext t.core i).pc = t.core.exe.pc := by simp [memNext, hkill, hstall]
      have hretired : (t.step i).retired =
          applyWord t.core.mem.inst t.core.mem.pc t.retired := by
        show (if retires t.core i then _ else t.retired) = _
        have hquiet : memException t.core = false ∧ interruptEdge t.core i = false := by
          simp only [pipelineKill, Bool.or_eq_false_iff] at hkill
          exact ⟨hkill.1.2, hkill.2⟩
        cases hvalid : t.core.mem.valid with
        | true => simp [retires, hstall, hvalid, hquiet.1, hquiet.2]
        | false =>
          rw [hinv.mem hvalid, leavesStack_bubble.applyWord_eq]
          simp
      rw [hmem.1, hmem.2, hretired]
      cases hissues : issues t.core i with
      | true =>
        rw [exeNext_of_issues hissues]
        rfl
      | false =>
        rw [(exeNext_of_not_issues hissues (Or.inr hstall)).2.1, leavesStack_bubble.applyWord_eq]
        rfl

/-- **A cycle keeps the stack.** -/
lemma Retired.Inv.step {t : Retired} {i : Inputs} (hinv : t.Inv) (hsettled : Settled t i) :
    (t.step i).Inv where
  holds := by
    rw [hinv.stack_step hsettled]
    exact Holds.step hinv.holds hsettled.push hsettled.pop
  dec := inst_decNext hinv.dec
  exe := inst_exeNext hinv.dec hinv.exe
  mem := inst_memNext hinv.exe hinv.mem

/-- **The stack is that of the retired calls and returns** and of those on their way, in every run in
which no call or return is killed behind decode, none is pushed on a full stack and none popped from
an empty one. -/
theorem everyCycle_holdsRetired {s : State} (hras : s.ras.top = 0) (hdec : s.dec.inst = bubble)
    (hexe : s.exe.inst = bubble) (hmem : s.mem.inst = bubble) {is : List Inputs}
    (hrun : EveryCycle Retired.step Settled ⟨s, []⟩ is) :
    EveryCycle Retired.step HoldsRetired ⟨s, []⟩ is := by
  have hinit : Retired.Inv ⟨s, []⟩ := by
    refine ⟨?_, fun _ => hdec, fun _ => hexe, fun _ => hmem⟩
    show s.ras.Holds (applyWord s.exe.inst s.exe.pc (applyWord s.mem.inst s.mem.pc []))
    rw [hexe, hmem, leavesStack_bubble.applyWord_eq, leavesStack_bubble.applyWord_eq]
    exact ReturnStack.holds_nil hras
  refine EveryCycle.of_invariant Retired.Inv ?_ ?_ hinit hrun
  · exact fun t i hinv hsettled => hinv.step hsettled
  · exact fun t i hinv hsettled => (hinv.step hsettled).holds

/-- A call that retires. -/
theorem everyCycle_holdsRetired_call :
    EveryCycle Retired.step HoldsRetired ⟨reset 0x10000, []⟩ (callLoadRet.take 4) := by
  refine everyCycle_holdsRetired rfl rfl rfl rfl ⟨?_, ?_, ?_, ?_, trivial⟩
  all_goals exact ⟨fun hkill => absurd hkill (by decide +kernel),
    fun hkill => absurd hkill (by decide +kernel), fun _ => by decide +kernel,
    fun hpop => absurd hpop (by decide +kernel)⟩

/-- **A call that is killed in execute** by an interrupt leaves its return address on the stack. -/
theorem not_holdsRetired_killed_call :
    ¬ ∀ is : List Inputs, EveryCycle Retired.step HoldsRetired ⟨reset 0x10000, []⟩ is := by
  intro hall
  have hcycle := (hall [feed 0x6c000001 true false, feed 0x10000000 true false,
    feed 0x10000000 true true]).2.2.1
  exact absurd hcycle.1 (by decide +kernel)

end Stage5

end Wuming

end Dadao
