import Dadao.Wuming.Stage5Stack

set_option relaxedAutoImplicit false
set_option autoImplicit false

/-!
# Exceptions and interrupts of the five-stage core

An exception or interrupt is taken in the memory stage: it records the address of that stage and kills
what is in it and behind it. But the kill does not reach the instruction as it goes on to write back,
which writes its registers without the valid bit, nor the request it has at the data port, and an
interrupt may find no instruction in the memory stage at all.

## Main definitions

* `Dadao.Wuming.Stage5.Updates` — the core with the instructions that have retired and the updates of
  the registers and of the memory.
* `Dadao.Wuming.Stage5.Precise` — an exception or interrupt finds the updates of the instructions before
  the recorded one.

## Main results

* `Dadao.Wuming.Stage5.Updates.order_step` — the instructions retire in the order in which they leave
  decode.
* `Dadao.Wuming.Stage5.everyCycle_precise` — exceptions and interrupts are precise if each finds an
  instruction in the memory stage that does not write in that cycle.
-/

namespace Dadao

namespace Wuming

namespace Stage5

open Clocked

/-! ### Updates -/

/-- An instruction on its way, by its address and word. -/
structure Entry where
  /-- The address. -/
  pc : BitVec 64
  /-- The word. -/
  inst : BitVec 32
  deriving DecidableEq, Repr

/-- A register is written back. -/
def writesReg (sel : WbSel) : Bool := wrdEn sel || wrbEn sel || wrfEn sel

/-- The instruction writes a register. -/
def Entry.writes (e : Entry) : Bool := writesReg (csignals e.inst).wbSel

/-- The instruction is a store. -/
def Entry.stores (e : Entry) : Bool := (csignals e.inst).memEn && (csignals e.inst).memFcn

/-- The core, the instructions that have retired and the updates they have made, the first one first. -/
structure Updates where
  /-- The core. -/
  core : State
  /-- The instructions that have retired. -/
  retired : List Entry
  /-- The instructions that have written registers, one for each write back. -/
  regLog : List Entry
  /-- The instructions that have written the memory, one for each store. -/
  memLog : List Entry
  /-- The instruction in write back. -/
  wbEntry : Entry

/-- The instruction in the memory stage. -/
def Updates.memEntry (t : Updates) : Entry := ⟨t.core.mem.pc, t.core.mem.inst⟩

/-- A store is answered by the memory. -/
def stored (s : State) (i : Inputs) : Bool := dmemReqValid s && s.mem.memFcn && i.dmemValid

/-- A cycle. The registers are written by what is in write back, the memory by the memory stage. -/
def Updates.step (t : Updates) (i : Inputs) : Updates where
  core := Stage5.step t.core i
  retired := if retires t.core i then t.retired ++ [t.memEntry] else t.retired
  regLog := if writesReg t.core.wb.wbSel then t.regLog ++ [t.wbEntry] else t.regLog
  memLog := if stored t.core i then t.memLog ++ [t.memEntry] else t.memLog
  wbEntry := t.memEntry

/-- The updates of registers, with the one that is in write back. -/
def Updates.regUpdates (t : Updates) : List Entry :=
  if writesReg t.core.wb.wbSel then t.regLog ++ [t.wbEntry] else t.regLog

/-- The instructions that have left decode and have not been killed, in program order. -/
def Updates.order (t : Updates) : List Entry :=
  t.retired ++ (if t.core.mem.valid then [t.memEntry] else []) ++
    (if t.core.exe.valid then [⟨t.core.exe.pc, t.core.exe.inst⟩] else [])

/-- An exception or interrupt is taken. -/
def traps (s : State) (i : Inputs) : Bool := memException s || interruptEdge s i

/-- **An exception or interrupt is precise**: the address that is recorded, which is that of the memory
stage, is that of the instruction next to retire, and the registers and the memory have been updated
once by each of the retired instructions, in their order, and by no other, now or after the kill. -/
def Precise (t : Updates) (i : Inputs) : Prop :=
  traps t.core i = true → t.core.mem.valid = true ∧
    (t.step i).regUpdates = t.retired.filter Entry.writes ∧
    (t.step i).memLog = t.retired.filter Entry.stores

/-- An exception or interrupt finds an instruction in the memory stage, one that waits for the memory
or that writes no register and is no store. -/
def FindsIdle (t : Updates) (i : Inputs) : Prop :=
  traps t.core i = true → t.core.mem.valid = true ∧
    (fullStall t.core i = true ∨
      writesReg t.core.mem.wbSel = false ∧ (t.core.mem.memVal && t.core.mem.memFcn) = false)

/-! ### Stages and their words -/

/-- The signals in execute and in the memory stage are those of their words, and a stage without an
instruction holds a bubble. -/
structure Matched (s : State) : Prop where
  /-- The decode stage. -/
  dec : s.dec.valid = false → s.dec.inst = bubble
  /-- The execute stage. -/
  exe : s.exe.valid = false → s.exe.inst = bubble
  /-- What is written back in execute. -/
  exeWbSel : s.exe.wbSel = (csignals s.exe.inst).wbSel
  /-- The access in execute. -/
  exeMemVal : s.exe.memVal = (csignals s.exe.inst).memEn
  /-- Its function. -/
  exeMemFcn : s.exe.memFcn = (csignals s.exe.inst).memFcn
  /-- The command in execute. -/
  exeCsrCmd : s.exe.csrCmd = (csignals s.exe.inst).csrCmd
  /-- The memory stage. -/
  mem : s.mem.valid = false → s.mem.inst = bubble
  /-- What is written back in the memory stage. -/
  memWbSel : s.mem.wbSel = (csignals s.mem.inst).wbSel
  /-- The access in the memory stage. -/
  memMemVal : s.mem.memVal = (csignals s.mem.inst).memEn
  /-- Its function. -/
  memMemFcn : s.mem.memVal = true → s.mem.memFcn = (csignals s.mem.inst).memFcn
  /-- The command in the memory stage. -/
  memCsrCmd : s.mem.csrCmd = (csignals s.mem.inst).csrCmd

/-- A bubble does nothing. -/
lemma csignals_bubble_idle : (csignals bubble).wbSel = .x ∧ (csignals bubble).memEn = false ∧
    (csignals bubble).memFcn = false ∧ (csignals bubble).csrCmd = .n := by
  decide

variable {s : State} {i : Inputs}

/-- The signals in execute after a cycle. -/
lemma Matched.exe_step (h : Matched s) :
    (exeNext s i).wbSel = (csignals (exeNext s i).inst).wbSel ∧
      (exeNext s i).memVal = (csignals (exeNext s i).inst).memEn ∧
      (exeNext s i).memFcn = (csignals (exeNext s i).inst).memFcn ∧
      (exeNext s i).csrCmd = (csignals (exeNext s i).inst).csrCmd := by
  obtain ⟨hwb, hmem, hfcn, hcsr⟩ := csignals_bubble_idle
  unfold exeNext
  split_ifs
  · simp [Exe.bubble, hwb, hmem, hfcn, hcsr]
  · simp [Exe.bubble, hwb, hmem, hfcn, hcsr]
  · exact ⟨rfl, rfl, rfl, rfl⟩
  · exact ⟨h.exeWbSel, h.exeMemVal, h.exeMemFcn, h.exeCsrCmd⟩

/-- The signals in the memory stage after a cycle. -/
lemma Matched.mem_step (h : Matched s) :
    (memNext s i).wbSel = (csignals (memNext s i).inst).wbSel ∧
      (memNext s i).memVal = (csignals (memNext s i).inst).memEn ∧
      ((memNext s i).memVal = true → (memNext s i).memFcn = (csignals (memNext s i).inst).memFcn) ∧
      (memNext s i).csrCmd = (csignals (memNext s i).inst).csrCmd := by
  obtain ⟨hwb, hmem, hfcn, hcsr⟩ := csignals_bubble_idle
  cases hkill : pipelineKill s i with
  | true =>
    simp [memNext, hkill, hwb, hmem, hcsr]
  | false =>
    cases hstall : fullStall s i with
    | false =>
      simp only [memNext, hkill, hstall]
      exact ⟨h.exeWbSel, h.exeMemVal, fun _ => h.exeMemFcn, h.exeCsrCmd⟩
    | true =>
      simp only [memNext, hkill, hstall]
      exact ⟨h.memWbSel, h.memMemVal, h.memMemFcn, h.memCsrCmd⟩

/-- **The signals stay with their words.** -/
lemma Matched.step (h : Matched s) (i : Inputs) : Matched (step s i) where
  dec := inst_decNext h.dec
  exe := inst_exeNext h.dec h.exe
  exeWbSel := h.exe_step.1
  exeMemVal := h.exe_step.2.1
  exeMemFcn := h.exe_step.2.2.1
  exeCsrCmd := h.exe_step.2.2.2
  mem := inst_memNext h.exe h.mem
  memWbSel := h.mem_step.1
  memMemVal := h.mem_step.2.1
  memMemFcn := h.mem_step.2.2.1
  memCsrCmd := h.mem_step.2.2.2

/-! ### Program order -/

/-- **The instructions retire in the order in which they leave decode.** -/
theorem Updates.order_step {t : Updates} {i : Inputs}
    (hkill : pipelineKill t.core i = false) :
    (t.step i).order =
      t.order ++ if issues t.core i && t.core.dec.valid then [⟨t.core.dec.pc, t.core.dec.inst⟩] else [] := by
  have htrap : memException t.core = false ∧ interruptEdge t.core i = false := by
    simp only [pipelineKill, Bool.or_eq_false_iff] at hkill
    exact ⟨hkill.1.2, hkill.2⟩
  cases hstall : fullStall t.core i with
  | true =>
    have hissues : issues t.core i = false := by simp [issues, advances, hstall]
    have hmem : (t.step i).core.mem = t.core.mem := by
      show memNext t.core i = t.core.mem
      simp [memNext, hkill, hstall]
    have hexe : (t.step i).core.exe = t.core.exe := exeNext_of_fullStall hkill hstall
    have hretired : (t.step i).retired = t.retired := by simp [Updates.step, retires, hstall]
    simp [Updates.order, Updates.memEntry, hretired, hmem, hexe, hissues]
  | false =>
    have hmem : (t.step i).core.mem.valid = t.core.exe.valid ∧
        (t.step i).memEntry = ⟨t.core.exe.pc, t.core.exe.inst⟩ := by
      have hnext : (t.step i).core.mem = memNext t.core i := rfl
      simp [Updates.memEntry, hnext, memNext, hkill, hstall]
    have hretired : (t.step i).retired =
        t.retired ++ if t.core.mem.valid then [t.memEntry] else [] := by
      cases hvalid : t.core.mem.valid <;>
        simp [Updates.step, retires, hstall, htrap.1, htrap.2, hvalid]
    have hexe : (if (t.step i).core.exe.valid then
          [(⟨(t.step i).core.exe.pc, (t.step i).core.exe.inst⟩ : Entry)] else []) =
        if issues t.core i && t.core.dec.valid then [⟨t.core.dec.pc, t.core.dec.inst⟩] else [] := by
      show (if (exeNext t.core i).valid then
        [(⟨(exeNext t.core i).pc, (exeNext t.core i).inst⟩ : Entry)] else []) = _
      cases hissues : issues t.core i with
      | true =>
        rw [exeNext_of_issues hissues]
        rfl
      | false =>
        rw [(exeNext_of_not_issues hissues (Or.inr hstall)).1]
        rfl
    unfold Updates.order
    rw [hexe, hretired, hmem.1, hmem.2]

/-! ### The updates are those of the retired instructions -/

/-- The updates are those of the retired instructions. -/
structure Updates.Inv (t : Updates) : Prop where
  /-- The signals are those of the words. -/
  matched : Matched t.core
  /-- The registers. -/
  reg : t.regUpdates = t.retired.filter Entry.writes
  /-- The memory. -/
  mem : t.memLog = t.retired.filter Entry.stores

/-- What is written back after a cycle. -/
lemma wbSel_step (s : State) (i : Inputs) :
    (step s i).wb.wbSel = if fullStall s i then .x else s.mem.wbSel := by
  show (wbNext s i).wbSel = _
  cases hstall : fullStall s i <;> simp [wbNext, hstall]

/-- The updates of registers after a cycle. -/
lemma Updates.regUpdates_step (t : Updates) (i : Inputs) :
    (t.step i).regUpdates =
      t.regUpdates ++ if !fullStall t.core i && writesReg t.core.mem.wbSel then [t.memEntry] else [] := by
  have hwb := wbSel_step t.core i
  show (if writesReg (Stage5.step t.core i).wb.wbSel then t.regUpdates ++ [t.memEntry]
    else t.regUpdates) = _
  rw [hwb]
  cases hstall : fullStall t.core i with
  | true =>
    have hx : writesReg .x = false := rfl
    simp [hx]
  | false => cases hw : writesReg t.core.mem.wbSel <;> simp [hw]

/-- **An instruction that retires makes its updates** in that cycle, and one that does not makes
none. -/
lemma Updates.Inv.step_of_updates {t : Updates} {i : Inputs} (hinv : t.Inv)
    (hreg : (!fullStall t.core i && writesReg t.core.mem.wbSel) =
      (retires t.core i && t.memEntry.writes))
    (hmem : stored t.core i = (retires t.core i && t.memEntry.stores)) : (t.step i).Inv where
  matched := hinv.matched.step i
  reg := by
    rw [t.regUpdates_step i, hreg, hinv.reg]
    show _ = List.filter _ (if retires t.core i then _ else _)
    cases hr : retires t.core i with
    | false => simp
    | true => cases hw : t.memEntry.writes <;> simp [hw]
  mem := by
    show (if stored t.core i then _ else _) = List.filter _ (if retires t.core i then _ else _)
    rw [hmem, hinv.mem]
    cases hr : retires t.core i with
    | false => simp
    | true => cases hw : t.memEntry.stores <;> simp [hw]

/-- An empty memory stage writes nothing. -/
lemma Matched.idle_of_invalid (h : Matched s) (hvalid : s.mem.valid = false) :
    s.mem.wbSel = .x ∧ s.mem.memVal = false := by
  obtain ⟨hwb, hmem, -, -⟩ := csignals_bubble_idle
  rw [h.memWbSel, h.memMemVal, h.mem hvalid]
  exact ⟨hwb, hmem⟩

/-- A cycle without an exception or interrupt. -/
lemma Updates.Inv.step_of_not_traps {t : Updates} {i : Inputs} (hinv : t.Inv)
    (htrap : traps t.core i = false) : (t.step i).Inv := by
  have hmatched := hinv.matched
  simp only [traps, Bool.or_eq_false_iff] at htrap
  have hretires : retires t.core i = (!fullStall t.core i && t.core.mem.valid) := by
    simp [retires, htrap.1, htrap.2]
  have hmis : memDataMisaligned t.core = false := by
    have := htrap.1
    simp only [memException, Bool.or_eq_false_iff] at this
    exact this.2
  have hwrites : t.memEntry.writes = writesReg t.core.mem.wbSel := by
    rw [hmatched.memWbSel]
    rfl
  refine hinv.step_of_updates ?_ ?_
  · rw [hretires, hwrites]
    cases hvalid : t.core.mem.valid with
    | true => simp
    | false =>
      have hx : writesReg .x = false := rfl
      rw [(hmatched.idle_of_invalid hvalid).1, hx]
      simp
  · have hstores : t.memEntry.stores = (t.core.mem.memVal && t.core.mem.memFcn) := by
      show ((csignals t.core.mem.inst).memEn && (csignals t.core.mem.inst).memFcn) = _
      rw [← hmatched.memMemVal]
      cases hval : t.core.mem.memVal with
      | false => rfl
      | true => rw [hmatched.memMemFcn hval]
    rw [hretires, hstores, stored, dmemReqValid, hmis]
    cases hvalid : t.core.mem.valid with
    | false => simp [(hmatched.idle_of_invalid hvalid).2]
    | true =>
      cases hval : t.core.mem.memVal <;> cases hfcn : t.core.mem.memFcn <;>
        cases hdm : i.dmemValid <;> simp [fullStall, hval, hdm]

/-- An exception or interrupt that finds an instruction without an update. -/
lemma Updates.Inv.step_of_traps {t : Updates} {i : Inputs} (hinv : t.Inv)
    (htrap : traps t.core i = true) (hidle : FindsIdle t i) : (t.step i).Inv := by
  obtain ⟨-, hidle⟩ := hidle htrap
  have hretires : retires t.core i = false := by
    simp only [traps, Bool.or_eq_true] at htrap
    rcases htrap with htrap | htrap <;> simp [retires, htrap]
  refine hinv.step_of_updates ?_ ?_
  · rw [hretires]
    rcases hidle with hstall | ⟨hwrites, -⟩
    · simp [hstall]
    · simp [hwrites]
  · rw [hretires, stored, dmemReqValid]
    rcases hidle with hstall | ⟨-, hstores⟩
    · have hdm : t.core.mem.memVal = true → i.dmemValid = false := by
        intro hval
        simpa [fullStall, hval] using hstall
      cases hval : t.core.mem.memVal with
      | false => simp
      | true => simp [hdm hval]
    · cases hval : t.core.mem.memVal with
      | false => simp
      | true =>
        rw [hval] at hstores
        have hfcn : t.core.mem.memFcn = false := by simpa using hstores
        simp [hfcn]

/-- **Exceptions and interrupts are precise** in every run in which each of them finds an instruction in
the memory stage that waits for the memory, or that writes no register and is no store. -/
theorem everyCycle_precise {s : State} (hmatched : Matched s) (hwb : s.wb.wbSel = .x) (e : Entry)
    {is : List Inputs} (hrun : EveryCycle Updates.step FindsIdle ⟨s, [], [], [], e⟩ is) :
    EveryCycle Updates.step Precise ⟨s, [], [], [], e⟩ is := by
  have hinit : Updates.Inv ⟨s, [], [], [], e⟩ := by
    refine ⟨hmatched, ?_, rfl⟩
    show (if writesReg s.wb.wbSel then _ else []) = []
    rw [hwb]
    rfl
  have hstep : ∀ (t : Updates) (i : Inputs), t.Inv → FindsIdle t i → (t.step i).Inv := by
    intro t i hinv hidle
    cases htrap : traps t.core i with
    | true => exact hinv.step_of_traps htrap hidle
    | false => exact hinv.step_of_not_traps htrap
  refine EveryCycle.of_invariant Updates.Inv hstep ?_ hinit hrun
  intro t i hinv hidle htrap
  have hnext := hstep t i hinv hidle
  have hretired : (t.step i).retired = t.retired := by
    have hretires : retires t.core i = false := by
      simp only [traps, Bool.or_eq_true] at htrap
      rcases htrap with htrap | htrap <;> simp [retires, htrap]
    simp [Updates.step, hretires]
  refine ⟨(hidle htrap).1, ?_, ?_⟩
  · rw [hnext.reg, hretired]
  · rw [hnext.mem, hretired]

/-- The signals after a reset. -/
lemma matched_reset (vector : BitVec 64) : Matched (reset vector) := by
  obtain ⟨hwb, hmem, hfcn, hcsr⟩ := csignals_bubble_idle
  constructor <;> simp [reset, hwb, hmem, hfcn, hcsr]

instance (t : Updates) (i : Inputs) : Decidable (Precise t i) := inferInstanceAs (Decidable (_ → _ ∧ _))

instance (t : Updates) (i : Inputs) : Decidable (FindsIdle t i) :=
  inferInstanceAs (Decidable (_ → _ ∧ _))

/-- `addi rd1, rd0, -1` and `swym`, and an interrupt after some cycles. -/
def addInterrupt (cycles : Nat) : List Inputs :=
  [feed 0x19040fff true false, feed 0x10000000 true false] ++
    List.replicate cycles (await true false) ++ [await true true]

/-- The interrupt finds the `swym` in the memory stage. -/
theorem everyCycle_precise_swym :
    EveryCycle Updates.step Precise ⟨reset 0x10000, [], [], [], ⟨0, 0⟩⟩ (addInterrupt 2) :=
  everyCycle_precise (matched_reset _) rfl _ (by decide +kernel)

/-- **An interrupt that finds the addition in the memory stage** records its address, and the addition
still writes its register. -/
theorem not_precise_add :
    ¬ ∀ is : List Inputs,
      EveryCycle Updates.step Precise ⟨reset 0x10000, [], [], [], ⟨0, 0⟩⟩ is := by
  intro hall
  have hrun := hall (addInterrupt 1)
  revert hrun
  decide +kernel

end Stage5

end Wuming

end Dadao
