import Dadao.Wuming.Stage1Single
import Dadao.Wuming.Stage5Fetch
import Dadao.Wuming.Stage5Precise

set_option relaxedAutoImplicit false
set_option autoImplicit false

/-!
# One word in the five-stage core

A word goes through the empty pipeline, with any latency of its fetch and of its data access, and no
interrupt is pending. What it leaves is said without the cycles it takes.

## Main definitions

* `Dadao.Wuming.Stage5.Single` — the core with its memory and the exceptions it has raised.
* `Dadao.Wuming.Stage5.Executes` — a word goes through the empty pipeline.
* `Dadao.Wuming.Stage5.single` — the outcome of a word.

## Main results

* `Dadao.Wuming.Stage5.Executes.eq_single` — every latency leaves this outcome.
-/

namespace Dadao

namespace Wuming

namespace Stage5

open Clocked

/-! ### The core with its memory -/

/-- The ports that answer in a cycle. -/
structure Turn where
  /-- The fetch port answers. -/
  imem : Bool
  /-- The data port answers, if it is asked. -/
  dmem : Bool

/-- The core with its memory and the exceptions it has raised. -/
structure Single (μ : Type) where
  /-- The core. -/
  core : State
  /-- The memory. -/
  mem : μ
  /-- The exceptions. -/
  causes : List Cause

variable {μ : Type} (bus : Stage1.Bus μ) (evec : Cause → BitVec 64)

/-- The inputs of a cycle, without an interrupt. -/
def Single.inputs (x : Single μ) (c : Turn) : Inputs where
  imemValid := imemReqValid x.core && c.imem
  imemData := bus.fetch x.mem x.core.ifPc
  dmemValid := dmemReqValid x.core && c.dmem
  dmemData := (bus.access x.mem (dmemReq x.core)).1
  csrInterrupt := false
  csrEret := false
  csrEvec := evec (memExceptionCause x.core)
  csrRdata := 0

/-- A cycle. -/
def Single.step (x : Single μ) (c : Turn) : Single μ where
  core := Stage5.step x.core (x.inputs bus evec c)
  mem := if dmemReqValid x.core && c.dmem then (bus.access x.mem (dmemReq x.core)).2 else x.mem
  causes := if memException x.core then x.causes ++ [memExceptionCause x.core] else x.causes

/-- The registers a program sees. -/
def State.arch (s : State) : Arch := ⟨s.ifPc, s.rd, s.rb, s.rf, s.ras⟩

/-- No port answers. -/
def idle : Turn := ⟨false, false⟩

/-- The cycles of a word: its fetch, decode and execute, its data access and write back. -/
def turns (fetchWait dataWait : ℕ) : List Turn :=
  List.replicate fetchWait idle ++ [⟨true, false⟩, idle, idle] ++ List.replicate dataWait idle ++
    [⟨false, true⟩, idle]

/-! ### Stages without an instruction -/

/-- A decode stage without an instruction. -/
def Dec.Idle (d : Dec) : Prop := d.valid = false ∧ d.inst = bubble

/-- An execute stage without an instruction. -/
def Exe.Idle (e : Exe) : Prop := e.cfType = .x ∧ e.wbSel = .x ∧ e.memVal = false

/-- A memory stage without an instruction. -/
def Mem.Idle (m : Mem) : Prop := m.wbSel = .x ∧ m.memVal = false

/-- The destinations of a bubble. -/
structure NoDest (s : State) : Prop where
  /-- The execute stage. -/
  exe : s.exeDest.wbRf = .x2 ∧ s.exeDest.wb2Rf = .x2
  /-- The memory stage. -/
  mem : s.memDest.wbRf = .x2 ∧ s.memDest.wb2Rf = .x2
  /-- The write back stage. -/
  wb : s.wbDest.wbRf = .x2 ∧ s.wbDest.wb2Rf = .x2

/-- No word waits in decode or is fetched, and none can stall there. -/
structure Behind (s : State) : Prop where
  /-- The instruction buffer. -/
  buffer : s.ifBuffer = none
  /-- The decode stage. -/
  dec : s.dec.Idle
  /-- The destinations. -/
  named : Named s
  /-- No CSR is accessed. -/
  isCsr : s.exeIsCsr = false

/-- No instruction is in decode, execute or the memory stage. -/
structure Empty (s : State) : Prop extends Behind s where
  /-- The execute stage. -/
  exe : s.exe.Idle
  /-- The memory stage. -/
  mem : s.mem.Idle
  /-- No illegal word was in decode. -/
  illegal : s.exeIllegal = false
  /-- No illegal word was in execute. -/
  except : s.regExcept = false
  /-- No fence was in decode. -/
  fence : s.regFencei = false

/-- **A drained pipeline.** -/
structure Drained (s : State) : Prop extends Empty s where
  /-- The write back stage. -/
  wb : s.wb.wbSel = .x
  /-- The buffer of the address. -/
  pcBuffer : s.ifPcBuffer = none
  /-- Nothing that is fetched is dropped. -/
  killed : s.ifKilled = false
  /-- The destinations. -/
  dest : NoDest s

/-- **A word goes through the drained pipeline**, with some latencies of the memories. -/
def Executes (a : Arch) (m : μ) (o : Outcome μ) : Prop :=
  ∃ (s : State) (fetchWait dataWait : ℕ) (x : Single μ), Drained s ∧ s.arch = a ∧
    Clocked.run (Single.step bus evec) ⟨s, m, []⟩ (turns fetchWait dataWait) = x ∧
      o = ⟨x.causes.head?, x.core.arch, x.mem⟩

/-! ### Cycles without a fetch -/

variable {s : State} {i : Inputs}

/-- The inputs of a cycle without a fetch and without an interrupt. -/
structure Lull (i : Inputs) : Prop where
  /-- No word arrives. -/
  imem : i.imemValid = false
  /-- No interrupt is pending. -/
  interrupt : i.csrInterrupt = false
  /-- No return from a trap. -/
  eret : i.csrEret = false

/-- Only an exception kills. -/
lemma Lull.pipelineKill_eq (h : Lull i) (s : State) : pipelineKill s i = memException s := by
  simp [pipelineKill, interruptEdge, h.interrupt, h.eret]

/-- An empty memory stage has no misaligned access and does not stall. -/
lemma Mem.Idle.quiet (h : s.mem.Idle) (i : Inputs) :
    memDataMisaligned s = false ∧ fullStall s i = false := by
  simp [memDataMisaligned, fullStall, h.2]

/-- The words behind do not stall. -/
lemma Behind.hazard_eq (h : Behind s) : hazard s = false :=
  (h.named.hazard_of_bubble h.dec.2).trans h.isCsr

/-- The word in decode as it would enter execute. -/
lemma Behind.decoded_idle (h : Behind s) : (decoded s).Idle ∧ (cs s).fencei = false ∧
    (cs s).csrCmd = .n ∧ (cs s).regGrp ≠ .rasPush ∧ (cs s).regGrp ≠ .rasPop := by
  have hcs : cs s = csignals bubble := by rw [cs, h.dec.2]
  have hbubble : (csignals bubble).ctrlFlow = .x ∧ (csignals bubble).wbSel = .x ∧
      (csignals bubble).memEn = false ∧ (csignals bubble).fencei = false ∧
      (csignals bubble).csrCmd = .n ∧ (csignals bubble).regGrp ≠ .rasPush ∧
      (csignals bubble).regGrp ≠ .rasPop := by decide
  obtain ⟨hflow, hwb, hmem, hrest⟩ := hbubble
  refine ⟨⟨?_, ?_, ?_⟩, ?_⟩
  · exact (congrArg (fun c => c.ctrlFlow) hcs).trans hflow
  · exact (congrArg (fun c => c.wbSel) hcs).trans hwb
  · exact (congrArg (fun c => c.memEn) hcs).trans hmem
  · rw [hcs]
    exact hrest

/-- **What stays behind** in a cycle without a fetch. -/
lemma Behind.step (h : Behind s) (hlull : Lull i) : Behind (step s i) where
  buffer := by
    show queueNext s.ifBuffer i.imemValid _ _ = none
    rw [h.buffer, hlull.imem]
    rfl
  dec := by
    show (decNext s i).Idle
    unfold decNext
    rw [h.buffer, hlull.imem]
    split_ifs
    all_goals first | exact ⟨rfl, rfl⟩ | exact h.dec | contradiction
  named := h.named.step i
  isCsr := by
    show (if _ then if _ then false else (cs s).csrCmd != CsrCmd.n && (cs s).csrCmd != CsrCmd.i
      else if _ then false else s.exeIsCsr) = false
    rw [h.decoded_idle.2.2.1, h.isCsr]
    split_ifs <;> rfl

/-- The words behind do not move the stack. -/
lemma Behind.ras_step (h : Behind s) : (Stage5.step s i).ras = s.ras := by
  obtain ⟨-, -, -, hpush, hpop⟩ := h.decoded_idle
  have hpush' : rasPush s i = false := by simp [rasPush, hpush]
  have hpop' : rasPop s i = false := by simp [rasPop, hpop]
  show s.ras.step (rasPush s i) (rasPop s i) _ = s.ras
  rw [hpush', hpop']
  rfl

/-- An empty execute stage does not redirect the fetch. -/
lemma Exe.Idle.branchSel_eq {e : Exe} (h : e.Idle) : branchSel e = .plus4 := branchSel_of_x h.1

/-- The execute stage after a cycle in which it moves on. -/
lemma Behind.exe_step (h : Behind s) (hlull : Lull i)
    (hmove : memException s = true ∨ fullStall s i = false) : (Stage5.step s i).exe.Idle := by
  show (exeNext s i).Idle
  cases hissues : issues s i with
  | true =>
    rw [exeNext_of_issues hissues]
    exact h.decoded_idle.1
  | false =>
    have hexe := exeNext_of_not_issues hissues (by rwa [hlull.pipelineKill_eq])
    exact ⟨hexe.2.2.1, hexe.2.2.2.1, hexe.2.2.2.2⟩

/-- **The empty stages stay empty**, and what is in write back is written. -/
lemma Empty.step (h : Empty s) (hlull : Lull i) :
    Empty (Stage5.step s i) ∧ (Stage5.step s i).wb.wbSel = .x ∧ (Stage5.step s i).ras = s.ras ∧
      (Stage5.step s i).ifPc = s.ifPc ∧ (Stage5.step s i).regs = s.regs.write s.wb := by
  obtain ⟨hmis, hstall⟩ := h.mem.quiet i
  have hexc : memException s = false := by simp [memException, h.except, hmis]
  have hkill : pipelineKill s i = false := (hlull.pipelineKill_eq s).trans hexc
  have hsel : exePcSel s i = .plus4 := (exePcSel_eq hkill).trans h.exe.branchSel_eq
  have hadv : advances s i = true := by simp [advances, h.toBehind.hazard_eq, hstall]
  have hdecKill : decKill s i = false := by simp [decKill, hsel]
  obtain ⟨-, hfencei, -⟩ := h.toBehind.decoded_idle
  refine ⟨⟨h.toBehind.step hlull, h.toBehind.exe_step hlull (Or.inr hstall), ?_, ?_, ?_, ?_⟩, ?_, ?_, ?_,
    rfl⟩
  · show (memNext s i).Idle
    simp only [memNext, hkill, hstall]
    exact ⟨h.exe.2.1, h.exe.2.2⟩
  · show (if i.csrEret then false else if advances s i then if decKill s i then false
      else !(cs s).valInst && s.dec.valid else _) = false
    rw [hadv, hdecKill, h.dec.1]
    simp
  · show (s.exeIllegal && !i.csrEret) = false
    rw [h.illegal]
    rfl
  · exact hfencei
  · show (wbNext s i).wbSel = .x
    simp [wbNext, hstall, h.mem.1]
  · exact h.toBehind.ras_step
  · rw [ifPc_step hkill]
    simp [ifInFire, hlull.imem, ifKill, hsel, hfencei, h.fence]

/-! ### The stages of a word -/

/-- A word in decode, in front of an empty pipeline. -/
structure InDecode (word : BitVec 32) (a : Arch) (s : State) : Prop where
  /-- The instruction buffer. -/
  buffer : s.ifBuffer = none
  /-- The decode stage. -/
  dec : s.dec = ⟨true, word, a.pc⟩
  /-- The word that is fetched next. -/
  ifPc : s.ifPc = a.pc + 4
  /-- The registers. -/
  regs : s.regs = ⟨a.rd, a.rb, a.rf⟩
  /-- The return address stack. -/
  ras : s.ras = a.ras
  /-- The destinations. -/
  dest : NoDest s
  /-- No CSR is accessed. -/
  isCsr : s.exeIsCsr = false
  /-- The execute stage. -/
  exe : s.exe.Idle
  /-- The memory stage. -/
  mem : s.mem.Idle
  /-- The write back stage. -/
  wb : s.wb.wbSel = .x
  /-- No illegal word was in decode. -/
  illegal : s.exeIllegal = false
  /-- No illegal word was in execute. -/
  except : s.regExcept = false
  /-- No fence was in decode. -/
  fence : s.regFencei = false

/-- Stages without a destination stall no word. -/
lemma NoDest.hazard_eq (h : NoDest s) : hazard s = s.exeIsCsr := by
  have hits : ∀ d : Dest, d.wbRf = .x2 ∧ d.wb2Rf = .x2 → ∀ (a : BitVec 6) (file : Rf), file ≠ .x2 →
      d.hits1 a file = false ∧ d.hits2 a file = false := by
    intro d hd a file hfile
    simp [Dest.hits1, Dest.hits2, hd.1, hd.2, hfile.symm]
  have hop1 : decOp1Rf s ≠ .x2 := by
    unfold decOp1Rf
    split <;> decide
  have hop2 : decOp2Rf s ≠ .x2 := by
    unfold decOp2Rf
    split <;> decide
  have hcond1 : decCond1Rf s ≠ .x2 := by
    unfold decCond1Rf
    split <;> decide
  have hcond2 : decCond2Rf s ≠ .x2 := by
    unfold decCond2Rf
    split <;> decide
  have hst : decStRf s ≠ .x2 := by
    unfold decStRf
    split_ifs
    · split <;> decide
    · decide
  unfold hazard
  simp [hits _ h.exe _ _ hop1, hits _ h.mem _ _ hop1, hits _ h.wb _ _ hop1,
    hits _ h.exe _ _ hop2, hits _ h.mem _ _ hop2, hits _ h.wb _ _ hop2,
    hits _ h.exe _ _ hcond1, hits _ h.mem _ _ hcond1, hits _ h.wb _ _ hcond1,
    hits _ h.exe _ _ hcond2, hits _ h.mem _ _ hcond2, hits _ h.wb _ _ hcond2,
    hits _ h.exe _ _ hst, hits _ h.mem _ _ hst, hits _ h.wb _ _ hst]

/-- The destinations after a cycle that decodes a bubble. -/
lemma NoDest.step (h : NoDest s) (hwb : (cs s).wbSel = .x) (i : Inputs) : NoDest (step s i) := by
  have hnone : Dest.none.wbRf = .x2 ∧ Dest.none.wb2Rf = .x2 := ⟨rfl, rfl⟩
  have hdec : (decDest s).wbRf = .x2 ∧ (decDest s).wb2Rf = .x2 := by simp [decDest, hwb]
  refine ⟨?_, ?_, ?_⟩
  · show Dest.wbRf (if _ then _ else _) = _ ∧ Dest.wb2Rf (if _ then _ else _) = _
    split_ifs
    · exact hnone
    · exact hdec
    · exact hnone
    · exact h.exe
  · show Dest.wbRf (if _ then _ else _) = _ ∧ Dest.wb2Rf (if _ then _ else _) = _
    split_ifs
    · exact h.exe
    · exact h.mem
  · show Dest.wbRf (if _ then _ else _) = _ ∧ Dest.wb2Rf (if _ then _ else _) = _
    split_ifs
    · exact h.mem
    · exact h.wb

/-- The registers and the address of the next word. -/
lemma State.arch_eq {t : State} (hpc : t.ifPc = s.ifPc) (hregs : t.regs = s.regs) (hras : t.ras = s.ras) :
    t.arch = s.arch := by
  have hrd := congrArg Regs.rd hregs
  have hrb := congrArg Regs.rb hregs
  have hrf := congrArg Regs.rf hregs
  simp only [State.regs] at hrd hrb hrf
  simp only [State.arch, hpc, hras, hrd, hrb, hrf]

/-- **A drained pipeline stays drained** while no word is fetched. -/
lemma Drained.step (h : Drained s) (hlull : Lull i) :
    Drained (Stage5.step s i) ∧ (Stage5.step s i).arch = s.arch := by
  obtain ⟨hempty, hwb, hras, hpc, hregs⟩ := h.toEmpty.step hlull
  obtain ⟨⟨-, hsel, -⟩, hfencei, -⟩ := h.toBehind.decoded_idle
  obtain ⟨hmis, hstall⟩ := h.mem.quiet i
  have hexc : memException s = false := by simp [memException, h.except, hmis]
  have hkill : pipelineKill s i = false := (hlull.pipelineKill_eq s).trans hexc
  have hpcSel : exePcSel s i = .plus4 := (exePcSel_eq hkill).trans h.exe.branchSel_eq
  refine ⟨⟨hempty, hwb, ?_, ?_, h.dest.step hsel i⟩, State.arch_eq hpc ?_ hras⟩
  · show queueNext s.ifPcBuffer i.imemValid _ _ = none
    rw [h.pcBuffer, hlull.imem]
    rfl
  · rw [ifKilled_step hkill]
    simp [h.killed, ifKill, hpcSel, hfencei, h.fence]
  · rw [hregs, Regs.write_of_x _ h.wb]

/-- **The word arrives** in decode. -/
lemma Drained.fetch (h : Drained s) (hvalid : i.imemValid = true) (hinterrupt : i.csrInterrupt = false)
    (heret : i.csrEret = false) : InDecode i.imemData s.arch (Stage5.step s i) := by
  obtain ⟨⟨hflow, hsel, hmem⟩, hfencei, hcmd, hpush, hpop⟩ := h.toBehind.decoded_idle
  obtain ⟨hmis, hstall⟩ := h.mem.quiet i
  have hkill : pipelineKill s i = false := by
    simp [pipelineKill, interruptEdge, hinterrupt, heret, memException, h.except, hmis]
  have hpcSel : exePcSel s i = .plus4 := (exePcSel_eq hkill).trans h.exe.branchSel_eq
  have hhaz : hazard s = false := h.toBehind.hazard_eq
  have hadv : advances s i = true := by simp [advances, hhaz, hstall]
  have hdecKill : decKill s i = false := by simp [decKill, hpcSel]
  have hifKill : ifKill s i = false := by simp [ifKill, hpcSel, hfencei, h.fence]
  have hissues : issues s i = true := by simp [issues, hadv, hdecKill, hkill]
  constructor
  · show queueNext s.ifBuffer _ _ _ = none
    rw [h.buffer, hadv, hvalid]
    rfl
  · show decNext s i = _
    simp [decNext, hkill, hadv, hifKill, h.killed, hvalid, ifOutBits, h.buffer, ifPcOutBits, h.pcBuffer,
      State.arch]
  · rw [ifPc_step hkill]
    simp [ifInFire, hvalid, h.buffer, h.killed, ifPcNext, hpcSel, hfencei, h.fence, State.arch]
  · show s.regs.write s.wb = _
    rw [Regs.write_of_x _ h.wb]
    rfl
  · have hpush' : rasPush s i = false := by simp [rasPush, hpush]
    have hpop' : rasPop s i = false := by simp [rasPop, hpop]
    show s.ras.step (rasPush s i) (rasPop s i) _ = s.ras
    rw [hpush', hpop']
    rfl
  · exact h.dest.step hsel i
  · simp [Stage5.step, hadv, hdecKill, hcmd]
  · show (exeNext s i).Idle
    rw [exeNext_of_issues hissues]
    exact ⟨hflow, hsel, hmem⟩
  · show (memNext s i).Idle
    simp only [memNext, hkill, hstall]
    exact ⟨h.exe.2.1, h.exe.2.2⟩
  · show (wbNext s i).wbSel = .x
    simp [wbNext, hstall, h.mem.1]
  · simp [Stage5.step, hadv, hdecKill, heret, h.dec.1]
  · show (s.exeIllegal && !i.csrEret) = false
    rw [h.illegal]
    rfl
  · exact hfencei

/-- The registers of a state a program sees. -/
def archRegs (a : Arch) : Regs := ⟨a.rd, a.rb, a.rf⟩

/-- The address a word leads to. -/
def nextPc (word : BitVec 32) (a : Arch) : BitVec 64 :=
  if (csignals word).ctrlFlow = .ret then a.ras.popData else successor word a.pc (archRegs a)

/-- The return address stack after a word. -/
def nextRas (word : BitVec 32) (a : Arch) : ReturnStack :=
  a.ras.step ((csignals word).regGrp == .rasPush) ((csignals word).regGrp == .rasPop) (a.pc + 4)

/-- A word in execute, in front of an empty pipeline. -/
structure InExe (word : BitVec 32) (a : Arch) (s : State) : Prop extends Behind s where
  /-- The execute stage. -/
  exe : s.exe = decodedWord word a.pc (archRegs a)
  /-- The word that is fetched next. -/
  ifPc : s.ifPc = a.pc + 4
  /-- The registers. -/
  regs : s.regs = archRegs a
  /-- The return address stack. -/
  ras : s.ras = nextRas word a
  /-- The target of a return. -/
  retTarget : s.exeRetTarget = a.ras.popData
  /-- The memory stage. -/
  mem : s.mem.Idle
  /-- The write back stage. -/
  wb : s.wb.wbSel = .x
  /-- The word is illegal. -/
  illegal : s.exeIllegal = !(csignals word).valInst
  /-- No illegal word was in execute. -/
  except : s.regExcept = false

/-- A word in the memory stage, in front of an empty pipeline. -/
structure InMem (word : BitVec 32) (a : Arch) (s : State) : Prop extends Behind s where
  /-- The execute stage. -/
  exe : s.exe.Idle
  /-- The memory stage. -/
  mem : s.mem = executed { reset 0 with exe := decodedWord word a.pc (archRegs a) }
  /-- The word that is fetched next. -/
  ifPc : s.ifPc = nextPc word a
  /-- The registers. -/
  regs : s.regs = archRegs a
  /-- The return address stack. -/
  ras : s.ras = nextRas word a
  /-- The write back stage. -/
  wb : s.wb.wbSel = .x
  /-- No illegal word was in decode. -/
  illegal : s.exeIllegal = false
  /-- The word is illegal. -/
  except : s.regExcept = !(csignals word).valInst
  /-- The cause is that it is illegal. -/
  cause : s.regIllegal = !(csignals word).valInst
  /-- No fence was in decode. -/
  fence : s.regFencei = false

/-- A word that gives the CSR file no command: neither a coprocessor access nor a trap or an escape. -/
def PlainWord (word : BitVec 32) : Prop := (csignals word).csrCmd = .n

instance (word : BitVec 32) : Decidable (PlainWord word) := inferInstanceAs (Decidable (_ = _))

variable {word : BitVec 32} {a : Arch}

/-- **The word goes from decode to execute.** -/
lemma InDecode.step (h : InDecode word a s) (hword : PlainWord word) (hlull : Lull i) :
    InExe word a (Stage5.step s i) := by
  have hcs : cs s = csignals word := by rw [cs, h.dec]
  obtain ⟨hmis, hstall⟩ := h.mem.quiet i
  have hkill : pipelineKill s i = false := by
    rw [hlull.pipelineKill_eq, memException, h.except, hmis]
    rfl
  have hpcSel : exePcSel s i = .plus4 := (exePcSel_eq hkill).trans h.exe.branchSel_eq
  have hhaz : hazard s = false := h.dest.hazard_eq.trans h.isCsr
  have hadv : advances s i = true := by simp [advances, hhaz, hstall]
  have hdecKill : decKill s i = false := by simp [decKill, hpcSel]
  have hissues : issues s i = true := by simp [issues, hadv, hdecKill, hkill]
  have hnamed : Named s := by
    have hne : (Rf.x2 : Rf) ≠ .x := by decide
    refine ⟨?_, ?_, ?_⟩
    · exact ⟨h.dest.exe.1 ▸ hne, h.dest.exe.2 ▸ hne⟩
    · exact ⟨h.dest.mem.1 ▸ hne, h.dest.mem.2 ▸ hne⟩
    · exact ⟨h.dest.wb.1 ▸ hne, h.dest.wb.2 ▸ hne⟩
  refine ⟨⟨?_, ?_, hnamed.step i, ?_⟩, ?_, ?_, ?_, ?_, ?_, ?_, ?_, ?_, ?_⟩
  · show queueNext s.ifBuffer i.imemValid _ _ = none
    rw [h.buffer, hlull.imem]
    rfl
  · show (decNext s i).Idle
    unfold decNext
    rw [h.buffer, hlull.imem, hkill, hadv]
    split_ifs
    all_goals first | exact ⟨rfl, rfl⟩ | contradiction
  · have hcmd : (cs s).csrCmd = .n := by rw [hcs]; exact hword
    simp [Stage5.step, hadv, hdecKill, hcmd]
  · show exeNext s i = _
    rw [exeNext_of_issues hissues]
    calc decoded s = decoded ({ reset 0 with dec := s.dec }.withRegs s.regs) := rfl
      _ = _ := by
        rw [h.dec, h.regs]
        rfl
  · rw [ifPc_step hkill]
    cases hfence : (cs s).fencei with
    | false => simp [ifInFire, hlull.imem, ifKill, hpcSel, hfence, h.fence, h.ifPc]
    | true => simp [ifKill, ifPcNext, hpcSel, hfence, hhaz, hstall, hkill, h.ifPc]
  · show s.regs.write s.wb = _
    rw [Regs.write_of_x _ h.wb, h.regs]
    rfl
  · have hpush := rasPush_of_issues hissues
    have hpop := rasPop_of_issues hissues
    show s.ras.step (rasPush s i) (rasPop s i) (s.dec.pc + 4) = _
    rw [hpush, hpop, h.dec, h.ras]
    rfl
  · show s.ras.popData = _
    rw [h.ras]
  · show (memNext s i).Idle
    simp only [memNext, hkill, hstall]
    exact ⟨h.exe.2.1, h.exe.2.2⟩
  · show (wbNext s i).wbSel = .x
    simp [wbNext, hstall, h.mem.1]
  · simp [Stage5.step, hadv, hdecKill, hlull.eret, hcs, h.dec]
  · show (s.exeIllegal && !i.csrEret) = false
    rw [h.illegal]
    rfl

/-- A word read from its own registers has fresh sources. -/
lemma branchTarget_decodedWord (hret : (csignals word).ctrlFlow ≠ .ret) (pc : BitVec 64) (r : Regs) :
    branchTarget (decodedWord word pc r) = successor word pc r := by
  have hfresh : FreshSources ({ reset 0 with dec := ⟨true, word, pc⟩ }.withRegs r) r :=
    ⟨rfl, rfl, fun _ => rfl, fun _ => rfl, fun _ => rfl⟩
  exact hfresh.leads hret

/-- The fetch goes on where the word in execute leads. -/
lemma InExe.ifPc_step (h : InExe word a s) (hlull : Lull i) (hkill : pipelineKill s i = false)
    (hstall : fullStall s i = false) : (Stage5.step s i).ifPc = nextPc word a := by
  have hsel : exePcSel s i = branchSel (decodedWord word a.pc (archRegs a)) := by
    rw [exePcSel_eq hkill, h.exe]
  have hcf : s.exe.cfType = (csignals word).ctrlFlow := by
    rw [h.exe]
    rfl
  obtain ⟨-, hfencei, -⟩ := h.toBehind.decoded_idle
  rw [Stage5.ifPc_step hkill]
  by_cases hret : (csignals word).ctrlFlow = .ret
  · have hrasp : exePcSel s i = .rasp := by
      rw [exePcSel_eq hkill, branchSel, hcf, hret]
    simp [ifKill, hrasp, ifPcNext, nextPc, hret, h.retTarget]
  · have htarget := branchTarget_decodedWord hret a.pc (archRegs a)
    rw [nextPc, if_neg hret, ← htarget]
    by_cases hplus : branchSel (decodedWord word a.pc (archRegs a)) = .plus4
    · rw [hplus] at hsel
      have hnext : branchTarget (decodedWord word a.pc (archRegs a)) = a.pc + 4 := by
        rw [branchTarget, hplus]
        rfl
      rw [hnext]
      cases hfence : s.regFencei with
      | false => simp [ifInFire, hlull.imem, ifKill, hsel, hfencei, hfence, h.ifPc]
      | true =>
        simp [ifKill, ifPcNext, hsel, hfencei, hfence, h.toBehind.hazard_eq, hstall, hkill, h.ifPc]
    · have hkill' : ifKill s i = true := by simp [ifKill, hsel, hplus]
      rw [hkill', if_pos (by simp), ifPcNext_eq hkill (by rw [h.exe]; exact hplus) (by rw [hcf]; exact hret),
        h.exe]

/-- **The word goes from execute to the memory stage.** -/
lemma InExe.step (h : InExe word a s) (hlull : Lull i) : InMem word a (Stage5.step s i) := by
  obtain ⟨hmis, hstall⟩ := h.mem.quiet i
  have hkill : pipelineKill s i = false := by
    rw [hlull.pipelineKill_eq, memException, h.except, hmis]
    rfl
  have hadv : advances s i = true := by simp [advances, h.toBehind.hazard_eq, hstall]
  refine ⟨h.toBehind.step hlull, h.toBehind.exe_step hlull (Or.inr hstall), ?_,
    h.ifPc_step hlull hkill hstall, ?_, ?_, ?_, ?_, ?_, ?_, ?_⟩
  · have hmem : (Stage5.step s i).mem = executed s := by
      show memNext s i = executed s
      simp [memNext, hkill, hstall, executed]
    rw [hmem]
    calc executed s = executed { reset 0 with exe := s.exe } := rfl
      _ = _ := by rw [h.exe]
  · show s.regs.write s.wb = _
    rw [Regs.write_of_x _ h.wb, h.regs]
  · rw [h.toBehind.ras_step, h.ras]
  · show (wbNext s i).wbSel = .x
    simp [wbNext, hstall, h.mem.1]
  · cases hdk : decKill s i <;> simp [Stage5.step, hadv, hdk, h.dec.1]
  · show (s.exeIllegal && !i.csrEret) = _
    rw [h.illegal, hlull.eret, Bool.not_false, Bool.and_true]
  · exact h.illegal
  · exact h.toBehind.decoded_idle.2.1

/-- The word in the memory stage. -/
def memWord (word : BitVec 32) (a : Arch) : Mem :=
  executed { reset 0 with exe := decodedWord word a.pc (archRegs a) }

/-- The access of the word is misaligned. -/
def misaligned (word : BitVec 32) (a : Arch) : Bool :=
  memDataMisaligned { reset 0 with mem := memWord word a }

/-- The exception the word raises. -/
def fault (a : Arch) (word : BitVec 32) : Option Cause :=
  if !(csignals word).valInst then some .illegalInstruction
  else if misaligned word a then
    some (if (csignals word).memFcn then .misalignedStore else .misalignedLoad)
  else none

/-- The access of the word in the memory stage is misaligned. -/
lemma InMem.misaligned_eq (h : InMem word a s) : memDataMisaligned s = misaligned word a := by
  calc memDataMisaligned s = memDataMisaligned { reset 0 with mem := s.mem } := rfl
    _ = misaligned word a := by
      rw [h.mem]
      rfl

/-- The exception in the memory stage. -/
lemma InMem.exception_eq (h : InMem word a s) :
    (if memException s then some (memExceptionCause s) else none) = fault a word := by
  have hfcn : s.mem.memFcn = (csignals word).memFcn := by
    rw [h.mem]
    rfl
  rw [memException, memExceptionCause, h.except, h.cause, h.misaligned_eq, hfcn, fault]
  cases (csignals word).valInst <;> cases misaligned word a <;> rfl

/-- An illegal word does nothing. -/
lemma idle_of_illegal (h : (csignals word).valInst = false) :
    (csignals word).wbSel = .x ∧ (csignals word).memEn = false := by
  revert h
  unfold csignals
  cases Insn.decode word with
  | none => decide
  | some insn => cases insn <;> decide

/-- **The word raises an exception** and is killed. -/
lemma InMem.raise (h : InMem word a s) (hlull : Lull i) (hexc : memException s = true)
    (hanswer : i.dmemValid = true → dmemReqValid s = true) :
    Empty (Stage5.step s i) ∧ (Stage5.step s i).wb.wbSel = .x ∧
      (Stage5.step s i).arch = { a with pc := i.csrEvec, ras := nextRas word a } := by
  have hkill : pipelineKill s i = true := (hlull.pipelineKill_eq s).trans hexc
  have hsel : exePcSel s i = .excp := by simp [exePcSel, hkill]
  have hdecKill : decKill s i = true := by simp [decKill, hsel]
  have hhaz := h.toBehind.hazard_eq
  have hregs : (Stage5.step s i).regs = archRegs a := by
    show s.regs.write s.wb = _
    rw [Regs.write_of_x _ h.wb, h.regs]
  refine ⟨⟨h.toBehind.step hlull, h.toBehind.exe_step hlull (Or.inl hexc), ?_, ?_, ?_,
    h.toBehind.decoded_idle.2.1⟩, ?_, ?_⟩
  · show (memNext s i).Idle
    simp [memNext, hkill, Mem.Idle]
  · cases hadv : advances s i <;> simp [Stage5.step, hadv, hdecKill, hhaz, h.illegal]
  · show (s.exeIllegal && !i.csrEret) = false
    rw [h.illegal]
    rfl
  · -- an illegal word writes nothing, and a misaligned access is not answered
    rw [wbSel_step]
    cases hval : (csignals word).valInst with
    | false =>
      have hwb : s.mem.wbSel = .x := by
        rw [h.mem]
        exact (idle_of_illegal hval).1
      rw [hwb, ite_self]
    | true =>
      have hmis : memDataMisaligned s = true := by
        rw [memException, h.except, hval] at hexc
        exact hexc
      have hmemVal : s.mem.memVal = true := by
        simp only [memDataMisaligned, Bool.and_eq_true] at hmis
        exact hmis.2
      have hdm : i.dmemValid = false := by
        cases hd : i.dmemValid with
        | false => rfl
        | true =>
          have := hanswer hd
          simp [dmemReqValid, hmis] at this
      rw [if_pos (by simp [fullStall, hmemVal, hdm])]
  · have hpc : (Stage5.step s i).ifPc = i.csrEvec := by
      show (if _ || ifKill s i || pipelineKill s i then ifPcNext s i else s.ifPc) = _
      simp [hkill, ifPcNext, hsel]
    have hras : (Stage5.step s i).ras = nextRas word a := by rw [h.toBehind.ras_step, h.ras]
    have hrd := congrArg Regs.rd hregs
    have hrb := congrArg Regs.rb hregs
    have hrf := congrArg Regs.rf hregs
    simp only [State.regs] at hrd hrb hrf
    simp only [State.arch, hpc, hras, hrd, hrb, hrf]
    rfl

/-- **The word waits for the memory.** -/
lemma InMem.wait (h : InMem word a s) (hlull : Lull i) (hexc : memException s = false)
    (hstall : fullStall s i = true) : InMem word a (Stage5.step s i) := by
  have hkill : pipelineKill s i = false := (hlull.pipelineKill_eq s).trans hexc
  have hval : (csignals word).valInst = true := by
    rw [memException, h.except, Bool.or_eq_false_iff] at hexc
    simpa using hexc.1
  have hsel : exePcSel s i = .plus4 := (exePcSel_eq hkill).trans h.exe.branchSel_eq
  obtain ⟨-, hfencei, -⟩ := h.toBehind.decoded_idle
  have hadv : advances s i = false := by simp [advances, hstall]
  refine ⟨h.toBehind.step hlull, ?_, ?_, ?_, ?_, ?_, ?_, ?_, ?_, ?_, hfencei⟩
  · show (exeNext s i).Idle
    rw [exeNext_of_fullStall hkill hstall]
    exact h.exe
  · show memNext s i = _
    rw [← h.mem]
    simp [memNext, hkill, hstall]
  · rw [Stage5.ifPc_step hkill]
    simp [ifInFire, hlull.imem, ifKill, hsel, hfencei, h.fence, h.ifPc]
  · show s.regs.write s.wb = _
    rw [Regs.write_of_x _ h.wb, h.regs]
  · rw [h.toBehind.ras_step, h.ras]
  · rw [wbSel_step, if_pos hstall]
  · simp [Stage5.step, hadv, h.toBehind.hazard_eq, h.illegal]
  · show (s.exeIllegal && !i.csrEret) = _
    rw [h.illegal, hval]
    rfl
  · show s.exeIllegal = _
    rw [h.illegal, hval]
    rfl

/-- **The word goes to write back.** -/
lemma InMem.complete (h : InMem word a s) (hlull : Lull i) (hexc : memException s = false)
    (hstall : fullStall s i = false) :
    Empty (Stage5.step s i) ∧ (Stage5.step s i).ifPc = nextPc word a ∧
      (Stage5.step s i).ras = nextRas word a ∧
      (Stage5.step s i).regs.write (Stage5.step s i).wb =
        (archRegs a).write ((memWord word a).writeBack (answer s i)) := by
  have hkill : pipelineKill s i = false := (hlull.pipelineKill_eq s).trans hexc
  have hsel : exePcSel s i = .plus4 := (exePcSel_eq hkill).trans h.exe.branchSel_eq
  obtain ⟨-, hfencei, -⟩ := h.toBehind.decoded_idle
  have hadv : advances s i = true := by simp [advances, h.toBehind.hazard_eq, hstall]
  refine ⟨⟨h.toBehind.step hlull, h.toBehind.exe_step hlull (Or.inr hstall), ?_, ?_, ?_, hfencei⟩, ?_, ?_,
    ?_⟩
  · show (memNext s i).Idle
    simp only [memNext, hkill, hstall]
    exact ⟨h.exe.2.1, h.exe.2.2⟩
  · have hdecKill : decKill s i = false := by simp [decKill, hsel]
    simp [Stage5.step, hadv, hdecKill, h.dec.1]
  · show (s.exeIllegal && !i.csrEret) = false
    rw [h.illegal]
    rfl
  · rw [Stage5.ifPc_step hkill]
    simp [ifInFire, hlull.imem, ifKill, hsel, hfencei, h.fence, h.ifPc]
  · rw [h.toBehind.ras_step, h.ras]
  · show (s.regs.write s.wb).write (wbNext s i) = _
    rw [Regs.write_of_x _ h.wb, Regs.write_wbNext _ hstall, h.regs, h.mem]
    rfl

/-! ### The outcome of a word -/

/-- **The outcome of the word at the program counter.** -/
def single (a : Arch) (m : μ) : Outcome μ :=
  let word := bus.fetch m a.pc
  match fault a word with
  | some cause => ⟨some cause, { a with pc := evec cause, ras := nextRas word a }, m⟩
  | none =>
    let answer := bus.access m (dmemReq { reset 0 with mem := memWord word a })
    let r := (archRegs a).exec word a.pc answer.1
    ⟨none, ⟨nextPc word a, r.rd, r.rb, r.rf, nextRas word a⟩,
      if (csignals word).memEn then answer.2 else m⟩

/-- What the core leaves once its write back is done. -/
def Leaves (o : Outcome μ) (x : Single μ) : Prop :=
  Empty x.core ∧ o = ⟨x.causes.head?, ⟨x.core.ifPc, (x.core.regs.write x.core.wb).rd,
    (x.core.regs.write x.core.wb).rb, (x.core.regs.write x.core.wb).rf, x.core.ras⟩, x.mem⟩

variable {bus evec} {m : μ} {x : Single μ} {c : Turn} {o : Outcome μ}

variable (bus evec) in
/-- A cycle without a fetch. -/
lemma lull_inputs (x : Single μ) (hc : c.imem = false) : Lull (x.inputs bus evec c) :=
  ⟨by simp [Single.inputs, hc], rfl, rfl⟩

variable (bus evec) in
/-- What the core leaves stays. -/
lemma Leaves.step (h : Leaves o x) (hc : c.imem = false) :
    Leaves o (x.step bus evec c) ∧ (x.step bus evec c).core.wb.wbSel = .x := by
  obtain ⟨hempty, ho⟩ := h
  obtain ⟨hempty', hwb, hras, hpc, hregs⟩ := hempty.step (lull_inputs bus evec x hc)
  obtain ⟨hmis, -⟩ := hempty.mem.quiet (x.inputs bus evec c)
  have hexc : memException x.core = false := by simp [memException, hempty.except, hmis]
  have hreq : dmemReqValid x.core = false := by simp [dmemReqValid, hempty.mem.2]
  have hmem : (x.step bus evec c).mem = x.mem := by simp [Single.step, hreq]
  have hcauses : (x.step bus evec c).causes = x.causes := by simp [Single.step, hexc]
  have hcore : (x.step bus evec c).core = Stage5.step x.core (x.inputs bus evec c) := rfl
  refine ⟨⟨hempty', ?_⟩, hwb⟩
  rw [ho, hmem, hcauses, hcore, Regs.write_of_x _ hwb, hregs, hras, hpc]

/-- A word that raises an exception. -/
lemma InMem.leaves_of_fault (h : InMem (bus.fetch m a.pc) a x.core) (hmem : x.mem = m)
    (hcauses : x.causes = []) {cause : Cause} (hfault : fault a (bus.fetch m a.pc) = some cause)
    (hc : c.imem = false) : Leaves (single bus evec a m) (x.step bus evec c) := by
  have hexc := h.exception_eq
  rw [hfault] at hexc
  have hexc' : memException x.core = true := by
    cases he : memException x.core with
    | true => rfl
    | false => simp [he] at hexc
  have hcause : memExceptionCause x.core = cause := by simpa [hexc'] using hexc
  have hreq : dmemReqValid x.core = false := by
    cases hval : (csignals (bus.fetch m a.pc)).valInst with
    | false =>
      have hmemVal : x.core.mem.memVal = false := by
        rw [h.mem]
        exact (idle_of_illegal hval).2
      simp [dmemReqValid, hmemVal]
    | true =>
      have hmis : memDataMisaligned x.core = true := by
        rw [memException, h.except, hval] at hexc'
        exact hexc'
      simp [dmemReqValid, hmis]
  have hlull := lull_inputs bus evec x hc
  obtain ⟨hempty, hwb, harch⟩ := h.raise hlull hexc' (by simp [Single.inputs, hreq])
  refine ⟨hempty, ?_⟩
  have hcore : (x.step bus evec c).core = Stage5.step x.core (x.inputs bus evec c) := rfl
  have hmem' : (x.step bus evec c).mem = m := by simp [Single.step, hreq, hmem]
  have hcauses' : (x.step bus evec c).causes = [cause] := by simp [Single.step, hexc', hcauses, hcause]
  have hevec : (x.inputs bus evec c).csrEvec = evec cause := congrArg evec hcause
  rw [hcore, Regs.write_of_x _ hwb, hmem', hcauses', single, hfault]
  have harch' : (⟨(Stage5.step x.core (x.inputs bus evec c)).ifPc, _, _, _, _⟩ : Arch) = _ := harch
  rw [hevec] at harch'
  exact congrArg (fun b => (⟨some cause, b, m⟩ : Outcome μ)) harch'.symm

/-- A word that does not access a CSR reads none. -/
lemma wbSel_ne_csr (h : PlainWord word) : (csignals word).wbSel ≠ .csr := by
  revert h
  unfold PlainWord csignals
  cases Insn.decode word with
  | none => decide
  | some insn => cases insn <;> decide

/-- The stall of a word in the memory stage. -/
lemma InMem.fullStall_eq (h : InMem word a s) :
    fullStall s i = ((csignals word).memEn && !i.dmemValid) := by
  have hmemVal : s.mem.memVal = (csignals word).memEn := by
    rw [h.mem]
    rfl
  rw [fullStall, hmemVal]
  cases (csignals word).memEn <;> cases i.dmemValid <;> rfl

/-- The request of a word in the memory stage. -/
lemma InMem.dmemReqValid_eq (h : InMem word a s) (hexc : memException s = false) :
    dmemReqValid s = (csignals word).memEn := by
  have hmemVal : s.mem.memVal = (csignals word).memEn := by
    rw [h.mem]
    rfl
  have hmis : memDataMisaligned s = false := by
    simp only [memException, Bool.or_eq_false_iff] at hexc
    exact hexc.2
  rw [dmemReqValid, hmis, hmemVal, Bool.not_false, Bool.and_true]

variable (evec) in
/-- A word that raises no exception and whose access, if it has one, is answered. -/
lemma InMem.leaves_of_answer (h : InMem (bus.fetch m a.pc) a x.core)
    (hword : PlainWord (bus.fetch m a.pc)) (hmem : x.mem = m) (hcauses : x.causes = [])
    (hfault : fault a (bus.fetch m a.pc) = none) (hc : c.imem = false)
    (hdmem : (csignals (bus.fetch m a.pc)).memEn = true → c.dmem = true) :
    Leaves (single bus evec a m) (x.step bus evec c) := by
  have hexc : memException x.core = false := by
    have := h.exception_eq
    rw [hfault] at this
    cases he : memException x.core with
    | false => rfl
    | true => simp [he] at this
  have hlull := lull_inputs bus evec x hc
  have hreq := h.dmemReqValid_eq hexc
  have hstall : fullStall x.core (x.inputs bus evec c) = false := by
    rw [h.fullStall_eq]
    show ((csignals (bus.fetch m a.pc)).memEn && !(dmemReqValid x.core && c.dmem)) = false
    rw [hreq]
    cases hen : (csignals (bus.fetch m a.pc)).memEn with
    | false => rfl
    | true => simp [hdmem hen]
  obtain ⟨hempty, hpc, hras, hregs⟩ := h.complete hlull hexc hstall
  have hrequest : dmemReq x.core = dmemReq { reset 0 with mem := memWord (bus.fetch m a.pc) a } := by
    calc dmemReq x.core = dmemReq { reset 0 with mem := x.core.mem } := rfl
      _ = _ := by
        rw [h.mem]
        rfl
  have hanswer : answer x.core (x.inputs bus evec c) =
      (bus.access m (dmemReq { reset 0 with mem := memWord (bus.fetch m a.pc) a })).1 := by
    have hsel : x.core.mem.wbSel ≠ .csr := by
      rw [h.mem]
      exact wbSel_ne_csr hword
    rw [answer, if_neg hsel, ← hrequest, ← hmem]
    rfl
  have hmem' : (x.step bus evec c).mem =
      if (csignals (bus.fetch m a.pc)).memEn then
        (bus.access m (dmemReq { reset 0 with mem := memWord (bus.fetch m a.pc) a })).2 else m := by
    show (if dmemReqValid x.core && c.dmem then (bus.access x.mem (dmemReq x.core)).2 else x.mem) = _
    rw [hreq, hrequest, hmem]
    cases hen : (csignals (bus.fetch m a.pc)).memEn with
    | false => rfl
    | true => simp [hdmem hen]
  have hcauses' : (x.step bus evec c).causes = [] := by simp [Single.step, hexc, hcauses]
  refine ⟨hempty, ?_⟩
  have hcore : (x.step bus evec c).core = Stage5.step x.core (x.inputs bus evec c) := rfl
  rw [hcore, hregs, hpc, hras, hmem', hcauses', hanswer, single, hfault]
  rfl

variable (evec) in
/-- A word whose access is not answered. -/
lemma InMem.stays (h : InMem (bus.fetch m a.pc) a x.core) (hmem : x.mem = m) (hcauses : x.causes = [])
    (hfault : fault a (bus.fetch m a.pc) = none)
    (hen : (csignals (bus.fetch m a.pc)).memEn = true) :
    InMem (bus.fetch m a.pc) a (x.step bus evec idle).core ∧ (x.step bus evec idle).mem = m ∧
      (x.step bus evec idle).causes = [] := by
  have hexc : memException x.core = false := by
    have := h.exception_eq
    rw [hfault] at this
    cases he : memException x.core with
    | false => rfl
    | true => simp [he] at this
  have hvalid : (x.inputs bus evec idle).dmemValid = false := by simp [Single.inputs, idle]
  refine ⟨h.wait (lull_inputs bus evec x rfl) hexc ?_, ?_, ?_⟩
  · rw [h.fullStall_eq, hen, hvalid]
    rfl
  · simp [Single.step, idle, hmem]
  · simp [Single.step, hexc, hcauses]

variable (evec) in
/-- The word leaves its outcome, whatever its access waits. -/
lemma InMem.leaves (h : InMem (bus.fetch m a.pc) a x.core) (hword : PlainWord (bus.fetch m a.pc))
    (hmem : x.mem = m) (hcauses : x.causes = []) (dataWait : ℕ) :
    Leaves (single bus evec a m)
      (Clocked.run (Single.step bus evec) x (List.replicate dataWait idle ++ [⟨false, true⟩])) := by
  -- once the word has left the memory stage, its outcome stays
  have hkeeps : ∀ (n : ℕ) (y : Single μ), Leaves (single bus evec a m) y →
      Leaves (single bus evec a m)
        (Clocked.run (Single.step bus evec) y (List.replicate n idle ++ [⟨false, true⟩])) := by
    intro n y hy
    refine Clocked.run_of_forall ?_ hy
    intro z c hc hz
    rw [List.mem_append, List.mem_replicate, List.mem_singleton] at hc
    rcases hc with ⟨-, rfl⟩ | rfl
    · exact (hz.step bus evec rfl).1
    · exact (hz.step bus evec rfl).1
  induction dataWait generalizing x with
  | zero =>
    cases hfault : fault a (bus.fetch m a.pc) with
    | some cause => exact h.leaves_of_fault hmem hcauses hfault rfl
    | none => exact h.leaves_of_answer evec hword hmem hcauses hfault rfl fun _ => rfl
  | succ n ih =>
    cases hfault : fault a (bus.fetch m a.pc) with
    | some cause => exact hkeeps n _ (h.leaves_of_fault hmem hcauses hfault rfl)
    | none =>
      cases hen : (csignals (bus.fetch m a.pc)).memEn with
      | true =>
        obtain ⟨hstays, hmem', hcauses'⟩ := h.stays evec hmem hcauses hfault hen
        exact ih hstays hmem' hcauses'
      | false =>
        have hleaves := h.leaves_of_answer evec (c := idle) hword hmem hcauses hfault rfl
          fun hen' => by rw [hen] at hen'; cases hen'
        exact hkeeps n _ hleaves

variable (bus evec) in
/-- The drained pipeline waits for its word. -/
lemma Drained.waits (h : Drained s) (m : μ) (fetchWait : ℕ) :
    ∃ t, Drained t ∧ t.arch = s.arch ∧
      Clocked.run (Single.step bus evec) ⟨s, m, []⟩ (List.replicate fetchWait idle) = ⟨t, m, []⟩ := by
  induction fetchWait generalizing s with
  | zero => exact ⟨s, h, rfl, rfl⟩
  | succ n ih =>
    obtain ⟨hstep, harch⟩ := h.step (lull_inputs bus evec ⟨s, m, []⟩ (c := idle) rfl)
    obtain ⟨t, ht, harch', hrun⟩ := ih hstep
    refine ⟨t, ht, harch'.trans harch, ?_⟩
    obtain ⟨hmis, -⟩ := h.mem.quiet ((⟨s, m, []⟩ : Single μ).inputs bus evec idle)
    have hexc : memException s = false := by simp [memException, h.except, hmis]
    have hx : Single.step bus evec ⟨s, m, []⟩ idle =
        ⟨Stage5.step s ((⟨s, m, []⟩ : Single μ).inputs bus evec idle), m, []⟩ := by
      simp [Single.step, hexc, idle]
    rw [List.replicate_succ, Clocked.run, hx]
    exact hrun

/-- **Every latency leaves the same outcome.** -/
theorem Executes.eq_single (h : Executes bus evec a m o) (hword : PlainWord (bus.fetch m a.pc)) :
    o = single bus evec a m := by
  obtain ⟨s, fetchWait, dataWait, x, hdrained, harch, hrun, ho⟩ := h
  obtain ⟨t, ht, harch', hwaits⟩ := hdrained.waits bus evec m fetchWait
  have hat : t.arch = a := harch'.trans harch
  -- the word arrives
  let x₁ : Single μ := Single.step bus evec ⟨t, m, []⟩ ⟨true, false⟩
  have hreq : imemReqValid t = true := by simp [imemReqValid, ht.buffer]
  have hdecode : InDecode (bus.fetch m a.pc) a x₁.core := by
    have hfetch := ht.fetch (i := (⟨t, m, []⟩ : Single μ).inputs bus evec ⟨true, false⟩)
      (by simp [Single.inputs, hreq]) rfl rfl
    have hpc : t.ifPc = a.pc := congrArg Arch.pc hat
    have hdata : ((⟨t, m, []⟩ : Single μ).inputs bus evec ⟨true, false⟩).imemData =
        bus.fetch m a.pc := congrArg (bus.fetch m) hpc
    rw [hdata, hat] at hfetch
    exact hfetch
  have hquiet : ∀ y : Single μ, y.core.mem.Idle → y.core.regExcept = false → y.mem = m → y.causes = [] →
      ∀ d : Turn, (y.step bus evec d).mem = m ∧ (y.step bus evec d).causes = [] := by
    intro y hidle hexcept hm hcauses d
    obtain ⟨hmis, -⟩ := hidle.quiet (y.inputs bus evec d)
    have hexc : memException y.core = false := by simp [memException, hexcept, hmis]
    have hnoreq : dmemReqValid y.core = false := by simp [dmemReqValid, hidle.2]
    exact ⟨by simp [Single.step, hnoreq, hm], by simp [Single.step, hexc, hcauses]⟩
  obtain ⟨hmem₁, hcauses₁⟩ := hquiet ⟨t, m, []⟩ ht.mem ht.except rfl rfl ⟨true, false⟩
  -- it goes to execute and to the memory stage
  have hexe : InExe (bus.fetch m a.pc) a (x₁.step bus evec idle).core :=
    hdecode.step hword (lull_inputs bus evec x₁ rfl)
  obtain ⟨hmem₂, hcauses₂⟩ := hquiet x₁ hdecode.mem hdecode.except hmem₁ hcauses₁ idle
  have hinMem : InMem (bus.fetch m a.pc) a ((x₁.step bus evec idle).step bus evec idle).core :=
    hexe.step (lull_inputs bus evec _ rfl)
  obtain ⟨hmem₃, hcauses₃⟩ := hquiet _ hexe.mem hexe.except hmem₂ hcauses₂ idle
  have hleaves := hinMem.leaves evec hword hmem₃ hcauses₃ dataWait
  -- and its write back is the last cycle
  obtain ⟨⟨-, hlast⟩, hwb⟩ := hleaves.step bus evec (c := idle) rfl
  have hx : x = Single.step bus evec (Clocked.run (Single.step bus evec)
      ((x₁.step bus evec idle).step bus evec idle)
      (List.replicate dataWait idle ++ [⟨false, true⟩])) idle := by
    have hturns : turns fetchWait dataWait = List.replicate fetchWait idle ++
        ([⟨true, false⟩, idle, idle] ++ ((List.replicate dataWait idle ++ [⟨false, true⟩]) ++ [idle])) := by
      simp [turns]
    rw [← hrun, hturns, Clocked.run_append, hwaits, Clocked.run_append, Clocked.run_append]
    rfl
  rw [Regs.write_of_x _ hwb] at hlast
  rw [ho, hx, hlast]
  rfl

/-- A drained pipeline with given registers. -/
def drained (a : Arch) : State :=
  { (reset a.pc).withRegs (archRegs a) with ras := a.ras }

/-- It is drained. -/
lemma drained_drained (a : Arch) : Drained (drained a) where
  buffer := rfl
  dec := ⟨rfl, rfl⟩
  named := ⟨⟨nofun, nofun⟩, ⟨nofun, nofun⟩, ⟨nofun, nofun⟩⟩
  isCsr := rfl
  exe := ⟨rfl, rfl, rfl⟩
  mem := ⟨rfl, rfl⟩
  illegal := rfl
  except := rfl
  fence := rfl
  wb := rfl
  pcBuffer := rfl
  killed := rfl
  dest := ⟨⟨rfl, rfl⟩, ⟨rfl, rfl⟩, ⟨rfl, rfl⟩⟩

/-- **The word goes through the drained pipeline** and leaves its outcome. -/
theorem executes_single (hword : PlainWord (bus.fetch m a.pc)) :
    Executes bus evec a m (single bus evec a m) := by
  have hexec : Executes bus evec a m
      ⟨_, (Clocked.run (Single.step bus evec) ⟨drained a, m, []⟩ (turns 0 0)).core.arch, _⟩ :=
    ⟨drained a, 0, 0, _, drained_drained a, rfl, rfl, rfl⟩
  rw [← hexec.eq_single hword]
  exact hexec

end Stage5

end Wuming

end Dadao
