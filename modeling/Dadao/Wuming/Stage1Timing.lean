import Dadao.Wuming.Stage1Stack

set_option relaxedAutoImplicit false
set_option autoImplicit false

/-!
# The one-stage core and the timing of its memories

The core with a CSR file and memories that answer after any number of cycles and drive anything on
their ports while they do not. What a program can see of a run is the sequence of its events: the
instructions that complete, the registers and the memory after each, and the exceptions reported to
the CSR file. In a run whose waiting cycles are quiet the events are those of a run in which every
answer comes at once.

## Main definitions

* `Dadao.Wuming.Stage1.System`, `Dadao.Wuming.Stage1.System.step` — core, CSR file and memories.
* `Dadao.Wuming.Stage1.System.trace` — the events of a run.
* `Dadao.Wuming.Stage1.System.Quiet` — a waiting cycle without an effect.

## Main results

* `Dadao.Wuming.Stage1.System.trace_prefix_of_quiet` — runs from the same state have the same
  events.
-/

namespace Dadao

namespace Wuming

namespace Stage1

open Clocked

/-! ### The system -/

/-- The inputs of the CSR file. -/
structure CsrIn where
  /-- The word. -/
  inst : BitVec 32
  /-- The command. -/
  cmd : CsrCmd
  /-- The data of a write. -/
  wdata : BitVec 64
  /-- An instruction retires. -/
  retire : Bool
  /-- An instruction raises an exception. -/
  exception : Bool
  /-- Its address. -/
  pc : BitVec 64
  /-- The cause. -/
  cause : Cause
  /-- The value reported. -/
  tval : BitVec 64

/-- A CSR file over states `κ`. -/
structure CsrFile (κ : Type) where
  /-- An interrupt is pending. -/
  interrupt : κ → Bool
  /-- A return from a trap. -/
  eret : κ → CsrIn → Bool
  /-- Where to go on. -/
  evec : κ → CsrIn → BitVec 64
  /-- The value read. -/
  rdata : κ → CsrIn → BitVec 64
  /-- The next state. -/
  next : κ → CsrIn → κ

/-- The CSR file does not move while nothing is asked of it or reported to it. -/
def CsrFile.IdleKeeps {κ : Type} (csr : CsrFile κ) : Prop :=
  ∀ k x, x.cmd = .n → x.retire = false → x.exception = false → csr.next k x = k

/-- The memories behind the two ports, over contents `μ`. -/
structure Bus (μ : Type) where
  /-- The word fetched from an address. -/
  fetch : μ → BitVec 64 → BitVec 32
  /-- The answer to a data request, and the contents afterwards. -/
  access : μ → MemReq → BitVec 64 × μ

/-- The core with its CSR file and memories. -/
structure System (κ μ : Type) where
  /-- The core. -/
  core : State
  /-- The CSR file. -/
  csr : κ
  /-- The contents of the memories. -/
  mem : μ

/-- The timing of a cycle: which ports answer, and what they drive while they do not. -/
structure Timing where
  /-- The fetch port answers, if it is asked. -/
  imem : Bool
  /-- The fetch port while it does not answer. -/
  imemIdle : BitVec 32
  /-- The data port answers, if it is asked. -/
  dmem : Bool
  /-- The data port while it does not answer. -/
  dmemIdle : BitVec 64

/-- What is reported to the CSR file. -/
def csrIn (s : State) (i : Inputs) : CsrIn where
  inst := inst s i
  cmd := csrCmd s i
  wdata := aluOut s.toArch (inst s i)
  retire := !(stall s i || excepts s i)
  exception := excepts s i
  pc := s.pc
  cause := exceptionCause s.toArch (inst s i) i.imemValid (interruptEdge s i)
  tval := tval s.toArch (inst s i) i.imemValid (interruptEdge s i)

/-- An event: a word that completes or raises an exception, and the state after it. -/
structure Event (μ : Type) where
  /-- The address of the word. -/
  pc : BitVec 64
  /-- The word. -/
  inst : BitVec 32
  /-- It is interrupted. -/
  interrupted : Bool
  /-- The exception it raises, with the value reported. -/
  exception : Option (Cause × BitVec 64)
  /-- The registers after it. -/
  arch : Arch
  /-- The memory after it. -/
  mem : μ

namespace System

variable {κ μ : Type} (csr : CsrFile κ) (bus : Bus μ)

/-- The inputs from the fetch port and the CSR file that do not depend on the rest of the cycle. -/
def fetchInputs (x : System κ μ) (c : Timing) : Inputs where
  imemValid := imemReqValid x.core && c.imem
  imemData := if imemReqValid x.core && c.imem then bus.fetch x.mem x.core.pc else c.imemIdle
  dmemValid := false
  dmemData := c.dmemIdle
  csrInterrupt := csr.interrupt x.csr
  csrEret := false
  csrEvec := 0
  csrRdata := 0

/-- The data request of the cycle. -/
def request (x : System κ μ) (c : Timing) : MemReq :=
  dmemReq x.core.toArch (inst x.core (x.fetchInputs csr bus c))

/-- The data request is answered. -/
def answered (x : System κ μ) (c : Timing) : Bool :=
  dmemReqValid x.core (x.fetchInputs csr bus c) && c.dmem

/-- The inputs without the answers of the CSR file. -/
def portInputs (x : System κ μ) (c : Timing) : Inputs :=
  { x.fetchInputs csr bus c with
    dmemValid := x.answered csr bus c
    dmemData :=
      if x.answered csr bus c then (bus.access x.mem (x.request csr bus c)).1 else c.dmemIdle }

/-- What is reported to the CSR file in the cycle. -/
def report (x : System κ μ) (c : Timing) : CsrIn := csrIn x.core (x.portInputs csr bus c)

/-- The inputs of the core. -/
def inputs (x : System κ μ) (c : Timing) : Inputs :=
  { x.portInputs csr bus c with
    csrEret := csr.eret x.csr (x.report csr bus c)
    csrEvec := csr.evec x.csr (x.report csr bus c)
    csrRdata := csr.rdata x.csr (x.report csr bus c) }

/-- A cycle of the system. -/
def step (x : System κ μ) (c : Timing) : System κ μ where
  core := Stage1.step x.core (x.inputs csr bus c)
  csr := csr.next x.csr (x.report csr bus c)
  mem := if x.answered csr bus c then (bus.access x.mem (x.request csr bus c)).2 else x.mem

/-- The event of a cycle, if the word completes or an exception is reported. -/
def event (x : System κ μ) (c : Timing) : Option (Event μ) :=
  let i := x.inputs csr bus c
  if !stall x.core i || excepts x.core i then
    some
      { pc := x.core.pc
        inst := inst x.core i
        interrupted := interruptEdge x.core i
        exception :=
          if excepts x.core i then some ((x.report csr bus c).cause, (x.report csr bus c).tval)
          else none
        arch := (x.step csr bus c).core.toArch
        mem := (x.step csr bus c).mem }
  else none

/-- The events of a run. -/
def trace : System κ μ → List Timing → List (Event μ)
  | _, [] => []
  | x, c :: cs => (x.event csr bus c).toList ++ trace (x.step csr bus c) cs

/-- **A quiet cycle**: while the core waits for a word, no data access is due, and what the fetch port
drives is not a call or return, has no illegal register count and jumps to no misaligned address. -/
def Quiet (x : System κ μ) (c : Timing) : Prop :=
  let i := x.inputs csr bus c
  imiss x.core i → x.core.regMemEn = false ∧ rasPush (inst x.core i) = false ∧
    rasPop (inst x.core i) = false ∧ instMultiReg (inst x.core i) = false ∧
    instMisaligned x.core.toArch (inst x.core i) (interruptEdge x.core i) = false

end System

/-! ### What a cycle depends on -/

/-- Two cycles work on the same word in the same way. -/
structure Agree (s : State) (i : Inputs) (s' : State) (i' : Inputs) : Prop where
  /-- The same registers. -/
  arch_eq : s.toArch = s'.toArch
  /-- The same word. -/
  inst_eq : inst s i = inst s' i'
  /-- The same need of the memory. -/
  memEn_eq : memEn s i = memEn s' i'
  /-- The same verdict of the decoder. -/
  illegal_eq : illegal s.toArch (inst s i) i.imemValid = illegal s'.toArch (inst s' i') i'.imemValid
  /-- The same interrupt. -/
  edge_eq : interruptEdge s i = interruptEdge s' i'
  /-- The same state of the fetch. -/
  imiss_eq : imiss s i = imiss s' i'
  /-- The same state of the data access. -/
  dmemValid_eq : i.dmemValid = i'.dmemValid

namespace Agree

variable {s s' : State} {i i' : Inputs}

/-- The same exceptions. -/
lemma excepts_eq (h : Agree s i s' i') : excepts s i = excepts s' i' := by
  rw [excepts, excepts, exception, exception, h.illegal_eq, h.arch_eq, h.inst_eq, h.memEn_eq,
    h.edge_eq]

/-- The same stalls. -/
lemma stall_eq (h : Agree s i s' i') : stall s i = stall s' i' := by
  rw [stall, stall, dmiss, dmiss, h.imiss_eq, h.memEn_eq, h.dmemValid_eq, h.arch_eq, h.inst_eq]

/-- The same report to the CSR file. -/
lemma csrIn_eq (h : Agree s i s' i') : csrIn s i = csrIn s' i' := by
  have hcause : exceptionCause s.toArch (inst s i) i.imemValid (interruptEdge s i) =
      exceptionCause s'.toArch (inst s' i') i'.imemValid (interruptEdge s' i') := by
    rw [exceptionCause, exceptionCause, h.illegal_eq, h.arch_eq, h.inst_eq, h.edge_eq]
  rw [csrIn, csrIn, csrCmd, csrCmd, tval, tval, hcause, h.stall_eq, h.excepts_eq, h.arch_eq,
    h.inst_eq, h.edge_eq]

end Agree

/-- Only an access to the memory writes back what the data port drives. -/
lemma memEn_of_wbSel {w : BitVec 32}
    (h : (csignals w).wbSel = .rdmm ∨ (csignals w).wbSel = .rbmm) : (csignals w).memEn = true := by
  revert h
  unfold csignals
  cases Insn.decode w with
  | none => decide
  | some insn => cases insn <;> decide

/-- An access to the memory is an instruction that leaves the return address stack alone. -/
lemma signals_of_memEn {w : BitVec 32} (h : (csignals w).memEn = true) :
    (csignals w).valInst = true ∧ rasPush w = false ∧ rasPop w = false := by
  revert h
  unfold rasPush rasPop csignals
  cases Insn.decode w with
  | none => decide
  | some insn => cases insn <;> decide

/-- **The registers after a cycle** depend on the word, the stall and the traps, the answers of the
CSR file and, if the word loads, the data port. -/
lemma Agree.archNext_eq {s s' : State} {i i' : Inputs} (h : Agree s i s' i')
    (heret : i.csrEret = i'.csrEret) (hevec : i.csrEvec = i'.csrEvec)
    (hrdata : i.csrRdata = i'.csrRdata)
    (hdata : wbWen s i = true → (csignals (inst s i)).memEn = true → i.dmemData = i'.dmemData) :
    archNext s i = archNext s' i' := by
  have hwen : wbWen s i = wbWen s' i' := by
    rw [wbWen, wbWen, h.stall_eq, h.excepts_eq, h.inst_eq, h.edge_eq]
  have hpc : pcNext s i = pcNext s' i' := by
    rw [pcNext, pcNext, h.excepts_eq, heret, hevec, h.arch_eq, h.inst_eq, h.edge_eq]
  have hras : (step s i).ras = (step s' i').ras := by
    rw [ras_step, ras_step, h.arch_eq, h.inst_eq]
  have hwb : wbWen s i = true →
      wbData s.toArch (inst s i) i.dmemData i.csrRdata =
        wbData s'.toArch (inst s' i') i'.dmemData i'.csrRdata := by
    intro hw
    rw [wbData, wbData, ← h.inst_eq, ← h.arch_eq, ← hrdata]
    split
    next hsel => exact hdata hw (memEn_of_wbSel (Or.inl hsel))
    next hsel => exact hdata hw (memEn_of_wbSel (Or.inr hsel))
    all_goals rfl
  have hwritten : (if wbWen s i then
        writeBack s.toArch (inst s i) (wbData s.toArch (inst s i) i.dmemData i.csrRdata)
          (aluOut2 s.toArch (inst s i))
      else s.toArch) =
      if wbWen s' i' then
        writeBack s'.toArch (inst s' i') (wbData s'.toArch (inst s' i') i'.dmemData i'.csrRdata)
          (aluOut2 s'.toArch (inst s' i'))
      else s'.toArch := by
    by_cases hw : wbWen s i = true
    · rw [if_pos hw, if_pos (hwen ▸ hw), hwb hw, h.arch_eq, h.inst_eq]
    · rw [if_neg hw, if_neg (hwen ▸ hw), h.arch_eq]
  have hpc' : s.pc = s'.pc := congrArg Arch.pc h.arch_eq
  simp only [archNext]
  rw [hwritten, h.stall_eq, hpc, hpc']
  congr 1

/-! ### Programs without time -/

/-- What a program sees of the system, and the interrupt line at the last instruction. -/
structure Prog (κ μ : Type) where
  /-- The registers. -/
  arch : Arch
  /-- The CSR file. -/
  csr : κ
  /-- The memory. -/
  mem : μ
  /-- The interrupt line at the last instruction. -/
  edge : Bool

/-- Every port answers at once. -/
def instant : Timing := ⟨true, 0, true, 0⟩

namespace Prog

variable {κ μ : Type} (csr : CsrFile κ) (bus : Bus μ)

/-- The system before a fetch. -/
def system (p : Prog κ μ) : System κ μ := ⟨⟨p.arch, false, false, 0, p.edge⟩, p.csr, p.mem⟩

/-- The program after a word whose answers come at once. -/
def next (p : Prog κ μ) : Prog κ μ :=
  let x := p.system.step csr bus instant
  ⟨x.core.toArch, x.csr, x.mem, x.core.regInterruptEdge⟩

/-- The events of `n` words. -/
def trace : Prog κ μ → ℕ → List (Event μ)
  | _, 0 => []
  | p, n + 1 => (p.system.event csr bus instant).toList ++ trace (p.next csr bus) n

/-- Fewer words have a prefix of the events. -/
lemma trace_prefix (p : Prog κ μ) {n m : ℕ} (h : n ≤ m) : p.trace csr bus n <+: p.trace csr bus m := by
  induction n generalizing p m with
  | zero => exact List.nil_prefix
  | succ n ih =>
    cases m with
    | zero => omega
    | succ m =>
      rw [trace, trace, List.prefix_append_right_inj]
      exact ih _ (by omega)

end Prog

namespace System

variable {κ μ : Type} {csr : CsrFile κ} {bus : Bus μ}

/-- **The system is at a word of the program**: before its fetch, or with its data access waiting and
the word in the buffer. -/
structure At (bus : Bus μ) (x : System κ μ) (p : Prog κ μ) : Prop where
  /-- The registers. -/
  arch_eq : x.core.toArch = p.arch
  /-- The CSR file. -/
  csr_eq : x.csr = p.csr
  /-- The memory. -/
  mem_eq : x.mem = p.mem
  /-- The interrupt line at the last instruction. -/
  edge_eq : x.core.regInterruptEdge = p.edge
  /-- The data access waits. -/
  waiting : x.core.regDmiss = true → x.core.regMemEn = true ∧
    x.core.ifInstBuffer = bus.fetch p.mem p.arch.pc ∧
    (csignals (bus.fetch p.mem p.arch.pc)).memEn = true

/-- A cycle that stalls without an exception, with no word that moves the stack and no answer of the
data port, changes nothing a program sees. -/
lemma step_of_wait (hidle : csr.IdleKeeps) {x : System κ μ} {c : Timing}
    (hstall : stall x.core (x.inputs csr bus c) = true)
    (hexcepts : excepts x.core (x.inputs csr bus c) = false)
    (hpush : rasPush (inst x.core (x.inputs csr bus c)) = false)
    (hpop : rasPop (inst x.core (x.inputs csr bus c)) = false)
    (hanswered : x.answered csr bus c = false) :
    x.event csr bus c = none ∧ (x.step csr bus c).core.toArch = x.core.toArch ∧
      (x.step csr bus c).csr = x.csr ∧ (x.step csr bus c).mem = x.mem ∧
      (x.step csr bus c).core.regInterruptEdge = x.core.regInterruptEdge := by
  refine ⟨?_, ?_, ?_, ?_, ?_⟩
  · simp [event, hstall, hexcepts]
  · have hwen : wbWen x.core (x.inputs csr bus c) = false := by simp [wbWen, hstall]
    show archNext x.core (x.inputs csr bus c) = x.core.toArch
    simp [archNext, hwen, hstall, hpush, hpop]
  · have hstall' : stall x.core (x.portInputs csr bus c) = true := hstall
    have hexcepts' : excepts x.core (x.portInputs csr bus c) = false := hexcepts
    refine hidle x.csr _ ?_ ?_ hexcepts'
    · show csrCmd x.core (x.portInputs csr bus c) = .n
      rw [csrCmd, if_pos hstall']
    · show (!(stall x.core (x.portInputs csr bus c) || excepts x.core (x.portInputs csr bus c))) = false
      simp [hstall']
  · simp [System.step, hanswered]
  · show (if stall x.core (x.inputs csr bus c) then x.core.regInterruptEdge else _) = _
    rw [if_pos hstall]

/-- **Waiting for a word** changes nothing, if the cycle is quiet. -/
lemma At.of_imiss (hidle : csr.IdleKeeps) {x : System κ μ} {p : Prog κ μ} (h : At bus x p)
    {c : Timing} (hquiet : x.Quiet csr bus c) (himiss : imiss x.core (x.inputs csr bus c) = true) :
    x.event csr bus c = none ∧ At bus (x.step csr bus c) p := by
  obtain ⟨hregMemEn, hpush, hpop, hmulti, hmisaligned⟩ := hquiet himiss
  have hvalid : (x.inputs csr bus c).imemValid = false := by
    simp only [imiss, Bool.and_eq_true, Bool.not_eq_true'] at himiss
    exact himiss.2
  have hmemEn : memEn x.core (x.inputs csr bus c) = false := by
    rw [memEn, hvalid, if_neg (by decide), hregMemEn]
  have hexcepts : excepts x.core (x.inputs csr bus c) = false := by
    rw [excepts, exception, illegal, instRaspExcp, dataMisaligned, hvalid, hpush, hpop, hmulti,
      hmisaligned, hmemEn]
    simp
  have hstall : stall x.core (x.inputs csr bus c) = true := by
    rw [stall, himiss, Bool.true_or]
  have hanswered : x.answered csr bus c = false := by
    have hreq : dmemReqValid x.core (x.inputs csr bus c) = false := by
      rw [dmemReqValid, hmemEn, Bool.false_and]
    show (dmemReqValid x.core (x.inputs csr bus c) && c.dmem) = false
    rw [hreq, Bool.false_and]
  obtain ⟨hevent, harch, hcsr, hmem, hedge⟩ :=
    step_of_wait hidle hstall hexcepts hpush hpop hanswered
  refine ⟨hevent, harch.trans h.arch_eq, hcsr.trans h.csr_eq, hmem.trans h.mem_eq,
    hedge.trans h.edge_eq, fun hdmiss => ?_⟩
  -- no data access is due, so none waits
  have hnot : dmiss x.core (x.inputs csr bus c) = false := by
    rw [dmiss, hmemEn]
    rfl
  exact absurd hdmiss (by show ¬ dmiss x.core (x.inputs csr bus c) = true; simp [hnot])

/-- The word of a cycle that does not wait for it. -/
lemma At.inst_eq {x : System κ μ} {p : Prog κ μ} (h : At bus x p) {c : Timing}
    (himiss : imiss x.core (x.inputs csr bus c) = false) :
    inst x.core (x.inputs csr bus c) = bus.fetch p.mem p.arch.pc := by
  cases hdmiss : x.core.regDmiss with
  | true => rw [inst, hdmiss, if_pos rfl, (h.waiting hdmiss).2.1]
  | false =>
    have hreq : imemReqValid x.core = true := by simp [imemReqValid, hdmiss]
    have hvalid : (imemReqValid x.core && c.imem) = true := by
      simpa [imiss, hreq, inputs, portInputs, fetchInputs] using himiss
    rw [inst, hdmiss, if_neg (by decide)]
    show (if imemReqValid x.core && c.imem then bus.fetch x.mem x.core.pc else c.imemIdle) = _
    rw [if_pos hvalid, h.mem_eq, h.arch_eq]

/-- The need of the memory of a cycle that does not wait for its word, and what arrives in it. -/
lemma At.memEn_eq {x : System κ μ} {p : Prog κ μ} (h : At bus x p) {c : Timing}
    (himiss : imiss x.core (x.inputs csr bus c) = false) :
    memEn x.core (x.inputs csr bus c) = (csignals (bus.fetch p.mem p.arch.pc)).memEn ∧
      ((x.inputs csr bus c).imemValid = false → x.core.regDmiss = true) := by
  have hinst := h.inst_eq himiss
  cases hvalid : (x.inputs csr bus c).imemValid with
  | true => exact ⟨by rw [memEn, hvalid, if_pos rfl, hinst], fun hfalse => by cases hfalse⟩
  | false =>
    have hdmiss : x.core.regDmiss = true := by
      simpa [imiss, hvalid, imemReqValid] using himiss
    obtain ⟨hregMemEn, -, hmem⟩ := h.waiting hdmiss
    exact ⟨by rw [memEn, hvalid, if_neg (by decide), hregMemEn, hmem], fun _ => hdmiss⟩

/-- After a cycle with its word, a data access that waits has the word in the buffer. -/
lemma At.waiting_step {x : System κ μ} {p : Prog κ μ} (h : At bus x p) {c : Timing}
    (himiss : imiss x.core (x.inputs csr bus c) = false)
    (hdmiss : dmiss x.core (x.inputs csr bus c) = true) :
    (x.step csr bus c).core.regMemEn = true ∧
      (x.step csr bus c).core.ifInstBuffer = bus.fetch p.mem p.arch.pc ∧
      (csignals (bus.fetch p.mem p.arch.pc)).memEn = true ∧ x.answered csr bus c = false := by
  obtain ⟨hmemEn, harrives⟩ := h.memEn_eq himiss
  have hinst := h.inst_eq himiss
  simp only [dmiss, Bool.not_eq_true', Bool.or_eq_false_iff, Bool.not_eq_false'] at hdmiss
  have hmem : (csignals (bus.fetch p.mem p.arch.pc)).memEn = true := hmemEn ▸ hdmiss.2
  have hdvalid : (x.inputs csr bus c).dmemValid = false := by
    have hboth := hdmiss.1
    rw [hdmiss.2, Bool.true_and, Bool.or_eq_false_iff] at hboth
    exact hboth.1
  refine ⟨?_, ?_, hmem, hdvalid⟩
  · show (if (x.inputs csr bus c).dmemValid then false else
      if (x.inputs csr bus c).imemValid then (csignals (inst x.core (x.inputs csr bus c))).memEn
      else x.core.regMemEn) = true
    rw [hdvalid, if_neg (by decide), hinst, hmem]
    cases hvalid : (x.inputs csr bus c).imemValid with
    | true => rfl
    | false => exact (h.waiting (harrives hvalid)).1
  · show (if (x.inputs csr bus c).imemValid then (x.inputs csr bus c).imemData
      else x.core.ifInstBuffer) = _
    cases hvalid : (x.inputs csr bus c).imemValid with
    | false => exact (h.waiting (harrives hvalid)).2.1
    | true =>
      have hreq : x.core.regDmiss = false := by
        have hboth : (imemReqValid x.core && c.imem) = true := hvalid
        simp only [imemReqValid, Bool.and_eq_true, Bool.not_eq_true'] at hboth
        exact hboth.1
      rw [inst, hreq, if_neg (by decide)] at hinst
      exact hinst

/-- **Waiting for the data** changes nothing but that the word is buffered. -/
lemma At.of_dmiss (hidle : csr.IdleKeeps) {x : System κ μ} {p : Prog κ μ} (h : At bus x p)
    {c : Timing} (himiss : imiss x.core (x.inputs csr bus c) = false)
    (hreq : dmemReqValid x.core (x.inputs csr bus c) = true) (hwait : c.dmem = false) :
    x.event csr bus c = none ∧ At bus (x.step csr bus c) p := by
  have hinst := h.inst_eq himiss
  have hmemEn := (h.memEn_eq himiss).1
  have hanswered : x.answered csr bus c = false := by
    rw [answered, hwait, Bool.and_false]
  simp only [dmemReqValid, Bool.and_eq_true, Bool.not_eq_true'] at hreq
  obtain ⟨hmemEn', hexcepts⟩ := hreq
  obtain ⟨-, hpush, hpop⟩ := signals_of_memEn (hmemEn ▸ hmemEn')
  have haligned : dataMisaligned x.core.toArch (inst x.core (x.inputs csr bus c))
      (memEn x.core (x.inputs csr bus c)) = false := by
    rw [excepts, exception] at hexcepts
    simp only [Bool.or_eq_false_iff] at hexcepts
    exact hexcepts.2
  have hdmiss : dmiss x.core (x.inputs csr bus c) = true := by
    have hdvalid : (x.inputs csr bus c).dmemValid = false := hanswered
    rw [dmiss, hdvalid, haligned, hmemEn']
    rfl
  have hstall : stall x.core (x.inputs csr bus c) = true := by rw [stall, hdmiss, Bool.or_true]
  obtain ⟨hevent, harch, hcsr, hmem, hedge⟩ :=
    step_of_wait hidle hstall hexcepts (hinst ▸ hpush) (hinst ▸ hpop) hanswered
  obtain ⟨hregMemEn, hbuffer, hsignal, -⟩ := h.waiting_step himiss hdmiss
  exact ⟨hevent, harch.trans h.arch_eq, hcsr.trans h.csr_eq, hmem.trans h.mem_eq,
    hedge.trans h.edge_eq, fun _ => ⟨hregMemEn, hbuffer, hsignal⟩⟩

/-- A cycle with its word and the cycle in which every answer comes at once work on it in the same
way. -/
lemma At.agree_fetch {x : System κ μ} {p : Prog κ μ} (h : At bus x p) {c : Timing}
    (himiss : imiss x.core (x.inputs csr bus c) = false) :
    Agree x.core (x.fetchInputs csr bus c) p.system.core (p.system.fetchInputs csr bus instant) := by
  have hinst : inst x.core (x.fetchInputs csr bus c) = bus.fetch p.mem p.arch.pc := h.inst_eq himiss
  obtain ⟨hmemEn, harrives⟩ := h.memEn_eq himiss
  refine ⟨h.arch_eq, hinst, hmemEn, ?_, ?_, himiss, rfl⟩
  · rw [hinst]
    show illegal _ _ _ = illegal p.arch (bus.fetch p.mem p.arch.pc) true
    rw [h.arch_eq]
    cases hvalid : (x.fetchInputs csr bus c).imemValid with
    | true => rfl
    | false =>
      -- the word of a data access that waits is an instruction
      have hval := (signals_of_memEn (h.waiting (harrives hvalid)).2.2).1
      rw [illegal, illegal, hval]
      rfl
  · show (csr.interrupt x.csr && !x.core.regInterruptEdge) = (csr.interrupt p.csr && !p.edge)
    rw [h.csr_eq, h.edge_eq]

/-- **A word completes** as it does when every answer comes at once. -/
lemma At.of_complete {x : System κ μ} {p : Prog κ μ} (h : At bus x p) {c : Timing}
    (himiss : imiss x.core (x.inputs csr bus c) = false)
    (hanswer : dmemReqValid x.core (x.inputs csr bus c) = true → c.dmem = true) :
    x.event csr bus c = p.system.event csr bus instant ∧
      At bus (x.step csr bus c) (p.next csr bus) := by
  have hfetch := h.agree_fetch himiss
  have hanswered : x.answered csr bus c = p.system.answered csr bus instant := by
    have hreq : dmemReqValid x.core (x.fetchInputs csr bus c) =
        dmemReqValid p.system.core (p.system.fetchInputs csr bus instant) := by
      rw [dmemReqValid, dmemReqValid, hfetch.memEn_eq, hfetch.excepts_eq]
    rw [answered, answered, ← hreq]
    cases hx : dmemReqValid x.core (x.fetchInputs csr bus c) with
    | false => rfl
    | true => rw [hanswer hx]; rfl
  have hports : Agree x.core (x.portInputs csr bus c) p.system.core
      (p.system.portInputs csr bus instant) := { hfetch with dmemValid_eq := hanswered }
  have hreport : x.report csr bus c = p.system.report csr bus instant := hports.csrIn_eq
  have hagree : Agree x.core (x.inputs csr bus c) p.system.core
      (p.system.inputs csr bus instant) := { hports with }
  have hrequest : x.request csr bus c = p.system.request csr bus instant := by
    rw [request, request, hfetch.inst_eq, hfetch.arch_eq]
  have hmem : (x.step csr bus c).mem = (p.system.step csr bus instant).mem := by
    show (if x.answered csr bus c then _ else x.mem) =
      if p.system.answered csr bus instant then _ else p.mem
    rw [hanswered, hrequest, h.mem_eq]
    rfl
  have hcsr : (x.step csr bus c).csr = (p.system.step csr bus instant).csr := by
    show csr.next x.csr _ = csr.next p.csr _
    rw [hreport, h.csr_eq]
  have harch : (x.step csr bus c).core.toArch = (p.system.step csr bus instant).core.toArch := by
    refine hagree.archNext_eq ?_ ?_ ?_ ?_
    · show csr.eret x.csr _ = csr.eret p.csr _
      rw [hreport, h.csr_eq]
    · show csr.evec x.csr _ = csr.evec p.csr _
      rw [hreport, h.csr_eq]
    · show csr.rdata x.csr _ = csr.rdata p.csr _
      rw [hreport, h.csr_eq]
    · intro hwen hmemEn
      -- a load that writes back has been answered
      have hboth : stall x.core (x.inputs csr bus c) = false ∧
          excepts x.core (x.inputs csr bus c) = false := by
        simp only [wbWen, Bool.and_eq_true, Bool.not_eq_true', Bool.or_eq_false_iff] at hwen
        exact hwen.1.1
      have hreq : dmemReqValid x.core (x.inputs csr bus c) = true := by
        rw [h.inst_eq himiss] at hmemEn
        rw [dmemReqValid, (h.memEn_eq himiss).1, hmemEn, hboth.2]
        rfl
      have htrue : x.answered csr bus c = true := by
        show (dmemReqValid x.core (x.inputs csr bus c) && c.dmem) = true
        rw [hreq, hanswer hreq, Bool.true_and]
      show (if x.answered csr bus c then _ else c.dmemIdle) =
        if p.system.answered csr bus instant then _ else instant.dmemIdle
      rw [← hanswered, if_pos htrue, if_pos htrue, hrequest, h.mem_eq]
      rfl
  have hedge : (x.step csr bus c).core.regInterruptEdge =
      (p.system.step csr bus instant).core.regInterruptEdge := by
    show (if stall x.core (x.inputs csr bus c) then x.core.regInterruptEdge
      else csr.interrupt x.csr) = if stall p.system.core (p.system.inputs csr bus instant) then p.edge
      else csr.interrupt p.csr
    rw [hagree.stall_eq, h.edge_eq, h.csr_eq]
  refine ⟨?_, harch, hcsr, hmem, hedge, fun hdmiss => ?_⟩
  · have hpc : x.core.pc = p.system.core.pc := congrArg Arch.pc h.arch_eq
    simp only [event, hagree.stall_eq, hagree.excepts_eq, hagree.edge_eq, hagree.inst_eq, harch, hmem,
      hpc, hreport]
  · -- the data access of a word that raises an exception waits for ever
    have hdmiss' : dmiss x.core (x.inputs csr bus c) = true := hdmiss
    obtain ⟨hregMemEn, hbuffer, hsignal, hnot⟩ := h.waiting_step himiss hdmiss'
    have hnextMem : (p.next csr bus).mem = p.mem := by
      show (if p.system.answered csr bus instant then _ else p.mem) = p.mem
      rw [← hanswered, hnot]
      rfl
    have hnextPc : (p.next csr bus).arch.pc = p.arch.pc := by
      have hstall : stall p.system.core (p.system.inputs csr bus instant) = true := by
        rw [← hagree.stall_eq, stall, hdmiss', Bool.or_true]
      show (if stall p.system.core (p.system.inputs csr bus instant) then p.arch.pc else _) = p.arch.pc
      rw [if_pos hstall]
    rw [hnextMem, hnextPc]
    exact ⟨hregMemEn, hbuffer, hsignal⟩

/-- A run of quiet cycles has the events of a number of words. -/
lemma At.trace_eq (hidle : csr.IdleKeeps) {x : System κ μ} {p : Prog κ μ} (h : At bus x p)
    {cs : List Timing} (hrun : EveryCycle (System.step csr bus) (Quiet csr bus) x cs) :
    ∃ n, x.trace csr bus cs = p.trace csr bus n := by
  induction cs generalizing x p with
  | nil => exact ⟨0, rfl⟩
  | cons c cs ih =>
    obtain ⟨hquiet, hrest⟩ := hrun
    rw [System.trace]
    -- a cycle waits for the word, waits for the data, or completes the word
    by_cases himiss : imiss x.core (x.inputs csr bus c) = true
    · obtain ⟨hevent, hat⟩ := h.of_imiss hidle hquiet himiss
      obtain ⟨n, hn⟩ := ih hat hrest
      exact ⟨n, by rw [hevent, hn]; rfl⟩
    · rw [Bool.not_eq_true] at himiss
      by_cases hwait : dmemReqValid x.core (x.inputs csr bus c) = true ∧ c.dmem = false
      · obtain ⟨hevent, hat⟩ := h.of_dmiss hidle himiss hwait.1 hwait.2
        obtain ⟨n, hn⟩ := ih hat hrest
        exact ⟨n, by rw [hevent, hn]; rfl⟩
      · have hanswer : dmemReqValid x.core (x.inputs csr bus c) = true → c.dmem = true := by
          intro hreq
          by_contra hdmem
          exact hwait ⟨hreq, by simpa using hdmem⟩
        obtain ⟨hevent, hat⟩ := h.of_complete himiss hanswer
        obtain ⟨n, hn⟩ := ih hat hrest
        exact ⟨n + 1, by rw [hevent, hn]; rfl⟩

/-- **The one-stage core does not depend on the timing of its memories**, in runs of quiet cycles: of
two runs from the same state, the events of one are the first events of the other. -/
theorem trace_prefix_of_quiet (hidle : csr.IdleKeeps) {x : System κ μ}
    (hdmiss : x.core.regDmiss = false) {cs cs' : List Timing}
    (hrun : EveryCycle (System.step csr bus) (Quiet csr bus) x cs)
    (hrun' : EveryCycle (System.step csr bus) (Quiet csr bus) x cs') :
    x.trace csr bus cs <+: x.trace csr bus cs' ∨ x.trace csr bus cs' <+: x.trace csr bus cs := by
  have hat : At bus x ⟨x.core.toArch, x.csr, x.mem, x.core.regInterruptEdge⟩ :=
    ⟨rfl, rfl, rfl, rfl, fun hwaiting => by rw [hdmiss] at hwaiting; cases hwaiting⟩
  obtain ⟨n, hn⟩ := hat.trace_eq hidle hrun
  obtain ⟨m, hm⟩ := hat.trace_eq hidle hrun'
  rw [hn, hm]
  rcases Nat.le_total n m with hle | hle
  · exact Or.inl (Prog.trace_prefix csr bus _ hle)
  · exact Or.inr (Prog.trace_prefix csr bus _ hle)

/-- A CSR file without interrupts. -/
def calmCsr : CsrFile Unit := ⟨fun _ => false, fun _ _ => false, fun _ _ => 0, fun _ _ => 0, fun k _ => k⟩

/-- A memory full of `swym`. -/
def swyms : Bus Unit := ⟨fun _ _ => 0x10000000, fun m _ => (0, m)⟩

/-- A program of `swym`s after a reset. -/
def start : System Unit Unit := ⟨reset 0x10000, (), ()⟩

/-- A cycle in which no port answers. -/
def pause (word : BitVec 32) : Timing := ⟨false, word, false, 0⟩

/-- A fetch that waits and one that does not. -/
theorem trace_prefix_of_quiet_swyms :
    start.trace calmCsr swyms [pause 0x10000000, instant] <+:
        start.trace calmCsr swyms [instant, instant] ∨
      start.trace calmCsr swyms [instant, instant] <+:
        start.trace calmCsr swyms [pause 0x10000000, instant] := by
  have hidle : calmCsr.IdleKeeps := fun _ _ _ _ _ => rfl
  have hrun : EveryCycle (System.step calmCsr swyms) (Quiet calmCsr swyms) start
      [pause 0x10000000, instant] :=
    ⟨fun _ => by decide +kernel, fun himiss => absurd himiss (by decide +kernel), trivial⟩
  have hrun' : EveryCycle (System.step calmCsr swyms) (Quiet calmCsr swyms) start
      [instant, instant] :=
    ⟨fun himiss => absurd himiss (by decide +kernel),
      fun himiss => absurd himiss (by decide +kernel), trivial⟩
  exact trace_prefix_of_quiet hidle rfl hrun hrun'

/-- **A call on the idle fetch port** is pushed: the word fetched after it finds another stack. -/
theorem not_trace_prefix_idle_call :
    ¬ ∀ cs cs' : List Timing, start.trace calmCsr swyms cs <+: start.trace calmCsr swyms cs' ∨
      start.trace calmCsr swyms cs' <+: start.trace calmCsr swyms cs := by
  intro hall
  have hboth := hall [pause 0x6c000000, instant] [pause 0x10000000, instant]
  rcases hboth with hprefix | hprefix
  · have htop := hprefix.map (fun e => e.arch.ras.top)
    exact absurd htop (by decide +kernel)
  · have htop := hprefix.map (fun e => e.arch.ras.top)
    exact absurd htop (by decide +kernel)

end System

end Stage1

end Wuming

end Dadao
