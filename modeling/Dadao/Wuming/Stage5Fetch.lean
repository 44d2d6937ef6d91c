import Dadao.Wuming.Stage5Order

set_option relaxedAutoImplicit false
set_option autoImplicit false

/-!
# Instruction fetch of the five-stage core

The core against an instruction memory that has at most one request at a time and answers it in the
same cycle or in any later one. A redirect finds the fetch in any state: a request may be on its way,
a word may wait in the buffer, and decode may be stalled. What is fetched wrongly is dropped, at once
or with the flag `if_reg_killed` when it leaves the buffer, and a word dropped by the flag is fetched
again.

## Main definitions

* `Dadao.Wuming.Stage5.Fetching` — the core, its instruction memory and the program order.
* `Dadao.Wuming.Stage5.Follows` — a word that leaves decode is the next one of the program.

## Main results

* `Dadao.Wuming.Stage5.everyCycle_follows` — the words that leave decode are the program in its order,
  if no condition and no store reads a second destination on its way.
-/

namespace Dadao

namespace Wuming

namespace Stage5

open Clocked

/-! ### The instruction memory and the program order -/

/-- The inputs of a cycle, and the answers the instructions in the memory stage and in execute will
get from the data port or the CSR file. -/
structure Ports where
  /-- The memory takes a request. -/
  accept : Bool
  /-- The memory answers the request it has taken. -/
  respond : Bool
  /-- The data access is answered. -/
  dmemValid : Bool
  /-- The data port. -/
  dmemData : BitVec 64
  /-- The CSR file has an interrupt pending. -/
  csrInterrupt : Bool
  /-- The CSR file returns from a trap. -/
  csrEret : Bool
  /-- The address the CSR file goes on at. -/
  csrEvec : BitVec 64
  /-- The value of the CSR that is read. -/
  csrRdata : BitVec 64
  /-- The answer to the instruction in the memory stage. -/
  memAnswer : BitVec 64
  /-- The answer to the instruction in execute. -/
  exeAnswer : BitVec 64

/-- The core with its instruction memory, and where the program is. -/
structure Fetching where
  /-- The core. -/
  core : State
  /-- The request the memory has taken. -/
  pending : Option (BitVec 64)
  /-- The address of the word that has to leave decode next. -/
  next : BitVec 64
  /-- The registers after the words before it, by the answers to the last two of them. -/
  arch : BitVec 64 → BitVec 64 → Regs

section Memory

variable (prog : BitVec 64 → BitVec 32) (t : Fetching) (p : Ports)

/-- The request of a cycle: the one that is pending, or one that is taken at the address of the fetch. -/
def request : Option (BitVec 64) :=
  match t.pending with
  | some a => some a
  | none => if imemReqValid t.core && p.accept then some t.core.ifPc else none

/-- The inputs of the core. -/
def portInputs : Inputs where
  imemValid := (request t p).isSome && p.respond
  imemData := prog ((request t p).getD 0)
  dmemValid := p.dmemValid
  dmemData := p.dmemData
  csrInterrupt := p.csrInterrupt
  csrEret := p.csrEret
  csrEvec := p.csrEvec
  csrRdata := p.csrRdata

/-- A word leaves decode. -/
def leaves : Bool := issues t.core (portInputs prog t p) && t.core.dec.valid

/-- A cycle. -/
def Fetching.step : Fetching where
  core := Stage5.step t.core (portInputs prog t p)
  pending := if p.respond then none else request t p
  next :=
    if leaves prog t p then successor (prog t.next) t.next (t.arch p.memAnswer p.exeAnswer) else t.next
  arch :=
    if fullStall t.core (portInputs prog t p) then t.arch
    else if leaves prog t p then
      fun a b => (t.arch (answer t.core (portInputs prog t p)) a).exec (prog t.next) t.next b
    else fun a _ => t.arch (answer t.core (portInputs prog t p)) a

/-- The core after a reset, with any contents of its registers. -/
def Fetching.init (vector : BitVec 64) (r : Regs) : Fetching where
  core := (reset vector).withRegs r
  pending := none
  next := vector
  arch := fun _ _ => r

/-- **A word that leaves decode is the next one of the program**, with its address. -/
def Follows : Prop :=
  leaves prog t p = true → t.core.dec.pc = t.next ∧ t.core.dec.inst = prog t.next

/-- No exception, no interrupt, and the program comes to no return and no fence. -/
structure Plain : Prop where
  /-- No exception and no interrupt. -/
  kill : pipelineKill t.core (portInputs prog t p) = false
  /-- No return. -/
  ret : (csignals (prog t.next)).ctrlFlow ≠ .ret
  /-- No fence. -/
  fence : (csignals (prog t.next)).fencei = false

end Memory

/-! ### Destinations name a file -/

/-- The destinations are not in the file of no source. -/
def Dest.Named (d : Dest) : Prop := d.wbRf ≠ .x ∧ d.wb2Rf ≠ .x

/-- The destinations in all three stages. -/
structure Named (s : State) : Prop where
  /-- The execute stage. -/
  exe : s.exeDest.Named
  /-- The memory stage. -/
  mem : s.memDest.Named
  /-- The write back stage. -/
  wb : s.wbDest.Named

/-- The destinations of the word in decode. -/
lemma decDest_named (s : State) : (decDest s).Named := by
  unfold Dest.Named decDest
  cases (cs s).wbSel <;> exact ⟨nofun, nofun⟩

/-- The destinations after a cycle. -/
lemma Named.step {s : State} (h : Named s) (i : Inputs) : Named (step s i) := by
  have hnone : Dest.none.Named := ⟨nofun, nofun⟩
  refine ⟨?_, ?_, ?_⟩
  · show Dest.Named (if _ then _ else _)
    split_ifs
    · exact hnone
    · exact decDest_named s
    · exact hnone
    · exact h.exe
  · show Dest.Named (if _ then _ else _)
    split_ifs
    · exact h.exe
    · exact h.mem
  · show Dest.Named (if _ then _ else _)
    split_ifs
    · exact h.mem
    · exact h.wb

/-- A bubble waits for an access to a CSR only. -/
lemma Named.hazard_of_bubble {s : State} (h : Named s) (hbubble : s.dec.inst = bubble) :
    hazard s = s.exeIsCsr := by
  have hcs : cs s = csignals bubble := by rw [cs, hbubble]
  have hop1 : decOp1Rf s = .x := by rw [decOp1Rf, hcs]; rfl
  have hop2 : decOp2Rf s = .x := by rw [decOp2Rf, hcs]; rfl
  have hcond1 : decCond1Rf s = .x := by rw [decCond1Rf, hcs]; rfl
  have hcond2 : decCond2Rf s = .x := by rw [decCond2Rf, hcs]; rfl
  have hst : decStRf s = .x := by rw [decStRf, hcs]; rfl
  have hits : ∀ d : Dest, d.Named → ∀ a, d.hits1 a .x = false ∧ d.hits2 a .x = false := by
    intro d hd a
    simp [Dest.hits1, Dest.hits2, hd.1, hd.2]
  unfold hazard
  rw [hop1, hop2, hcond1, hcond2, hst]
  simp [hits _ h.exe, hits _ h.mem, hits _ h.wb]

/-! ### The state of the fetch -/

/-- The address of the word behind decode, if the program goes straight on. -/
def Fetching.ahead (t : Fetching) : BitVec 64 := if t.core.dec.valid then t.next + 4 else t.next

/-- The word in execute sends the fetch to the next word of the program. -/
structure Redirects (t : Fetching) : Prop where
  /-- The fetch is redirected. -/
  sel : branchSel t.core.exe ≠ .plus4
  /-- Not by a return. -/
  ret : t.core.exe.cfType ≠ .ret
  /-- It is sent to the next word of the program. -/
  target : branchTarget t.core.exe = t.next
  /-- The word does not access the memory. -/
  memVal : t.core.exe.memVal = false

/-- The word in decode and those behind it are the next ones of the program. -/
structure Straight (prog : BitVec 64 → BitVec 32) (t : Fetching) : Prop where
  /-- The fetch is not redirected. -/
  sel : branchSel t.core.exe = .plus4
  /-- The word in decode. -/
  dec : t.core.dec.valid = true → t.core.dec.pc = t.next ∧ t.core.dec.inst = prog t.next
  /-- What is on its way will be dropped, and is fetched again. -/
  killed : t.core.ifKilled = true → t.core.dec.valid = false ∧ t.core.ifPc = t.next
  /-- The word in the buffer. -/
  buffered : t.core.ifKilled = false → ∀ w, t.core.ifBuffer = some w →
    w = prog t.ahead ∧ t.core.ifPcBuffer = some t.ahead ∧ t.core.ifPc = t.ahead + 4
  /-- The word that is fetched. -/
  empty : t.core.ifKilled = false → t.core.ifBuffer = none →
    t.core.ifPc = t.ahead ∧ (t.pending = none ∨ t.pending = some t.ahead)
  /-- A fence that was dropped from decode leaves nothing to stall and no word in the buffer. -/
  fence : t.core.regFencei = true → t.core.dec.valid = false ∧ t.core.exeIsCsr = false ∧
    t.core.mem.memVal = false ∧ (t.core.ifKilled = true ∨ t.core.ifBuffer = none)

/-- The invariant of the fetch. -/
structure Fetching.Inv (prog : BitVec 64 → BitVec 32) (t : Fetching) : Prop where
  /-- The hazard logic keeps track. -/
  tracked : Tracked t.core
  /-- The destinations name a file. -/
  named : Named t.core
  /-- The registers are those of program order. -/
  arch : ∀ a b, older t.core a b = t.arch a b
  /-- An empty decode stage holds a bubble. -/
  bubble : t.core.dec.valid = false → t.core.dec.inst = bubble
  /-- The two buffers go together. -/
  sync : t.core.ifPcBuffer.isSome = t.core.ifBuffer.isSome
  /-- No request is on its way while a word waits. -/
  single : t.pending.isSome = true → t.core.ifBuffer = none
  /-- The fetch is redirected to the program, or follows it. -/
  way : Redirects t ∨ Straight prog t

section Step

variable {prog : BitVec 64 → BitVec 32} {t : Fetching} {p : Ports}

/-- A word that waits leaves no request. -/
lemma Fetching.Inv.pending_of_buffer (h : t.Inv prog) {w : BitVec 32} (hbuf : t.core.ifBuffer = some w) :
    t.pending = none := by
  cases hp : t.pending with
  | none => rfl
  | some a =>
    have := h.single (by simp [hp])
    rw [hbuf] at this
    cases this

/-- An answer finds the buffer empty. -/
lemma Fetching.Inv.buffer_of_imemValid (h : t.Inv prog) (hvalid : (portInputs prog t p).imemValid = true) :
    t.core.ifBuffer = none := by
  cases hbuf : t.core.ifBuffer with
  | none => rfl
  | some w =>
    simp [portInputs, request, h.pending_of_buffer hbuf, imemReqValid, hbuf] at hvalid

/-- An answer leaves no request. -/
lemma pending_of_imemValid (hvalid : (portInputs prog t p).imemValid = true) :
    (t.step prog p).pending = none := by
  have hrespond : p.respond = true := by
    simp only [portInputs, Bool.and_eq_true] at hvalid
    exact hvalid.2
  simp [Fetching.step, hrespond]

/-- The two buffers go together. -/
lemma isSome_queueNext {α β : Type} {q : Option α} {q' : Option β} (h : q'.isSome = q.isSome)
    (valid ready : Bool) (x : α) (x' : β) :
    (queueNext q' valid x' ready).isSome = (queueNext q valid x ready).isSome := by
  cases q with
  | none =>
    cases q' with
    | none => cases valid <;> cases ready <;> rfl
    | some b => cases h
  | some a =>
    cases q' with
    | none => cases h
    | some b => cases ready <;> rfl

/-- No request is on its way while a word waits, after a cycle. -/
lemma Fetching.Inv.single_step (h : t.Inv prog) (hpending : (t.step prog p).pending.isSome = true) :
    (t.step prog p).core.ifBuffer = none := by
  have hvalid : (portInputs prog t p).imemValid = false := by
    cases hv : (portInputs prog t p).imemValid with
    | false => rfl
    | true => simp [pending_of_imemValid hv] at hpending
  have hbuf : t.core.ifBuffer = none := by
    cases hbuf : t.core.ifBuffer with
    | none => rfl
    | some w =>
      simp [Fetching.step, request, h.pending_of_buffer hbuf, imemReqValid, hbuf] at hpending
  show queueNext t.core.ifBuffer _ _ _ = none
  rw [hbuf, hvalid]
  rfl

/-- The address of the fetch after a cycle that is not killed. -/
lemma ifPc_step {s : State} {i : Inputs} (hkill : pipelineKill s i = false) :
    (step s i).ifPc =
      if (ifInFire s i && !s.ifKilled) || ifKill s i then ifPcNext s i else s.ifPc := by
  simp [step, hkill]

/-- The flag of the fetch after a cycle that is not killed. -/
lemma ifKilled_step {s : State} {i : Inputs} (hkill : pipelineKill s i = false) :
    (step s i).ifKilled =
      if s.ifKilled && ifOutFire s i then false
      else if ifKill s i && !ifOutFire s i then true
      else s.ifKilled := by
  simp [step, hkill]

/-- A word that is dropped does not enter decode. -/
lemma decNext_of_ifKill {s : State} {i : Inputs} (h : (ifKill s i || s.ifKilled) = true) :
    (decNext s i).valid = false := by
  unfold decNext
  rw [if_pos h, if_pos h]
  split_ifs <;> rfl

/-- A word that leaves the buffer leaves nothing behind it. -/
lemma Fetching.Inv.drained_of_ifOutFire (h : t.Inv prog)
    (hfire : ifOutFire t.core (portInputs prog t p) = true) :
    (t.step prog p).core.ifBuffer = none ∧ (t.step prog p).pending = none := by
  simp only [ifOutFire, Bool.and_eq_true, Bool.or_eq_true] at hfire
  obtain ⟨hout, hadv⟩ := hfire
  cases hbuf : t.core.ifBuffer with
  | some w =>
    refine ⟨?_, ?_⟩
    · show queueNext t.core.ifBuffer _ _ _ = none
      rw [hbuf, hadv]
      rfl
    · simp [Fetching.step, request, h.pending_of_buffer hbuf, imemReqValid, hbuf]
  | none =>
    have hvalid : (portInputs prog t p).imemValid = true := by simpa [hbuf] using hout
    refine ⟨?_, pending_of_imemValid hvalid⟩
    show queueNext t.core.ifBuffer _ _ _ = none
    rw [hbuf, hadv, hvalid]
    rfl

/-- An empty stage does not redirect the fetch. -/
lemma branchSel_of_x {e : Exe} (h : e.cfType = .x) : branchSel e = .plus4 := by
  simp [branchSel, h]

/-- **A cycle in which the fetch drops a word**: the program is followed again if the fetch has come to
its next word. -/
lemma Fetching.Inv.straight_of_drop (hinv : t.Inv prog)
    (hkill : pipelineKill t.core (portInputs prog t p) = false)
    (hdrop : (ifKill t.core (portInputs prog t p) || t.core.ifKilled) = true)
    (hsel : branchSel (t.step prog p).core.exe = .plus4)
    (hpc : (t.step prog p).core.ifPc = (t.step prog p).next)
    (hfence : (t.step prog p).core.regFencei = true →
      (t.step prog p).core.exeIsCsr = false ∧ (t.step prog p).core.mem.memVal = false) :
    Straight prog (t.step prog p) := by
  have hdec : (t.step prog p).core.dec.valid = false := decNext_of_ifKill hdrop
  have hkilled : (t.step prog p).core.ifKilled = !ifOutFire t.core (portInputs prog t p) := by
    show (Stage5.step t.core (portInputs prog t p)).ifKilled = _
    rw [ifKilled_step hkill]
    revert hdrop
    cases t.core.ifKilled <;> cases ifOutFire t.core (portInputs prog t p) <;>
      cases ifKill t.core (portInputs prog t p) <;> decide
  have hahead : (t.step prog p).ahead = (t.step prog p).next := by simp [Fetching.ahead, hdec]
  -- without the flag the word has left, and nothing is behind it
  have hdrained : (t.step prog p).core.ifKilled = false →
      (t.step prog p).core.ifBuffer = none ∧ (t.step prog p).pending = none := by
    intro hk
    rw [hkilled] at hk
    exact hinv.drained_of_ifOutFire (by simpa using hk)
  refine ⟨hsel, ?_, fun _ => ⟨hdec, hpc⟩, ?_, ?_, ?_⟩
  · intro hvalid
    rw [hdec] at hvalid
    cases hvalid
  · intro hk w hw
    rw [(hdrained hk).1] at hw
    cases hw
  · intro hk _
    exact ⟨hpc.trans hahead.symm, Or.inl (hdrained hk).2⟩
  · intro hreg
    refine ⟨hdec, (hfence hreg).1, (hfence hreg).2, ?_⟩
    cases hk : (t.step prog p).core.ifKilled with
    | true => exact Or.inl rfl
    | false => exact Or.inr (hdrained hk).1

/-- **A cycle in which the fetch is redirected.** -/
lemma Redirects.step (h : Redirects t) (hinv : t.Inv prog) (hplain : Plain prog t p) :
    Redirects (t.step prog p) ∨ Straight prog (t.step prog p) := by
  have hsel := exePcSel_eq hplain.kill
  have hdecKill : decKill t.core (portInputs prog t p) = true := by simp [decKill, hsel, h.sel]
  have hifKill : ifKill t.core (portInputs prog t p) = true := by simp [ifKill, hsel, h.sel]
  have hissues : issues t.core (portInputs prog t p) = false := by simp [issues, hdecKill]
  have hnext : (t.step prog p).next = t.next := by simp [Fetching.step, leaves, hissues]
  cases hstall : fullStall t.core (portInputs prog t p) with
  | true =>
    -- the word stays in execute and redirects again
    have hexe : (t.step prog p).core.exe = t.core.exe := exeNext_of_fullStall hplain.kill hstall
    refine Or.inl ⟨?_, ?_, ?_, ?_⟩
    · rw [hexe]
      exact h.sel
    · rw [hexe]
      exact h.ret
    · rw [hexe, hnext]
      exact h.target
    · rw [hexe]
      exact h.memVal
  | false =>
    have hexe := exeNext_of_not_issues hissues (Or.inr hstall)
    have hpc : (t.step prog p).core.ifPc = t.next := by
      show (Stage5.step t.core (portInputs prog t p)).ifPc = t.next
      rw [ifPc_step hplain.kill, hifKill, if_pos (by simp), ifPcNext_eq hplain.kill h.sel h.ret, h.target]
    refine Or.inr (hinv.straight_of_drop hplain.kill (by simp [hifKill]) (branchSel_of_x hexe.2.2.1)
      (hpc.trans hnext.symm) fun _ => ⟨?_, ?_⟩)
    · show (Stage5.step t.core (portInputs prog t p)).exeIsCsr = false
      cases hhaz : hazard t.core <;> simp [Stage5.step, advances, hstall, hhaz, hdecKill]
    · show (memNext t.core (portInputs prog t p)).memVal = false
      simp [memNext, hplain.kill, hstall, h.memVal]

/-- A bubble is no fence, flows straight on and writes nothing. -/
lemma csignals_bubble : (csignals bubble).fencei = false ∧ (csignals bubble).ctrlFlow = .x ∧
    (csignals bubble).wbSel = .x := by
  decide

/-- A fence in decode is not on the program's way. -/
lemma Straight.fencei_eq (h : Straight prog t) (hinv : t.Inv prog) (hplain : Plain prog t p) :
    (cs t.core).fencei = false := by
  unfold cs
  cases hvalid : t.core.dec.valid with
  | true =>
    rw [(h.dec hvalid).2]
    exact hplain.fence
  | false =>
    rw [hinv.bubble hvalid]
    exact csignals_bubble.1

/-- The fetch drops a word only for a fence that was dropped before. -/
lemma Straight.ifKill_eq (h : Straight prog t) (hinv : t.Inv prog) (hplain : Plain prog t p) :
    ifKill t.core (portInputs prog t p) = t.core.regFencei := by
  simp [ifKill, exePcSel_eq hplain.kill, h.sel, h.fencei_eq hinv hplain]

/-- The fetch goes straight on. -/
lemma Straight.ifPcNext_eq (h : Straight prog t) (hinv : t.Inv prog) (hplain : Plain prog t p)
    (hreg : t.core.regFencei = false) :
    ifPcNext t.core (portInputs prog t p) = t.core.ifPc + 4 := by
  unfold ifPcNext
  rw [exePcSel_eq hplain.kill, h.sel, h.fencei_eq hinv hplain, hreg]
  rfl

/-- An empty decode stage sends nothing that redirects the fetch. -/
lemma Straight.sel_of_bubble (h : Straight prog t) (hinv : t.Inv prog) (hplain : Plain prog t p)
    (hvalid : t.core.dec.valid = false) : branchSel (t.step prog p).core.exe = .plus4 := by
  show branchSel (exeNext t.core (portInputs prog t p)) = .plus4
  cases hissues : issues t.core (portInputs prog t p) with
  | true =>
    rw [exeNext_of_issues hissues]
    refine branchSel_of_x ?_
    show (csignals t.core.dec.inst).ctrlFlow = .x
    rw [hinv.bubble hvalid]
    exact csignals_bubble.2.1
  | false =>
    cases hstall : fullStall t.core (portInputs prog t p) with
    | true =>
      rw [exeNext_of_fullStall hplain.kill hstall]
      exact h.sel
    | false => exact branchSel_of_x (exeNext_of_not_issues hissues (Or.inr hstall)).2.2.1

/-- **A cycle after a fence was dropped** from decode. -/
lemma Straight.step_of_fence (h : Straight prog t) (hinv : t.Inv prog) (hplain : Plain prog t p)
    (hreg : t.core.regFencei = true) : Straight prog (t.step prog p) := by
  obtain ⟨hdec, hcsr, hmem, hdrop⟩ := h.fence hreg
  have hhaz : hazard t.core = false := (hinv.named.hazard_of_bubble (hinv.bubble hdec)).trans hcsr
  have hstall : fullStall t.core (portInputs prog t p) = false := by simp [fullStall, hmem]
  have hifKill : ifKill t.core (portInputs prog t p) = true := (h.ifKill_eq hinv hplain).trans hreg
  have hnext : (t.step prog p).next = t.next := by simp [Fetching.step, leaves, hdec]
  have hpc : t.core.ifPc = t.next := by
    cases hk : t.core.ifKilled with
    | true => exact (h.killed hk).2
    | false =>
      rw [hk] at hdrop
      have hempty := (h.empty hk (hdrop.resolve_left (by decide))).1
      rwa [Fetching.ahead, hdec] at hempty
  -- the fetch stays where it is
  have hpc' : (t.step prog p).core.ifPc = t.core.ifPc := by
    show (Stage5.step t.core (portInputs prog t p)).ifPc = _
    rw [ifPc_step hplain.kill, hifKill, if_pos (by simp), ifPcNext, if_pos]
    simp [hreg, exePcSel_eq hplain.kill, h.sel, hhaz, hstall, hplain.kill]
  refine hinv.straight_of_drop hplain.kill (by simp [hifKill]) (h.sel_of_bubble hinv hplain hdec)
    (by rw [hpc', hpc, hnext]) ?_
  intro hreg'
  have : (t.step prog p).core.regFencei = false := h.fencei_eq hinv hplain
  rw [this] at hreg'
  cases hreg'

/-- **A cycle in which a word dropped by the flag is waited for.** -/
lemma Straight.step_of_killed (h : Straight prog t) (hinv : t.Inv prog) (hplain : Plain prog t p)
    (hreg : t.core.regFencei = false) (hk : t.core.ifKilled = true) :
    Straight prog (t.step prog p) := by
  obtain ⟨hdec, hpc⟩ := h.killed hk
  have hifKill : ifKill t.core (portInputs prog t p) = false := (h.ifKill_eq hinv hplain).trans hreg
  have hnext : (t.step prog p).next = t.next := by simp [Fetching.step, leaves, hdec]
  have hpc' : (t.step prog p).core.ifPc = t.core.ifPc := by
    show (Stage5.step t.core (portInputs prog t p)).ifPc = _
    rw [ifPc_step hplain.kill, hifKill, hk, if_neg (by simp)]
  refine hinv.straight_of_drop hplain.kill (by simp [hk]) (h.sel_of_bubble hinv hplain hdec)
    (by rw [hpc', hpc, hnext]) ?_
  intro hreg'
  have : (t.step prog p).core.regFencei = false := h.fencei_eq hinv hplain
  rw [this] at hreg'
  cases hreg'

/-- The request of an empty buffer is for the word behind decode. -/
lemma Straight.request_eq (h : Straight prog t) (hk : t.core.ifKilled = false)
    (hbuf : t.core.ifBuffer = none) : request t p = none ∨ request t p = some t.ahead := by
  obtain ⟨hpc, hpending⟩ := h.empty hk hbuf
  rcases hpending with hpending | hpending
  · simp only [request, hpending]
    split_ifs
    · exact Or.inr (by rw [hpc])
    · exact Or.inl rfl
  · right
    simp [request, hpending]

/-- What is answered to an empty buffer is the word behind decode. -/
lemma Straight.imemData_eq (h : Straight prog t) (hk : t.core.ifKilled = false)
    (hbuf : t.core.ifBuffer = none) (hvalid : (portInputs prog t p).imemValid = true) :
    (portInputs prog t p).imemData = prog t.ahead := by
  rcases h.request_eq (p := p) hk hbuf with hreq | hreq
  · simp [portInputs, hreq] at hvalid
  · simp [portInputs, hreq]

/-- The request that is left is for the word behind decode. -/
lemma Straight.pending_step (h : Straight prog t) (hk : t.core.ifKilled = false)
    (hbuf : t.core.ifBuffer = none) :
    (t.step prog p).pending = none ∨ (t.step prog p).pending = some t.ahead := by
  show (if p.respond then none else request t p) = none ∨ (if p.respond then none else request t p) = _
  split_ifs
  · exact Or.inl rfl
  · exact h.request_eq hk hbuf

/-- The fetch after a cycle that drops nothing. -/
lemma Straight.fetch_step (h : Straight prog t) (hinv : t.Inv prog) (hplain : Plain prog t p)
    (hreg : t.core.regFencei = false) (hk : t.core.ifKilled = false) :
    (t.step prog p).core.ifKilled = false ∧ (t.step prog p).core.regFencei = false ∧
      (t.step prog p).core.ifPc =
        if (portInputs prog t p).imemValid then t.core.ifPc + 4 else t.core.ifPc := by
  have hifKill : ifKill t.core (portInputs prog t p) = false := (h.ifKill_eq hinv hplain).trans hreg
  refine ⟨?_, h.fencei_eq hinv hplain, ?_⟩
  · show (Stage5.step t.core (portInputs prog t p)).ifKilled = false
    rw [ifKilled_step hplain.kill, hifKill, hk]
    rfl
  · show (Stage5.step t.core (portInputs prog t p)).ifPc = _
    have hfire : ifInFire t.core (portInputs prog t p) = (portInputs prog t p).imemValid := by
      cases hvalid : (portInputs prog t p).imemValid with
      | true => simp [ifInFire, hvalid, hinv.buffer_of_imemValid hvalid]
      | false => simp [ifInFire, hvalid]
    rw [ifPc_step hplain.kill, hifKill, hk, hfire, h.ifPcNext_eq hinv hplain hreg]
    simp

/-- An empty buffer has an empty buffer of its address. -/
lemma Fetching.Inv.ifPcBuffer_of_none (hinv : t.Inv prog) (hbuf : t.core.ifBuffer = none) :
    t.core.ifPcBuffer = none := by
  have hsync := hinv.sync
  rw [hbuf] at hsync
  cases hq : t.core.ifPcBuffer with
  | none => rfl
  | some a => simp [hq] at hsync

/-- **A cycle in which decode is stalled.** -/
lemma Straight.step_of_stalled (h : Straight prog t) (hinv : t.Inv prog) (hplain : Plain prog t p)
    (hreg : t.core.regFencei = false) (hk : t.core.ifKilled = false)
    (hadv : advances t.core (portInputs prog t p) = false) : Straight prog (t.step prog p) := by
  obtain ⟨hk', hreg', hpc'⟩ := h.fetch_step hinv hplain hreg hk
  have hifKill : ifKill t.core (portInputs prog t p) = false := (h.ifKill_eq hinv hplain).trans hreg
  have hissues : issues t.core (portInputs prog t p) = false := by simp [issues, hadv]
  have hnext : (t.step prog p).next = t.next := by simp [Fetching.step, leaves, hissues]
  have hdec : (t.step prog p).core.dec = t.core.dec := by
    show decNext t.core (portInputs prog t p) = t.core.dec
    simp [decNext, hplain.kill, hadv, hifKill, hk]
  have hahead : (t.step prog p).ahead = t.ahead := by simp [Fetching.ahead, hdec, hnext]
  have hsel : branchSel (t.step prog p).core.exe = .plus4 := by
    show branchSel (exeNext t.core (portInputs prog t p)) = .plus4
    cases hstall : fullStall t.core (portInputs prog t p) with
    | true =>
      rw [exeNext_of_fullStall hplain.kill hstall]
      exact h.sel
    | false => exact branchSel_of_x (exeNext_of_not_issues hissues (Or.inr hstall)).2.2.1
  have hbuf' : (t.step prog p).core.ifBuffer =
      queueNext t.core.ifBuffer (portInputs prog t p).imemValid (portInputs prog t p).imemData false := by
    rw [← hadv]
    rfl
  have hpcBuf' : (t.step prog p).core.ifPcBuffer =
      queueNext t.core.ifPcBuffer (portInputs prog t p).imemValid t.core.ifPc false := by
    rw [← hadv]
    rfl
  refine ⟨hsel, ?_, ?_, ?_, ?_, ?_⟩
  · rw [hdec, hnext]
    exact h.dec
  · intro hkilled
    rw [hk'] at hkilled
    cases hkilled
  · intro _ w hw
    rw [hahead, hpc', hpcBuf']
    rw [hbuf'] at hw
    cases hbuf : t.core.ifBuffer with
    | some w' =>
      -- the word waits on
      have hvalid : (portInputs prog t p).imemValid = false := by
        cases hv : (portInputs prog t p).imemValid with
        | false => rfl
        | true =>
          rw [hinv.buffer_of_imemValid hv] at hbuf
          cases hbuf
      obtain ⟨hword, haddr, hpc⟩ := h.buffered hk w' hbuf
      rw [hbuf] at hw
      cases hw
      rw [hvalid, haddr]
      exact ⟨hword, rfl, hpc⟩
    | none =>
      -- the word that is answered waits
      cases hvalid : (portInputs prog t p).imemValid with
      | false =>
        rw [hbuf, hvalid] at hw
        cases hw
      | true =>
        rw [hbuf, hvalid] at hw
        cases hw
        rw [hinv.ifPcBuffer_of_none hbuf, (h.empty hk hbuf).1]
        exact ⟨h.imemData_eq hk hbuf hvalid, rfl, rfl⟩
  · intro _ hnone
    rw [hbuf'] at hnone
    cases hbuf : t.core.ifBuffer with
    | some w =>
      rw [hbuf] at hnone
      cases hnone
    | none =>
      cases hvalid : (portInputs prog t p).imemValid with
      | true =>
        rw [hbuf, hvalid] at hnone
        cases hnone
      | false =>
        rw [hahead, hpc', hvalid]
        exact ⟨(h.empty hk hbuf).1, h.pending_step hk hbuf⟩
  · intro hfence
    rw [hreg'] at hfence
    cases hfence

/-- A word that redirects the fetch does not access the memory. -/
lemma memEn_of_ctrlFlow {word : BitVec 32} (h : (csignals word).ctrlFlow ≠ .x) :
    (csignals word).memEn = false := by
  revert h
  unfold csignals
  cases Insn.decode word with
  | none => decide
  | some insn => cases insn <;> decide

/-- The condition on the words that leave decode. -/
def ReadsFirst (prog : BitVec 64 → BitVec 32) (t : Fetching) (p : Ports) : Prop :=
  ReadsNoSecondDest t.core (portInputs prog t p)

/-- A word that leaves decode has read the registers of program order. -/
lemma Fetching.Inv.fresh (hinv : t.Inv prog) (hreads : ReadsFirst prog t p)
    (hissues : issues t.core (portInputs prog t p) = true) (a b : BitVec 64) :
    FreshSources t.core (t.arch a b) := by
  have hhaz : hazard t.core = false := by
    cases hhz : hazard t.core <;> simp [issues, advances, hhz] at hissues ⊢
  rw [← hinv.arch]
  exact hinv.tracked.freshSources (hazardFree_of_hazard hhaz) (hreads hissues) a b

/-- **A word that leaves decode** redirects the fetch, or the program goes straight on. -/
lemma Straight.way_of_issues (h : Straight prog t) (hinv : t.Inv prog) (hplain : Plain prog t p)
    (hreads : ReadsFirst prog t p) (hissues : issues t.core (portInputs prog t p) = true) :
    Redirects (t.step prog p) ∨
      branchSel (t.step prog p).core.exe = .plus4 ∧ (t.step prog p).next = t.ahead := by
  have hexe : (t.step prog p).core.exe = decoded t.core := exeNext_of_issues hissues
  cases hvalid : t.core.dec.valid with
  | false =>
    refine Or.inr ⟨h.sel_of_bubble hinv hplain hvalid, ?_⟩
    simp [Fetching.step, leaves, hvalid, Fetching.ahead]
  | true =>
    obtain ⟨hpc, hinst⟩ := h.dec hvalid
    have hret : (cs t.core).ctrlFlow ≠ .ret := by
      rw [cs, hinst]
      exact hplain.ret
    have hnext : (t.step prog p).next = branchTarget (decoded t.core) := by
      rw [(hinv.fresh hreads hissues p.memAnswer p.exeAnswer).leads hret, hpc, hinst]
      simp [Fetching.step, leaves, hissues, hvalid]
    by_cases hsel : branchSel (decoded t.core) = .plus4
    · refine Or.inr ⟨by rw [hexe, hsel], ?_⟩
      rw [hnext, branchTarget, hsel, Fetching.ahead, hvalid, ← hpc]
      rfl
    · refine Or.inl ⟨by rwa [hexe], by rwa [hexe], by rw [hexe, hnext], ?_⟩
      rw [hexe]
      refine memEn_of_ctrlFlow fun hx => hsel (branchSel_of_x hx)

/-- **A cycle in which decode goes on.** -/
lemma Straight.step_of_advances (h : Straight prog t) (hinv : t.Inv prog) (hplain : Plain prog t p)
    (hreads : ReadsFirst prog t p) (hreg : t.core.regFencei = false) (hk : t.core.ifKilled = false)
    (hadv : advances t.core (portInputs prog t p) = true) :
    Redirects (t.step prog p) ∨ Straight prog (t.step prog p) := by
  obtain ⟨hk', hreg', hpc'⟩ := h.fetch_step hinv hplain hreg hk
  have hifKill : ifKill t.core (portInputs prog t p) = false := (h.ifKill_eq hinv hplain).trans hreg
  have hissues : issues t.core (portInputs prog t p) = true := by
    simp [issues, hadv, hplain.kill, decKill, exePcSel_eq hplain.kill, h.sel]
  rcases h.way_of_issues hinv hplain hreads hissues with hred | ⟨hsel, hnext⟩
  · exact Or.inl hred
  · right
    have hdec : (t.step prog p).core.dec =
        if t.core.ifBuffer.isSome || (portInputs prog t p).imemValid then
          ⟨true, ifOutBits t.core (portInputs prog t p), ifPcOutBits t.core⟩
        else ⟨false, bubble, ifPcOutBits t.core⟩ := by
      show decNext t.core (portInputs prog t p) = _
      simp [decNext, hplain.kill, hadv, hifKill, hk]
    have hbuf' : (t.step prog p).core.ifBuffer = none := by
      show queueNext t.core.ifBuffer _ _ (advances t.core (portInputs prog t p)) = none
      rw [hadv]
      cases t.core.ifBuffer <;> simp [queueNext]
    -- the word that comes to decode, the fetch behind it and the request that is left
    obtain ⟨hword, hfetch, hpending⟩ :
        ((t.step prog p).core.dec.valid = true → (t.step prog p).core.dec.pc = t.ahead ∧
          (t.step prog p).core.dec.inst = prog t.ahead) ∧
        (t.step prog p).core.ifPc = (t.step prog p).ahead ∧
        ((t.step prog p).pending = none ∨ (t.step prog p).pending = some (t.step prog p).ahead) := by
      cases hbuf : t.core.ifBuffer with
      | some w =>
        obtain ⟨hw, haddr, hpc⟩ := h.buffered hk w hbuf
        have hvalid : (portInputs prog t p).imemValid = false := by
          cases hv : (portInputs prog t p).imemValid with
          | false => rfl
          | true =>
            rw [hinv.buffer_of_imemValid hv] at hbuf
            cases hbuf
        have hdec' : (t.step prog p).core.dec = ⟨true, w, t.ahead⟩ := by
          rw [hdec]
          simp [hbuf, ifOutBits, ifPcOutBits, haddr]
        refine ⟨?_, ?_, ?_⟩
        · intro _
          rw [hdec']
          exact ⟨rfl, hw⟩
        · rw [hpc', hvalid, Fetching.ahead, hdec', hnext]
          exact hpc
        · left
          simp [Fetching.step, request, hinv.pending_of_buffer hbuf, imemReqValid, hbuf]
      | none =>
        have hpc := (h.empty hk hbuf).1
        cases hvalid : (portInputs prog t p).imemValid with
        | true =>
          have hdec' : (t.step prog p).core.dec = ⟨true, prog t.ahead, t.ahead⟩ := by
            rw [hdec]
            simp [hbuf, hvalid, ifOutBits, ifPcOutBits, hinv.ifPcBuffer_of_none hbuf, hpc,
              h.imemData_eq hk hbuf hvalid]
          refine ⟨?_, ?_, Or.inl (pending_of_imemValid hvalid)⟩
          · intro _
            rw [hdec']
            exact ⟨rfl, rfl⟩
          · rw [hpc', hvalid, Fetching.ahead, hdec', hnext, hpc]
        | false =>
          have hdec' : (t.step prog p).core.dec.valid = false := by
            rw [hdec]
            simp [hbuf, hvalid]
          have hahead : (t.step prog p).ahead = t.ahead := by
            rw [Fetching.ahead, hdec', hnext]
            rfl
          refine ⟨?_, ?_, ?_⟩
          · intro hv
            rw [hdec'] at hv
            cases hv
          · rw [hpc', hvalid, hahead]
            exact hpc
          · rw [hahead]
            exact h.pending_step hk hbuf
    refine ⟨hsel, ?_, ?_, ?_, ?_, ?_⟩
    · rw [hnext]
      exact hword
    · intro hkilled
      rw [hk'] at hkilled
      cases hkilled
    · intro _ w hw
      rw [hbuf'] at hw
      cases hw
    · exact fun _ _ => ⟨hfetch, hpending⟩
    · intro hfence
      rw [hreg'] at hfence
      cases hfence

/-- **A cycle in which the program is followed.** -/
lemma Straight.step (h : Straight prog t) (hinv : t.Inv prog) (hplain : Plain prog t p)
    (hreads : ReadsFirst prog t p) : Redirects (t.step prog p) ∨ Straight prog (t.step prog p) := by
  cases hreg : t.core.regFencei with
  | true => exact Or.inr (h.step_of_fence hinv hplain hreg)
  | false =>
    cases hk : t.core.ifKilled with
    | true => exact Or.inr (h.step_of_killed hinv hplain hreg hk)
    | false =>
      cases hadv : advances t.core (portInputs prog t p) with
      | true => exact h.step_of_advances hinv hplain hreads hreg hk hadv
      | false => exact Or.inr (h.step_of_stalled hinv hplain hreg hk hadv)

/-- A word that leaves decode is the next one of the program. -/
lemma Fetching.Inv.follows (hinv : t.Inv prog) (hplain : Plain prog t p) : Follows prog t p := by
  intro hleaves
  simp only [leaves, Bool.and_eq_true] at hleaves
  obtain ⟨hissues, hvalid⟩ := hleaves
  rcases hinv.way with hred | hstraight
  · simp [issues, decKill, exePcSel_eq hplain.kill, hred.sel] at hissues
  · exact hstraight.dec hvalid

/-- The registers are those of program order after a cycle. -/
lemma Fetching.Inv.arch_step (hinv : t.Inv prog) (hplain : Plain prog t p)
    (hreads : ReadsFirst prog t p) (a b : BitVec 64) :
    older (t.step prog p).core a b = (t.step prog p).arch a b := by
  show older (Stage5.step t.core (portInputs prog t p)) a b =
    (if _ then t.arch else if _ then _ else _ : BitVec 64 → BitVec 64 → Regs) a b
  cases hstall : fullStall t.core (portInputs prog t p) with
  | true =>
    rw [if_pos rfl, older_step_of_fullStall hstall hplain.kill]
    exact hinv.arch a b
  | false =>
    rw [if_neg (by decide)]
    cases hissues : issues t.core (portInputs prog t p) with
    | false =>
      rw [if_neg (by simp [leaves, hissues]), older_step_of_not_issues hissues hstall hplain.kill]
      exact hinv.arch _ a
    | true =>
      cases hvalid : t.core.dec.valid with
      | true =>
        have hleaves : leaves prog t p = true := by simp [leaves, hissues, hvalid]
        obtain ⟨hpc, hinst⟩ := hinv.follows hplain hleaves
        have hfresh := hinv.fresh hreads hissues (answer t.core (portInputs prog t p)) a
        rw [← hinv.arch] at hfresh
        rw [if_pos hleaves, hfresh.older_step hissues, hinv.arch, hpc, hinst]
      | false =>
        -- a bubble writes nothing
        have hwb : ((executed (Stage5.step t.core (portInputs prog t p))).writeBack b).wbSel = .x := by
          show (exeNext t.core (portInputs prog t p)).wbSel = .x
          rw [exeNext_of_issues hissues]
          show (csignals t.core.dec.inst).wbSel = .x
          rw [hinv.bubble hvalid]
          exact csignals_bubble.2.2
        rw [if_neg (by simp [leaves, hvalid]), older_step_of_issues hissues, Regs.write_of_x _ hwb]
        exact hinv.arch _ a

/-- **The invariant is kept** in every cycle without a kill, a return or a fence. -/
lemma Fetching.Inv.step (hinv : t.Inv prog) (hplain : Plain prog t p) (hreads : ReadsFirst prog t p) :
    (t.step prog p).Inv prog where
  tracked := hinv.tracked.step _
  named := hinv.named.step _
  arch := hinv.arch_step hplain hreads
  bubble := inst_decNext hinv.bubble
  sync := isSome_queueNext hinv.sync _ _ _ _
  single := hinv.single_step
  way := hinv.way.elim (fun h => h.step hinv hplain) fun h => h.step hinv hplain hreads

end Step

/-- The invariant after a reset. -/
lemma Fetching.inv_init (prog : BitVec 64 → BitVec 32) (vector : BitVec 64) (r : Regs) :
    (Fetching.init vector r).Inv prog where
  tracked := ⟨fun h => absurd rfl h, fun h => absurd rfl h, fun h => absurd rfl h⟩
  named := ⟨⟨nofun, nofun⟩, ⟨nofun, nofun⟩, ⟨nofun, nofun⟩⟩
  arch := fun _ _ => by
    unfold older
    rw [Regs.write_of_x _ rfl, Regs.write_of_x _ rfl, Regs.write_of_x _ rfl]
    rfl
  bubble := fun _ => rfl
  sync := rfl
  single := fun _ => rfl
  way := Or.inr ⟨rfl, nofun, nofun, nofun, fun _ _ => ⟨rfl, Or.inl rfl⟩, nofun⟩

/-- **The words that leave decode are the program in its order**, each with its address, for every
program without return and fence, every contents of the registers and every timing of the memories, if
no exception or interrupt is taken and no word leaves decode that reads the second destination of an
instruction on its way as the register of a condition or as the data of a store. -/
theorem everyCycle_follows (prog : BitVec 64 → BitVec 32) (vector : BitVec 64) (r : Regs)
    {ps : List Ports}
    (hplain : EveryCycle (Fetching.step prog) (Plain prog) (Fetching.init vector r) ps)
    (hreads : EveryCycle (Fetching.step prog) (ReadsFirst prog) (Fetching.init vector r) ps) :
    EveryCycle (Fetching.step prog) (Follows prog) (Fetching.init vector r) ps := by
  refine EveryCycle.of_invariant (Fetching.Inv prog) ?_ ?_ (Fetching.inv_init prog vector r)
    (hplain.and hreads)
  · exact fun t p hinv hcycle => hinv.step hcycle.1 hcycle.2
  · exact fun t p hinv hcycle => hinv.follows hcycle.1

instance (prog : BitVec 64 → BitVec 32) (t : Fetching) (p : Ports) : Decidable (Follows prog t p) :=
  inferInstanceAs (Decidable (_ → _ ∧ _))

instance (prog : BitVec 64 → BitVec 32) (t : Fetching) (p : Ports) :
    Decidable (ReadsFirst prog t p) :=
  inferInstanceAs (Decidable (ReadsNoSecondDest _ _))

instance (prog : BitVec 64 → BitVec 32) (t : Fetching) (p : Ports) : Decidable (Plain prog t p) :=
  decidable_of_iff
    (pipelineKill t.core (portInputs prog t p) = false ∧ (csignals (prog t.next)).ctrlFlow ≠ .ret ∧
      (csignals (prog t.next)).fencei = false)
    ⟨fun h => ⟨h.1, h.2.1, h.2.2⟩, fun h => ⟨h.kill, h.ret, h.fence⟩⟩

/-- Memories that answer at once. -/
def atOnce : Ports := ⟨true, true, true, 0, false, false, 0, 0, 0, 0⟩

/-- A product of 128 bits and a branch on one of its halves, at `0x10000`: `addi rd1, rd0, -1`,
`mulu rd5, rd6, rd1, rd1`, the branch, and `swym` everywhere else. -/
def mulBranchProg (branch : BitVec 32) (a : BitVec 64) : BitVec 32 :=
  if a = 0x10000 then 0x19040fff
  else if a = 0x10004 then 0x1d146041
  else if a = 0x10008 then branch
  else 0x10000000

/-- The branch on the first destination, `brz rd6`, goes on as the program does. -/
theorem everyCycle_follows_mulBranch :
    EveryCycle (Fetching.step (mulBranchProg 0x2a180002)) (Follows (mulBranchProg 0x2a180002))
      (Fetching.init 0x10000 ⟨fun _ => 0, fun _ => 0, fun _ => 0⟩) (List.replicate 16 atOnce) :=
  everyCycle_follows _ _ _ (by decide +kernel) (by decide +kernel)

/-- **The branch on the second destination**, `brz rd5`, is taken although `rd5` is not zero, and the
word at its target leaves decode. -/
theorem not_follows_mulBranch :
    ¬ ∀ (prog : BitVec 64 → BitVec 32) (vector : BitVec 64) (r : Regs) (ps : List Ports),
      EveryCycle (Fetching.step prog) (Plain prog) (Fetching.init vector r) ps →
        EveryCycle (Fetching.step prog) (Follows prog) (Fetching.init vector r) ps := by
  intro hall
  have hrun := hall (mulBranchProg 0x2a140002) 0x10000 ⟨fun _ => 0, fun _ => 0, fun _ => 0⟩
    (List.replicate 10 atOnce) (by decide +kernel)
  revert hrun
  decide +kernel

end Stage5

end Wuming

end Dadao
