import Mathlib.Logic.Function.Iterate
import Dadao.Wuming.Cores

set_option relaxedAutoImplicit false
set_option autoImplicit false

/-!
# Programs on the five-stage core

The core with an instruction memory and a data memory. Each memory takes any number of cycles, the
instruction memory to take a request and to answer it, the data memory to perform an access, which it
does in the cycle in which it answers. Up to five words are on their way at a time; what the core holds
of them is said by the registers, the memory and the program counter once they have all gone through.

## Main definitions

* `Dadao.Wuming.Stage5.Machine` — the core with its memories.
* `Dadao.Wuming.Stage5.Machine.settled` — what a program sees once the words on their way are through.
* `Dadao.Wuming.Stage5.inOrder` — one word through the empty pipeline.
* `Dadao.Wuming.Stage5.Suits` — a word that the pipeline executes like any other.

## Main results

* `Dadao.Wuming.Stage5.run_settled` — after every run the pipeline has executed as many words, one after
  another, as have left decode.
-/

namespace Dadao

namespace Wuming

namespace Stage5

open Clocked

/-! ### The core with its memories -/

/-- What the memories do in a cycle, and the outputs of the CSR file, which has no interrupt pending. -/
structure Grants where
  /-- The instruction memory takes a request. -/
  accept : Bool
  /-- The instruction memory answers the request it has taken. -/
  respond : Bool
  /-- The data memory performs the access it is asked for. -/
  dmem : Bool
  /-- The address the CSR file goes on at. -/
  csrEvec : BitVec 64
  /-- The value of the CSR that is read. -/
  csrRdata : BitVec 64

/-- The core with its memories. -/
structure Machine (μ : Type) where
  /-- The core. -/
  core : State
  /-- The request the instruction memory has taken. -/
  pending : Option (BitVec 64)
  /-- The data memory. -/
  mem : μ

section Machine

variable {μ : Type} (prog : BitVec 64 → BitVec 32) (access : μ → MemReq → BitVec 64 × μ)
  (x : Machine μ) (c : Grants)

/-- The request of a cycle: the one that is pending, or one that is taken at the address of the fetch. -/
def Machine.request : Option (BitVec 64) :=
  match x.pending with
  | some a => some a
  | none => if imemReqValid x.core && c.accept then some x.core.ifPc else none

/-- The inputs of the core. -/
def Machine.inputs : Inputs where
  imemValid := (x.request c).isSome && c.respond
  imemData := prog ((x.request c).getD 0)
  dmemValid := dmemReqValid x.core && c.dmem
  dmemData := (access x.mem (dmemReq x.core)).1
  csrInterrupt := false
  csrEret := false
  csrEvec := c.csrEvec
  csrRdata := c.csrRdata

/-- A cycle. -/
def Machine.step : Machine μ where
  core := Stage5.step x.core (x.inputs prog access c)
  pending := if c.respond then none else x.request c
  mem := if dmemReqValid x.core && c.dmem then (access x.mem (dmemReq x.core)).2 else x.mem

/-- A word leaves decode. -/
def Machine.leaves : Bool := issues x.core (x.inputs prog access c) && x.core.dec.valid

/-- The machine after a reset, with any contents of its registers. -/
def Machine.init (vector : BitVec 64) (r : Regs) (m : μ) : Machine μ :=
  ⟨(reset vector).withRegs r, none, m⟩

/-- The data access of the instruction in the memory stage: its answer and the memory after it. -/
def Machine.memAccess : BitVec 64 × μ := access x.mem (dmemReq x.core)

/-- The memory once the instruction in the memory stage is through. -/
def Machine.memDone : μ := if x.core.mem.memVal then (x.memAccess access).2 else x.mem

/-- The data access of the instruction in execute. -/
def Machine.exeAccess : BitVec 64 × μ :=
  access (x.memDone access) (dmemReq { reset 0 with mem := executed x.core })

/-- The memory once the instruction in execute is through. -/
def Machine.exeDone : μ := if x.core.exe.memVal then (x.exeAccess access).2 else x.memDone access

/-- The address of the next word of the program: the target of the word in execute, or else the address
of the first word behind it. -/
def nextWord (s : State) : BitVec 64 :=
  if branchSel s.exe = .plus4 then
    if s.dec.valid then s.dec.pc else if s.ifKilled then s.ifPc else s.ifPcBuffer.getD s.ifPc
  else branchTarget s.exe

/-- **What a program sees once the words on their way are through**: the registers with what the words
in write back, in the memory stage and in execute write, and the memory with what they store. -/
def Machine.settled : Arch × μ :=
  let r := older x.core (x.memAccess access).1 (x.exeAccess access).1
  (⟨nextWord x.core, r.rd, r.rb, r.rf, x.core.ras⟩, x.exeDone access)

end Machine

/-! ### One word after another -/

section InOrder

variable {μ : Type} (prog : BitVec 64 → BitVec 32) (access : μ → MemReq → BitVec 64 × μ)
  (evec : Cause → BitVec 64)

/-- The bus of a program that no store changes. -/
def harvard : Stage1.Bus μ := ⟨fun _ a => prog a, access⟩

/-- **One word through the empty pipeline.** -/
def inOrder (st : Arch × μ) : Arch × μ :=
  let o := single (harvard prog access) evec st.1 st.2
  (o.arch, o.mem)

/-- The program counter, the registers and the memory before a word of the program. -/
def before (st : Arch × μ) (k : ℕ) : Arch × μ := (inOrder prog access evec)^[k] st

/-- A word of the program. -/
def wordAt (st : Arch × μ) (k : ℕ) : BitVec 32 := prog (before prog access evec st k).1.pc

/-- The data access of a word of the program: its answer and the memory after it. -/
def accessAt (st : Arch × μ) (k : ℕ) : BitVec 64 × μ :=
  access (before prog access evec st k).2 (dmemReq
    { reset 0 with
      mem := memWord (wordAt prog access evec st k) (before prog access evec st k).1 })

/-- The hazard logic compares this source with the first destinations only: the register of a condition,
and the data register of a store. -/
def HalfGuarded (word : BitVec 32) (a : BitVec 6) : Prop :=
  (csignals word).condFun ≠ .x ∧ ha word = a ∨
    ((csignals word).condFun = .eq ∨ (csignals word).condFun = .ne) ∧ hb word = a ∨
    (csignals word).memFcn = true ∧ ((csignals word).regGrp = .rd ∨ (csignals word).regGrp = .mrd) ∧
      ha word = a

/-- A word of the program that is no return, no fence and no CSR access and raises no exception, and that
has no condition and no store of the second destination of one of the three words before it. -/
structure Suits (st : Arch × μ) (k : ℕ) : Prop where
  /-- The word raises no exception. -/
  fault : Stage5.fault (before prog access evec st k).1 (wordAt prog access evec st k) = none
  /-- The word gives the CSR file no command. -/
  plain : PlainWord (wordAt prog access evec st k)
  /-- The word is no return. -/
  ret : (csignals (wordAt prog access evec st k)).ctrlFlow ≠ .ret
  /-- The word is no fence. -/
  fence : (csignals (wordAt prog access evec st k)).fencei = false
  /-- The second destinations it reads are old enough. -/
  second : ∀ j < k, k ≤ j + 3 → (csignals (wordAt prog access evec st j)).wbSel = .hahb →
    ha (wordAt prog access evec st j) ≠ 0 →
    ¬ HalfGuarded (wordAt prog access evec st k) (ha (wordAt prog access evec st j))

/-- What waits in a stage with a second destination is one of the last words of the program. -/
def Recent (st : Arch × μ) (k age : ℕ) (sel : WbSel) (a : BitVec 6) : Prop :=
  sel = .hahb → ∃ j < k, k ≤ j + age ∧ (csignals (wordAt prog access evec st j)).wbSel = .hahb ∧
    ha (wordAt prog access evec st j) = a

/-- Nothing on its way raises an exception or waits for the CSR file. -/
structure Clean (s : State) : Prop where
  /-- The word in execute is legal. -/
  illegal : s.exeIllegal = false
  /-- The word in the memory stage is legal. -/
  except : s.regExcept = false
  /-- The access in the memory stage is aligned. -/
  memAligned : memDataMisaligned s = false
  /-- The access in execute will be aligned. -/
  exeAligned : memDataMisaligned { reset 0 with mem := executed s } = false
  /-- The memory stage reads no CSR. -/
  memCsr : s.mem.wbSel ≠ .csr
  /-- Execute reads no CSR. -/
  exeCsr : s.exe.wbSel ≠ .csr

/-- **The machine is at a word of the program**: what is on its way settles to the state before the word,
and the fetch, with the program order beside it, is at the word. -/
structure At (st : Arch × μ) (k : ℕ) (x : Machine μ) (t : Fetching) : Prop where
  /-- The core. -/
  core : t.core = x.core
  /-- The instruction memory. -/
  pending : t.pending = x.pending
  /-- The fetch follows the program. -/
  inv : t.Inv prog
  /-- The address of the word. -/
  next : t.next = (before prog access evec st k).1.pc
  /-- The registers. -/
  regs : older x.core (x.memAccess access).1 (x.exeAccess access).1 =
    archRegs (before prog access evec st k).1
  /-- The memory. -/
  mem : x.exeDone access = (before prog access evec st k).2
  /-- The return address stack. -/
  ras : x.core.ras = (before prog access evec st k).1.ras
  /-- No exception is on its way. -/
  clean : Clean x.core
  /-- The second destination in execute. -/
  exeRecent : Recent prog access evec st k 1 x.core.exe.wbSel x.core.exe.ha
  /-- The second destination in the memory stage. -/
  memRecent : Recent prog access evec st k 2 x.core.mem.wbSel x.core.mem.ha
  /-- The second destination in write back. -/
  wbRecent : Recent prog access evec st k 3 x.core.wb.wbSel x.core.wb.ha

end InOrder

section Step

variable {μ : Type} {prog : BitVec 64 → BitVec 32} {access : μ → MemReq → BitVec 64 × μ}
  {evec : Cause → BitVec 64} {st : Arch × μ} {k : ℕ} {x : Machine μ} {t : Fetching} {c : Grants}

variable (access x c) in
/-- The ports of the fetch, with the answers the words on their way get. -/
def Machine.ports : Ports where
  accept := c.accept
  respond := c.respond
  dmemValid := dmemReqValid x.core && c.dmem
  dmemData := (access x.mem (dmemReq x.core)).1
  csrInterrupt := false
  csrEret := false
  csrEvec := c.csrEvec
  csrRdata := c.csrRdata
  memAnswer := (x.memAccess access).1
  exeAnswer := (x.exeAccess access).1

/-- The request of a cycle. -/
lemma At.request_eq (h : At prog access evec st k x t) :
    Stage5.request t (x.ports access c) = x.request c := by
  unfold Stage5.request Machine.request
  rw [h.core, h.pending]
  cases x.pending <;> rfl

/-- The inputs of the core. -/
lemma At.portInputs_eq (h : At prog access evec st k x t) :
    portInputs prog t (x.ports access c) = x.inputs prog access c := by
  unfold portInputs Machine.inputs
  rw [h.request_eq]
  rfl

/-- The core after a cycle. -/
lemma At.core_step (h : At prog access evec st k x t) :
    (t.step prog (x.ports access c)).core = (x.step prog access c).core := by
  show Stage5.step t.core (portInputs prog t (x.ports access c)) = Stage5.step x.core _
  rw [h.portInputs_eq, h.core]

/-- The request of the instruction memory after a cycle. -/
lemma At.pending_step (h : At prog access evec st k x t) :
    (t.step prog (x.ports access c)).pending = (x.step prog access c).pending := by
  show (if c.respond then none else Stage5.request t (x.ports access c)) = _
  rw [h.request_eq]
  rfl

/-- Nothing is killed. -/
lemma Clean.kill (h : Clean x.core) : pipelineKill x.core (x.inputs prog access c) = false := by
  simp [pipelineKill, memException, interruptEdge, Machine.inputs, h.except, h.memAligned]

/-- The data memory is waited for exactly if it does not answer an access. -/
lemma Clean.fullStall_eq (h : Clean x.core) :
    fullStall x.core (x.inputs prog access c) = (x.core.mem.memVal && !c.dmem) := by
  simp only [fullStall, Machine.inputs, dmemReqValid, h.memAligned]
  cases x.core.mem.memVal <;> cases c.dmem <;> rfl

/-- The answer to the instruction in the memory stage. -/
lemma Clean.answer_eq (h : Clean x.core) :
    answer x.core (x.inputs prog access c) = (x.memAccess access).1 := by
  rw [answer, if_neg h.memCsr]
  rfl

/-- The data memory after a cycle that does not wait for it. -/
lemma Clean.mem_step (h : Clean x.core)
    (hstall : fullStall x.core (x.inputs prog access c) = false) :
    (x.step prog access c).mem = x.memDone access := by
  rw [h.fullStall_eq] at hstall
  show (if dmemReqValid x.core && c.dmem then _ else _) = if x.core.mem.memVal then _ else _
  rw [dmemReqValid, h.memAligned]
  cases hval : x.core.mem.memVal with
  | false => rfl
  | true =>
    have hdmem : c.dmem = true := by simpa [hval] using hstall
    simp [hdmem, Machine.memAccess]

/-- The data memory after a cycle that waits for it. -/
lemma Clean.mem_step_of_fullStall (h : Clean x.core)
    (hstall : fullStall x.core (x.inputs prog access c) = true) : (x.step prog access c).mem = x.mem := by
  rw [h.fullStall_eq] at hstall
  have hdmem : c.dmem = false := by simp at hstall; exact hstall.2
  show (if dmemReqValid x.core && c.dmem then _ else _) = x.mem
  rw [hdmem, Bool.and_false]
  rfl

/-- What waits with a second destination on its way is one of the last three words. -/
lemma At.exists_of_secondDest (h : At prog access evec st k x t) {a : BitVec 6}
    (hs : SecondDest x.core a) :
    ∃ j < k, k ≤ j + 3 ∧ (csignals (wordAt prog access evec st j)).wbSel = .hahb ∧
      ha (wordAt prog access evec st j) = a := by
  rcases hs with ⟨hsel, rfl⟩ | ⟨hsel, rfl⟩ | ⟨hsel, rfl⟩
  · obtain ⟨j, hj, hage, hword⟩ := h.exeRecent hsel
    exact ⟨j, hj, by omega, hword⟩
  · obtain ⟨j, hj, hage, hword⟩ := h.memRecent hsel
    exact ⟨j, hj, by omega, hword⟩
  · exact h.wbRecent hsel

/-- The word in decode is the word of the program, if it holds one. -/
lemma At.inst_eq (h : At prog access evec st k x t) (hplain : Plain prog t (x.ports access c))
    (hissues : issues x.core (x.inputs prog access c) = true) (hvalid : x.core.dec.valid = true) :
    x.core.dec.pc = (before prog access evec st k).1.pc ∧
      x.core.dec.inst = wordAt prog access evec st k := by
  have hleaves : Stage5.leaves prog t (x.ports access c) = true := by
    rw [Stage5.leaves, h.portInputs_eq, h.core, hissues, hvalid]
    rfl
  have hfollows := h.inv.follows hplain hleaves
  rw [h.core, h.next] at hfollows
  exact hfollows

/-- The cycle is plain. -/
lemma At.plain (h : At prog access evec st k x t) (hsuits : Suits prog access evec st k) :
    Plain prog t (x.ports access c) where
  kill := by
    rw [h.portInputs_eq, h.core]
    exact h.clean.kill
  ret := by
    rw [h.next]
    exact hsuits.ret
  fence := by
    rw [h.next]
    exact hsuits.fence

/-- A bubble has no condition and stores nothing. -/
lemma csignals_bubble_sources : (csignals bubble).condFun = .x ∧ (csignals bubble).memFcn = false := by
  decide

/-- **No second destination on its way is read** by a condition or a store. -/
lemma At.readsFirst (h : At prog access evec st k x t) (hsuits : Suits prog access evec st k) :
    ReadsFirst prog t (x.ports access c) := by
  unfold ReadsFirst ReadsNoSecondDest
  rw [h.portInputs_eq, h.core]
  intro hissues
  -- the condition or the store is one of the word of the program
  have hguarded : ∀ a, HalfGuarded x.core.dec.inst a → a ≠ 0 → ¬ SecondDest x.core a := by
    intro a hhalf ha hsecond
    have hvalid : x.core.dec.valid = true := by
      cases hv : x.core.dec.valid with
      | true => rfl
      | false =>
        have hbubble := h.inv.bubble (by rw [h.core]; exact hv)
        rw [h.core] at hbubble
        rw [HalfGuarded, hbubble, csignals_bubble_sources.1, csignals_bubble_sources.2] at hhalf
        simp at hhalf
    obtain ⟨j, hj, hage, hsel, rfl⟩ := h.exists_of_secondDest hsecond
    rw [(h.inst_eq (h.plain hsuits) hissues hvalid).2] at hhalf
    exact hsuits.second j hj hage hsel ha hhalf
  refine ⟨fun hfile => hguarded _ (Or.inl ⟨?_, rfl⟩), fun hfile => hguarded _ (Or.inr (Or.inl ⟨?_, rfl⟩)),
    fun hfile => hguarded _ (Or.inr (Or.inr ⟨?_, ?_, rfl⟩))⟩
  · intro hx
    rw [decCond1Rf, cs, hx] at hfile
    cases hfile
  · unfold decCond2Rf at hfile
    split at hfile
    · exact Or.inl ‹_›
    · exact Or.inr ‹_›
    · cases hfile
  · unfold decStRf at hfile
    split_ifs at hfile with hfcn
    exact hfcn
  · unfold decStRf at hfile
    split_ifs at hfile
    split at hfile
    · exact Or.inl ‹_›
    · exact Or.inr ‹_›
    all_goals cases hfile

/-! ### The word that leaves decode -/

/-- The word that leaves decode as it enters the memory stage. -/
lemma executed_step_of_issues {s : State} {i : Inputs} (hissues : issues s i = true) :
    executed (Stage5.step s i) = executed { reset 0 with exe := decoded s } :=
  calc executed (Stage5.step s i) = executed { reset 0 with exe := (Stage5.step s i).exe } := rfl
    _ = executed { reset 0 with exe := decoded s } := by
      rw [show (Stage5.step s i).exe = decoded s from exeNext_of_issues hissues]

/-- The address of its access, if its sources are fresh. -/
lemma FreshSources.aluOut_executed {s : State} {r : Regs} (h : FreshSources s r) :
    (executed { reset 0 with exe := decoded s }).aluOut =
      (executed { reset 0 with exe := decodedWord s.dec.inst s.dec.pc r }).aluOut := by
  have halu := h.exeAluOut_eq
  simp only [executed, halu]
  rfl

/-- Its access is misaligned exactly if that of the word is, if its sources are fresh. -/
lemma FreshSources.misaligned_executed {s : State} {r : Regs} (h : FreshSources s r) :
    memDataMisaligned { reset 0 with mem := executed { reset 0 with exe := decoded s } } =
      memDataMisaligned
        { reset 0 with mem := executed { reset 0 with exe := decodedWord s.dec.inst s.dec.pc r } } := by
  unfold memDataMisaligned
  simp only [h.aluOut_executed]
  rfl

/-- **Its access is that of the word**, if its sources are fresh. A load may carry stale data. -/
lemma FreshSources.access_executed {s : State} {r : Regs} (h : FreshSources s r)
    (hloads : LoadsIgnoreData (harvard prog access)) (m : μ) :
    access m (dmemReq { reset 0 with mem := executed { reset 0 with exe := decoded s } }) =
      access m (dmemReq
        { reset 0 with mem := executed { reset 0 with exe := decodedWord s.dec.inst s.dec.pc r } }) := by
  have hreq : dmemReq { reset 0 with mem := executed { reset 0 with exe := decoded s } } =
      { dmemReq
          { reset 0 with mem := executed { reset 0 with exe := decodedWord s.dec.inst s.dec.pc r } } with
        data := (decoded s).mwData } :=
    memReq_eq h.aluOut_executed rfl rfl
  cases hfcn : (cs s).memFcn with
  | false =>
    rw [hreq]
    exact hloads m _ _ hfcn
  | true =>
    have hdata : (decoded s).mwData = (decodedWord s.dec.inst s.dec.pc r).mwData := h.store hfcn
    rw [hreq]
    simp only [dmemReq, executed, hdata]

/-- A word without an access writes the same whatever is answered. -/
lemma Regs.exec_of_not_memEn {word : BitVec 32} (hen : (csignals word).memEn = false)
    (hplain : PlainWord word) (r : Regs) (pc b b' : BitVec 64) : r.exec word pc b = r.exec word pc b' := by
  have hcsr := wbSel_ne_csr hplain
  have hdata : (decodedWord word pc r).writeBack b = (decodedWord word pc r).writeBack b' := by
    have hsel : (decodedWord word pc r).wbSel = (csignals word).wbSel := rfl
    have hmem : (csignals word).wbSel ≠ .rdmm ∧ (csignals word).wbSel ≠ .rbmm := by
      rw [← (sameSignals word).wbSel]
      rw [← (sameSignals word).memEn] at hen
      refine ⟨fun h => ?_, fun h => ?_⟩
      · rw [Stage1.memEn_of_wbSel (Or.inl h)] at hen
        cases hen
      · rw [Stage1.memEn_of_wbSel (Or.inr h)] at hen
        cases hen
    simp only [Exe.writeBack, executed, Mem.writeBack, hsel]
    cases h : (csignals word).wbSel with
    | csr => exact absurd h hcsr
    | rdmm => exact absurd h hmem.1
    | rbmm => exact absurd h hmem.2
    | _ => rfl
  rw [Regs.exec, Regs.exec, hdata]

/-! ### A cycle -/

/-- The second destination in a stage one word or one stage later. -/
lemma Recent.mono {k' age age' : ℕ} {sel : WbSel} {a : BitVec 6}
    (h : Recent prog access evec st k age sel a) (hk : k ≤ k') (hage : k' + age ≤ k + age') :
    Recent prog access evec st k' age' sel a := by
  intro hsel
  obtain ⟨j, hj, hle, hword⟩ := h hsel
  exact ⟨j, by omega, by omega, hword⟩

/-- A word that raises no exception is legal, and its access is aligned. -/
lemma valInst_of_fault {a : Arch} {word : BitVec 32} (h : fault a word = none) :
    (csignals word).valInst = true ∧ misaligned word a = false := by
  unfold fault at h
  cases hval : (csignals word).valInst <;> cases hmis : misaligned word a <;> simp [hval, hmis] at h ⊢

/-- The state before the next word is that after this one. -/
lemma before_add_one :
    before prog access evec st (k + 1) = inOrder prog access evec (before prog access evec st k) :=
  Function.iterate_succ_apply' _ _ _

/-- **The state before the next word** of one that raises no exception. -/
lemma before_succ
    (hfault : fault (before prog access evec st k).1 (wordAt prog access evec st k) = none) :
    (before prog access evec st (k + 1)).1.pc =
        nextPc (wordAt prog access evec st k) (before prog access evec st k).1 ∧
      archRegs (before prog access evec st (k + 1)).1 = (archRegs (before prog access evec st k).1).exec
        (wordAt prog access evec st k) (before prog access evec st k).1.pc
        (accessAt prog access evec st k).1 ∧
      (before prog access evec st (k + 1)).1.ras =
        nextRas (wordAt prog access evec st k) (before prog access evec st k).1 ∧
      (before prog access evec st (k + 1)).2 =
        if (csignals (wordAt prog access evec st k)).memEn then (accessAt prog access evec st k).2
        else (before prog access evec st k).2 := by
  have hword : (harvard prog access).fetch (before prog access evec st k).2
      (before prog access evec st k).1.pc = wordAt prog access evec st k := rfl
  rw [before_add_one, inOrder, single, hword, hfault]
  exact ⟨rfl, rfl, rfl, rfl⟩

/-- The fetch after a cycle. -/
lemma At.fetch_step (h : At prog access evec st k x t) (hsuits : Suits prog access evec st k) :
    (t.step prog (x.ports access c)).core = (x.step prog access c).core ∧
      (t.step prog (x.ports access c)).pending = (x.step prog access c).pending ∧
      (t.step prog (x.ports access c)).Inv prog :=
  ⟨h.core_step, h.pending_step, h.inv.step (h.plain hsuits) (h.readsFirst hsuits)⟩

/-- **A cycle that waits for the data memory** changes nothing that is on its way. -/
lemma At.step_of_fullStall (h : At prog access evec st k x t) (hsuits : Suits prog access evec st k)
    (hstall : fullStall x.core (x.inputs prog access c) = true) :
    At prog access evec st k (x.step prog access c) (t.step prog (x.ports access c)) := by
  have hkill : pipelineKill x.core (x.inputs prog access c) = false := h.clean.kill
  have hissues : issues x.core (x.inputs prog access c) = false := by simp [issues, advances, hstall]
  obtain ⟨hcore, hpending, hinv⟩ := h.fetch_step (c := c) hsuits
  have hmem : (x.step prog access c).mem = x.mem := h.clean.mem_step_of_fullStall hstall
  have hmemStage : (x.step prog access c).core.mem = x.core.mem := by
    show memNext x.core _ = x.core.mem
    simp [memNext, hkill, hstall]
  have hexe : (x.step prog access c).core.exe = x.core.exe := exeNext_of_fullStall hkill hstall
  have hexecuted : executed (x.step prog access c).core = executed x.core :=
    calc executed (x.step prog access c).core =
        executed { x.core with exe := (x.step prog access c).core.exe } := rfl
      _ = executed x.core := by rw [hexe]
  have hreq : dmemReq (x.step prog access c).core = dmemReq x.core := by
    simp only [dmemReq, hmemStage]
  have hmemAccess : (x.step prog access c).memAccess access = x.memAccess access := by
    rw [Machine.memAccess, hmem, hreq]
    rfl
  have hmemDone : (x.step prog access c).memDone access = x.memDone access := by
    rw [Machine.memDone, hmemAccess, hmemStage, hmem]
    rfl
  have hexeAccess : (x.step prog access c).exeAccess access = x.exeAccess access := by
    rw [Machine.exeAccess, hmemDone, hexecuted]
    rfl
  have hras := enables_of_not_issues hissues
  refine ⟨hcore, hpending, hinv, ?_, ?_, ?_, ?_, ⟨?_, ?_, ?_, ?_, ?_, ?_⟩, ?_, ?_, ?_⟩
  · rw [← h.next]
    simp [Fetching.step, Stage5.leaves, h.portInputs_eq, h.core, hissues]
  · rw [hmemAccess, hexeAccess, ← h.regs]
    exact older_step_of_fullStall hstall hkill _ _
  · rw [← h.mem, Machine.exeDone, hexeAccess, hmemDone, hexe]
    rfl
  · rw [← h.ras]
    show x.core.ras.step _ _ _ = x.core.ras
    rw [hras.1, hras.2]
    rfl
  · show (if _ then _ else _) = false
    simp [advances, hstall, h.clean.illegal]
  · show (x.core.exeIllegal && _) = false
    rw [h.clean.illegal, Bool.false_and]
  · have hsame := h.clean.memAligned
    unfold memDataMisaligned at hsame ⊢
    rw [hmemStage]
    exact hsame
  · rw [hexecuted]
    exact h.clean.exeAligned
  · rw [hmemStage]
    exact h.clean.memCsr
  · rw [hexe]
    exact h.clean.exeCsr
  · rw [hexe]
    exact h.exeRecent
  · rw [hmemStage]
    exact h.memRecent
  · intro hsel
    have hx : (x.step prog access c).core.wb.wbSel = .x := by
      show (wbNext x.core _).wbSel = .x
      simp [wbNext, hstall]
    rw [hx] at hsel
    cases hsel

variable (access) in
/-- The machine after a cycle that does not wait for the data memory: the instruction in execute is in
the memory stage, and the one that was there is through. -/
structure Moves (x y : Machine μ) : Prop where
  /-- The memory stage. -/
  mem : y.core.mem = executed x.core
  /-- The answer to it. -/
  memAccess : y.memAccess access = x.exeAccess access
  /-- The memory once it is through. -/
  memDone : y.memDone access = x.exeDone access
  /-- The word in the memory stage is legal. -/
  except : y.core.regExcept = false
  /-- Its access is aligned. -/
  aligned : memDataMisaligned y.core = false

/-- A cycle that does not wait for the data memory. -/
lemma Clean.moves (h : Clean x.core) (hstall : fullStall x.core (x.inputs prog access c) = false) :
    Moves access x (x.step prog access c) := by
  have hkill : pipelineKill x.core (x.inputs prog access c) = false := h.kill
  have hmem : (x.step prog access c).core.mem = executed x.core := by
    show memNext x.core _ = executed x.core
    simp [memNext, hkill, hstall, executed]
  have hmemAccess : (x.step prog access c).memAccess access = x.exeAccess access := by
    have hreq : dmemReq (x.step prog access c).core = dmemReq { reset 0 with mem := executed x.core } := by
      simp only [dmemReq, hmem]
    rw [Machine.memAccess, h.mem_step hstall, hreq]
    rfl
  refine ⟨hmem, hmemAccess, ?_, ?_, ?_⟩
  · rw [Machine.memDone, hmemAccess, hmem, h.mem_step hstall]
    rfl
  · show (x.core.exeIllegal && _) = false
    rw [h.illegal, Bool.false_and]
  · have haligned := h.exeAligned
    unfold memDataMisaligned at haligned ⊢
    rw [hmem]
    exact haligned

/-- The word in execute after a cycle is legal, if none that is illegal leaves decode. -/
lemma Clean.illegal_step (h : Clean x.core)
    (hlegal : issues x.core (x.inputs prog access c) = true → x.core.dec.valid = true →
      (cs x.core).valInst = true) : (x.step prog access c).core.exeIllegal = false := by
  show (if _ then _ else _) = false
  split_ifs with hadv hdec
  · rfl
  · have hissues : issues x.core (x.inputs prog access c) = true := by
      simp [issues, hadv, hdec, h.kill]
    cases hvalid : x.core.dec.valid with
    | true => simp [hlegal hissues hvalid]
    | false => rw [Bool.and_false]
  · rfl
  · exact h.illegal

/-- What is in write back after a cycle that does not wait was in the memory stage. -/
lemma At.wbRecent_step {k' : ℕ} (h : At prog access evec st k x t)
    (hstall : fullStall x.core (x.inputs prog access c) = false) (hk : k ≤ k') (hk' : k' ≤ k + 1) :
    Recent prog access evec st k' 3 (x.step prog access c).core.wb.wbSel
      (x.step prog access c).core.wb.ha := by
  have hwb : (x.step prog access c).core.wb.wbSel = x.core.mem.wbSel ∧
      (x.step prog access c).core.wb.ha = x.core.mem.ha := by
    have hnext : (x.step prog access c).core.wb = wbNext x.core (x.inputs prog access c) := rfl
    rw [hnext]
    simp [wbNext, hstall]
  rw [hwb.1, hwb.2]
  exact h.memRecent.mono hk (by omega)

/-- **A cycle in which no word of the program leaves decode** sends a bubble into execute. -/
lemma At.step_of_bubble (h : At prog access evec st k x t) (hsuits : Suits prog access evec st k)
    (hstall : fullStall x.core (x.inputs prog access c) = false)
    (hleaves : x.leaves prog access c = false) :
    At prog access evec st k (x.step prog access c) (t.step prog (x.ports access c)) := by
  have hkill : pipelineKill x.core (x.inputs prog access c) = false := h.clean.kill
  obtain ⟨hcore, hpending, hinv⟩ := h.fetch_step (c := c) hsuits
  have hmoves := h.clean.moves hstall
  have hcore' : (x.step prog access c).core = Stage5.step x.core (x.inputs prog access c) := rfl
  -- a bubble that leaves decode is a word without an effect
  have hbubble : issues x.core (x.inputs prog access c) = true → x.core.dec.valid = false ∧
      x.core.dec.inst = bubble := by
    intro hissues
    have hvalid : x.core.dec.valid = false := by simpa [Machine.leaves, hissues] using hleaves
    have hinst := h.inv.bubble (by rw [h.core]; exact hvalid)
    rw [h.core] at hinst
    exact ⟨hvalid, hinst⟩
  have hexe : (x.step prog access c).core.exe.wbSel = .x ∧
      (x.step prog access c).core.exe.memVal = false := by
    cases hissues : issues x.core (x.inputs prog access c) with
    | true =>
      have hdec : (x.step prog access c).core.exe = decoded x.core := exeNext_of_issues hissues
      rw [hdec]
      simp only [decoded, cs, (hbubble hissues).2]
      decide
    | false => exact (exeNext_of_not_issues hissues (Or.inr hstall)).2.2.2
  have holder : ∀ a b, older (x.step prog access c).core a b = older x.core (x.memAccess access).1 a := by
    intro a b
    have hanswer : answer x.core (x.inputs prog access c) = (x.memAccess access).1 := h.clean.answer_eq
    rw [← hanswer, hcore']
    cases hissues : issues x.core (x.inputs prog access c) with
    | true =>
      rw [older_step_of_issues hissues, Regs.write_of_x]
      exact hexe.1
    | false => exact older_step_of_not_issues hissues hstall hkill a b
  refine ⟨hcore, hpending, hinv, ?_, ?_, ?_, ?_, ⟨?_, hmoves.except, hmoves.aligned, ?_, ?_, ?_⟩,
    ?_, ?_, h.wbRecent_step hstall le_rfl (Nat.le_succ k)⟩
  · have hleaves' : Stage5.leaves prog t (x.ports access c) = false := by
      rw [Stage5.leaves, h.portInputs_eq, h.core]
      exact hleaves
    rw [← h.next]
    simp [Fetching.step, hleaves']
  · rw [holder, hmoves.memAccess, ← h.regs]
  · rw [Machine.exeDone, hexe.2, if_neg (by decide), hmoves.memDone, h.mem]
  · rw [← h.ras]
    show x.core.ras.step _ _ _ = x.core.ras
    cases hissues : issues x.core (x.inputs prog access c) with
    | true =>
      rw [rasPush_of_issues hissues, rasPop_of_issues hissues, (hbubble hissues).2]
      rfl
    | false =>
      rw [(enables_of_not_issues hissues).1, (enables_of_not_issues hissues).2]
      rfl
  · refine h.clean.illegal_step fun hissues hvalid => ?_
    rw [(hbubble hissues).1] at hvalid
    cases hvalid
  · simp [memDataMisaligned, executed, hexe.2]
  · rw [hmoves.mem]
    exact h.clean.exeCsr
  · rw [hexe.1]
    decide
  · intro hsel
    rw [hexe.1] at hsel
    cases hsel
  · rw [hmoves.mem]
    exact h.exeRecent.mono le_rfl (by omega)

/-- **The word of the program leaves decode** and takes the next step. -/
lemma At.step_of_word (h : At prog access evec st k x t) (hsuits : Suits prog access evec st k)
    (hloads : LoadsIgnoreData (harvard prog access)) (hleaves : x.leaves prog access c = true) :
    At prog access evec st (k + 1) (x.step prog access c) (t.step prog (x.ports access c)) := by
  have hkill : pipelineKill x.core (x.inputs prog access c) = false := h.clean.kill
  obtain ⟨hcore, hpending, hinv⟩ := h.fetch_step (c := c) hsuits
  obtain ⟨hissues, hvalid⟩ : issues x.core (x.inputs prog access c) = true ∧ x.core.dec.valid = true := by
    simpa [Machine.leaves] using hleaves
  have hstall : fullStall x.core (x.inputs prog access c) = false := by
    cases hfs : fullStall x.core (x.inputs prog access c) <;> simp [issues, advances, hfs] at hissues ⊢
  have hmoves := h.clean.moves hstall
  obtain ⟨hpc, hinst⟩ := h.inst_eq (h.plain hsuits) hissues hvalid
  have hdec : (x.step prog access c).core.exe = decoded x.core := exeNext_of_issues hissues
  have hexecuted : executed (x.step prog access c).core = executed { reset 0 with exe := decoded x.core } :=
    executed_step_of_issues hissues
  -- the sources are those of the word in program order
  have hfresh : FreshSources x.core (archRegs (before prog access evec st k).1) := by
    have hissues' : issues t.core (portInputs prog t (x.ports access c)) = true := by
      rw [h.portInputs_eq, h.core]
      exact hissues
    have hfresh := h.inv.fresh (h.readsFirst hsuits) hissues' (x.memAccess access).1 (x.exeAccess access).1
    rw [← h.inv.arch, h.core, h.regs] at hfresh
    exact hfresh
  have hword : executed { reset 0 with
      exe := decodedWord x.core.dec.inst x.core.dec.pc (archRegs (before prog access evec st k).1) } =
      memWord (wordAt prog access evec st k) (before prog access evec st k).1 := by
    rw [hpc, hinst]
    rfl
  have hexeAccess : (x.step prog access c).exeAccess access = accessAt prog access evec st k := by
    rw [Machine.exeAccess, hmoves.memDone, h.mem, hexecuted, hfresh.access_executed hloads, hword]
    rfl
  obtain ⟨hval, hmis⟩ := valInst_of_fault hsuits.fault
  have hmemVal : (x.step prog access c).core.exe.memVal =
      (csignals (wordAt prog access evec st k)).memEn := by
    rw [hdec, ← hinst]
    rfl
  have hsel : (x.step prog access c).core.exe.wbSel = (csignals (wordAt prog access evec st k)).wbSel := by
    rw [hdec, ← hinst]
    rfl
  obtain ⟨hpcNext, hregsNext, hrasNext, hmemNext⟩ := before_succ hsuits.fault
  refine ⟨hcore, hpending, hinv, ?_, ?_, ?_, ?_, ⟨?_, hmoves.except, hmoves.aligned, ?_, ?_, ?_⟩,
    ?_, ?_, h.wbRecent_step hstall (Nat.le_succ k) le_rfl⟩
  · have hleaves' : Stage5.leaves prog t (x.ports access c) = true := by
      rw [Stage5.leaves, h.portInputs_eq, h.core]
      exact hleaves
    have harch : t.arch (x.ports access c).memAnswer (x.ports access c).exeAnswer =
        archRegs (before prog access evec st k).1 := by
      rw [← h.inv.arch, h.core]
      exact h.regs
    rw [hpcNext, nextPc, if_neg hsuits.ret]
    show (if Stage5.leaves prog t (x.ports access c) then _ else t.next) = _
    rw [hleaves', if_pos rfl, harch, h.next]
    rfl
  · have hexec : older (x.step prog access c).core (x.exeAccess access).1
        (accessAt prog access evec st k).1 = _ :=
      FreshSources.older_step (a := (x.exeAccess access).1)
        (by rw [h.clean.answer_eq, h.regs]; exact hfresh) hissues _
    rw [hmoves.memAccess, hexeAccess, hexec, h.clean.answer_eq, h.regs, hpc, hinst, hregsNext]
  · rw [Machine.exeDone, hexeAccess, hmoves.memDone, h.mem, hmemVal, hmemNext]
  · rw [hrasNext, nextRas, ← h.ras, ← hpc]
    show x.core.ras.step _ _ _ = _
    rw [rasPush_of_issues hissues, rasPop_of_issues hissues, hinst]
  · refine h.clean.illegal_step fun _ _ => ?_
    rw [cs, hinst]
    exact hval
  · rw [hexecuted, hfresh.misaligned_executed, hword]
    exact hmis
  · rw [hmoves.mem]
    exact h.clean.exeCsr
  · rw [hsel]
    exact wbSel_ne_csr hsuits.plain
  · intro hhahb
    rw [hsel] at hhahb
    refine ⟨k, Nat.lt_succ_self k, le_rfl, hhahb, ?_⟩
    rw [hdec, ← hinst]
    rfl
  · rw [hmoves.mem]
    exact h.exeRecent.mono (Nat.le_succ k) le_rfl

/-- **A cycle** takes the next step of the program if its word leaves decode, and none otherwise. -/
lemma At.step (h : At prog access evec st k x t) (hloads : LoadsIgnoreData (harvard prog access))
    (hsuits : Suits prog access evec st k) :
    At prog access evec st (if x.leaves prog access c then k + 1 else k) (x.step prog access c)
      (t.step prog (x.ports access c)) := by
  cases hleaves : x.leaves prog access c with
  | true => exact h.step_of_word hsuits hloads hleaves
  | false =>
    cases hstall : fullStall x.core (x.inputs prog access c) with
    | true => exact h.step_of_fullStall hsuits hstall
    | false => exact h.step_of_bubble hsuits hstall hleaves

/-! ### A run -/

/-- The fetch is at the next word of the program. -/
lemma At.nextWord_eq (h : At prog access evec st k x t) : nextWord x.core = t.next := by
  rw [← h.core]
  rcases h.inv.way with hred | hstraight
  · rw [nextWord, if_neg hred.sel, hred.target]
  · rw [nextWord, if_pos hstraight.sel]
    split_ifs with hvalid hkilled
    · exact (hstraight.dec hvalid).1
    · exact (hstraight.killed hkilled).2
    · have hahead : t.ahead = t.next := by rw [Fetching.ahead, if_neg hvalid]
      have hk : t.core.ifKilled = false := by simpa using hkilled
      cases hbuf : t.core.ifBuffer with
      | some w =>
        rw [(hstraight.buffered hk w hbuf).2.1, ← hahead]
        rfl
      | none =>
        rw [h.inv.ifPcBuffer_of_none hbuf, ← hahead]
        exact (hstraight.empty hk hbuf).1

/-- What is on its way settles to the state before the word. -/
lemma At.settled_eq (h : At prog access evec st k x t) :
    x.settled access = before prog access evec st k := by
  have hregs := h.regs
  have hpc := h.nextWord_eq.trans h.next
  have harch : (x.settled access).1 = (before prog access evec st k).1 := by
    unfold Machine.settled
    simp only [hregs, hpc, h.ras]
    rfl
  exact Prod.ext harch h.mem

/-- The machine after a reset is at the first word. -/
lemma at_init (vector : BitVec 64) (r : Regs) (m : μ) :
    At prog access evec (⟨vector, r.rd, r.rb, r.rf, (reset vector).ras⟩, m) 0
      (Machine.init vector r m) (Fetching.init vector r) where
  core := rfl
  pending := rfl
  inv := Fetching.inv_init prog vector r
  next := rfl
  regs := (Fetching.inv_init prog vector r).arch _ _
  mem := rfl
  ras := rfl
  clean := ⟨rfl, rfl, Bool.and_false _, Bool.and_false _, nofun, nofun⟩
  exeRecent := nofun
  memRecent := nofun
  wbRecent := nofun

/-- Nothing is on its way in a drained pipeline. -/
lemma settled_of_drained (h : Drained x.core) : x.settled access = (x.core.arch, x.mem) := by
  have hexe : branchSel x.core.exe = .plus4 := h.exe.branchSel_eq
  have holder : ∀ a b, older x.core a b = x.core.regs := by
    intro a b
    unfold older
    have hmem : (x.core.mem.writeBack a).wbSel = .x := h.mem.1
    have hexe : ((executed x.core).writeBack b).wbSel = .x := h.exe.2.1
    rw [Regs.write_of_x _ hexe, Regs.write_of_x _ hmem, Regs.write_of_x _ h.wb]
  have hnext : nextWord x.core = x.core.ifPc := by
    rw [nextWord, if_pos hexe, h.dec.1, h.killed, h.pcBuffer]
    rfl
  have hmem : x.exeDone access = x.mem := by
    rw [Machine.exeDone, h.exe.2.2, if_neg (by decide), Machine.memDone, h.mem.2, if_neg (by decide)]
  unfold Machine.settled
  simp only [holder, hnext, hmem]
  rfl

end Step

section Runs

variable {μ : Type} {prog : BitVec 64 → BitVec 32} {access : μ → MemReq → BitVec 64 × μ}
  (evec : Cause → BitVec 64)

/-- **The pipeline executes the program in order.** After every run from a reset, with any latencies of
the two memories, what is on its way settles to what the program leaves one word after another, for as
many words as have left decode, if these and the next one suit the pipeline; and when the pipeline has
drained the registers and the memory are those of the program. -/
theorem run_settled (hloads : LoadsIgnoreData (harvard prog access)) (vector : BitVec 64) (r : Regs)
    (m : μ) (cs : List Grants) :
    let st : Arch × μ := (⟨vector, r.rd, r.rb, r.rf, (reset vector).ras⟩, m)
    let x := run (Machine.step prog access) (Machine.init vector r m) cs
    let n := events (Machine.step prog access) (Machine.leaves prog access) (Machine.init vector r m) cs
    (∀ k ≤ n, Suits prog access evec st k) →
      x.settled access = (inOrder prog access evec)^[n] st ∧
        (Drained x.core → (x.core.arch, x.mem) = (inOrder prog access evec)^[n] st) := by
  intro st x n hsuits
  have hsim : ∃ t, At prog access evec st (0 + n) x t := by
    refine run_simulates (R := fun x k => ∃ t, At prog access evec st k x t)
      (G := Suits prog access evec st) ?_ ⟨_, at_init vector r m⟩ fun j _ hj => hsuits j (by omega)
    rintro y c k ⟨t, h⟩ hk
    exact ⟨_, h.step hloads hk⟩
  rw [Nat.zero_add] at hsim
  obtain ⟨t, h⟩ := hsim
  exact ⟨h.settled_eq, fun hdrained => by rw [← settled_of_drained hdrained, h.settled_eq]; rfl⟩

instance (word : BitVec 32) (a : BitVec 6) : Decidable (HalfGuarded word a) :=
  inferInstanceAs (Decidable (_ ∨ _))

instance (st : Arch × μ) (k : ℕ) : Decidable (Suits prog access evec st k) :=
  decidable_of_iff
    (Stage5.fault (before prog access evec st k).1 (wordAt prog access evec st k) = none ∧
      PlainWord (wordAt prog access evec st k) ∧
      (csignals (wordAt prog access evec st k)).ctrlFlow ≠ .ret ∧
      (csignals (wordAt prog access evec st k)).fencei = false ∧
      ∀ j < k, k ≤ j + 3 → (csignals (wordAt prog access evec st j)).wbSel = .hahb →
        ha (wordAt prog access evec st j) ≠ 0 →
        ¬ HalfGuarded (wordAt prog access evec st k) (ha (wordAt prog access evec st j)))
    ⟨fun h => ⟨h.1, h.2.1, h.2.2.1, h.2.2.2.1, h.2.2.2.2⟩,
      fun h => ⟨h.fault, h.plain, h.ret, h.fence, h.second⟩⟩

/-- A memory of one octa. -/
def octa (m : BitVec 64) (req : MemReq) : BitVec 64 × BitVec 64 := (m, if req.fcn then req.data else m)

/-- A loop that stores and loads, at `0x10000`: `addi rd1, rd1, -1`, `sto rd1, rb1, 0`,
`ldo rd2, rb1, 0` and `brnz rd2` to the first word. -/
def storeLoad (a : BitVec 64) : BitVec 32 :=
  if a = 0x10000 then 0x19041fff
  else if a = 0x10004 then 0x3b041000
  else if a = 0x10008 then 0x33081000
  else 0x2b0bfffd

/-- The loop, with a data memory that answers in every other cycle. -/
theorem run_settled_storeLoad :
    let cs := (List.replicate 12 [⟨true, true, false, 0, 0⟩, ⟨true, true, true, 0, 0⟩]).flatten
    let x := run (Machine.step storeLoad octa) (Machine.init 0x10000 ⟨fun _ => 0, fun _ => 0, fun _ => 0⟩ 0) cs
    x.settled octa = (inOrder storeLoad octa fun _ => 0)^[events (Machine.step storeLoad octa)
      (Machine.leaves storeLoad octa)
      (Machine.init 0x10000 ⟨fun _ => 0, fun _ => 0, fun _ => 0⟩ 0) cs]
      (⟨0x10000, fun _ => 0, fun _ => 0, fun _ => 0, ⟨0, fun _ => 0⟩⟩, 0) := by
  intro cs x
  refine (run_settled (fun _ => 0) ?_ 0x10000 ⟨fun _ => 0, fun _ => 0, fun _ => 0⟩ 0 cs ?_).1
  · rintro m req d hload
    simp [harvard, octa, hload]
  · decide +kernel

end Runs

end Stage5

end Wuming

end Dadao
