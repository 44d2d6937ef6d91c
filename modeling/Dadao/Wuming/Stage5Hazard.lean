import Dadao.Wuming.Stage5Stack

set_option relaxedAutoImplicit false
set_option autoImplicit false

/-!
# Operands of the five-stage core

Registers are read in decode and written three stages later, and nothing is forwarded: a word waits
in decode until no stage behind it writes one of its sources. The hazard logic compares the operands
with both destinations of each stage, and the registers of a condition and the data of a store with
the first destination only.

## Main definitions

* `Dadao.Wuming.Stage5.older` — the registers after all the instructions that have left decode.
* `Dadao.Wuming.Stage5.Fresh` — a word that leaves decode has read these registers.

## Main results

* `Dadao.Wuming.Stage5.older_step_of_issues` — a word that leaves decode is the next one to write.
* `Dadao.Wuming.Stage5.everyCycle_fresh` — no stale operand is read, if no condition and no store reads
  a second destination on its way.
-/

namespace Dadao

namespace Wuming

namespace Stage5

open Clocked

/-! ### Registers on their way -/

/-- The registers of the three files. -/
structure Regs where
  /-- The data registers. -/
  rd : RegFile
  /-- The base registers. -/
  rb : RegFile
  /-- The floating point registers. -/
  rf : RegFile

/-- The registers after a write back. -/
def Regs.write (r : Regs) (w : Wb) : Regs where
  rd := rdNext r.rd w.wbSel w.ha w.hb w.hc w.hd w.wbData w.wbData2
  rb := rbNext r.rb w.wbSel w.ha w.hb w.hc w.hd w.wbData
  rf := rfNext r.rf w.wbSel w.ha w.hb w.hc w.hd w.wbData

/-- A register of a file. -/
def Regs.get (r : Regs) (file : Rf) (a : BitVec 6) : BitVec 64 :=
  match file with
  | .d => r.rd a
  | .b => r.rb a
  | .f => r.rf a
  | _ => 0

/-- The register files of the core. -/
def State.regs (s : State) : Regs := ⟨s.rd, s.rb, s.rf⟩

/-- The core with other contents of its register files. -/
def State.withRegs (s : State) (r : Regs) : State := { s with rd := r.rd, rb := r.rb, rf := r.rf }

/-- An instruction in the memory stage as it writes back, with the answer of the data port or of the
CSR file. -/
def Mem.writeBack (m : Mem) (answer : BitVec 64) : Wb where
  valid := m.valid
  ha := m.ha
  hb := m.hb
  hc := m.hc
  hd := m.hd
  wbData := match m.wbSel with
    | .rdmm | .rbmm | .csr => answer
    | _ => m.aluOut
  wbData2 := if m.wbSel = .hahb then m.aluOut2 else 0
  wbSel := m.wbSel

/-- The instruction in execute as it enters the memory stage. -/
def executed (s : State) : Mem where
  valid := s.exe.valid
  inst := s.exe.inst
  pc := s.exe.pc
  mwData := s.exe.mwData
  aluOut := if s.exe.wbSel = .ra then s.exe.pc + 4 else exeAluOut s
  aluOut2 := exeAluOut2 s
  ha := s.exe.ha
  hb := s.exe.hb
  hc := s.exe.hc
  hd := s.exe.hd
  wbSel := s.exe.wbSel
  memVal := s.exe.memVal
  memFcn := s.exe.memFcn
  memTyp := s.exe.memTyp
  csrCmd := s.exe.csrCmd

/-- The answer the instruction in the memory stage waits for. -/
def answer (s : State) (i : Inputs) : BitVec 64 :=
  if s.mem.wbSel = .csr then i.csrRdata else i.dmemData

/-- **The registers after all the instructions that have left decode**, with the answers that the
instructions in the memory stage and in execute will get. -/
def older (s : State) (memAnswer exeAnswer : BitVec 64) : Regs :=
  ((s.regs.write s.wb).write (s.mem.writeBack memAnswer)).write ((executed s).writeBack exeAnswer)

/-- Nothing is written back. -/
lemma Regs.write_of_x (r : Regs) {w : Wb} (h : w.wbSel = .x) : r.write w = r := by
  simp [Regs.write, rdNext, rbNext, rfNext, h, wrdEn, wrbEn, wrfEn]

/-- The write back of the instruction in the memory stage. -/
lemma Regs.write_wbNext (r : Regs) {s : State} {i : Inputs} (h : fullStall s i = false) :
    r.write (wbNext s i) = r.write (s.mem.writeBack (answer s i)) := by
  have hwb : wbNext s i = { s.mem.writeBack (answer s i) with valid := (wbNext s i).valid } := by
    simp only [wbNext, h, Mem.writeBack, answer]
    cases s.mem.wbSel <;> rfl
  rw [hwb]
  rfl

variable {s : State} {i : Inputs}

/-- **A word that leaves decode** is the next one to write. -/
theorem older_step_of_issues (h : issues s i = true) (a b : BitVec 64) :
    older (step s i) a b =
      (older s (answer s i) a).write ((executed (step s i)).writeBack b) := by
  have hstall : fullStall s i = false := by
    cases hfs : fullStall s i <;> simp [issues, advances, hfs] at h ⊢
  have hkill : pipelineKill s i = false := by
    cases hpk : pipelineKill s i <;> simp [issues, hpk] at h ⊢
  have hmem : (step s i).mem = executed s := by
    show memNext s i = executed s
    simp [memNext, hkill, hstall, executed]
  show (((s.regs.write s.wb).write (wbNext s i)).write ((step s i).mem.writeBack a)).write _ = _
  rw [Regs.write_wbNext _ hstall, hmem]
  rfl

/-- **A cycle in which the memory is waited for** leaves the instructions that have left decode. -/
theorem older_step_of_fullStall (hstall : fullStall s i = true) (hkill : pipelineKill s i = false)
    (a b : BitVec 64) : older (step s i) a b = older s a b := by
  have hwb : (step s i).wb.wbSel = .x := by
    show (wbNext s i).wbSel = .x
    simp [wbNext, hstall]
  have hmem : (step s i).mem = s.mem := by
    show memNext s i = s.mem
    simp [memNext, hkill, hstall]
  have hexe : (step s i).exe = s.exe := exeNext_of_fullStall hkill hstall
  have hexecuted : executed (step s i) = executed s :=
    calc executed (step s i) = executed { s with exe := (step s i).exe } := rfl
      _ = executed s := by rw [hexe]
  show (((s.regs.write s.wb).write (step s i).wb).write ((step s i).mem.writeBack a)).write _ = _
  rw [Regs.write_of_x _ hwb, hmem, hexecuted]
  rfl

/-- **A cycle in which no word leaves decode** answers the instruction in the memory stage. -/
theorem older_step_of_not_issues (h : issues s i = false) (hstall : fullStall s i = false)
    (hkill : pipelineKill s i = false) (a b : BitVec 64) :
    older (step s i) a b = older s (answer s i) a := by
  have hmem : (step s i).mem = executed s := by
    show memNext s i = executed s
    simp [memNext, hkill, hstall, executed]
  have hexe : ((executed (step s i)).writeBack b).wbSel = .x :=
    (exeNext_of_not_issues h (Or.inr hstall)).2.2.2.1
  show (((s.regs.write s.wb).write (wbNext s i)).write ((step s i).mem.writeBack a)).write _ = _
  rw [Regs.write_wbNext _ hstall, hmem, Regs.write_of_x _ hexe]
  rfl

/-! ### Destinations -/

/-- The destinations of an instruction. -/
def destOf (sel : WbSel) (ha hb hc hd : BitVec 6) : Dest where
  wbAddr := wbAddr sel ha hb hc hd
  wbRf := match sel with
    | .rdha | .rdhb | .rdhc | .rdmm | .hahb | .csr => .d
    | .rbha | .rbhb | .rbmm => .b
    | .rfha | .rfhb => .f
    | .ra => .a
    | .x => .x2
  wb2Addr := ha
  wb2Rf := if sel = .hahb then .d else .x2

/-- The hazard logic knows the destinations of an instruction that writes. -/
def Dest.Tracks (d : Dest) (sel : WbSel) (ha hb hc hd : BitVec 6) : Prop :=
  sel ≠ .x → d = destOf sel ha hb hc hd

/-- The hazard logic knows the destinations in all three stages. -/
structure Tracked (s : State) : Prop where
  /-- The execute stage. -/
  exe : s.exeDest.Tracks s.exe.wbSel s.exe.ha s.exe.hb s.exe.hc s.exe.hd
  /-- The memory stage. -/
  mem : s.memDest.Tracks s.mem.wbSel s.mem.ha s.mem.hb s.mem.hc s.mem.hd
  /-- The write back stage. -/
  wb : s.wbDest.Tracks s.wb.wbSel s.wb.ha s.wb.hb s.wb.hc s.wb.hd

/-- The destinations of execute after a cycle. -/
lemma Tracked.exe_step (h : Tracked s) :
    (step s i).exeDest.Tracks (exeNext s i).wbSel (exeNext s i).ha (exeNext s i).hb
      (exeNext s i).hc (exeNext s i).hd := by
  intro hsel
  cases hissues : issues s i with
  | true =>
    have hadv : advances s i = true := by
      cases hadv : advances s i <;> simp [issues, hadv] at hissues ⊢
    have hkill : decKill s i = false := by
      cases hdk : decKill s i <;> simp [issues, hdk] at hissues ⊢
    show (if _ then if _ then _ else _ else _) = _
    rw [exeNext_of_issues hissues, if_pos hadv, if_neg (by simp [hkill])]
    rfl
  | false =>
    have hstall : ¬ (pipelineKill s i = true ∨ fullStall s i = false) := fun hmove =>
      hsel (exeNext_of_not_issues hissues hmove).2.2.2.1
    have hkill : pipelineKill s i = false := by
      cases hpk : pipelineKill s i <;> simp [hpk] at hstall ⊢
    have hfull : fullStall s i = true := by
      cases hfs : fullStall s i <;> simp [hfs] at hstall ⊢
    rw [exeNext_of_fullStall hkill hfull] at hsel ⊢
    have hdest : (step s i).exeDest = s.exeDest := by simp [step, advances, hfull]
    rw [hdest]
    exact h.exe hsel

/-- **The hazard logic keeps track** of what is on its way. -/
lemma Tracked.step (h : Tracked s) (i : Inputs) : Tracked (step s i) := by
  refine ⟨h.exe_step, ?_, ?_⟩
  · show Dest.Tracks (if _ then _ else _) (memNext s i).wbSel (memNext s i).ha (memNext s i).hb
      (memNext s i).hc (memNext s i).hd
    cases hkill : pipelineKill s i with
    | true =>
      intro hsel
      exact absurd (by simp [memNext, hkill]) hsel
    | false =>
      cases hstall : fullStall s i with
      | true => simpa [memNext, hkill, hstall] using h.mem
      | false => simpa [memNext, hkill, hstall] using h.exe
  · show Dest.Tracks (if _ then _ else _) (wbNext s i).wbSel (wbNext s i).ha (wbNext s i).hb
      (wbNext s i).hc (wbNext s i).hd
    cases hstall : fullStall s i with
    | true =>
      intro hsel
      exact absurd (by simp [wbNext, hstall]) hsel
    | false => simpa [wbNext, hstall] using h.mem

/-- A register that is not written. -/
lemma RegFile.set_of_ne (f : RegFile) {x a : BitVec 6} (v : BitVec 64) (h : x ≠ a) :
    RegFile.set f x v a = f a := by
  unfold RegFile.set
  split_ifs
  · exact Function.update_of_ne (Ne.symm h) v f
  · rfl

/-- The first destination is a data register exactly if the data registers are written. -/
lemma destOf_wbRf_d {sel : WbSel} (ha hb hc hd : BitVec 6) (h : wrdEn sel = true) :
    (destOf sel ha hb hc hd).wbRf = .d := by
  cases sel <;> first | rfl | cases h

/-- The first destination is a base register if the base registers are written. -/
lemma destOf_wbRf_b {sel : WbSel} (ha hb hc hd : BitVec 6) (h : wrbEn sel = true) :
    (destOf sel ha hb hc hd).wbRf = .b := by
  cases sel <;> first | rfl | cases h

/-- The first destination is a floating point register if these are written. -/
lemma destOf_wbRf_f {sel : WbSel} (ha hb hc hd : BitVec 6) (h : wrfEn sel = true) :
    (destOf sel ha hb hc hd).wbRf = .f := by
  cases sel <;> first | rfl | cases h

/-- A write back leaves a register that is not one of its destinations. -/
lemma Regs.get_write (r : Regs) {w : Wb} {d : Dest} {file : Rf} {a : BitVec 6}
    (htracks : d.Tracks w.wbSel w.ha w.hb w.hc w.hd) (hfirst : d.hits1 a file = false)
    (hsecond : w.wbSel = .hahb → file = .d → w.ha ≠ a) : (r.write w).get file a = r.get file a := by
  by_cases hx : w.wbSel = .x
  · rw [Regs.write_of_x r hx]
  · rw [htracks hx] at hfirst
    have hne : (destOf w.wbSel w.ha w.hb w.hc w.hd).wbRf = file →
        wbAddr w.wbSel w.ha w.hb w.hc w.hd ≠ a := by
      rintro hfile rfl
      rw [Dest.hits1, hfile] at hfirst
      simp [destOf] at hfirst
    cases file with
    | d =>
      have hrd : (if wrdEn w.wbSel then RegFile.set r.rd (wbAddr w.wbSel w.ha w.hb w.hc w.hd) w.wbData
          else r.rd) a = r.rd a := by
        split_ifs with hen
        · exact RegFile.set_of_ne _ _ (hne (destOf_wbRf_d _ _ _ _ hen))
        · rfl
      show rdNext r.rd _ _ _ _ _ _ _ a = r.rd a
      by_cases hhahb : w.wbSel = .hahb
      · rw [rdNext, if_pos hhahb]
        exact (RegFile.set_of_ne _ _ (hsecond hhahb rfl)).trans hrd
      · rw [rdNext, if_neg hhahb]
        exact hrd
    | b =>
      show rbNext r.rb _ _ _ _ _ _ a = r.rb a
      unfold rbNext
      split_ifs with hen
      · exact RegFile.set_of_ne _ _ (hne (destOf_wbRf_b _ _ _ _ hen))
      · rfl
    | f =>
      show rfNext r.rf _ _ _ _ _ _ a = r.rf a
      unfold rfNext
      split_ifs with hen
      · exact Function.update_of_ne (Ne.symm (hne (destOf_wbRf_f _ _ _ _ hen))) _ _
      · rfl
    | _ => rfl

/-! ### Sources -/

/-- An instruction on its way writes the data register as its second destination. -/
def SecondDest (s : State) (a : BitVec 6) : Prop :=
  s.exe.wbSel = .hahb ∧ s.exe.ha = a ∨ s.mem.wbSel = .hahb ∧ s.mem.ha = a ∨
    s.wb.wbSel = .hahb ∧ s.wb.ha = a

instance (s : State) (a : BitVec 6) : Decidable (SecondDest s a) := inferInstanceAs (Decidable (_ ∨ _))

/-- A register that no instruction on its way writes. -/
lemma Tracked.get_older (h : Tracked s) {file : Rf} {a : BitVec 6}
    (hfirst : ∀ d ∈ [s.exeDest, s.memDest, s.wbDest], d.hits1 a file = false)
    (hsecond : file = .d → ¬ SecondDest s a) (memAnswer exeAnswer : BitVec 64) :
    (older s memAnswer exeAnswer).get file a = s.regs.get file a := by
  unfold older
  rw [Regs.get_write _ h.exe (hfirst _ (by simp)) fun hsel hfile heq =>
      hsecond hfile (Or.inl ⟨hsel, heq⟩),
    Regs.get_write _ h.mem (hfirst _ (by simp)) fun hsel hfile heq =>
      hsecond hfile (Or.inr (Or.inl ⟨hsel, heq⟩)),
    Regs.get_write _ h.wb (hfirst _ (by simp)) fun hsel hfile heq =>
      hsecond hfile (Or.inr (Or.inr ⟨hsel, heq⟩))]

/-- The comparison with the second destinations finds them. -/
lemma Tracked.not_secondDest (h : Tracked s) {file : Rf} {a : BitVec 6}
    (hsecond : ∀ d ∈ [s.exeDest, s.memDest, s.wbDest], d.hits2 a file = false) (hfile : file = .d) :
    ¬ SecondDest s a := by
  subst hfile
  have hhits : ∀ {d : Dest} {sel : WbSel} {ha hb hc hd : BitVec 6}, d.Tracks sel ha hb hc hd →
      sel = .hahb → ha = a → d.hits2 a .d = true := by
    rintro d sel ha hb hc hd htracks rfl rfl
    rw [htracks (by decide)]
    simp [Dest.hits2, destOf]
  rintro (⟨hsel, heq⟩ | ⟨hsel, heq⟩ | ⟨hsel, heq⟩)
  · have := hsecond s.exeDest (by simp)
    rw [hhits h.exe hsel heq] at this
    cases this
  · have := hsecond s.memDest (by simp)
    rw [hhits h.mem hsel heq] at this
    cases this
  · have := hsecond s.wbDest (by simp)
    rw [hhits h.wb hsel heq] at this
    cases this

/-- **The sources of the word in decode are fresh**: each is what the register holds after all the
instructions before it, whatever the memory and the CSR file answer to those of them that wait. -/
structure FreshSources (s : State) (r : Regs) : Prop where
  /-- The first operand. -/
  op1 : decOp1 s = decOp1 (s.withRegs r)
  /-- The second operand. -/
  op2 : decOp2 s = decOp2 (s.withRegs r)
  /-- The first register of a condition. -/
  cond1 : (cs s).condFun ≠ .x → readReg s.rd (ha s.dec.inst) = readReg r.rd (ha s.dec.inst)
  /-- The second register of a condition. -/
  cond2 : (cs s).condFun = .eq ∨ (cs s).condFun = .ne →
    readReg s.rd (hb s.dec.inst) = readReg r.rd (hb s.dec.inst)
  /-- The data of a store. -/
  store : (cs s).memFcn = true → decMwData s = decMwData (s.withRegs r)

/-- **A word that leaves decode has fresh sources**. -/
def Fresh (s : State) (i : Inputs) : Prop :=
  issues s i = true → ∀ memAnswer exeAnswer, FreshSources s (older s memAnswer exeAnswer)

/-- A word that leaves decode does not read the second destination of an instruction on its way, as
the register of a condition or as the data of a store. -/
structure NoSecondDest (s : State) : Prop where
  /-- The first register of a condition. -/
  cond1 : decCond1Rf s = .d → ha s.dec.inst ≠ 0 → ¬ SecondDest s (ha s.dec.inst)
  /-- The second register of a condition. -/
  cond2 : decCond2Rf s = .d → hb s.dec.inst ≠ 0 → ¬ SecondDest s (hb s.dec.inst)
  /-- The data of a store. -/
  store : decStRf s = .d → ha s.dec.inst ≠ 0 → ¬ SecondDest s (ha s.dec.inst)

/-- The first operand is read from its register. -/
lemma decOp1_withRegs {r : Regs}
    (h : r.get (decOp1Rf s) (decOp1Addr s) = s.regs.get (decOp1Rf s) (decOp1Addr s)) :
    decOp1 s = decOp1 (s.withRegs r) := by
  have hcs : cs (s.withRegs r) = cs s := rfl
  unfold decOp1Rf decOp1Addr at h
  unfold decOp1
  rw [hcs]
  cases hsel : (cs s).op1Sel <;> rw [hsel] at h <;>
    simp only [Regs.get, State.regs] at h <;> simp only [readReg, State.withRegs, h]

/-- The second operand is read from its register. -/
lemma decOp2_withRegs {r : Regs}
    (h : r.get (decOp2Rf s) (decOp2Addr s) = s.regs.get (decOp2Rf s) (decOp2Addr s)) :
    decOp2 s = decOp2 (s.withRegs r) := by
  have hcs : cs (s.withRegs r) = cs s := rfl
  unfold decOp2Rf decOp2Addr at h
  unfold decOp2
  rw [hcs]
  cases hsel : (cs s).op2Sel <;> rw [hsel] at h <;>
    simp only [Regs.get, State.regs] at h <;> simp only [readReg, State.withRegs, h]

/-- The data of a store is read from its register. -/
lemma decMwData_withRegs {r : Regs} (hstore : (cs s).memFcn = true)
    (h : decStRf s = .d ∧ ha s.dec.inst = 0 ∨
      r.get (decStRf s) (ha s.dec.inst) = s.regs.get (decStRf s) (ha s.dec.inst)) :
    decMwData s = decMwData (s.withRegs r) := by
  have hcs : cs (s.withRegs r) = cs s := rfl
  unfold decStRf at h
  rw [if_pos hstore] at h
  unfold decMwData
  rw [hcs]
  rcases h with ⟨hfile, hzero⟩ | h
  · cases hsel : (cs s).regGrp <;> rw [hsel] at hfile <;> cases hfile <;>
      simp [readReg, State.withRegs, hzero]
  · cases hsel : (cs s).regGrp <;> rw [hsel] at h <;>
      simp only [Regs.get, State.regs] at h <;> simp only [readReg, State.withRegs, h]

/-- No source is the first destination of a stage, and no operand the second one. -/
structure HazardFree (s : State) : Prop where
  /-- The first operand. -/
  op1 : ∀ d ∈ [s.exeDest, s.memDest, s.wbDest], d.hits1 (decOp1Addr s) (decOp1Rf s) = false
  /-- The second operand. -/
  op2 : ∀ d ∈ [s.exeDest, s.memDest, s.wbDest], d.hits1 (decOp2Addr s) (decOp2Rf s) = false
  /-- The first operand and the second destination. -/
  op1Second : ∀ d ∈ [s.exeDest, s.memDest, s.wbDest], d.hits2 (decOp1Addr s) (decOp1Rf s) = false
  /-- The second operand and the second destination. -/
  op2Second : ∀ d ∈ [s.exeDest, s.memDest, s.wbDest], d.hits2 (decOp2Addr s) (decOp2Rf s) = false
  /-- The first register of a condition. -/
  cond1 : ∀ d ∈ [s.exeDest, s.memDest, s.wbDest], d.hits1 (ha s.dec.inst) (decCond1Rf s) = false
  /-- The second register of a condition. -/
  cond2 : ∀ d ∈ [s.exeDest, s.memDest, s.wbDest], d.hits1 (hb s.dec.inst) (decCond2Rf s) = false
  /-- The data of a store. -/
  store : ∀ d ∈ [s.exeDest, s.memDest, s.wbDest], d.hits1 (ha s.dec.inst) (decStRf s) = false

/-- What the hazard logic has compared when it lets a word go. -/
lemma hazardFree_of_hazard (h : hazard s = false) : HazardFree s := by
  simp only [hazard, Bool.or_eq_false_iff, List.any_eq_false, Bool.not_eq_true] at h
  obtain ⟨⟨⟨⟨⟨⟨⟨h1, h2⟩, h3⟩, h4⟩, h5⟩, h6⟩, h7⟩, -⟩ := h
  exact ⟨h1, h2, h3, h4, h5, h6, h7⟩

/-- **The hazard logic lets a word go only with fresh sources**, but for a condition or a store that
reads a second destination. -/
lemma Tracked.freshSources (h : Tracked s) (hhaz : HazardFree s) (hno : NoSecondDest s)
    (a b : BitVec 64) : FreshSources s (older s a b) := by
  -- a data register of a condition, which is 0 or no second destination
  have hcond : ∀ {file : Rf} {x : BitVec 6}, file = .d →
      (∀ d ∈ [s.exeDest, s.memDest, s.wbDest], d.hits1 x file = false) →
      (file = .d → x ≠ 0 → ¬ SecondDest s x) → readReg s.rd x = readReg (older s a b).rd x := by
    rintro file x rfl hfirst hsecond
    unfold readReg
    split_ifs with hne
    · exact (h.get_older hfirst (fun hd => hsecond hd hne) a b).symm
    · rfl
  refine ⟨?_, ?_, ?_, ?_, ?_⟩
  · exact decOp1_withRegs (h.get_older hhaz.op1 (h.not_secondDest hhaz.op1Second) a b)
  · exact decOp2_withRegs (h.get_older hhaz.op2 (h.not_secondDest hhaz.op2Second) a b)
  · intro hfun
    have hfile : decCond1Rf s = .d := by
      unfold decCond1Rf
      split
      next hx => exact absurd hx hfun
      all_goals rfl
    exact hcond hfile hhaz.cond1 hno.cond1
  · intro hfun
    have hfile : decCond2Rf s = .d := by
      rcases hfun with hfun | hfun <;> simp [decCond2Rf, hfun]
    exact hcond hfile hhaz.cond2 hno.cond2
  · intro hstore
    refine decMwData_withRegs hstore ?_
    by_cases hzero : decStRf s = .d ∧ ha s.dec.inst = 0
    · exact Or.inl hzero
    · right
      refine h.get_older hhaz.store (fun hd => hno.store hd fun hz => hzero ⟨hd, hz⟩) a b

/-- The words that leave decode read no second destination on its way. -/
def ReadsNoSecondDest (s : State) (i : Inputs) : Prop := issues s i = true → NoSecondDest s

/-- **No stale operand is read** in any run, if no word leaves decode that reads the second destination
of an instruction on its way as the register of a condition or as the data of a store. -/
theorem everyCycle_fresh {s : State} (hexe : s.exe.wbSel = .x) (hmem : s.mem.wbSel = .x)
    (hwb : s.wb.wbSel = .x) {is : List Inputs} (hrun : EveryCycle step ReadsNoSecondDest s is) :
    EveryCycle step Fresh s is := by
  have hinit : Tracked s :=
    ⟨fun hsel => absurd hexe hsel, fun hsel => absurd hmem hsel, fun hsel => absurd hwb hsel⟩
  refine EveryCycle.of_invariant Tracked ?_ ?_ hinit hrun
  · exact fun t i htracked _ => htracked.step i
  · intro t i htracked hreads hissues a b
    have hhaz : hazard t = false := by
      cases hhz : hazard t <;> simp [issues, advances, hhz] at hissues ⊢
    exact htracked.freshSources (hazardFree_of_hazard hhaz) (hreads hissues) a b

instance (s : State) : Decidable (NoSecondDest s) :=
  decidable_of_iff
    ((decCond1Rf s = .d → ha s.dec.inst ≠ 0 → ¬ SecondDest s (ha s.dec.inst)) ∧
      (decCond2Rf s = .d → hb s.dec.inst ≠ 0 → ¬ SecondDest s (hb s.dec.inst)) ∧
      (decStRf s = .d → ha s.dec.inst ≠ 0 → ¬ SecondDest s (ha s.dec.inst)))
    ⟨fun h => ⟨h.1, h.2.1, h.2.2⟩, fun h => ⟨h.cond1, h.cond2, h.store⟩⟩

instance (s : State) (i : Inputs) : Decidable (ReadsNoSecondDest s i) :=
  inferInstanceAs (Decidable (_ → _))

/-- A product of 128 bits and a branch on one of its halves: `addi rd1, rd0, -1`,
`mulu rd5, rd6, rd1, rd1` and the branch. -/
def mulBranch (branch : BitVec 32) : List Inputs :=
  [feed 0x19040fff true false, feed 0x1d146041 true false, await true false, await true false,
    await true false, feed branch true false, await true false]

/-- The branch waits for the first destination: `brz rd6`. -/
theorem everyCycle_fresh_mulBranch :
    EveryCycle step Fresh (reset 0x10000) (mulBranch 0x2a180001) :=
  everyCycle_fresh rfl rfl rfl (by decide +kernel)

/-- **The branch does not wait for the second destination**: `brz rd5`. -/
theorem not_fresh_mulBranch : ¬ ∀ is, EveryCycle step Fresh (reset 0x10000) is := by
  intro hall
  have hcycle := (hall (mulBranch 0x2a140001)).2.2.2.2.2.2.1
  have hcond := (hcycle (by decide +kernel) 0 0).cond1 (by decide +kernel)
  exact absurd hcond (by decide +kernel)

end Stage5

end Wuming

end Dadao
