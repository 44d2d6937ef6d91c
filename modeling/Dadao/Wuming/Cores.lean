import Dadao.Wuming.Stage5Single

set_option relaxedAutoImplicit false
set_option autoImplicit false

/-!
# The two cores and one instruction set

A word in the one-stage core and the same word in the drained five-stage core, from the same registers
and memory. The two decode tables and ALUs do the same; but the five-stage core reads the base register
0 as zero and not as the address of the next word, and it has no exception for a register count, for a
full or an empty return address stack and for a misaligned target.

## Main definitions

* `Dadao.Wuming.Agree` — the two cores leave the same outcome.
* `Dadao.Wuming.ReadsRb0` — a word reads the base register 0.

## Main results

* `Dadao.Wuming.agree_iff` — the cores agree on a word that does not read the base register 0 exactly if
  the one-stage core raises none of these exceptions.
-/

namespace Dadao

namespace Wuming

/-- **The two cores agree** on the word at the program counter, for all latencies of the memories. -/
def Agree {μ : Type} (bus : Stage1.Bus μ) (evec : Cause → BitVec 64) (a : Arch) (m : μ) : Prop :=
  ∀ o o', Stage1.Executes bus evec a m o → Stage5.Executes bus evec a m o' → o = o'

/-- A word reads the base register 0: as an operand, as the base of a jump or as the data of a store. -/
def ReadsRb0 (word : BitVec 32) : Bool :=
  let c := Stage5.csignals word
  (c.op1Sel == .rbha && ha word == 0) || (c.op1Sel == .rbhb && hb word == 0) ||
    (c.op1Sel == .rbhc && hc word == 0) || (c.op2Sel == .rbhc && hc word == 0) ||
    (c.op2Sel == .rbhd && hd word == 0) ||
    (c.memFcn && (c.regGrp == .rb || c.regGrp == .mrb) && ha word == 0)

/-! ### The decode tables -/

/-- The columns in which the two tables agree. -/
structure SameSignals (c c' : Signals) : Prop where
  /-- The word is an instruction. -/
  valInst : c.valInst = c'.valInst
  /-- The control flow. -/
  ctrlFlow : c.ctrlFlow = c'.ctrlFlow
  /-- The condition. -/
  condFun : c.condFun = c'.condFun
  /-- The register group. -/
  regGrp : c.regGrp = c'.regGrp
  /-- What is written back. -/
  wbSel : c.wbSel = c'.wbSel
  /-- The memory is accessed. -/
  memEn : c.memEn = c'.memEn
  /-- The access is a store. -/
  memFcn : c.memFcn = c'.memFcn
  /-- The memory type. -/
  mskSel : c.mskSel = c'.mskSel
  /-- The operands and the function of the ALU, which a jump by registers uses in one core only. -/
  alu : c'.ctrlFlow ≠ .jumpR → c'.ctrlFlow ≠ .callR →
    c.op1Sel = c'.op1Sel ∧ c.op2Sel = c'.op2Sel ∧ c.aluFun = c'.aluFun

/-- **The two decode tables agree.** -/
lemma sameSignals (word : BitVec 32) :
    SameSignals (Stage1.csignals word).toSignals (Stage5.csignals word).toSignals := by
  unfold Stage1.csignals Stage5.csignals
  cases Insn.decode word with
  | none => constructor <;> decide
  | some insn => cases insn <;> constructor <;> decide

/-- A word that writes no register in one core writes none in the other. -/
lemma rfWen_or (word : BitVec 32) :
    (Stage1.csignals word).rfWen = true ∨ (Stage5.csignals word).wbSel = .x ∨
      (Stage5.csignals word).wbSel = .ra := by
  unfold Stage1.csignals Stage5.csignals
  cases Insn.decode word with
  | none => decide
  | some insn => cases insn <;> decide

/-! ### Operands and results -/

section Datapath

open Stage5 (decodedWord archRegs memWord reset)

variable {word : BitVec 32} {a : Arch}

/-- A base register, if it is not register 0 or the two cores read it alike. -/
lemma readReg_rb {x : BitVec 6} (h : x = 0 → a.pc + 4 = 0) :
    Stage5.readReg a.rb x = Stage1.rbData a x := by
  unfold Stage5.readReg Stage1.rbData Stage1.pcPlus4
  split_ifs with hx
  · rfl
  · exact (h (by simpa using hx)).symm

/-- Only a jump by registers adds a data register of the field `hb`. -/
lemma op2Sel_ne_rdhb (hjump : (Stage5.csignals word).ctrlFlow ≠ .jumpR)
    (hcall : (Stage5.csignals word).ctrlFlow ≠ .callR) : (Stage5.csignals word).op2Sel ≠ .rdhb := by
  revert hjump hcall
  unfold Stage5.csignals
  cases Insn.decode word with
  | none => decide
  | some insn => cases insn <;> decide

/-- The operands of a word other than a jump by registers. -/
lemma operands_eq (hrb : ReadsRb0 word = true → a.pc + 4 = 0)
    (hjump : (Stage5.csignals word).ctrlFlow ≠ .jumpR) (hcall : (Stage5.csignals word).ctrlFlow ≠ .callR) :
    (decodedWord word a.pc (archRegs a)).op1 = Stage1.aluOp1 a word ∧
      (decodedWord word a.pc (archRegs a)).op2 = Stage1.aluOp2 a word := by
  obtain ⟨hop1, hop2, -⟩ := (sameSignals word).alu hjump hcall
  constructor
  · simp only [decodedWord, Stage5.decoded, Stage5.decOp1, Stage5.cs, Stage5.State.withRegs, archRegs,
      Stage1.aluOp1, hop1]
    cases hsel : (Stage5.csignals word).op1Sel with
    | rbha => exact readReg_rb fun hx => hrb (by simp [ReadsRb0, hsel, hx])
    | rbhb => exact readReg_rb fun hx => hrb (by simp [ReadsRb0, hsel, hx])
    | rbhc => exact readReg_rb fun hx => hrb (by simp [ReadsRb0, hsel, hx])
    | _ => rfl
  · simp only [decodedWord, Stage5.decoded, Stage5.decOp2, Stage5.cs, Stage5.State.withRegs, archRegs,
      Stage1.aluOp2, hop2]
    cases hsel : (Stage5.csignals word).op2Sel with
    | rdhb => exact absurd hsel (op2Sel_ne_rdhb hjump hcall)
    | rbhc => exact readReg_rb fun hx => hrb (by simp [ReadsRb0, hsel, hx])
    | rbhd => exact readReg_rb fun hx => hrb (by simp [ReadsRb0, hsel, hx])
    | _ => rfl

/-- The condition of a conditional assignment. -/
lemma condYes_eq :
    Stage5.condYes { reset 0 with exe := decodedWord word a.pc (archRegs a) } = Stage1.condYes a word := by
  simp only [Stage5.condYes, Stage5.exeCondN, Stage5.exeCondZ, Stage5.exeCondP, Stage5.exeCondEq,
    decodedWord, Stage5.decoded, Stage5.cs, Stage5.State.withRegs, archRegs, Stage1.condYes, Stage1.condN,
    Stage1.condZ, Stage1.condP, Stage1.condEq, (sameSignals word).condFun]
  rfl

/-- **The ALUs give the same results**, to a word other than a jump by registers. -/
lemma aluOut_eq (hrb : ReadsRb0 word = true → a.pc + 4 = 0)
    (hjump : (Stage5.csignals word).ctrlFlow ≠ .jumpR) (hcall : (Stage5.csignals word).ctrlFlow ≠ .callR) :
    Stage5.exeAluOut { reset 0 with exe := decodedWord word a.pc (archRegs a) } =
      Stage1.aluOut a word ∧
    Stage5.exeAluOut2 { reset 0 with exe := decodedWord word a.pc (archRegs a) } =
      Stage1.aluOut2 a word := by
  obtain ⟨hop1, hop2⟩ := operands_eq hrb hjump hcall
  obtain ⟨-, -, hfun⟩ := (sameSignals word).alu hjump hcall
  have hfun' : (decodedWord word a.pc (archRegs a)).aluFun = (Stage5.csignals word).aluFun := rfl
  have hmask : (decodedWord word a.pc (archRegs a)).wydeMask = wydeMask word := rfl
  constructor
  · simp only [Stage5.exeAluOut, Stage1.aluOut, hop1, hop2, hfun', hmask, hfun, condYes_eq,
      Stage1.compared]
    cases (Stage5.csignals word).aluFun <;> simp
  · cases hcase : (Stage5.csignals word).aluFun <;>
      simp only [Stage5.exeAluOut2, Stage1.aluOut2, hop1, hop2, hfun', hfun, hcase]

variable (word a) in
/-- The condition of a branch. -/
lemma brTaken_eq :
    Stage5.CondFun.holds (Stage5.csignals word).condFun (Stage5.readReg a.rd (ha word))
      (Stage5.readReg a.rd (hb word)) = Stage1.brTaken a word := by
  rw [Stage1.brTaken, (sameSignals word).condFun]
  cases (Stage5.csignals word).condFun <;> rfl

/-- **The cores go on at the same word.** -/
lemma nextPc_eq (hrb : ReadsRb0 word = true → a.pc + 4 = 0) :
    Stage1.target a word (Stage1.pcSelNoXept a word false) = Stage5.nextPc word a := by
  have hflow := (sameSignals word).ctrlFlow
  have htaken := brTaken_eq word a
  -- the base of a jump by registers is its first operand
  have hbase : (Stage5.csignals word).ctrlFlow = .jumpR ∨ (Stage5.csignals word).ctrlFlow = .callR →
      Stage5.readReg a.rb (ha word) = Stage1.rbData a (ha word) := by
    intro hcf
    have hsel := (Stage5.sources_of_rrii hcf).1
    exact readReg_rb fun hx => hrb (by simp [ReadsRb0, hsel, hx])
  unfold Stage1.pcSelNoXept Stage5.nextPc Stage5.successor
  rw [if_neg (by decide), hflow]
  cases hcf : (Stage5.csignals word).ctrlFlow with
  | x => rfl
  | ret => rfl
  | jumpI => rfl
  | callI => rfl
  | jumpR =>
    simp only [Stage1.target, archRegs, ← hbase (Or.inl hcf)]
    rfl
  | callR =>
    simp only [Stage1.target, archRegs, ← hbase (Or.inr hcf)]
    rfl
  | br12 =>
    simp only [archRegs, htaken]
    cases Stage1.brTaken a word <;> rfl
  | br18 =>
    simp only [archRegs, htaken]
    cases Stage1.brTaken a word <;> rfl

/-- **The registers after a write back** are the same in both cores. -/
lemma write_eq (w : Stage5.Wb) (data data2 : BitVec 64) (hsel : w.wbSel = (Stage5.csignals word).wbSel)
    (hha : w.ha = ha word) (hhb : w.hb = hb word) (hhc : w.hc = hc word) (hhd : w.hd = hd word)
    (hdata : w.wbData = data) (hdata2 : w.wbSel = .hahb → w.wbData2 = data2) :
    (archRegs a).write w = archRegs (Stage1.writeBack a word data data2) := by
  unfold Stage5.Regs.write Stage1.writeBack
  rw [(sameSignals word).wbSel, hha, hhb, hhc, hhd, hdata, ← hsel]
  cases h : w.wbSel with
  | hahb =>
    rw [hdata2 h]
    rfl
  | _ => rfl

/-- The data that is written back. -/
lemma writeBack_data (hrb : ReadsRb0 word = true → a.pc + 4 = 0)
    (hjump : (Stage5.csignals word).ctrlFlow ≠ .jumpR) (hcall : (Stage5.csignals word).ctrlFlow ≠ .callR)
    (hplain : Stage5.PlainWord word) (d : BitVec 64) :
    ((decodedWord word a.pc (archRegs a)).writeBack d).wbData = Stage1.wbData a word d 0 := by
  have halu := (aluOut_eq hrb hjump hcall).1
  have hcsr := Stage5.wbSel_ne_csr hplain
  rw [Stage1.wbData, (sameSignals word).wbSel]
  simp only [Stage5.Exe.writeBack, Stage5.executed, Stage5.Mem.writeBack, halu]
  have hwb : (decodedWord word a.pc (archRegs a)).wbSel = (Stage5.csignals word).wbSel := rfl
  have hpc : (decodedWord word a.pc (archRegs a)).pc = a.pc := rfl
  rw [hwb, hpc]
  cases hsel : (Stage5.csignals word).wbSel with
  | csr => exact absurd hsel hcsr
  | ra => rfl
  | _ => rfl

/-- A word that accesses the memory does not jump, and writes back no return address. -/
lemma flow_of_memEn (h : (Stage5.csignals word).memEn = true) :
    (Stage5.csignals word).ctrlFlow = .x ∧ (Stage5.csignals word).wbSel ≠ .ra := by
  revert h
  unfold Stage5.csignals
  cases Insn.decode word with
  | none => decide
  | some insn => cases insn <;> decide

/-- A jump by registers writes no register but the return address stack. -/
lemma wbSel_of_rrii (h : (Stage5.csignals word).ctrlFlow = .jumpR ∨ (Stage5.csignals word).ctrlFlow = .callR) :
    (Stage5.csignals word).wbSel = .x ∨ (Stage5.csignals word).wbSel = .ra := by
  revert h
  unfold Stage5.csignals
  cases Insn.decode word with
  | none => decide
  | some insn => cases insn <;> decide

/-- **The registers after a word** are the same in both cores. -/
lemma exec_eq (hrb : ReadsRb0 word = true → a.pc + 4 = 0) (hplain : Stage5.PlainWord word)
    (d : BitVec 64) :
    (archRegs a).exec word a.pc d =
      archRegs (if (Stage1.csignals word).rfWen then
        Stage1.writeBack a word (Stage1.wbData a word d 0) (Stage1.aluOut2 a word) else a) := by
  have hwb : ((decodedWord word a.pc (archRegs a)).writeBack d).wbSel = (Stage5.csignals word).wbSel := rfl
  by_cases hnone : (Stage5.csignals word).wbSel = .x ∨ (Stage5.csignals word).wbSel = .ra
  · have hkeep : (archRegs a).exec word a.pc d = archRegs a := by
      unfold Stage5.Regs.exec Stage5.Regs.write
      rw [hwb]
      rcases hnone with h | h <;> rw [h] <;> rfl
    have hkeep' : Stage1.writeBack a word (Stage1.wbData a word d 0) (Stage1.aluOut2 a word) = a := by
      unfold Stage1.writeBack
      rw [(sameSignals word).wbSel]
      rcases hnone with h | h <;> rw [h]
    rw [hkeep, hkeep', ite_self]
  · have hwen : (Stage1.csignals word).rfWen = true := (rfWen_or word).resolve_right hnone
    have hjump : (Stage5.csignals word).ctrlFlow ≠ .jumpR := fun h => hnone (wbSel_of_rrii (Or.inl h))
    have hcall : (Stage5.csignals word).ctrlFlow ≠ .callR := fun h => hnone (wbSel_of_rrii (Or.inr h))
    rw [hwen, if_pos rfl]
    refine write_eq _ _ _ hwb rfl rfl rfl rfl (writeBack_data hrb hjump hcall hplain d) ?_
    intro hhahb
    have halu := (aluOut_eq hrb hjump hcall).2
    rw [← halu]
    show (if (decodedWord word a.pc (archRegs a)).wbSel = .hahb then _ else _) = _
    have hsel : (decodedWord word a.pc (archRegs a)).wbSel = .hahb := hhahb
    rw [if_pos hsel]
    rfl

/-- What a word without an access writes back does not depend on the data port. -/
lemma wbData_of_not_memEn (h : (Stage5.csignals word).memEn = false) (d : BitVec 64) :
    Stage1.wbData a word d 0 = Stage1.wbData a word 0 0 := by
  have hen : (Stage1.csignals word).memEn = false := (sameSignals word).memEn.trans h
  unfold Stage1.wbData
  split
  next hsel =>
    rw [Stage1.memEn_of_wbSel (Or.inl hsel)] at hen
    cases hen
  next hsel =>
    rw [Stage1.memEn_of_wbSel (Or.inr hsel)] at hen
    cases hen
  all_goals rfl

/-- A request is another one but for its data. -/
lemma memReq_eq {r r' : MemReq} (haddr : r.addr = r'.addr) (hfcn : r.fcn = r'.fcn) (htyp : r.typ = r'.typ) :
    r = { r' with data := r.data } := by
  cases r
  cases r'
  simp only at haddr hfcn htyp
  rw [haddr, hfcn, htyp]

/-- A load does not look at the data lines. -/
def LoadsIgnoreData {μ : Type} (bus : Stage1.Bus μ) : Prop :=
  ∀ m req d, req.fcn = false → bus.access m { req with data := d } = bus.access m req

/-- **The request of a word** gets the same answer in both cores. -/
lemma access_eq {μ : Type} {bus : Stage1.Bus μ} (hbus : LoadsIgnoreData bus)
    (hrb : ReadsRb0 word = true → a.pc + 4 = 0) (hen : (Stage5.csignals word).memEn = true) (m : μ) :
    bus.access m (Stage5.dmemReq { reset 0 with mem := memWord word a }) =
      bus.access m (Stage1.dmemReq a word) := by
  obtain ⟨hflow, hra⟩ := flow_of_memEn hen
  have halu := (aluOut_eq (a := a) hrb (by simp [hflow]) (by simp [hflow])).1
  have haddr : (Stage5.dmemReq { reset 0 with mem := memWord word a }).addr =
      (Stage1.dmemReq a word).addr := by
    show (if (decodedWord word a.pc (archRegs a)).wbSel = .ra then _ else _) = Stage1.aluOut a word
    have hsel : (decodedWord word a.pc (archRegs a)).wbSel ≠ .ra := hra
    rw [if_neg hsel, halu]
  have hfcn : (Stage5.dmemReq { reset 0 with mem := memWord word a }).fcn = (Stage1.dmemReq a word).fcn :=
    (sameSignals word).memFcn.symm
  have htyp : (Stage5.dmemReq { reset 0 with mem := memWord word a }).typ = (Stage1.dmemReq a word).typ :=
    (sameSignals word).mskSel.symm
  cases hstore : (Stage1.dmemReq a word).fcn with
  | false =>
    rw [memReq_eq haddr hfcn htyp, hbus m _ _ hstore]
  | true =>
    have hmemFcn : (Stage5.csignals word).memFcn = true := (sameSignals word).memFcn.symm.trans hstore
    have hdata : (Stage5.dmemReq { reset 0 with mem := memWord word a }).data =
        (Stage1.dmemReq a word).data := by
      simp only [Stage5.dmemReq, memWord, Stage5.executed, decodedWord, Stage5.decoded, Stage5.decMwData,
        Stage5.cs, Stage5.State.withRegs, archRegs, Stage1.dmemReq, (sameSignals word).regGrp]
      cases hgrp : (Stage5.csignals word).regGrp with
      | rb => exact readReg_rb fun hx => hrb (by simp [ReadsRb0, hmemFcn, hgrp, hx])
      | mrb => exact readReg_rb fun hx => hrb (by simp [ReadsRb0, hmemFcn, hgrp, hx])
      | _ => rfl
    rw [memReq_eq haddr hfcn htyp, hdata]

variable (word a) in
/-- A word with a register count is an instruction, and one of the stack or of the control flow is one
without an access. -/
lemma valInst_of_signals :
    (Stage1.instMultiReg word = true → (Stage5.csignals word).valInst = true) ∧
      (Stage1.instRaspExcp a word = true →
        (Stage5.csignals word).valInst = true ∧ (Stage5.csignals word).memEn = false) ∧
      (Stage1.instMisaligned a word false = true →
        (Stage5.csignals word).valInst = true ∧ (Stage5.csignals word).memEn = false) := by
  have hgrp : ((Stage5.csignals word).regGrp = .mrd ∨ (Stage5.csignals word).regGrp = .mrb ∨
      (Stage5.csignals word).regGrp = .mrf) → (Stage5.csignals word).valInst = true := by
    unfold Stage5.csignals
    cases Insn.decode word with
    | none => decide
    | some insn => cases insn <;> decide
  have hras : ((Stage5.csignals word).regGrp = .rasPush ∨ (Stage5.csignals word).regGrp = .rasPop) →
      (Stage5.csignals word).valInst = true ∧ (Stage5.csignals word).memEn = false := by
    unfold Stage5.csignals
    cases Insn.decode word with
    | none => decide
    | some insn => cases insn <;> decide
  have hflow : (Stage5.csignals word).ctrlFlow ≠ .x →
      (Stage5.csignals word).valInst = true ∧ (Stage5.csignals word).memEn = false := by
    unfold Stage5.csignals
    cases Insn.decode word with
    | none => decide
    | some insn => cases insn <;> decide
  refine ⟨?_, ?_, ?_⟩
  · intro h
    simp only [Stage1.instMultiReg, (sameSignals word).regGrp, Bool.and_eq_true, Bool.or_eq_true,
      beq_iff_eq, or_assoc] at h
    exact hgrp h.1
  · intro h
    simp only [Stage1.instRaspExcp, Stage1.rasPush, Stage1.rasPop, (sameSignals word).regGrp,
      Bool.and_eq_true, Bool.or_eq_true, beq_iff_eq] at h
    exact hras (h.imp And.left And.left)
  · intro h
    refine hflow fun hx => ?_
    have hsel : Stage1.pcSelNoXept a word false = .plus4 := by
      rw [Stage1.pcSelNoXept, if_neg (by decide), (sameSignals word).ctrlFlow, hx]
    rw [Stage1.instMisaligned, hsel] at h
    cases h

/-- **The access of a word is misaligned** in one core exactly if it is in the other. -/
lemma misaligned_eq (hrb : ReadsRb0 word = true → a.pc + 4 = 0) :
    Stage1.dataMisaligned a word (Stage1.csignals word).memEn = Stage5.misaligned word a := by
  cases hen : (Stage5.csignals word).memEn with
  | false =>
    have hen' : (memWord word a).memVal = false := hen
    rw [Stage1.dataMisaligned, (sameSignals word).memEn, hen, Stage5.misaligned, Stage5.memDataMisaligned]
    simp [hen']
  | true =>
    obtain ⟨hflow, hra⟩ := flow_of_memEn hen
    have halu := (aluOut_eq (a := a) hrb (by simp [hflow]) (by simp [hflow])).1
    have hsel : (decodedWord word a.pc (archRegs a)).wbSel ≠ .ra := hra
    have hout : (memWord word a).aluOut = Stage1.aluOut a word := by
      show (if (decodedWord word a.pc (archRegs a)).wbSel = .ra then _ else _) = _
      rw [if_neg hsel, halu]
    have htyp : (memWord word a).memTyp = (Stage5.csignals word).mskSel := rfl
    have hval : (memWord word a).memVal = (Stage5.csignals word).memEn := rfl
    rw [Stage1.dataMisaligned, Stage5.misaligned, Stage5.memDataMisaligned]
    simp only [hout, htyp, hval, (sameSignals word).mskSel, (sameSignals word).memEn]

/-- The exceptions only the one-stage core has. -/
structure NoExtraFault (a : Arch) (word : BitVec 32) : Prop where
  /-- A register count. -/
  multiReg : Stage1.instMultiReg word = false
  /-- A full or an empty return address stack. -/
  rasp : Stage1.instRaspExcp a word = false
  /-- A misaligned target. -/
  target : Stage1.instMisaligned a word false = false

/-- **The exceptions are the same** but for those. -/
lemma fault_eq (hrb : ReadsRb0 word = true → a.pc + 4 = 0) (h : NoExtraFault a word) :
    Stage1.fault a word = Stage5.fault a word := by
  have hill : Stage1.illegal a word true = !(Stage5.csignals word).valInst := by
    rw [Stage1.illegal, h.multiReg, h.rasp, (sameSignals word).valInst]
    simp
  rw [Stage1.fault, Stage5.fault, Stage1.exception, Stage1.exceptionCause, hill, h.target,
    misaligned_eq hrb, (sameSignals word).memFcn]
  cases (Stage5.csignals word).valInst <;> cases Stage5.misaligned word a <;> rfl

/-- An instruction without an access raises no exception in the five-stage core. -/
lemma fault_of_not_memEn (hval : (Stage5.csignals word).valInst = true)
    (hen : (Stage5.csignals word).memEn = false) : Stage5.fault a word = none := by
  have hmem : (memWord word a).memVal = false := hen
  have hmis : Stage5.misaligned word a = false := by
    rw [Stage5.misaligned, Stage5.memDataMisaligned]
    simp [hmem]
  rw [Stage5.fault, hval, hmis]
  rfl

/-- The other exceptions are not raised by the five-stage core. -/
lemma noExtraFault_of_fault_eq (h : Stage1.fault a word = Stage5.fault a word) : NoExtraFault a word := by
  obtain ⟨hmulti, hrasp, htarget⟩ := valInst_of_signals word a
  refine ⟨?_, ?_, ?_⟩
  · by_contra hne
    rw [Bool.not_eq_false] at hne
    -- an illegal instruction here, and at most a misaligned access there
    have hill : Stage1.illegal a word true = true := by
      rw [Stage1.illegal, hne]
      simp
    rw [Stage1.fault, Stage5.fault, Stage1.exception, Stage1.exceptionCause, hill, hmulti hne] at h
    simp only [Bool.true_or, if_true, Bool.not_true] at h
    revert h
    cases Stage5.misaligned word a <;> cases (Stage5.csignals word).memFcn <;> simp
  · by_contra hne
    rw [Bool.not_eq_false] at hne
    obtain ⟨hval, hen⟩ := hrasp hne
    have hill : Stage1.illegal a word true = true := by
      rw [Stage1.illegal, hne]
      simp
    rw [Stage1.fault, Stage1.exception, hill, fault_of_not_memEn hval hen] at h
    simp at h
  · by_contra hne
    rw [Bool.not_eq_false] at hne
    obtain ⟨hval, hen⟩ := htarget hne
    rw [Stage1.fault, Stage1.exception, hne, fault_of_not_memEn hval hen] at h
    simp at h

/-- The return address stack after a word is the same in both cores. -/
lemma nextRas_eq :
    a.ras.step (Stage1.rasPush word) (Stage1.rasPop word) (Stage1.pcPlus4 a) = Stage5.nextRas word a := by
  rw [Stage1.rasPush, Stage1.rasPop, (sameSignals word).regGrp]
  rfl

end Datapath

/-! ### The outcomes -/

section Outcomes

variable {μ : Type} {bus : Stage1.Bus μ} {evec : Cause → BitVec 64} {a : Arch} {m : μ}

/-- **The outcomes are the same**, but for a word that reads the base register 0 and for the exceptions
only one core has. -/
lemma single_eq (hbus : LoadsIgnoreData bus) (hplain : Stage5.PlainWord (bus.fetch m a.pc))
    (hrb : ReadsRb0 (bus.fetch m a.pc) = true → a.pc + 4 = 0) (h : NoExtraFault a (bus.fetch m a.pc)) :
    Stage1.single bus evec a m = Stage5.single bus evec a m := by
  have hfault := fault_eq hrb h
  unfold Stage1.single Stage5.single
  simp only [hfault, nextRas_eq]
  cases hf : Stage5.fault a (bus.fetch m a.pc) with
  | some cause =>
    -- the exception is taken at once
    have hpc : ((Stage1.csignals (bus.fetch m a.pc)).memEn &&
        !Stage1.dataMisaligned a (bus.fetch m a.pc) (Stage1.csignals (bus.fetch m a.pc)).memEn) = false := by
      rw [misaligned_eq hrb, (sameSignals _).memEn]
      cases hval : (Stage5.csignals (bus.fetch m a.pc)).valInst with
      | false => simp [(Stage5.idle_of_illegal hval).2]
      | true =>
        have hmis : Stage5.misaligned (bus.fetch m a.pc) a = true := by
          cases hm : Stage5.misaligned (bus.fetch m a.pc) a with
          | true => rfl
          | false => simp [Stage5.fault, hval, hm] at hf
        simp [hmis]
    simp only [hpc]
    rfl
  | none =>
    simp only [nextPc_eq hrb, (sameSignals _).memEn]
    cases hen : (Stage5.csignals (bus.fetch m a.pc)).memEn with
    | true =>
      have hregs := exec_eq hrb hplain (bus.access m (Stage1.dmemReq a (bus.fetch m a.pc))).1
      simp only [access_eq hbus hrb hen, hregs]
      rfl
    | false =>
      have hregs := exec_eq hrb hplain (bus.access m (Stage5.dmemReq
        { Stage5.reset 0 with mem := Stage5.memWord (bus.fetch m a.pc) a })).1
      rw [wbData_of_not_memEn hen] at hregs
      simp only [hregs]
      rfl

variable (bus evec a m) in
/-- The exception of an outcome. -/
lemma exception_single :
    (Stage1.single bus evec a m).exception = Stage1.fault a (bus.fetch m a.pc) ∧
      (Stage5.single bus evec a m).exception = Stage5.fault a (bus.fetch m a.pc) := by
  constructor
  · cases hf : Stage1.fault a (bus.fetch m a.pc) <;> simp only [Stage1.single, hf]
  · cases hf : Stage5.fault a (bus.fetch m a.pc) <;> simp only [Stage5.single, hf]

/-- **The two cores agree** on a word that reads the base register 0 nowhere, or where the two read the
same, exactly if it has no register count above one, does not overflow or underflow the return address
stack and does not go to a misaligned address. -/
theorem agree_iff (hbus : LoadsIgnoreData bus) (hplain : Stage5.PlainWord (bus.fetch m a.pc))
    (hrb : ReadsRb0 (bus.fetch m a.pc) = true → a.pc + 4 = 0) :
    Agree bus evec a m ↔ NoExtraFault a (bus.fetch m a.pc) := by
  constructor
  · intro hagree
    have heq := hagree _ _ Stage1.executes_single (Stage5.executes_single hplain)
    obtain ⟨hone, hfive⟩ := exception_single bus evec a m
    refine noExtraFault_of_fault_eq ?_
    rw [← hone, ← hfive, heq]
  · intro h o o' ho ho'
    rw [ho.eq_single, ho'.eq_single hplain]
    exact single_eq hbus hplain hrb h

/-- A memory that holds one word everywhere. -/
def constBus (word : BitVec 32) : Stage1.Bus Unit := ⟨fun _ _ => word, fun m _ => (0, m)⟩

/-- All registers are zero, at `0x10000`. -/
def zeroArch : Arch := ⟨0x10000, fun _ => 0, fun _ => 0, fun _ => 0, ⟨0, fun _ => 0⟩⟩

/-- `addi rb1, rb2, 0`. -/
theorem agree_addi :
    Agree (constBus 0x49042000) (fun _ => 0) zeroArch () ↔ NoExtraFault zeroArch 0x49042000 :=
  agree_iff (show LoadsIgnoreData (constBus 0x49042000) from fun _ _ _ _ => rfl) (by decide +kernel)
    (by decide +kernel)

/-- **`addi rb1, rb0, 0`** gives the address of the next word in one core and zero in the other. -/
theorem not_agree_addi_rb0 :
    ¬ ∀ (word : BitVec 32), Stage5.PlainWord word → Agree (constBus word) (fun _ => 0) zeroArch () := by
  intro hall
  have hplain : Stage5.PlainWord 0x49040000 := by decide +kernel
  have heq := hall 0x49040000 hplain _ _ Stage1.executes_single (Stage5.executes_single hplain)
  have hrb := congrArg (fun o => o.arch.rb 1) heq
  revert hrb
  decide +kernel

end Outcomes

end Wuming

end Dadao
