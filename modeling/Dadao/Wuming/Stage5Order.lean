import Dadao.Wuming.Stage5Hazard

set_option relaxedAutoImplicit false
set_option autoImplicit false

/-!
# Program order of the five-stage core

What a word does to the registers and where the program goes on, one word after another. A word that
leaves decode with fresh sources does the same in the pipeline.

## Main definitions

* `Dadao.Wuming.Stage5.Regs.exec` — the registers after a word.
* `Dadao.Wuming.Stage5.successor` — the address of the next word.

## Main results

* `Dadao.Wuming.Stage5.FreshSources.older_step` — the registers after the words that have left decode
  are those of program order.
* `Dadao.Wuming.Stage5.FreshSources.leads` — a word in execute redirects the fetch to its successor.
-/

namespace Dadao

namespace Wuming

namespace Stage5

open Clocked

/-! ### One word after another -/

/-- A word as it enters execute, with its sources read from the registers. -/
def decodedWord (word : BitVec 32) (pc : BitVec 64) (r : Regs) : Exe :=
  decoded ({ reset 0 with dec := ⟨true, word, pc⟩ }.withRegs r)

/-- A word as it writes back. -/
def Exe.writeBack (e : Exe) (answer : BitVec 64) : Wb :=
  (executed { reset 0 with exe := e }).writeBack answer

/-- **The registers after a word**, with the answer of the data port or of the CSR file. -/
def Regs.exec (r : Regs) (word : BitVec 32) (pc answer : BitVec 64) : Regs :=
  r.write ((decodedWord word pc r).writeBack answer)

/-- The condition of a branch. -/
def CondFun.holds (c : CondFun) (a b : BitVec 64) : Bool :=
  match c with
  | .n => a.slt 0
  | .nn => !a.slt 0
  | .z => a == 0
  | .nz => !(a == 0)
  | .p => (0 : BitVec 64).slt a
  | .np => !(0 : BitVec 64).slt a
  | .eq => a == b
  | .ne => !(a == b)
  | .x => false

/-- **The address of the next word**. The one after a return is kept outside the registers. -/
def successor (word : BitVec 32) (pc : BitVec 64) (r : Regs) : BitVec 64 :=
  let taken := CondFun.holds (csignals word).condFun (readReg r.rd (ha word)) (readReg r.rd (hb word))
  match (csignals word).ctrlFlow with
  | .br12 => if taken then pc + imms12 word <<< 2 else pc + 4
  | .br18 => if taken then pc + imms18 word <<< 2 else pc + 4
  | .jumpI | .callI => pc + imms24 word <<< 2
  | .jumpR | .callR => readReg r.rb (ha word) + readReg r.rd (hb word) + imms12 word <<< 2
  | .x | .ret => pc + 4

/-! ### Where the word in execute goes -/

/-- `ctrl_exe_pc_sel` of a cycle that is not killed. -/
def branchSel (e : Exe) : PcSel :=
  match e.cfType with
  | .x => .plus4
  | .br12 =>
    match e.cdType with
    | .eq => if e.rdha == e.rdhb then .br12 else .plus4
    | .ne => if !(e.rdha == e.rdhb) then .br12 else .plus4
    | _ => .plus4
  | .br18 =>
    match e.cdType with
    | .z => if e.rdha == 0 then .br18 else .plus4
    | .nz => if !(e.rdha == 0) then .br18 else .plus4
    | .p => if (0 : BitVec 64).slt e.rdha then .br18 else .plus4
    | .np => if !(0 : BitVec 64).slt e.rdha then .br18 else .plus4
    | .n => if e.rdha.slt 0 then .br18 else .plus4
    | .nn => if !e.rdha.slt 0 then .br18 else .plus4
    | _ => .plus4
  | .jumpI | .callI => .iiii
  | .jumpR | .callR => .rrii
  | .ret => .rasp

/-- The target of a word other than a return. -/
def branchTarget (e : Exe) : BitVec 64 :=
  match branchSel e with
  | .br12 => e.pc + e.imms12 <<< 2
  | .br18 => e.pc + e.imms18 <<< 2
  | .iiii => e.pc + e.imms24 <<< 2
  | .rrii => exeAluOut { reset 0 with exe := e } + e.imms12 <<< 2
  | _ => e.pc + 4

variable {s : State} {i : Inputs}

/-- The selection in a cycle that is not killed. -/
lemma exePcSel_eq (hkill : pipelineKill s i = false) : exePcSel s i = branchSel s.exe := by
  unfold exePcSel
  rw [if_neg (by simp [hkill])]
  rfl

/-- A word other than a return takes no target from the stack, and none from the CSR file. -/
lemma branchSel_ne {e : Exe} (hret : e.cfType ≠ .ret) : branchSel e ≠ .rasp ∧ branchSel e ≠ .excp := by
  unfold branchSel
  split
  case h_8 h => exact absurd h hret
  all_goals first | decide | (split <;> first | decide | (split_ifs <;> decide))

/-- A word that redirects the fetch sends it to its target. -/
lemma ifPcNext_eq (hkill : pipelineKill s i = false) (hsel : branchSel s.exe ≠ .plus4)
    (hret : s.exe.cfType ≠ .ret) : ifPcNext s i = branchTarget s.exe := by
  unfold ifPcNext branchTarget
  rw [exePcSel_eq hkill, if_neg (by simp [hsel])]
  cases h : branchSel s.exe with
  | plus4 => exact absurd h hsel
  | rasp => exact absurd h (branchSel_ne hret).1
  | excp => exact absurd h (branchSel_ne hret).2
  | _ => rfl

/-- A short branch compares two registers. -/
lemma condFun_of_br12 {word : BitVec 32} (h : (csignals word).ctrlFlow = .br12) :
    (csignals word).condFun = .eq ∨ (csignals word).condFun = .ne := by
  revert h
  unfold csignals
  cases Insn.decode word with
  | none => decide
  | some insn => cases insn <;> decide

/-- A long branch compares a register with zero. -/
lemma condFun_of_br18 {word : BitVec 32} (h : (csignals word).ctrlFlow = .br18) :
    (csignals word).condFun ≠ .x ∧ (csignals word).condFun ≠ .eq ∧ (csignals word).condFun ≠ .ne := by
  revert h
  unfold csignals
  cases Insn.decode word with
  | none => decide
  | some insn => cases insn <;> decide

/-- A jump or call by registers adds its operands. -/
lemma sources_of_rrii {word : BitVec 32}
    (h : (csignals word).ctrlFlow = .jumpR ∨ (csignals word).ctrlFlow = .callR) :
    (csignals word).op1Sel = .rbha ∧ (csignals word).op2Sel = .rdhb ∧
      (csignals word).aluFun = .add := by
  revert h
  unfold csignals
  cases Insn.decode word with
  | none => decide
  | some insn => cases insn <;> decide

/-- The operands of a jump or call by registers. -/
lemma FreshSources.aluOut_of_rrii {r : Regs} (h : FreshSources s r)
    (hcf : (csignals s.dec.inst).ctrlFlow = .jumpR ∨ (csignals s.dec.inst).ctrlFlow = .callR) :
    exeAluOut { reset 0 with exe := decoded s } =
      readReg r.rb (ha s.dec.inst) + readReg r.rd (hb s.dec.inst) := by
  obtain ⟨hsel1, hsel2, hfun⟩ := sources_of_rrii hcf
  have hadd : exeAluOut { reset 0 with exe := decoded s } = decOp1 s + decOp2 s := by
    simp only [exeAluOut, decoded, cs, hfun]
  have hop1 : decOp1 (s.withRegs r) = readReg r.rb (ha s.dec.inst) := by
    simp only [decOp1, cs, State.withRegs, hsel1]
  have hop2 : decOp2 (s.withRegs r) = readReg r.rd (hb s.dec.inst) := by
    simp only [decOp2, cs, State.withRegs, hsel2]
  rw [hadd, h.op1, h.op2, hop1, hop2]

/-- A short branch goes to its target if its condition holds. -/
lemma branchTarget_of_br12 {e : Exe} (hcf : e.cfType = .br12) (hcd : e.cdType = .eq ∨ e.cdType = .ne) :
    branchTarget e =
      if CondFun.holds e.cdType e.rdha e.rdhb then e.pc + e.imms12 <<< 2 else e.pc + 4 := by
  unfold branchTarget branchSel
  rw [hcf]
  rcases hcd with hcd | hcd
  all_goals
    simp only [hcd, CondFun.holds]
    split_ifs <;> rfl

/-- A long branch goes to its target if its condition holds. -/
lemma branchTarget_of_br18 {e : Exe} (hcf : e.cfType = .br18)
    (hcd : e.cdType ≠ .x ∧ e.cdType ≠ .eq ∧ e.cdType ≠ .ne) :
    branchTarget e =
      if CondFun.holds e.cdType e.rdha e.rdhb then e.pc + e.imms18 <<< 2 else e.pc + 4 := by
  unfold branchTarget branchSel
  rw [hcf]
  cases hfun : e.cdType with
  | x => exact absurd hfun hcd.1
  | eq => exact absurd hfun hcd.2.1
  | ne => exact absurd hfun hcd.2.2
  | _ =>
    simp only [CondFun.holds]
    split_ifs with hc <;> simp only [hc, if_true, if_false, Bool.false_eq_true]

/-- A condition that compares with zero does not read the second register. -/
lemma CondFun.holds_congr {c : CondFun} (h : c ≠ .eq ∧ c ≠ .ne) (a b b' : BitVec 64) :
    CondFun.holds c a b = CondFun.holds c a b' := by
  cases c with
  | eq => exact absurd rfl h.1
  | ne => exact absurd rfl h.2
  | _ => rfl

/-- **A word in execute redirects the fetch to its successor**, if its sources were fresh. -/
lemma FreshSources.leads {r : Regs} (h : FreshSources s r) (hret : (cs s).ctrlFlow ≠ .ret) :
    branchTarget (decoded s) = successor s.dec.inst s.dec.pc r := by
  have hcond1 := h.cond1
  have hcond2 := h.cond2
  unfold cs at hret hcond1 hcond2
  cases hcf : (csignals s.dec.inst).ctrlFlow with
  | x => simp [branchTarget, branchSel, successor, decoded, cs, hcf]
  | jumpI => simp [branchTarget, branchSel, successor, decoded, cs, hcf]
  | callI => simp [branchTarget, branchSel, successor, decoded, cs, hcf]
  | ret => exact absurd hcf hret
  | jumpR =>
    have halu := h.aluOut_of_rrii (Or.inl hcf)
    simp [branchTarget, branchSel, successor, decoded, cs, hcf] at halu ⊢
    rw [halu]
  | callR =>
    have halu := h.aluOut_of_rrii (Or.inr hcf)
    simp [branchTarget, branchSel, successor, decoded, cs, hcf] at halu ⊢
    rw [halu]
  | br12 =>
    have hfun := condFun_of_br12 hcf
    have hx : (csignals s.dec.inst).condFun ≠ .x := by
      rcases hfun with hfun | hfun <;> simp [hfun]
    rw [branchTarget_of_br12 (e := decoded s) hcf hfun]
    simp only [successor, hcf, decoded, cs, hcond1 hx, hcond2 hfun]
  | br18 =>
    have hfun := condFun_of_br18 hcf
    rw [branchTarget_of_br18 (e := decoded s) hcf hfun]
    simp only [successor, hcf, decoded, cs, hcond1 hfun.1]
    rw [CondFun.holds_congr hfun.2]

/-! ### What the word in execute writes -/

/-- The condition of a conditional assignment, if its sources were fresh. -/
lemma FreshSources.condYes_eq {r : Regs} (h : FreshSources s r) :
    condYes { reset 0 with exe := decoded s } =
      condYes { reset 0 with exe := decodedWord s.dec.inst s.dec.pc r } := by
  have hcond1 := h.cond1
  have hcond2 := h.cond2
  have hcd : (decodedWord s.dec.inst s.dec.pc r).cdType = (cs s).condFun := rfl
  have hrdha : (decodedWord s.dec.inst s.dec.pc r).rdha = readReg r.rd (ha s.dec.inst) := rfl
  have hrdhb : (decodedWord s.dec.inst s.dec.pc r).rdhb = readReg r.rd (hb s.dec.inst) := rfl
  simp only [condYes, exeCondN, exeCondZ, exeCondP, exeCondEq, hcd, hrdha, hrdhb, decoded]
  cases hfun : (cs s).condFun with
  | x => rfl
  | eq => rw [hcond1 (by simp [hfun]), hcond2 (Or.inl hfun)]
  | ne => rw [hcond1 (by simp [hfun]), hcond2 (Or.inr hfun)]
  | _ => rw [hcond1 (by simp [hfun])]

/-- The result of the ALU, if its sources were fresh. -/
lemma FreshSources.exeAluOut_eq {r : Regs} (h : FreshSources s r) :
    exeAluOut { reset 0 with exe := decoded s } =
      exeAluOut { reset 0 with exe := decodedWord s.dec.inst s.dec.pc r } := by
  have hyes := h.condYes_eq
  have hop1 : (decodedWord s.dec.inst s.dec.pc r).op1 = decOp1 (s.withRegs r) := rfl
  have hop2 : (decodedWord s.dec.inst s.dec.pc r).op2 = decOp2 (s.withRegs r) := rfl
  have hfun : (decodedWord s.dec.inst s.dec.pc r).aluFun = (decoded s).aluFun := rfl
  have hmask : (decodedWord s.dec.inst s.dec.pc r).wydeMask = (decoded s).wydeMask := rfl
  have hop1' : (decoded s).op1 = decOp1 (s.withRegs r) := h.op1
  have hop2' : (decoded s).op2 = decOp2 (s.withRegs r) := h.op2
  simp only [exeAluOut, hyes, hop1, hop2, hfun, hmask, hop1', hop2']

/-- The second result of the ALU, if its sources were fresh. -/
lemma FreshSources.exeAluOut2_eq {r : Regs} (h : FreshSources s r) :
    exeAluOut2 { reset 0 with exe := decoded s } =
      exeAluOut2 { reset 0 with exe := decodedWord s.dec.inst s.dec.pc r } := by
  have hop1 : (decodedWord s.dec.inst s.dec.pc r).op1 = decOp1 (s.withRegs r) := rfl
  have hop2 : (decodedWord s.dec.inst s.dec.pc r).op2 = decOp2 (s.withRegs r) := rfl
  have hfun : (decodedWord s.dec.inst s.dec.pc r).aluFun = (decoded s).aluFun := rfl
  have hop1' : (decoded s).op1 = decOp1 (s.withRegs r) := h.op1
  have hop2' : (decoded s).op2 = decOp2 (s.withRegs r) := h.op2
  simp only [exeAluOut2, hop1, hop2, hfun, hop1', hop2']

/-- **The word that leaves decode writes what it writes in program order**, if its sources were
fresh. -/
lemma FreshSources.write_executed {r : Regs} (h : FreshSources s r) (hissues : issues s i = true)
    (answer : BitVec 64) :
    r.write ((executed (step s i)).writeBack answer) = r.exec s.dec.inst s.dec.pc answer := by
  have hexecuted : executed (step s i) = executed { reset 0 with exe := decoded s } :=
    calc executed (step s i) = executed { reset 0 with exe := (step s i).exe } := rfl
      _ = executed { reset 0 with exe := decoded s } := by
        rw [show (step s i).exe = decoded s from exeNext_of_issues hissues]
  have halu := h.exeAluOut_eq
  have halu2 := h.exeAluOut2_eq
  rw [hexecuted, Regs.exec, Exe.writeBack]
  simp only [Regs.write, Mem.writeBack, executed, halu, halu2]
  rfl

/-- **The registers after the words that have left decode are those of program order.** -/
theorem FreshSources.older_step {a : BitVec 64} (h : FreshSources s (older s (answer s i) a))
    (hissues : issues s i = true) (b : BitVec 64) :
    older (step s i) a b = (older s (answer s i) a).exec s.dec.inst s.dec.pc b := by
  rw [older_step_of_issues hissues, h.write_executed hissues]

end Stage5

end Wuming

end Dadao
