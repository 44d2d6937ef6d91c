import Dadao.Wuming.Instructions

set_option relaxedAutoImplicit false
set_option autoImplicit false

/-!
# The one-stage core

`wuming_1stage`: the decode table of the control path, the data path, and a clock cycle of both. The
memory ports and the outputs of the CSR file are inputs of a cycle.

The data path computes every cycle, on the word that is on the fetch port, or in the instruction
buffer while a data access waits. A cycle that stalls keeps the program counter and the registers;
the return address stack and the exception outputs do not look at the stall.

## Main definitions

* `Dadao.Wuming.Stage1.csignals` — the decode table.
* `Dadao.Wuming.Stage1.aluOut`, `Dadao.Wuming.Stage1.aluOut2` — the ALU.
* `Dadao.Wuming.Stage1.State`, `Dadao.Wuming.Stage1.Inputs`, `Dadao.Wuming.Stage1.step` — a clock
  cycle of the core.
-/

namespace Dadao

namespace Wuming

namespace Stage1

/-! ### The decode table -/

/-- A row of the decode table. -/
structure Control extends Signals where
  /-- A register is written. -/
  rfWen : Bool
  deriving DecidableEq, Repr

/-- The rows of `csignals`. -/
def row : Insn → Control
  | .swym => ⟨⟨true, .x, .x, .x, .x, .x, .x, .x, false, false, .x, .n⟩, false⟩
  | .fence => ⟨⟨true, .x, .x, .x, .x, .x, .x, .x, false, false, .x, .n⟩, false⟩
  | .rd2rd => ⟨⟨true, .x, .x, .mrd, .x, .rdhc, .copy2, .rdhb, false, false, .x, .n⟩, true⟩
  | .rd2rb => ⟨⟨true, .x, .x, .mrb, .x, .rdhc, .copy2, .rbhb, false, false, .x, .n⟩, true⟩
  | .rb2rd => ⟨⟨true, .x, .x, .mrd, .x, .rbhc, .copy2, .rdhb, false, false, .x, .n⟩, true⟩
  | .rb2rb => ⟨⟨true, .x, .x, .mrb, .x, .rbhc, .copy2, .rbhb, false, false, .x, .n⟩, true⟩
  | .rd2rf => ⟨⟨true, .x, .x, .mrf, .x, .rdhc, .copy2, .rfhb, false, false, .x, .n⟩, true⟩
  | .rf2rd => ⟨⟨true, .x, .x, .mrd, .x, .rfhc, .copy2, .rdhb, false, false, .x, .n⟩, true⟩
  | .rf2rf => ⟨⟨true, .x, .x, .mrf, .x, .rfhc, .copy2, .rfhb, false, false, .x, .n⟩, true⟩
  | .and => ⟨⟨true, .x, .x, .rd, .rdhc, .rdhd, .and, .rdhb, false, false, .x, .n⟩, true⟩
  | .orr => ⟨⟨true, .x, .x, .rd, .rdhc, .rdhd, .or, .rdhb, false, false, .x, .n⟩, true⟩
  | .xor => ⟨⟨true, .x, .x, .rd, .rdhc, .rdhd, .xor, .rdhb, false, false, .x, .n⟩, true⟩
  | .xnor => ⟨⟨true, .x, .x, .rd, .rdhc, .rdhd, .xnor, .rdhb, false, false, .x, .n⟩, true⟩
  | .andi => ⟨⟨true, .x, .x, .rd, .rdhb, .immu12, .and, .rdha, false, false, .x, .n⟩, true⟩
  | .shluR => ⟨⟨true, .x, .x, .rd, .rdhc, .rdhd, .sll, .rdhb, false, false, .x, .n⟩, true⟩
  | .shluI => ⟨⟨true, .x, .x, .rd, .rdhc, .immu6, .sll, .rdhb, false, false, .x, .n⟩, true⟩
  | .shrsR => ⟨⟨true, .x, .x, .rd, .rdhc, .rdhd, .sra, .rdhb, false, false, .x, .n⟩, true⟩
  | .shrsI => ⟨⟨true, .x, .x, .rd, .rdhc, .immu6, .sra, .rdhb, false, false, .x, .n⟩, true⟩
  | .shruR => ⟨⟨true, .x, .x, .rd, .rdhc, .rdhd, .srl, .rdhb, false, false, .x, .n⟩, true⟩
  | .shruI => ⟨⟨true, .x, .x, .rd, .rdhc, .immu6, .srl, .rdhb, false, false, .x, .n⟩, true⟩
  | .extsR => ⟨⟨true, .x, .x, .rd, .rdhc, .rdhd, .exts, .rdhb, false, false, .x, .n⟩, true⟩
  | .extsI => ⟨⟨true, .x, .x, .rd, .rdhc, .immu6, .exts, .rdhb, false, false, .x, .n⟩, true⟩
  | .extzR => ⟨⟨true, .x, .x, .rd, .rdhc, .rdhd, .extz, .rdhb, false, false, .x, .n⟩, true⟩
  | .extzI => ⟨⟨true, .x, .x, .rd, .rdhc, .immu6, .extz, .rdhb, false, false, .x, .n⟩, true⟩
  | .addRb => ⟨⟨true, .x, .x, .rb, .rbhc, .rdhd, .add, .rbhb, false, false, .x, .n⟩, true⟩
  | .subRb => ⟨⟨true, .x, .x, .rb, .rbhc, .rdhd, .sub, .rbhb, false, false, .x, .n⟩, true⟩
  | .addiRd => ⟨⟨true, .x, .x, .rd, .rdhb, .imms12, .add, .rdha, false, false, .x, .n⟩, true⟩
  | .addiRb => ⟨⟨true, .x, .x, .rb, .rbhb, .imms12, .add, .rbha, false, false, .x, .n⟩, true⟩
  | .addRd => ⟨⟨true, .x, .x, .rd, .rdhc, .rdhd, .add, .hahb, false, false, .x, .n⟩, true⟩
  | .subRd => ⟨⟨true, .x, .x, .rd, .rdhc, .rdhd, .sub, .hahb, false, false, .x, .n⟩, true⟩
  | .muls => ⟨⟨true, .x, .x, .rd, .rdhc, .rdhd, .muls, .hahb, false, false, .x, .n⟩, true⟩
  | .mulu => ⟨⟨true, .x, .x, .rd, .rdhc, .rdhd, .mulu, .hahb, false, false, .x, .n⟩, true⟩
  | .divs => ⟨⟨true, .x, .x, .rd, .rdhc, .rdhd, .divs, .hahb, false, false, .x, .n⟩, true⟩
  | .divu => ⟨⟨true, .x, .x, .rd, .rdhc, .rdhd, .divu, .hahb, false, false, .x, .n⟩, true⟩
  | .ldbs => ⟨⟨true, .x, .x, .rd, .rbhb, .imms12, .add, .rdmm, true, false, .b, .n⟩, true⟩
  | .ldws => ⟨⟨true, .x, .x, .rd, .rbhb, .imms12, .add, .rdmm, true, false, .w, .n⟩, true⟩
  | .ldts => ⟨⟨true, .x, .x, .rd, .rbhb, .imms12, .add, .rdmm, true, false, .t, .n⟩, true⟩
  | .ldoRd => ⟨⟨true, .x, .x, .rd, .rbhb, .imms12, .add, .rdmm, true, false, .o, .n⟩, true⟩
  | .ldbu => ⟨⟨true, .x, .x, .rd, .rbhb, .imms12, .add, .rdmm, true, false, .bu, .n⟩, true⟩
  | .ldwu => ⟨⟨true, .x, .x, .rd, .rbhb, .imms12, .add, .rdmm, true, false, .wu, .n⟩, true⟩
  | .ldtu => ⟨⟨true, .x, .x, .rd, .rbhb, .imms12, .add, .rdmm, true, false, .tu, .n⟩, true⟩
  | .ldmbs => ⟨⟨true, .x, .x, .mrd, .rbhb, .rdhc, .add, .rdmm, true, false, .b, .n⟩, true⟩
  | .ldmws => ⟨⟨true, .x, .x, .mrd, .rbhb, .rdhc, .add, .rdmm, true, false, .w, .n⟩, true⟩
  | .ldmts => ⟨⟨true, .x, .x, .mrd, .rbhb, .rdhc, .add, .rdmm, true, false, .t, .n⟩, true⟩
  | .ldmoRd => ⟨⟨true, .x, .x, .mrd, .rbhb, .rdhc, .add, .rdmm, true, false, .o, .n⟩, true⟩
  | .ldmbu => ⟨⟨true, .x, .x, .mrd, .rbhb, .rdhc, .add, .rdmm, true, false, .bu, .n⟩, true⟩
  | .ldmwu => ⟨⟨true, .x, .x, .mrd, .rbhb, .rdhc, .add, .rdmm, true, false, .wu, .n⟩, true⟩
  | .ldmtu => ⟨⟨true, .x, .x, .mrd, .rbhb, .rdhc, .add, .rdmm, true, false, .tu, .n⟩, true⟩
  | .stb => ⟨⟨true, .x, .x, .rd, .rbhb, .imms12, .add, .x, true, true, .b, .n⟩, false⟩
  | .stw => ⟨⟨true, .x, .x, .rd, .rbhb, .imms12, .add, .x, true, true, .w, .n⟩, false⟩
  | .sttRd => ⟨⟨true, .x, .x, .rd, .rbhb, .imms12, .add, .x, true, true, .t, .n⟩, false⟩
  | .stoRd => ⟨⟨true, .x, .x, .rd, .rbhb, .imms12, .add, .x, true, true, .o, .n⟩, false⟩
  | .stmb => ⟨⟨true, .x, .x, .mrd, .rbhb, .rdhc, .add, .x, true, true, .b, .n⟩, false⟩
  | .stmw => ⟨⟨true, .x, .x, .mrd, .rbhb, .rdhc, .add, .x, true, true, .w, .n⟩, false⟩
  | .stmtRd => ⟨⟨true, .x, .x, .mrd, .rbhb, .rdhc, .add, .x, true, true, .t, .n⟩, false⟩
  | .stmoRd => ⟨⟨true, .x, .x, .mrd, .rbhb, .rdhc, .add, .x, true, true, .o, .n⟩, false⟩
  | .ldoRb => ⟨⟨true, .x, .x, .rb, .rbhb, .imms12, .add, .rbmm, true, false, .o, .n⟩, true⟩
  | .stoRb => ⟨⟨true, .x, .x, .rb, .rbhb, .imms12, .add, .x, true, true, .o, .n⟩, false⟩
  | .ldmoRb => ⟨⟨true, .x, .x, .mrb, .rbhb, .rdhc, .add, .rbmm, true, false, .o, .n⟩, true⟩
  | .stmoRb => ⟨⟨true, .x, .x, .mrb, .rbhb, .rdhc, .add, .x, true, true, .o, .n⟩, false⟩
  | .cmpsI => ⟨⟨true, .x, .x, .rd, .rdhb, .imms12, .cmps, .rdha, false, false, .x, .n⟩, true⟩
  | .cmpsR => ⟨⟨true, .x, .x, .rd, .rdhc, .rdhd, .cmps, .rdhb, false, false, .x, .n⟩, true⟩
  | .cmpuI => ⟨⟨true, .x, .x, .rd, .rdhb, .immu12, .cmpu, .rdha, false, false, .x, .n⟩, true⟩
  | .cmpuR => ⟨⟨true, .x, .x, .rd, .rdhc, .rdhd, .cmpu, .rdhb, false, false, .x, .n⟩, true⟩
  | .cmp => ⟨⟨true, .x, .x, .rb, .rbhc, .rbhd, .cmpu, .rdhb, false, false, .x, .n⟩, true⟩
  | .csnRd => ⟨⟨true, .x, .n, .rd, .rdhc, .rdhd, .cset, .rdhb, false, false, .x, .n⟩, true⟩
  | .cszRd => ⟨⟨true, .x, .z, .rd, .rdhc, .rdhd, .cset, .rdhb, false, false, .x, .n⟩, true⟩
  | .cspRd => ⟨⟨true, .x, .p, .rd, .rdhc, .rdhd, .cset, .rdhb, false, false, .x, .n⟩, true⟩
  | .cseq => ⟨⟨true, .x, .ne, .rd, .rdhc, .rdhd, .cset, .rdhc, false, false, .x, .n⟩, true⟩
  | .csne => ⟨⟨true, .x, .eq, .rd, .rdhc, .rdhd, .cset, .rdhc, false, false, .x, .n⟩, true⟩
  | .breq => ⟨⟨true, .br12, .eq, .x, .x, .x, .x, .x, false, false, .x, .n⟩, false⟩
  | .brne => ⟨⟨true, .br12, .ne, .x, .x, .x, .x, .x, false, false, .x, .n⟩, false⟩
  | .brn => ⟨⟨true, .br18, .n, .x, .x, .x, .x, .x, false, false, .x, .n⟩, false⟩
  | .brnn => ⟨⟨true, .br18, .nn, .x, .x, .x, .x, .x, false, false, .x, .n⟩, false⟩
  | .brz => ⟨⟨true, .br18, .z, .x, .x, .x, .x, .x, false, false, .x, .n⟩, false⟩
  | .brnz => ⟨⟨true, .br18, .nz, .x, .x, .x, .x, .x, false, false, .x, .n⟩, false⟩
  | .brp => ⟨⟨true, .br18, .p, .x, .x, .x, .x, .x, false, false, .x, .n⟩, false⟩
  | .brnp => ⟨⟨true, .br18, .np, .x, .x, .x, .x, .x, false, false, .x, .n⟩, false⟩
  | .jumpI => ⟨⟨true, .jumpI, .x, .x, .x, .x, .x, .x, false, false, .x, .n⟩, false⟩
  | .jumpR => ⟨⟨true, .jumpR, .x, .x, .x, .x, .x, .x, false, false, .x, .n⟩, false⟩
  | .callI => ⟨⟨true, .callI, .x, .rasPush, .x, .x, .x, .ra, false, false, .x, .n⟩, true⟩
  | .callR => ⟨⟨true, .callR, .x, .rasPush, .x, .x, .x, .ra, false, false, .x, .n⟩, true⟩
  | .ret => ⟨⟨true, .ret, .x, .rasPop, .x, .imms18, .copy2, .rdha, false, false, .x, .n⟩, true⟩
  | .setzwRd => ⟨⟨true, .x, .x, .rd, .x, .wyde, .copy2, .rdha, false, false, .x, .n⟩, true⟩
  | .setow => ⟨⟨true, .x, .x, .rd, .x, .wyde, .setow, .rdha, false, false, .x, .n⟩, true⟩
  | .orwRd => ⟨⟨true, .x, .x, .rd, .rdha, .wyde, .or, .rdha, false, false, .x, .n⟩, true⟩
  | .andnwRd => ⟨⟨true, .x, .x, .rd, .rdha, .wyde, .andnw, .rdha, false, false, .x, .n⟩, true⟩
  | .setzwRb => ⟨⟨true, .x, .x, .rb, .x, .wyde, .copy2, .rbha, false, false, .x, .n⟩, true⟩
  | .orwRb => ⟨⟨true, .x, .x, .rb, .rbha, .wyde, .or, .rbha, false, false, .x, .n⟩, true⟩
  | .andnwRb => ⟨⟨true, .x, .x, .rb, .rbha, .wyde, .andnw, .rbha, false, false, .x, .n⟩, true⟩
  | .setw => ⟨⟨true, .x, .x, .rf, .rfha, .wyde, .setw, .rfha, false, false, .x, .n⟩, true⟩
  | .adrp => ⟨⟨true, .x, .x, .x, .pc, .imms18, .adrp, .rbha, false, false, .x, .n⟩, true⟩
  | .cpco => ⟨⟨true, .x, .x, .x, .x, .x, .x, .x, false, false, .x, .n⟩, false⟩
  | .cprd => ⟨⟨true, .x, .x, .csr, .x, .x, .x, .csr, false, false, .x, .r⟩, true⟩
  | .cpwr => ⟨⟨true, .x, .x, .csr, .x, .rdhd, .copy2, .x, false, false, .x, .w⟩, false⟩
  | .trap => ⟨⟨true, .x, .x, .x, .x, .x, .x, .x, false, false, .x, .i⟩, false⟩
  | .escape => ⟨⟨true, .x, .x, .x, .x, .x, .x, .x, false, false, .x, .i⟩, false⟩

/-- `csignals`. -/
def csignals (inst : BitVec 32) : Control :=
  match Insn.decode inst with
  | some insn => row insn
  | none => ⟨⟨false, .x, .x, .x, .x, .x, .x, .x, false, false, .x, .n⟩, false⟩

/-! ### The data path -/

section Datapath

variable (a : Arch) (inst : BitVec 32)

/-- The address of the next word. -/
def pcPlus4 : BitVec 64 := a.pc + 4

/-- A data register; register 0 is zero. -/
def rdData (i : BitVec 6) : BitVec 64 := if i ≠ 0 then a.rd i else 0

/-- A base register; register 0 is the address of the next word. -/
def rbData (i : BitVec 6) : BitVec 64 := if i ≠ 0 then a.rb i else pcPlus4 a

/-- The first operand. -/
def aluOp1 : BitVec 64 :=
  match (csignals inst).op1Sel with
  | .rdha => rdData a (ha inst)
  | .rdhb => rdData a (hb inst)
  | .rdhc => rdData a (hc inst)
  | .rbha => rbData a (ha inst)
  | .rbhb => rbData a (hb inst)
  | .rbhc => rbData a (hc inst)
  | .rfha => a.rf (ha inst)
  | .pc => a.pc
  | .x => 0

/-- The second operand. -/
def aluOp2 : BitVec 64 :=
  match (csignals inst).op2Sel with
  | .rdhc => rdData a (hc inst)
  | .rdhd => rdData a (hd inst)
  | .rbhc => rbData a (hc inst)
  | .rbhd => rbData a (hd inst)
  | .rfhc => a.rf (hc inst)
  | .immu6 => immu6 inst
  | .immu12 => immu12 inst
  | .imms12 => imms12 inst
  | .imms18 => imms18 inst
  | .wyde => wyde inst
  | .x | .rdhb => 0

/-- `cond_eq`. -/
def condEq : Bool := rdData a (ha inst) == rdData a (hb inst)

/-- `cond_n`. -/
def condN : Bool := (rdData a (ha inst)).slt 0

/-- `cond_z`. -/
def condZ : Bool := rdData a (ha inst) == 0

/-- `cond_p`. -/
def condP : Bool := (0 : BitVec 64).slt (rdData a (ha inst))

/-- The condition of a conditional assignment. -/
def condYes : Bool :=
  match (csignals inst).condFun with
  | .n => condN a inst
  | .z => condZ a inst
  | .p => condP a inst
  | .eq => condEq a inst
  | .ne => !condEq a inst
  | _ => false

/-- The result of a comparison, from whether the operands are equal and whether they are ordered. -/
def compared (eq lt : Bool) : BitVec 64 := if eq then 0 else if lt then BitVec.allOnes 64 else 1

/-- The result of the ALU. -/
def aluOut : BitVec 64 :=
  let op1 := aluOp1 a inst
  let op2 := aluOp2 a inst
  let shamt := op2.toNat % 64
  match (csignals inst).aluFun with
  | .add => op1 + op2
  | .sub => op1 - op2
  | .and => op1 &&& op2
  | .or => op1 ||| op2
  | .xor => op1 ^^^ op2
  | .xnor => op1 ^^^ ~~~ op2
  | .cmps => compared (op1 == op2) (op1.slt op2)
  | .cmpu => compared (op1 == op2) (op1.ult op2)
  | .sll => op1 <<< shamt
  | .sra => op1.sshiftRight shamt
  | .srl => op1 >>> shamt
  | .exts => (op1 <<< shamt).sshiftRight shamt
  | .extz => (op1 <<< shamt) >>> shamt
  | .setow => op2 ||| wydeMask inst
  | .setw => (op1 &&& wydeMask inst) ||| op2
  | .andnw => op1 &&& ~~~ op2
  | .adrp => ((op1 >>> 12) + op2) <<< 12
  | .copy2 => op2
  | .cset => if condYes a inst then op1 else op2
  | .muls => (op1.signExtend 128 * op2.signExtend 128).setWidth 64
  | .mulu => (op1.setWidth 128 * op2.setWidth 128).setWidth 64
  | .divs => op1.sdiv op2
  | .divu => op1.udiv op2
  | .x => 0

/-- The second result of the ALU: the high half of a sum, a difference or a product, and the
remainder of a division. -/
def aluOut2 : BitVec 64 :=
  let op1 := aluOp1 a inst
  let op2 := aluOp2 a inst
  match (csignals inst).aluFun with
  | .add => ((op1.signExtend 128 + op2.signExtend 128) >>> 64).setWidth 64
  | .sub => ((op1.signExtend 128 - op2.signExtend 128) >>> 64).setWidth 64
  | .muls => ((op1.signExtend 128 * op2.signExtend 128) >>> 64).setWidth 64
  | .mulu => ((op1.setWidth 128 * op2.setWidth 128) >>> 64).setWidth 64
  | .divs => op1.srem op2
  | .divu => op1.umod op2
  | _ => 0

/-- `br_taken`. -/
def brTaken : Bool :=
  match (csignals inst).condFun with
  | .n => condN a inst
  | .nn => !condN a inst
  | .z => condZ a inst
  | .nz => !condZ a inst
  | .p => condP a inst
  | .np => !condP a inst
  | .eq => condEq a inst
  | .ne => !condEq a inst
  | .x => false

/-- `ctrl_pc_sel_no_xept`. -/
def pcSelNoXept (interruptEdge : Bool) : PcSel :=
  if interruptEdge then .excp
  else match (csignals inst).ctrlFlow with
    | .x => .plus4
    | .br18 => if brTaken a inst then .br18 else .plus4
    | .br12 => if brTaken a inst then .br12 else .plus4
    | .jumpI | .callI => .iiii
    | .jumpR | .callR => .rrii
    | .ret => .rasp

/-- The target of each way but the exception. -/
def target : PcSel → BitVec 64
  | .br12 => a.pc + imms12 inst <<< 2
  | .br18 => a.pc + imms18 inst <<< 2
  | .iiii => a.pc + imms24 inst <<< 2
  | .rrii => rbData a (ha inst) + rdData a (hb inst) + imms12 inst <<< 2
  | .rasp => a.ras.popData
  | .plus4 | .excp => pcPlus4 a

/-- `inst_misaligned`: a jump to an address that is not that of a word. -/
def instMisaligned (interruptEdge : Bool) : Bool :=
  match pcSelNoXept a inst interruptEdge with
  | .plus4 | .excp => false
  | sel => (target a inst sel).extractLsb' 0 2 != 0

/-- `inst_multi_reg`: more than one register. -/
def instMultiReg : Bool :=
  ((csignals inst).regGrp == .mrd || (csignals inst).regGrp == .mrb || (csignals inst).regGrp == .mrf)
    && inst.extractLsb' 1 5 != 0

/-- `ras_push`. -/
def rasPush : Bool := (csignals inst).regGrp == .rasPush

/-- `ras_pop`. -/
def rasPop : Bool := (csignals inst).regGrp == .rasPop

/-- `inst_rasp_excp`: a push on a full stack or a pop from an empty one. -/
def instRaspExcp : Bool := (rasPush inst && a.ras.top == 63) || (rasPop inst && a.ras.top == 0)

/-- `illegal`; the decode table is looked at only when a word has arrived. -/
def illegal (imemValid : Bool) : Bool :=
  (!(csignals inst).valInst && imemValid) || instMultiReg inst || instRaspExcp a inst

/-- `data_misaligned`. -/
def dataMisaligned (memEn : Bool) : Bool :=
  (~~~ (7#3 <<< (csignals inst).mskSel.getTLSize.toNat) &&& (aluOut a inst).extractLsb' 0 3) != 0 && memEn

/-- `io.ctl.exception`. -/
def exception (imemValid memEn interruptEdge : Bool) : Bool :=
  illegal a inst imemValid || instMisaligned a inst interruptEdge || dataMisaligned a inst memEn

/-- `io.ctl.exception_cause`. -/
def exceptionCause (imemValid interruptEdge : Bool) : Cause :=
  if illegal a inst imemValid then .illegalInstruction
  else if instMisaligned a inst interruptEdge then .misalignedFetch
  else if (csignals inst).memFcn then .misalignedStore
  else .misalignedLoad

/-- `csr.io.tval`. -/
def tval (imemValid interruptEdge : Bool) : BitVec 64 :=
  match exceptionCause a inst imemValid interruptEdge with
  | .illegalInstruction => inst.setWidth 64
  | .misalignedFetch =>
    match pcSelNoXept a inst interruptEdge with
    | .plus4 | .excp => 0
    | sel => target a inst sel
  | .misalignedStore | .misalignedLoad => aluOut a inst

/-- The request on the data port. -/
def dmemReq : MemReq where
  addr := aluOut a inst
  data := match (csignals inst).regGrp with
    | .mrd | .rd => rdData a (ha inst)
    | .mrb | .rb => rbData a (ha inst)
    | .mrf | .rf => a.rf (ha inst)
    | _ => 0
  fcn := (csignals inst).memFcn
  typ := (csignals inst).mskSel

/-- `wb_data`. -/
def wbData (dmemData csrRdata : BitVec 64) : BitVec 64 :=
  match (csignals inst).wbSel with
  | .rdmm | .rbmm => dmemData
  | .ra => pcPlus4 a
  | .csr => csrRdata
  | _ => aluOut a inst

/-- The registers after a write back. -/
def writeBack (data data2 : BitVec 64) : Arch :=
  match (csignals inst).wbSel with
  | .rbha | .rbmm => { a with rb := RegFile.set a.rb (ha inst) data }
  | .rbhb => { a with rb := RegFile.set a.rb (hb inst) data }
  | .rdha | .rdmm => { a with rd := RegFile.set a.rd (ha inst) data }
  | .rdhb => { a with rd := RegFile.set a.rd (hb inst) data }
  | .rdhc => { a with rd := RegFile.set a.rd (hc inst) data }
  | .hahb =>
    { a with rd := RegFile.set (RegFile.set a.rd (hb inst) data) (ha inst) data2 }
  | .csr => { a with rd := RegFile.set a.rd (hd inst) data }
  | .rfha => { a with rf := Function.update a.rf (ha inst) data }
  | .rfhb => { a with rf := Function.update a.rf (hb inst) data }
  | .ra | .x => a

end Datapath

/-! ### A clock cycle -/

/-- The registers of the core: those a program sees, and those of the control. -/
structure State extends Arch where
  /-- A data access is due. -/
  regMemEn : Bool
  /-- The data access of the last cycle waits. -/
  regDmiss : Bool
  /-- The word whose data access waits. -/
  ifInstBuffer : BitVec 32
  /-- The interrupt line at the last instruction. -/
  regInterruptEdge : Bool

/-- The inputs of a cycle: the responses of the two memory ports, whose data is driven whether or
not it is valid, and the outputs of the CSR file. -/
structure Inputs where
  /-- A word arrives. -/
  imemValid : Bool
  /-- The fetch port. -/
  imemData : BitVec 32
  /-- The data access is answered. -/
  dmemValid : Bool
  /-- The data port. -/
  dmemData : BitVec 64
  /-- The CSR file has an interrupt pending. -/
  csrInterrupt : Bool
  /-- The CSR file returns from a trap. -/
  csrEret : Bool
  /-- The address the CSR file goes on at. -/
  csrEvec : BitVec 64
  /-- The value of the CSR that is read. -/
  csrRdata : BitVec 64

section Cycle

variable (s : State) (i : Inputs)

/-- The word the core works on. -/
def inst : BitVec 32 := if s.regDmiss then s.ifInstBuffer else i.imemData

/-- `imem.req.valid`. -/
def imemReqValid : Bool := !s.regDmiss

/-- `imiss`. -/
def imiss : Bool := imemReqValid s && !i.imemValid

/-- `interrupt_edge`. -/
def interruptEdge : Bool := i.csrInterrupt && !s.regInterruptEdge

/-- `mem_en`. -/
def memEn : Bool := if i.imemValid then (csignals (inst s i)).memEn else s.regMemEn

/-- `io.ctl.exception` in this cycle. -/
def excepts : Bool :=
  exception s.toArch (inst s i) i.imemValid (memEn s i) (interruptEdge s i)

/-- `dmiss`. -/
def dmiss : Bool :=
  !((memEn s i && (i.dmemValid || dataMisaligned s.toArch (inst s i) (memEn s i))) || !memEn s i)

/-- `stall`. -/
def stall : Bool := imiss s i || dmiss s i

/-- `dmem.req.valid`. -/
def dmemReqValid : Bool := memEn s i && !excepts s i

/-- The instruction retires: `csr.io.retire`, and it is not interrupted. -/
def retires : Bool := !stall s i && !excepts s i && !interruptEdge s i

/-- `pc_next`. -/
def pcNext : BitVec 64 :=
  if excepts s i || i.csrEret then i.csrEvec
  else match pcSelNoXept s.toArch (inst s i) (interruptEdge s i) with
    | .excp => i.csrEvec
    | sel => target s.toArch (inst s i) sel

/-- `wb_wen`: the write enable, which neither a stall nor a trap leaves. -/
def wbWen : Bool :=
  !(stall s i || excepts s i) && (csignals (inst s i)).rfWen && !interruptEdge s i

/-- The registers a program sees after the cycle. The stack moves with the decoded word alone. -/
def archNext : Arch :=
  let data := wbData s.toArch (inst s i) i.dmemData i.csrRdata
  let written :=
    if wbWen s i then writeBack s.toArch (inst s i) data (aluOut2 s.toArch (inst s i)) else s.toArch
  { written with
    pc := if stall s i then s.pc else pcNext s i
    ras := s.ras.step (rasPush (inst s i)) (rasPop (inst s i)) data }

/-- A clock cycle. -/
def step : State where
  toArch := archNext s i
  regMemEn :=
    if i.dmemValid then false
    else if i.imemValid then (csignals (inst s i)).memEn
    else s.regMemEn
  regDmiss := dmiss s i
  ifInstBuffer := if i.imemValid then i.imemData else s.ifInstBuffer
  regInterruptEdge := if stall s i then s.regInterruptEdge else i.csrInterrupt

end Cycle

end Stage1

end Wuming

end Dadao
