import Dadao.Wuming.Instructions

set_option relaxedAutoImplicit false
set_option autoImplicit false

/-!
# The five-stage core

`wuming_5stage`: fetch, decode, execute, memory and write back, with the hazard logic of the control
path, built without bypasses (`USE_FULL_BYPASSING` is false). The memory ports and the outputs of the
CSR file are inputs of a cycle.

The return address stack is moved in decode, registers are read in decode and written in write back,
and exceptions and interrupts are taken in the memory stage and kill everything before it.

## Main definitions

* `Dadao.Wuming.Stage5.csignals` — the decode table.
* `Dadao.Wuming.Stage5.State`, `Dadao.Wuming.Stage5.Inputs` — the registers and inputs of the core.
* `Dadao.Wuming.Stage5.hazard` — the stall of the control path.
* `Dadao.Wuming.Stage5.step` — a clock cycle.
-/

namespace Dadao

namespace Wuming

namespace Stage5

/-! ### The decode table -/

/-- A row of the decode table. -/
structure Control extends Signals where
  /-- The word is a fence. -/
  fencei : Bool
  deriving DecidableEq, Repr

/-- The rows of `csignals`. -/
def row : Insn → Control
  | .swym => ⟨⟨true, .x, .x, .x, .x, .x, .x, .x, false, false, .x, .n⟩, false⟩
  | .fence => ⟨⟨true, .x, .x, .x, .x, .x, .x, .x, false, false, .x, .n⟩, true⟩
  | .rd2rd => ⟨⟨true, .x, .x, .mrd, .x, .rdhc, .copy2, .rdhb, false, false, .x, .n⟩, false⟩
  | .rd2rb => ⟨⟨true, .x, .x, .mrb, .x, .rdhc, .copy2, .rbhb, false, false, .x, .n⟩, false⟩
  | .rb2rd => ⟨⟨true, .x, .x, .mrd, .x, .rbhc, .copy2, .rdhb, false, false, .x, .n⟩, false⟩
  | .rb2rb => ⟨⟨true, .x, .x, .mrb, .x, .rbhc, .copy2, .rbhb, false, false, .x, .n⟩, false⟩
  | .rd2rf => ⟨⟨true, .x, .x, .mrf, .x, .rdhc, .copy2, .rfhb, false, false, .x, .n⟩, false⟩
  | .rf2rd => ⟨⟨true, .x, .x, .mrd, .x, .rfhc, .copy2, .rdhb, false, false, .x, .n⟩, false⟩
  | .rf2rf => ⟨⟨true, .x, .x, .mrf, .x, .rfhc, .copy2, .rfhb, false, false, .x, .n⟩, false⟩
  | .and => ⟨⟨true, .x, .x, .rd, .rdhc, .rdhd, .and, .rdhb, false, false, .x, .n⟩, false⟩
  | .orr => ⟨⟨true, .x, .x, .rd, .rdhc, .rdhd, .or, .rdhb, false, false, .x, .n⟩, false⟩
  | .xor => ⟨⟨true, .x, .x, .rd, .rdhc, .rdhd, .xor, .rdhb, false, false, .x, .n⟩, false⟩
  | .xnor => ⟨⟨true, .x, .x, .rd, .rdhc, .rdhd, .xnor, .rdhb, false, false, .x, .n⟩, false⟩
  | .andi => ⟨⟨true, .x, .x, .rd, .rdhb, .immu12, .and, .rdha, false, false, .x, .n⟩, false⟩
  | .shluR => ⟨⟨true, .x, .x, .rd, .rdhc, .rdhd, .sll, .rdhb, false, false, .x, .n⟩, false⟩
  | .shluI => ⟨⟨true, .x, .x, .rd, .rdhc, .immu6, .sll, .rdhb, false, false, .x, .n⟩, false⟩
  | .shrsR => ⟨⟨true, .x, .x, .rd, .rdhc, .rdhd, .sra, .rdhb, false, false, .x, .n⟩, false⟩
  | .shrsI => ⟨⟨true, .x, .x, .rd, .rdhc, .immu6, .sra, .rdhb, false, false, .x, .n⟩, false⟩
  | .shruR => ⟨⟨true, .x, .x, .rd, .rdhc, .rdhd, .srl, .rdhb, false, false, .x, .n⟩, false⟩
  | .shruI => ⟨⟨true, .x, .x, .rd, .rdhc, .immu6, .srl, .rdhb, false, false, .x, .n⟩, false⟩
  | .extsR => ⟨⟨true, .x, .x, .rd, .rdhc, .rdhd, .exts, .rdhb, false, false, .x, .n⟩, false⟩
  | .extsI => ⟨⟨true, .x, .x, .rd, .rdhc, .immu6, .exts, .rdhb, false, false, .x, .n⟩, false⟩
  | .extzR => ⟨⟨true, .x, .x, .rd, .rdhc, .rdhd, .extz, .rdhb, false, false, .x, .n⟩, false⟩
  | .extzI => ⟨⟨true, .x, .x, .rd, .rdhc, .immu6, .extz, .rdhb, false, false, .x, .n⟩, false⟩
  | .addRb => ⟨⟨true, .x, .x, .rb, .rbhc, .rdhd, .add, .rbhb, false, false, .x, .n⟩, false⟩
  | .subRb => ⟨⟨true, .x, .x, .rb, .rbhc, .rdhd, .sub, .rbhb, false, false, .x, .n⟩, false⟩
  | .addiRd => ⟨⟨true, .x, .x, .rd, .rdhb, .imms12, .add, .rdha, false, false, .x, .n⟩, false⟩
  | .addiRb => ⟨⟨true, .x, .x, .rb, .rbhb, .imms12, .add, .rbha, false, false, .x, .n⟩, false⟩
  | .addRd => ⟨⟨true, .x, .x, .rd, .rdhc, .rdhd, .add, .hahb, false, false, .x, .n⟩, false⟩
  | .subRd => ⟨⟨true, .x, .x, .rd, .rdhc, .rdhd, .sub, .hahb, false, false, .x, .n⟩, false⟩
  | .muls => ⟨⟨true, .x, .x, .rd, .rdhc, .rdhd, .muls, .hahb, false, false, .x, .n⟩, false⟩
  | .mulu => ⟨⟨true, .x, .x, .rd, .rdhc, .rdhd, .mulu, .hahb, false, false, .x, .n⟩, false⟩
  | .divs => ⟨⟨true, .x, .x, .rd, .rdhc, .rdhd, .divs, .hahb, false, false, .x, .n⟩, false⟩
  | .divu => ⟨⟨true, .x, .x, .rd, .rdhc, .rdhd, .divu, .hahb, false, false, .x, .n⟩, false⟩
  | .ldbs => ⟨⟨true, .x, .x, .rd, .rbhb, .imms12, .add, .rdmm, true, false, .b, .n⟩, false⟩
  | .ldws => ⟨⟨true, .x, .x, .rd, .rbhb, .imms12, .add, .rdmm, true, false, .w, .n⟩, false⟩
  | .ldts => ⟨⟨true, .x, .x, .rd, .rbhb, .imms12, .add, .rdmm, true, false, .t, .n⟩, false⟩
  | .ldoRd => ⟨⟨true, .x, .x, .rd, .rbhb, .imms12, .add, .rdmm, true, false, .o, .n⟩, false⟩
  | .ldbu => ⟨⟨true, .x, .x, .rd, .rbhb, .imms12, .add, .rdmm, true, false, .bu, .n⟩, false⟩
  | .ldwu => ⟨⟨true, .x, .x, .rd, .rbhb, .imms12, .add, .rdmm, true, false, .wu, .n⟩, false⟩
  | .ldtu => ⟨⟨true, .x, .x, .rd, .rbhb, .imms12, .add, .rdmm, true, false, .tu, .n⟩, false⟩
  | .ldmbs => ⟨⟨true, .x, .x, .mrd, .rbhb, .rdhc, .add, .rdmm, true, false, .b, .n⟩, false⟩
  | .ldmws => ⟨⟨true, .x, .x, .mrd, .rbhb, .rdhc, .add, .rdmm, true, false, .w, .n⟩, false⟩
  | .ldmts => ⟨⟨true, .x, .x, .mrd, .rbhb, .rdhc, .add, .rdmm, true, false, .t, .n⟩, false⟩
  | .ldmoRd => ⟨⟨true, .x, .x, .mrd, .rbhb, .rdhc, .add, .rdmm, true, false, .o, .n⟩, false⟩
  | .ldmbu => ⟨⟨true, .x, .x, .mrd, .rbhb, .rdhc, .add, .rdmm, true, false, .bu, .n⟩, false⟩
  | .ldmwu => ⟨⟨true, .x, .x, .mrd, .rbhb, .rdhc, .add, .rdmm, true, false, .wu, .n⟩, false⟩
  | .ldmtu => ⟨⟨true, .x, .x, .mrd, .rbhb, .rdhc, .add, .rdmm, true, false, .tu, .n⟩, false⟩
  | .stb => ⟨⟨true, .x, .x, .rd, .rbhb, .imms12, .add, .x, true, true, .b, .n⟩, false⟩
  | .stw => ⟨⟨true, .x, .x, .rd, .rbhb, .imms12, .add, .x, true, true, .w, .n⟩, false⟩
  | .sttRd => ⟨⟨true, .x, .x, .rd, .rbhb, .imms12, .add, .x, true, true, .t, .n⟩, false⟩
  | .stoRd => ⟨⟨true, .x, .x, .rd, .rbhb, .imms12, .add, .x, true, true, .o, .n⟩, false⟩
  | .stmb => ⟨⟨true, .x, .x, .mrd, .rbhb, .rdhc, .add, .x, true, true, .b, .n⟩, false⟩
  | .stmw => ⟨⟨true, .x, .x, .mrd, .rbhb, .rdhc, .add, .x, true, true, .w, .n⟩, false⟩
  | .stmtRd => ⟨⟨true, .x, .x, .mrd, .rbhb, .rdhc, .add, .x, true, true, .t, .n⟩, false⟩
  | .stmoRd => ⟨⟨true, .x, .x, .mrd, .rbhb, .rdhc, .add, .x, true, true, .o, .n⟩, false⟩
  | .ldoRb => ⟨⟨true, .x, .x, .rb, .rbhb, .imms12, .add, .rbmm, true, false, .o, .n⟩, false⟩
  | .stoRb => ⟨⟨true, .x, .x, .rb, .rbhb, .imms12, .add, .x, true, true, .o, .n⟩, false⟩
  | .ldmoRb => ⟨⟨true, .x, .x, .mrb, .rbhb, .rdhc, .add, .rbmm, true, false, .o, .n⟩, false⟩
  | .stmoRb => ⟨⟨true, .x, .x, .mrb, .rbhb, .rdhc, .add, .x, true, true, .o, .n⟩, false⟩
  | .cmpsI => ⟨⟨true, .x, .x, .rd, .rdhb, .imms12, .cmps, .rdha, false, false, .x, .n⟩, false⟩
  | .cmpsR => ⟨⟨true, .x, .x, .rd, .rdhc, .rdhd, .cmps, .rdhb, false, false, .x, .n⟩, false⟩
  | .cmpuI => ⟨⟨true, .x, .x, .rd, .rdhb, .immu12, .cmpu, .rdha, false, false, .x, .n⟩, false⟩
  | .cmpuR => ⟨⟨true, .x, .x, .rd, .rdhc, .rdhd, .cmpu, .rdhb, false, false, .x, .n⟩, false⟩
  | .cmp => ⟨⟨true, .x, .x, .rb, .rbhc, .rbhd, .cmpu, .rdhb, false, false, .x, .n⟩, false⟩
  | .csnRd => ⟨⟨true, .x, .n, .rd, .rdhc, .rdhd, .cset, .rdhb, false, false, .x, .n⟩, false⟩
  | .cszRd => ⟨⟨true, .x, .z, .rd, .rdhc, .rdhd, .cset, .rdhb, false, false, .x, .n⟩, false⟩
  | .cspRd => ⟨⟨true, .x, .p, .rd, .rdhc, .rdhd, .cset, .rdhb, false, false, .x, .n⟩, false⟩
  | .cseq => ⟨⟨true, .x, .ne, .rd, .rdhc, .rdhd, .cset, .rdhc, false, false, .x, .n⟩, false⟩
  | .csne => ⟨⟨true, .x, .eq, .rd, .rdhc, .rdhd, .cset, .rdhc, false, false, .x, .n⟩, false⟩
  | .breq => ⟨⟨true, .br12, .eq, .x, .x, .x, .x, .x, false, false, .x, .n⟩, false⟩
  | .brne => ⟨⟨true, .br12, .ne, .x, .x, .x, .x, .x, false, false, .x, .n⟩, false⟩
  | .brn => ⟨⟨true, .br18, .n, .x, .x, .x, .x, .x, false, false, .x, .n⟩, false⟩
  | .brnn => ⟨⟨true, .br18, .nn, .x, .x, .x, .x, .x, false, false, .x, .n⟩, false⟩
  | .brz => ⟨⟨true, .br18, .z, .x, .x, .x, .x, .x, false, false, .x, .n⟩, false⟩
  | .brnz => ⟨⟨true, .br18, .nz, .x, .x, .x, .x, .x, false, false, .x, .n⟩, false⟩
  | .brp => ⟨⟨true, .br18, .p, .x, .x, .x, .x, .x, false, false, .x, .n⟩, false⟩
  | .brnp => ⟨⟨true, .br18, .np, .x, .x, .x, .x, .x, false, false, .x, .n⟩, false⟩
  | .jumpI => ⟨⟨true, .jumpI, .x, .x, .x, .x, .x, .x, false, false, .x, .n⟩, false⟩
  | .jumpR => ⟨⟨true, .jumpR, .x, .x, .rbha, .rdhb, .add, .x, false, false, .x, .n⟩, false⟩
  | .callI => ⟨⟨true, .callI, .x, .rasPush, .x, .x, .x, .ra, false, false, .x, .n⟩, false⟩
  | .callR => ⟨⟨true, .callR, .x, .rasPush, .rbha, .rdhb, .add, .ra, false, false, .x, .n⟩, false⟩
  | .ret => ⟨⟨true, .ret, .x, .rasPop, .x, .imms18, .copy2, .rdha, false, false, .x, .n⟩, false⟩
  | .setzwRd => ⟨⟨true, .x, .x, .rd, .x, .wyde, .copy2, .rdha, false, false, .x, .n⟩, false⟩
  | .setzwRb => ⟨⟨true, .x, .x, .rb, .x, .wyde, .copy2, .rbha, false, false, .x, .n⟩, false⟩
  | .setow => ⟨⟨true, .x, .x, .rd, .x, .wyde, .setow, .rdha, false, false, .x, .n⟩, false⟩
  | .orwRd => ⟨⟨true, .x, .x, .rd, .rdha, .wyde, .or, .rdha, false, false, .x, .n⟩, false⟩
  | .orwRb => ⟨⟨true, .x, .x, .rb, .rbha, .wyde, .or, .rbha, false, false, .x, .n⟩, false⟩
  | .andnwRd => ⟨⟨true, .x, .x, .rd, .rdha, .wyde, .andnw, .rdha, false, false, .x, .n⟩, false⟩
  | .andnwRb => ⟨⟨true, .x, .x, .rb, .rbha, .wyde, .andnw, .rbha, false, false, .x, .n⟩, false⟩
  | .setw => ⟨⟨true, .x, .x, .rf, .rfha, .wyde, .setw, .rfha, false, false, .x, .n⟩, false⟩
  | .adrp => ⟨⟨true, .x, .x, .x, .pc, .imms18, .adrp, .rbha, false, false, .x, .n⟩, false⟩
  | .cpco => ⟨⟨true, .x, .x, .x, .x, .x, .x, .x, false, false, .x, .n⟩, false⟩
  | .cprd => ⟨⟨true, .x, .x, .csr, .x, .x, .x, .csr, false, false, .x, .r⟩, false⟩
  | .cpwr => ⟨⟨true, .x, .x, .csr, .x, .rdhd, .copy2, .x, false, false, .x, .w⟩, false⟩
  | .trap => ⟨⟨true, .x, .x, .x, .x, .x, .x, .x, false, false, .x, .i⟩, false⟩
  | .escape => ⟨⟨true, .x, .x, .x, .x, .x, .x, .x, false, false, .x, .i⟩, false⟩

/-- `csignals`. -/
def csignals (inst : BitVec 32) : Control :=
  match Insn.decode inst with
  | some insn => row insn
  | none => ⟨⟨false, .x, .x, .x, .x, .x, .x, .x, false, false, .x, .n⟩, false⟩

/-- The word of a bubble. -/
def bubble : BitVec 32 := 0x1005

/-! ### Registers -/

/-- The decode stage. -/
structure Dec where
  /-- The stage holds a word. -/
  valid : Bool
  /-- The word. -/
  inst : BitVec 32
  /-- Its address. -/
  pc : BitVec 64

/-- The execute stage. -/
structure Exe where
  /-- The stage holds an instruction. -/
  valid : Bool
  /-- The word. -/
  inst : BitVec 32
  /-- Its address. -/
  pc : BitVec 64
  /-- The first operand. -/
  op1 : BitVec 64
  /-- The second operand. -/
  op2 : BitVec 64
  /-- The first register of a condition. -/
  rdha : BitVec 64
  /-- The second register of a condition. -/
  rdhb : BitVec 64
  /-- The immediate of 12 bits. -/
  imms12 : BitVec 64
  /-- The immediate of 18 bits. -/
  imms18 : BitVec 64
  /-- The immediate of 24 bits. -/
  imms24 : BitVec 64
  /-- The data of a store. -/
  mwData : BitVec 64
  /-- The field `ha`. -/
  ha : BitVec 6
  /-- The field `hb`. -/
  hb : BitVec 6
  /-- The field `hc`. -/
  hc : BitVec 6
  /-- The field `hd`. -/
  hd : BitVec 6
  /-- The control flow. -/
  cfType : CtrlFlow
  /-- The condition. -/
  cdType : CondFun
  /-- The function of the ALU. -/
  aluFun : AluFun
  /-- What is written back. -/
  wbSel : WbSel
  /-- The memory is accessed. -/
  memVal : Bool
  /-- The access is a store. -/
  memFcn : Bool
  /-- The memory type. -/
  memTyp : MemType
  /-- The command to the CSR file. -/
  csrCmd : CsrCmd
  /-- The mask of a wyde. -/
  wydeMask : BitVec 64

/-- The memory stage. -/
structure Mem where
  /-- The stage holds an instruction. -/
  valid : Bool
  /-- The word. -/
  inst : BitVec 32
  /-- Its address. -/
  pc : BitVec 64
  /-- The data of a store. -/
  mwData : BitVec 64
  /-- The result of the ALU. -/
  aluOut : BitVec 64
  /-- The second result of the ALU. -/
  aluOut2 : BitVec 64
  /-- The field `ha`. -/
  ha : BitVec 6
  /-- The field `hb`. -/
  hb : BitVec 6
  /-- The field `hc`. -/
  hc : BitVec 6
  /-- The field `hd`. -/
  hd : BitVec 6
  /-- What is written back. -/
  wbSel : WbSel
  /-- The memory is accessed. -/
  memVal : Bool
  /-- The access is a store. -/
  memFcn : Bool
  /-- The memory type. -/
  memTyp : MemType
  /-- The command to the CSR file. -/
  csrCmd : CsrCmd

/-- The write back stage. -/
structure Wb where
  /-- The stage holds an instruction. -/
  valid : Bool
  /-- The field `ha`. -/
  ha : BitVec 6
  /-- The field `hb`. -/
  hb : BitVec 6
  /-- The field `hc`. -/
  hc : BitVec 6
  /-- The field `hd`. -/
  hd : BitVec 6
  /-- The data to write. -/
  wbData : BitVec 64
  /-- The second data to write. -/
  wbData2 : BitVec 64
  /-- What is written back. -/
  wbSel : WbSel

/-- The register files as the hazard logic names them, `RF*`; `RFX` and `RFX2` are no file, of a
source and of a destination. -/
inductive Rf
  | x | a | d | b | f | x2
  deriving DecidableEq, Repr

/-- The destinations of an instruction as the hazard logic keeps them. -/
structure Dest where
  /-- The register of the first destination. -/
  wbAddr : BitVec 6
  /-- The file of the first destination. -/
  wbRf : Rf
  /-- The register of the second destination. -/
  wb2Addr : BitVec 6
  /-- The file of the second destination. -/
  wb2Rf : Rf
  deriving DecidableEq, Repr

/-- The registers of the core. -/
structure State where
  /-- The address to fetch from. -/
  ifPc : BitVec 64
  /-- The instruction buffer. -/
  ifBuffer : Option (BitVec 32)
  /-- The buffer of the instruction's address. -/
  ifPcBuffer : Option (BitVec 64)
  /-- The word on its way has been killed. -/
  ifKilled : Bool
  /-- The decode stage. -/
  dec : Dec
  /-- The execute stage. -/
  exe : Exe
  /-- The memory stage. -/
  mem : Mem
  /-- The write back stage. -/
  wb : Wb
  /-- The data registers. -/
  rd : RegFile
  /-- The base registers. -/
  rb : RegFile
  /-- The floating point registers. -/
  rf : RegFile
  /-- The return address stack. -/
  ras : ReturnStack
  /-- The target of a return. -/
  exeRetTarget : BitVec 64
  /-- The destinations in execute. -/
  exeDest : Dest
  /-- The destinations in the memory stage. -/
  memDest : Dest
  /-- The destinations in write back. -/
  wbDest : Dest
  /-- The instruction in execute accesses a CSR. -/
  exeIsCsr : Bool
  /-- The word in execute is illegal. -/
  exeIllegal : Bool
  /-- `RegNext(cs_fencei)`. -/
  regFencei : Bool
  /-- `RegNext` of the exception found in execute. -/
  regExcept : Bool
  /-- `RegNext(exe_reg_illegal)`. -/
  regIllegal : Bool
  /-- `RegNext(exe_reg_inst)`. -/
  regExeInst : BitVec 32
  /-- The interrupt line of the last cycle. -/
  regInterruptHandled : Bool

/-- The inputs of a cycle: the responses of the two memory ports and the outputs of the CSR file. -/
structure Inputs where
  /-- A word arrives. -/
  imemValid : Bool
  /-- The fetch port. -/
  imemData : BitVec 32
  /-- The data access is answered. -/
  dmemValid : Bool
  /-- The data port. -/
  dmemData : BitVec 64
  /-- The CSR file has an interrupt pending. -/
  csrInterrupt : Bool
  /-- The CSR file returns from a trap. -/
  csrEret : Bool
  /-- The address the CSR file goes on at. -/
  csrEvec : BitVec 64
  /-- The value of the CSR that is read. -/
  csrRdata : BitVec 64

/-! ### The register file -/

/-- A register of a file whose register 0 is zero. -/
def readReg (f : RegFile) (a : BitVec 6) : BitVec 64 := if a ≠ 0 then f a else 0

/-- The register a write back goes to. -/
def wbAddr (sel : WbSel) (ha hb hc hd : BitVec 6) : BitVec 6 :=
  match sel with
  | .rdhb | .rbhb | .rfhb | .hahb => hb
  | .rdhc => hc
  | .csr => hd
  | _ => ha

/-- The data registers are written. -/
def wrdEn : WbSel → Bool
  | .rdha | .rdhb | .rdhc | .hahb | .rdmm | .csr => true
  | _ => false

/-- The base registers are written. -/
def wrbEn : WbSel → Bool
  | .rbha | .rbhb | .rbmm => true
  | _ => false

/-- The floating point registers are written. -/
def wrfEn : WbSel → Bool
  | .rfha | .rfhb => true
  | _ => false

/-- The data registers after a write back. -/
def rdNext (rd : RegFile) (sel : WbSel) (ha hb hc hd : BitVec 6) (data data2 : BitVec 64) : RegFile :=
  let first := if wrdEn sel then RegFile.set rd (wbAddr sel ha hb hc hd) data else rd
  if sel = .hahb then RegFile.set first ha data2 else first

/-- The base registers after a write back. -/
def rbNext (rb : RegFile) (sel : WbSel) (ha hb hc hd : BitVec 6) (data : BitVec 64) : RegFile :=
  if wrbEn sel then RegFile.set rb (wbAddr sel ha hb hc hd) data else rb

/-- The floating point registers after a write back. -/
def rfNext (rf : RegFile) (sel : WbSel) (ha hb hc hd : BitVec 6) (data : BitVec 64) : RegFile :=
  if wrfEn sel then Function.update rf (wbAddr sel ha hb hc hd) data else rf

section Stages

variable (s : State) (i : Inputs)

/-! ### Decode -/

/-- The control signals in decode. -/
def cs : Control := csignals s.dec.inst

/-- The first operand. -/
def decOp1 : BitVec 64 :=
  match (cs s).op1Sel with
  | .rdha => readReg s.rd (ha s.dec.inst)
  | .rdhb => readReg s.rd (hb s.dec.inst)
  | .rdhc => readReg s.rd (hc s.dec.inst)
  | .rbha => readReg s.rb (ha s.dec.inst)
  | .rbhb => readReg s.rb (hb s.dec.inst)
  | .rbhc => readReg s.rb (hc s.dec.inst)
  | .rfha => s.rf (ha s.dec.inst)
  | .pc => s.dec.pc
  | .x => 0

/-- The second operand. -/
def decOp2 : BitVec 64 :=
  match (cs s).op2Sel with
  | .rdhb => readReg s.rd (hb s.dec.inst)
  | .rdhc => readReg s.rd (hc s.dec.inst)
  | .rdhd => readReg s.rd (hd s.dec.inst)
  | .rbhc => readReg s.rb (hc s.dec.inst)
  | .rbhd => readReg s.rb (hd s.dec.inst)
  | .rfhc => s.rf (hc s.dec.inst)
  | .immu6 => immu6 s.dec.inst
  | .immu12 => immu12 s.dec.inst
  | .imms12 => imms12 s.dec.inst
  | .imms18 => imms18 s.dec.inst
  | .wyde => wyde s.dec.inst
  | .x => 0

/-- The data of a store. -/
def decMwData : BitVec 64 :=
  match (cs s).regGrp with
  | .mrd | .rd => readReg s.rd (ha s.dec.inst)
  | .mrb | .rb => readReg s.rb (ha s.dec.inst)
  | .mrf | .rf => s.rf (ha s.dec.inst)
  | _ => 0

/-- The destinations of the word in decode. -/
def decDest : Dest where
  wbAddr := wbAddr (cs s).wbSel (ha s.dec.inst) (hb s.dec.inst) (hc s.dec.inst) (hd s.dec.inst)
  wbRf := match (cs s).wbSel with
    | .rdha | .rdhb | .rdhc | .rdmm | .hahb | .csr => .d
    | .rbha | .rbhb | .rbmm => .b
    | .rfha | .rfhb => .f
    | .ra => .a
    | .x => .x2
  wb2Addr := ha s.dec.inst
  wb2Rf := if (cs s).wbSel = .hahb then .d else .x2

/-- The register of the first operand. -/
def decOp1Addr : BitVec 6 :=
  match (cs s).op1Sel with
  | .rdhb | .rbhb => hb s.dec.inst
  | .rdhc | .rbhc => hc s.dec.inst
  | _ => ha s.dec.inst

/-- The file of the first operand. -/
def decOp1Rf : Rf :=
  match (cs s).op1Sel with
  | .rdha | .rdhb | .rdhc => .d
  | .rbha | .rbhb | .rbhc => .b
  | .rfha => .f
  | .pc | .x => .x

/-- The register of the second operand. -/
def decOp2Addr : BitVec 6 :=
  match (cs s).op2Sel with
  | .rdhb => hb s.dec.inst
  | .rdhc | .rbhc | .rfhc => hc s.dec.inst
  | .rdhd | .rbhd => hd s.dec.inst
  | _ => ha s.dec.inst

/-- The file of the second operand. -/
def decOp2Rf : Rf :=
  match (cs s).op2Sel with
  | .rdhb | .rdhc | .rdhd => .d
  | .rbhc | .rbhd => .b
  | .rfhc => .f
  | _ => .x

/-- The file of the first register of a condition. -/
def decCond1Rf : Rf :=
  match (cs s).condFun with
  | .x => .x
  | _ => .d

/-- The file of the second register of a condition. -/
def decCond2Rf : Rf :=
  match (cs s).condFun with
  | .eq | .ne => .d
  | _ => .x

/-- The file of the data of a store. -/
def decStRf : Rf :=
  if (cs s).memFcn then
    match (cs s).regGrp with
    | .rd | .mrd => .d
    | .rb | .mrb => .b
    | .rf | .mrf => .f
    | _ => .x
  else .x

/-- The first destination of a stage is a source. -/
def Dest.hits1 (d : Dest) (addr : BitVec 6) (file : Rf) : Bool := d.wbAddr == addr && d.wbRf == file

/-- The second destination of a stage is a source. -/
def Dest.hits2 (d : Dest) (addr : BitVec 6) (file : Rf) : Bool := d.wb2Addr == addr && d.wb2Rf == file

/-- `stall` of the control path: a source is the first destination of a stage, or an operand the
second one, or a CSR is accessed in execute. -/
def hazard : Bool :=
  let stages := [s.exeDest, s.memDest, s.wbDest]
  stages.any (fun d => d.hits1 (decOp1Addr s) (decOp1Rf s)) ||
    stages.any (fun d => d.hits1 (decOp2Addr s) (decOp2Rf s)) ||
    stages.any (fun d => d.hits2 (decOp1Addr s) (decOp1Rf s)) ||
    stages.any (fun d => d.hits2 (decOp2Addr s) (decOp2Rf s)) ||
    stages.any (fun d => d.hits1 (ha s.dec.inst) (decCond1Rf s)) ||
    stages.any (fun d => d.hits1 (hb s.dec.inst) (decCond2Rf s)) ||
    stages.any (fun d => d.hits1 (ha s.dec.inst) (decStRf s)) ||
    s.exeIsCsr

/-! ### Execute -/

/-- `exe_cond_eq`. -/
def exeCondEq : Bool := s.exe.rdha == s.exe.rdhb

/-- `exe_cond_z`. -/
def exeCondZ : Bool := s.exe.rdha == 0

/-- `exe_cond_p`. -/
def exeCondP : Bool := (0 : BitVec 64).slt s.exe.rdha

/-- `exe_cond_n`. -/
def exeCondN : Bool := s.exe.rdha.slt 0

/-- The condition of a conditional assignment. -/
def condYes : Bool :=
  match s.exe.cdType with
  | .n => exeCondN s
  | .z => exeCondZ s
  | .p => exeCondP s
  | .eq => exeCondEq s
  | .ne => !exeCondEq s
  | _ => false

/-- The result of the ALU. -/
def exeAluOut : BitVec 64 :=
  let op1 := s.exe.op1
  let op2 := s.exe.op2
  let shamt := op2.toNat % 64
  match s.exe.aluFun with
  | .add => op1 + op2
  | .sub => op1 - op2
  | .cmps => if op1 = op2 then 0 else if op1.slt op2 then BitVec.allOnes 64 else 1
  | .cmpu => if op1 = op2 then 0 else if op1.ult op2 then BitVec.allOnes 64 else 1
  | .muls => (op1.signExtend 128 * op2.signExtend 128).setWidth 64
  | .mulu => (op1.setWidth 128 * op2.setWidth 128).setWidth 64
  | .divs => op1.sdiv op2
  | .divu => op1.udiv op2
  | .sll => op1 <<< shamt
  | .srl => op1 >>> shamt
  | .sra => op1.sshiftRight shamt
  | .and => op1 &&& op2
  | .or => op1 ||| op2
  | .xor => op1 ^^^ op2
  | .xnor => op1 ^^^ ~~~ op2
  | .exts => (op1 <<< shamt).sshiftRight shamt
  | .extz => (op1 <<< shamt) >>> shamt
  | .setow => op2 ||| s.exe.wydeMask
  | .andnw => op1 &&& ~~~ op2
  | .setw => (op1 &&& s.exe.wydeMask) ||| op2
  | .cset => if condYes s then op1 else op2
  | .copy2 => op2
  | .adrp => ((op1 >>> 12) + op2) <<< 12
  | .x => 0

/-- The second result of the ALU. -/
def exeAluOut2 : BitVec 64 :=
  let op1 := s.exe.op1
  let op2 := s.exe.op2
  match s.exe.aluFun with
  | .add => ((op1.signExtend 128 + op2.signExtend 128) >>> 64).setWidth 64
  | .sub => ((op1.signExtend 128 - op2.signExtend 128) >>> 64).setWidth 64
  | .muls => ((op1.signExtend 128 * op2.signExtend 128) >>> 64).setWidth 64
  | .mulu => ((op1.setWidth 128 * op2.setWidth 128) >>> 64).setWidth 64
  | .divs => op1.srem op2
  | .divu => op1.umod op2
  | _ => 0

/-! ### Memory stage and kills -/

/-- `mem_data_misaligned`. -/
def memDataMisaligned : Bool :=
  (~~~ (7#3 <<< s.mem.memTyp.getTLSize.toNat) &&& s.mem.aluOut.extractLsb' 0 3) != 0 && s.mem.memVal

/-- `mem_exception`; the misalignment of a fetch is not connected. -/
def memException : Bool := s.regExcept || memDataMisaligned s

/-- `mem_exception_cause`. -/
def memExceptionCause : Cause :=
  if s.regIllegal then .illegalInstruction
  else if s.mem.memFcn then .misalignedStore
  else .misalignedLoad

/-- `interrupt_edge`. -/
def interruptEdge : Bool := i.csrInterrupt && !s.regInterruptHandled

/-- `pipeline_kill`. -/
def pipelineKill : Bool := i.csrEret || memException s || interruptEdge s i

/-- `full_stall`. -/
def fullStall : Bool := !((s.mem.memVal && i.dmemValid) || !s.mem.memVal)

/-- The request on the data port. -/
def dmemReq : MemReq := ⟨s.mem.aluOut, s.mem.mwData, s.mem.memFcn, s.mem.memTyp⟩

/-- `dmem.req.valid`. -/
def dmemReqValid : Bool := s.mem.memVal && !memDataMisaligned s

/-- `ctrl_exe_pc_sel`. -/
def exePcSel : PcSel :=
  if pipelineKill s i then .excp
  else match s.exe.cfType with
    | .x => .plus4
    | .br12 =>
      match s.exe.cdType with
      | .eq => if exeCondEq s then .br12 else .plus4
      | .ne => if !exeCondEq s then .br12 else .plus4
      | _ => .plus4
    | .br18 =>
      match s.exe.cdType with
      | .z => if exeCondZ s then .br18 else .plus4
      | .nz => if !exeCondZ s then .br18 else .plus4
      | .p => if exeCondP s then .br18 else .plus4
      | .np => if !exeCondP s then .br18 else .plus4
      | .n => if exeCondN s then .br18 else .plus4
      | .nn => if !exeCondN s then .br18 else .plus4
      | _ => .plus4
    | .jumpI | .callI => .iiii
    | .jumpR | .callR => .rrii
    | .ret => .rasp

/-- `deckill`. -/
def decKill : Bool := exePcSel s i != .plus4

/-- `ifkill`. -/
def ifKill : Bool := exePcSel s i != .plus4 || (cs s).fencei || s.regFencei

/-- The word in decode goes on to execute. -/
def advances : Bool := !hazard s && !fullStall s i

/-- The word in decode goes on to execute and is not killed. -/
def issues : Bool := advances s i && !decKill s i && !pipelineKill s i

/-- `ras_push`. -/
def rasPush : Bool :=
  (cs s).regGrp == .rasPush && !(hazard s || fullStall s i || pipelineKill s i || decKill s i)

/-- `ras_pop`. -/
def rasPop : Bool :=
  (cs s).regGrp == .rasPop && !(hazard s || fullStall s i || pipelineKill s i || decKill s i)

/-! ### Fetch -/

/-- The next address to fetch from. -/
def ifPcNext : BitVec 64 :=
  if ((cs s).fencei || s.regFencei) && exePcSel s i == .plus4 && !hazard s && !fullStall s i &&
      !pipelineKill s i then s.ifPc
  else match exePcSel s i with
    | .plus4 => s.ifPc + 4
    | .br12 => s.exe.pc + s.exe.imms12 <<< 2
    | .br18 => s.exe.pc + s.exe.imms18 <<< 2
    | .iiii => s.exe.pc + s.exe.imms24 <<< 2
    | .rrii => exeAluOut s + s.exe.imms12 <<< 2
    | .rasp => s.exeRetTarget
    | .excp => i.csrEvec

/-- `imem.req.valid`: the buffer takes a word. -/
def imemReqValid : Bool := s.ifBuffer.isNone

/-- A word arrives in the buffer. -/
def ifInFire : Bool := i.imemValid && s.ifBuffer.isNone

/-- A word leaves the buffer, which lets a word through when it is empty. -/
def ifOutFire : Bool := (s.ifBuffer.isSome || i.imemValid) && advances s i

/-- The output of the instruction buffer. -/
def ifOutBits : BitVec 32 := s.ifBuffer.getD i.imemData

/-- The output of the address buffer. -/
def ifPcOutBits : BitVec 64 := s.ifPcBuffer.getD s.ifPc

/-- A buffer of one entry that lets an entry through when it is empty. -/
def queueNext {α : Type} (q : Option α) (enqValid : Bool) (enq : α) (deqReady : Bool) : Option α :=
  match q with
  | some a => if deqReady then none else some a
  | none => if enqValid && !deqReady then some enq else none

/-- The decode stage after the cycle. -/
def decNext : Dec :=
  if pipelineKill s i then { s.dec with valid := false, inst := bubble }
  else if advances s i then
    if ifKill s i || s.ifKilled then ⟨false, bubble, ifPcOutBits s⟩
    else if s.ifBuffer.isSome || i.imemValid then ⟨true, ifOutBits s i, ifPcOutBits s⟩
    else ⟨false, bubble, ifPcOutBits s⟩
  else if ifKill s i || s.ifKilled then { s.dec with valid := false, inst := bubble }
  else s.dec

/-- An empty execute stage: the registers that are cleared. -/
def Exe.bubble (e : Exe) : Exe :=
  { e with
    valid := false
    inst := Stage5.bubble
    memVal := false
    memFcn := false
    csrCmd := .n
    cfType := .x
    cdType := .x
    wbSel := .x }

/-- The word in decode as it enters execute. -/
def decoded : Exe where
  valid := s.dec.valid
  inst := s.dec.inst
  pc := s.dec.pc
  op1 := decOp1 s
  op2 := decOp2 s
  rdha := readReg s.rd (ha s.dec.inst)
  rdhb := readReg s.rd (hb s.dec.inst)
  imms12 := imms12 s.dec.inst
  imms18 := imms18 s.dec.inst
  imms24 := imms24 s.dec.inst
  mwData := decMwData s
  ha := ha s.dec.inst
  hb := hb s.dec.inst
  hc := hc s.dec.inst
  hd := hd s.dec.inst
  cfType := (cs s).ctrlFlow
  cdType := (cs s).condFun
  aluFun := (cs s).aluFun
  wbSel := (cs s).wbSel
  memVal := (cs s).memEn
  memFcn := (cs s).memFcn
  memTyp := (cs s).mskSel
  csrCmd := (cs s).csrCmd
  wydeMask := wydeMask s.dec.inst

/-- The execute stage after the cycle. -/
def exeNext : Exe :=
  if (hazard s && !fullStall s i) || pipelineKill s i then s.exe.bubble
  else if advances s i then
    if decKill s i then { (decoded s).bubble with memTyp := s.exe.memTyp } else decoded s
  else s.exe

/-- The memory stage after the cycle. -/
def memNext : Mem :=
  if pipelineKill s i then
    { s.mem with valid := false, inst := bubble, memVal := false, csrCmd := .n, wbSel := .x }
  else if !fullStall s i then
    { valid := s.exe.valid
      inst := s.exe.inst
      pc := s.exe.pc
      mwData := s.exe.mwData
      aluOut := if s.exe.wbSel = .ra then s.exe.pc + 4 else exeAluOut s
      aluOut2 := exeAluOut2 s
      ha := s.exe.ha
      hb := s.exe.hb
      hc := s.exe.hc
      hd := s.exe.hd
      wbSel := s.exe.wbSel
      memVal := s.exe.memVal
      memFcn := s.exe.memFcn
      memTyp := s.exe.memTyp
      csrCmd := s.exe.csrCmd }
  else s.mem

/-- The write back stage after the cycle. The data is taken every cycle; what is written back is not
masked by the valid bit. -/
def wbNext : Wb :=
  let data := match s.mem.wbSel with
    | .rdmm | .rbmm => i.dmemData
    | .csr => i.csrRdata
    | _ => s.mem.aluOut
  let data2 := if s.mem.wbSel = .hahb then s.mem.aluOut2 else 0
  if !fullStall s i then
    { valid := s.mem.valid && !memException s && !interruptEdge s i
      ha := s.mem.ha
      hb := s.mem.hb
      hc := s.mem.hc
      hd := s.mem.hd
      wbData := data
      wbData2 := data2
      wbSel := s.mem.wbSel }
  else { s.wb with valid := false, wbSel := .x, wbData := data, wbData2 := data2 }

/-- No destination. -/
def Dest.none : Dest := ⟨0, .x2, 0, .x2⟩

/-- A clock cycle. -/
def step : State where
  ifPc := if (ifInFire s i && !s.ifKilled) || ifKill s i || pipelineKill s i then ifPcNext s i else s.ifPc
  ifBuffer := queueNext s.ifBuffer i.imemValid i.imemData (advances s i)
  ifPcBuffer := queueNext s.ifPcBuffer i.imemValid s.ifPc (advances s i)
  ifKilled :=
    if s.ifKilled && ifOutFire s i then false
    else if (pipelineKill s i || ifKill s i) && !ifOutFire s i then true
    else s.ifKilled
  dec := decNext s i
  exe := exeNext s i
  mem := memNext s i
  wb := wbNext s i
  rd := rdNext s.rd s.wb.wbSel s.wb.ha s.wb.hb s.wb.hc s.wb.hd s.wb.wbData s.wb.wbData2
  rb := rbNext s.rb s.wb.wbSel s.wb.ha s.wb.hb s.wb.hc s.wb.hd s.wb.wbData
  rf := rfNext s.rf s.wb.wbSel s.wb.ha s.wb.hb s.wb.hc s.wb.hd s.wb.wbData
  ras := s.ras.step (rasPush s i) (rasPop s i) (s.dec.pc + 4)
  exeRetTarget := s.ras.popData
  exeDest :=
    if advances s i then if decKill s i then Dest.none else decDest s
    else if hazard s && !fullStall s i then Dest.none
    else s.exeDest
  memDest := if !fullStall s i then s.exeDest else s.memDest
  wbDest := if !fullStall s i then s.memDest else s.wbDest
  exeIsCsr :=
    if advances s i then
      if decKill s i then false else (cs s).csrCmd != .n && (cs s).csrCmd != .i
    else if hazard s && !fullStall s i then false
    else s.exeIsCsr
  exeIllegal :=
    if i.csrEret then false
    else if advances s i then if decKill s i then false else !(cs s).valInst && s.dec.valid
    else if hazard s && !fullStall s i then false
    else s.exeIllegal
  regFencei := (cs s).fencei
  regExcept := s.exeIllegal && !i.csrEret
  regIllegal := s.exeIllegal
  regExeInst := s.exe.inst
  regInterruptHandled := i.csrInterrupt

end Stages

end Stage5

end Wuming

end Dadao
