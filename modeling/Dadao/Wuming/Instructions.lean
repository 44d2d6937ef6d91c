import Dadao.Wuming.Scratchpad
import Mathlib.Logic.Function.Basic

set_option relaxedAutoImplicit false
set_option autoImplicit false

/-!
# Instructions and control signals of the Wuming cores

What the one-stage and the five-stage core share: the bit patterns of `instructions.scala`, the
fields and immediates of a word, the names of the control signals, the return address stack of the
register file and the registers a program sees.

## Main definitions

* `Dadao.Wuming.Insn.decode` — the bit pattern a word matches.
* `Dadao.Wuming.Signals` — the columns both decode tables have.
* `Dadao.Wuming.ReturnStack` — `RASR_TOP` and the return address registers.
* `Dadao.Wuming.Arch` — the registers a program sees.
-/

namespace Dadao

namespace Wuming

/-! ### Fields of a word -/

/-- The field `ha`. -/
def ha (inst : BitVec 32) : BitVec 6 := inst.extractLsb' 18 6

/-- The field `hb`. -/
def hb (inst : BitVec 32) : BitVec 6 := inst.extractLsb' 12 6

/-- The field `hc`. -/
def hc (inst : BitVec 32) : BitVec 6 := inst.extractLsb' 6 6

/-- The field `hd`. -/
def hd (inst : BitVec 32) : BitVec 6 := inst.extractLsb' 0 6

/-- The unsigned immediate of 6 bits. -/
def immu6 (inst : BitVec 32) : BitVec 64 := (hd inst).setWidth 64

/-- The unsigned immediate of 12 bits. -/
def immu12 (inst : BitVec 32) : BitVec 64 := (inst.extractLsb' 0 12).setWidth 64

/-- The signed immediate of 12 bits. -/
def imms12 (inst : BitVec 32) : BitVec 64 := (inst.extractLsb' 0 12).signExtend 64

/-- The signed immediate of 18 bits. -/
def imms18 (inst : BitVec 32) : BitVec 64 := (inst.extractLsb' 0 18).signExtend 64

/-- The signed immediate of 24 bits. -/
def imms24 (inst : BitVec 32) : BitVec 64 := (inst.extractLsb' 0 24).signExtend 64

/-- The place of a wyde in an octa. -/
def wydePosition (inst : BitVec 32) : ℕ := (inst.extractLsb' 16 2).toNat * 16

/-- The wyde of a word, at its place. -/
def wyde (inst : BitVec 32) : BitVec 64 :=
  (inst.extractLsb' 0 16).setWidth 64 <<< wydePosition inst

/-- Ones outside the place of the wyde. -/
def wydeMask (inst : BitVec 32) : BitVec 64 :=
  BitVec.allOnes 64 &&& ~~~ (0xffff#64 <<< wydePosition inst)

/-! ### Instructions -/

/-- The bit patterns the decode tables have a row for. -/
inductive Insn
  | swym | fence | rd2rd | rd2rb | rb2rd | rb2rb | rd2rf | rf2rd | rf2rf | and | orr | xor | xnor
  | andi | shluR | shluI | shrsR | shrsI | shruR | shruI | extsR | extsI | extzR | extzI | addRb
  | subRb | addiRd | addiRb | addRd | subRd | muls | mulu | divs | divu | ldbs | ldws | ldts
  | ldoRd | ldbu | ldwu | ldtu | ldmbs | ldmws | ldmts | ldmoRd | ldmbu | ldmwu | ldmtu | stb
  | stw | sttRd | stoRd | stmb | stmw | stmtRd | stmoRd | ldoRb | stoRb | ldmoRb | stmoRb | cmpsI
  | cmpsR | cmpuI | cmpuR | cmp | csnRd | cszRd | cspRd | cseq | csne | breq | brne | brn | brnn
  | brz | brnz | brp | brnp | jumpI | jumpR | callI | callR | ret | setzwRd | setow | orwRd
  | andnwRd | setzwRb | orwRb | andnwRb | setw | adrp | cpco | cprd | cpwr | trap | escape
  deriving DecidableEq, Repr

namespace Insn

/-- The instructions with opcode byte `0x10`, by their minor opcode. -/
def decode10 (inst : BitVec 32) : Option Insn :=
  match (ha inst).toNat with
  | 0x00 => some .swym
  | 0x08 => some .and
  | 0x09 => some .orr
  | 0x0a => some .xor
  | 0x0b => some .xnor
  | 0x11 => some .shluR
  | 0x12 => some .shrsR
  | 0x13 => some .shruR
  | 0x14 => some .extsR
  | 0x15 => some .extzR
  | 0x19 => some .shluI
  | 0x1a => some .shrsI
  | 0x1b => some .shruI
  | 0x1c => some .extsI
  | 0x1d => some .extzI
  | 0x24 => some .cmpsR
  | 0x25 => some .cmpuR
  | 0x28 => some .rd2rd
  | 0x29 => some .rd2rb
  | 0x2a => some .rb2rd
  | 0x2b => some .rb2rb
  | 0x2d => some .cmp
  | 0x2e => some .addRb
  | 0x2f => some .subRb
  | 0x31 => some .rd2rf
  | 0x32 => some .rf2rd
  | 0x33 => some .rf2rf
  | _ => none

/-- The instructions with opcode byte `0x70`, by their minor opcode. -/
def decode70 (inst : BitVec 32) : Option Insn :=
  match (ha inst).toNat with
  | 0x00 => some .fence
  | _ => none

/-- The bit pattern a word matches. -/
def decode (inst : BitVec 32) : Option Insn :=
  match (inst.extractLsb' 24 8).toNat with
  | 0x10 => decode10 inst
  | 0x12 => some .cmpsI
  | 0x13 => some .cmpuI
  | 0x14 => some .orwRd
  | 0x15 => some .andnwRd
  | 0x16 => some .setzwRd
  | 0x17 => some .setow
  | 0x18 => some .andi
  | 0x19 => some .addiRd
  | 0x1a => some .addRd
  | 0x1b => some .subRd
  | 0x1c => some .muls
  | 0x1d => some .mulu
  | 0x1e => some .divs
  | 0x1f => some .divu
  | 0x20 => some .csnRd
  | 0x22 => some .cszRd
  | 0x24 => some .cspRd
  | 0x26 => some .cseq
  | 0x27 => some .csne
  | 0x28 => some .brn
  | 0x29 => some .brnn
  | 0x2a => some .brz
  | 0x2b => some .brnz
  | 0x2c => some .brp
  | 0x2d => some .brnp
  | 0x2e => some .breq
  | 0x2f => some .brne
  | 0x30 => some .ldbs
  | 0x31 => some .ldws
  | 0x32 => some .ldts
  | 0x33 => some .ldoRd
  | 0x34 => some .ldmbs
  | 0x35 => some .ldmws
  | 0x36 => some .ldmts
  | 0x37 => some .ldmoRd
  | 0x38 => some .stb
  | 0x39 => some .stw
  | 0x3a => some .sttRd
  | 0x3b => some .stoRd
  | 0x3c => some .stmb
  | 0x3d => some .stmw
  | 0x3e => some .stmtRd
  | 0x3f => some .stmoRd
  | 0x40 => some .ldbu
  | 0x41 => some .ldwu
  | 0x42 => some .ldtu
  | 0x43 => some .ldoRb
  | 0x44 => some .ldmbu
  | 0x45 => some .ldmwu
  | 0x46 => some .ldmtu
  | 0x47 => some .ldmoRb
  | 0x48 => some .adrp
  | 0x49 => some .addiRb
  | 0x4b => some .stoRb
  | 0x4c => some .orwRb
  | 0x4d => some .andnwRb
  | 0x4e => some .setzwRb
  | 0x4f => some .stmoRb
  | 0x54 => some .setw
  | 0x64 => some .jumpI
  | 0x65 => some .jumpR
  | 0x6c => some .callI
  | 0x6d => some .callR
  | 0x6e => some .ret
  | 0x70 => decode70 inst
  | 0x71 => some .cpco
  | 0x72 => some .cprd
  | 0x73 => some .cpwr
  | 0x76 => some .trap
  | 0x77 => some .escape
  | _ => none

end Insn

/-! ### Control signals -/

/-- The control flow of an instruction, `CF_*`. -/
inductive CtrlFlow
  | x | br12 | br18 | jumpI | jumpR | callI | callR | ret
  deriving DecidableEq, Repr

/-- The condition of a branch or of a conditional assignment, `COND_*`. -/
inductive CondFun
  | x | n | nn | z | nz | p | np | ne | eq
  deriving DecidableEq, Repr

/-- The register group of an instruction, `REG_*` and `RAS_*`. -/
inductive RegGrp
  | rd | rb | rf | ra | mrd | mrb | mrf | mra | rasPush | rasPop | csr
  deriving DecidableEq, Repr

/-- `REG_X`, which has the code of `REG_RD`. -/
abbrev RegGrp.x : RegGrp := .rd

/-- The first operand, `OP1_*`. -/
inductive Op1Sel
  | x | rdha | rdhb | rdhc | rbha | rbhb | rbhc | rfha | pc
  deriving DecidableEq, Repr

/-- The second operand, `OP2_*`; `OP2_RDHB` is known to the five-stage core only. -/
inductive Op2Sel
  | x | rdhb | rdhc | rdhd | rbhc | rbhd | rfhc | immu6 | immu12 | imms12 | imms18 | wyde
  deriving DecidableEq, Repr

/-- The function of the ALU, `ALU_*`. -/
inductive AluFun
  | x | add | sub | cmps | cmpu | muls | mulu | divs | divu | sll | srl | sra | and | or | xor | xnor
  | exts | extz | setow | andnw | setw | cset | copy2 | adrp
  deriving DecidableEq, Repr

/-- What is written back where, `WB_*`. -/
inductive WbSel
  | x | rdha | rdhb | rdhc | rbha | rbhb | rfha | rfhb | hahb | rdmm | rbmm | ra | csr
  deriving DecidableEq, Repr

/-- The command to the CSR file. -/
inductive CsrCmd
  | n | r | w | i
  deriving DecidableEq, Repr

/-- The columns both decode tables have. A function code `M_X` or `M_XRD` is `false`, `M_XWR` is
`true`. -/
structure Signals where
  /-- The word is an instruction. -/
  valInst : Bool
  /-- The control flow. -/
  ctrlFlow : CtrlFlow
  /-- The condition. -/
  condFun : CondFun
  /-- The register group. -/
  regGrp : RegGrp
  /-- The first operand. -/
  op1Sel : Op1Sel
  /-- The second operand. -/
  op2Sel : Op2Sel
  /-- The function of the ALU. -/
  aluFun : AluFun
  /-- What is written back. -/
  wbSel : WbSel
  /-- The memory is accessed. -/
  memEn : Bool
  /-- The access is a store. -/
  memFcn : Bool
  /-- The memory type. -/
  mskSel : MemType
  /-- The command to the CSR file. -/
  csrCmd : CsrCmd
  deriving DecidableEq, Repr

/-- The ways the program counter goes on, `PC_*`. -/
inductive PcSel
  | plus4 | excp | br12 | br18 | iiii | rrii | rasp
  deriving DecidableEq, Repr

/-- The causes of an exception. -/
inductive Cause
  | misalignedFetch | illegalInstruction | misalignedLoad | misalignedStore
  deriving DecidableEq, Repr

/-! ### Registers -/

/-- The registers of a file. -/
abbrev RegFile := BitVec 6 → BitVec 64

/-- Write a register of a file whose register 0 is not written. -/
def RegFile.set (f : RegFile) (a : BitVec 6) (v : BitVec 64) : RegFile :=
  if a ≠ 0 then Function.update f a v else f

/-- The return address stack: `RASR_TOP` and the registers below it. -/
structure ReturnStack where
  /-- `RASR_TOP`. -/
  top : BitVec 6
  /-- The return addresses. -/
  mem : RegFile

namespace ReturnStack

/-- The address on top. -/
def popData (s : ReturnStack) : BitVec 64 := if s.top ≠ 0 then s.mem s.top else 0

/-- A cycle of the stack. The pointer has six bits and wraps around; entry 0 is not written. -/
def step (s : ReturnStack) (push pop : Bool) (data : BitVec 64) : ReturnStack where
  top := if pop then s.top - 1 else if push then s.top + 1 else s.top
  mem := if push then RegFile.set s.mem (s.top + 1) data else s.mem

end ReturnStack

/-- The registers a program sees. -/
structure Arch where
  /-- The program counter. -/
  pc : BitVec 64
  /-- The data registers. -/
  rd : RegFile
  /-- The base registers. -/
  rb : RegFile
  /-- The floating point registers. -/
  rf : RegFile
  /-- The return address stack. -/
  ras : ReturnStack

end Wuming

end Dadao
