import Dadao.Lib.Fields

set_option relaxedAutoImplicit false
set_option autoImplicit false

/-!
# The instruction records of the LLVM back end

A model of `DadaoInstrFormats.td` and of the records of `DadaoInstrInfo.td`: for every instruction its
mnemonic, its word with fixed bits and fields, its operands in the order of an `MCInst`, and the order in
which they are written. A format is listed with its lowest bits first.

## Main definitions

* `Dadao.Llvm.instORRR`, `Dadao.Llvm.instRRII`, … — the instruction formats.
* `Dadao.Llvm.Opcode.record` — the record of an instruction.
-/

namespace Dadao.Llvm

open Fields

/-! ## Operands -/

/-- The names of the operands and fields of the records. -/
inductive FieldName where
  | rxHa | rxHaWb | rxHb | ryHb | ryHc | rzHd | rdHa | rdHb | rdHc | rdHd | imm6 | imm12 | imm16 | imm18
  | imm24 | src | dst | wPos | addr | amt1 | amt2
  deriving DecidableEq, Repr

/-- The register classes of the operands. -/
inductive RegClass where
  | gprd | gprb
  deriving DecidableEq, Repr

/-- The operand classes of the immediates. -/
inductive ImmClass where
  | i64h1 | imm12 | i64lo12and | i64lo12z | i64lo12s | i64lo18z | i64w (wyde : ℕ) | i64imm
  deriving DecidableEq, Repr

/-- The classes of the operands. -/
inductive OperandClass where
  | reg (c : RegClass)
  | imm (c : ImmClass)
  | brTarget
  | callTarget
  | memRRII
  | memRRRI
  | wposPred (wyde : ℕ)
  | bareSymbol
  deriving DecidableEq, Repr

/-- The number of operands of an `MCInst` an operand stands for (`MIOperandInfo`). -/
def OperandClass.numOperands : OperandClass → ℕ
  | .memRRII => 2
  | .memRRRI => 3
  | _ => 1

/-- An operand of a record, `GPRD:$RxHb`. -/
structure Operand where
  name : FieldName
  cls : OperandClass
  deriving DecidableEq, Repr

/-- An instruction record. -/
structure Record where
  mnemonic : String
  word : Format FieldName
  outs : List Operand
  ins : List Operand
  /-- The operands in the order of the assembler string. -/
  written : List FieldName
  /-- Two operands that have to be the same register, the first of them without a field. -/
  tied : Option (FieldName × FieldName)
  isPseudo : Bool
  deriving DecidableEq, Repr

/-- The operands of an `MCInst`, in order. -/
def Record.operands (r : Record) : List Operand := r.outs ++ r.ins

/-! ## Formats -/

/-- `Inst_Dadao`: the five parts of a word. -/
def instDadao (majorOpcode hexA hexB hexC hexD : Format FieldName) : Format FieldName :=
  hexD ++ hexC ++ hexB ++ hexA ++ majorOpcode

def instORRR (majorop minorop : ℕ) : Format FieldName :=
  instDadao (constBits 8 majorop) (constBits 6 minorop) (varBits .rxHb 0 6) (varBits .ryHc 0 6)
    (varBits .rzHd 0 6)

/-- `Inst_ORRI`; some records fix the immediate. -/
def instORRI (majorop minorop : ℕ) (imm6 : Option ℕ) : Format FieldName :=
  instDadao (constBits 8 majorop) (constBits 6 minorop) (varBits .rxHb 0 6) (varBits .ryHc 0 6)
    (match imm6 with
      | some v => constBits 6 v
      | none => varBits .imm6 0 6)

def instOIII (majorop minorop : ℕ) : Format FieldName :=
  instDadao (constBits 8 majorop) (constBits 6 minorop) (varBits .imm18 12 6) (varBits .imm18 6 6)
    (varBits .imm18 0 6)

def instRRRR (majorop : ℕ) : Format FieldName :=
  instDadao (constBits 8 majorop) (varBits .rdHa 0 6) (varBits .rdHb 0 6) (varBits .rdHc 0 6)
    (varBits .rdHd 0 6)

/-- `Inst_RRRI` with the three fields of a memory operand. The records fix the immediate to zero. -/
def instRRRI (majorop : ℕ) (mem : FieldName) : Format FieldName :=
  instDadao (constBits 8 majorop) (varBits .rxHa 0 6) (varBits mem 12 6) (varBits mem 6 6) (constBits 6 0)

def instRRII (majorop : ℕ) : Format FieldName :=
  instDadao (constBits 8 majorop) (varBits .rxHa 0 6) (varBits .ryHb 0 6) (varBits .imm12 6 6)
    (varBits .imm12 0 6)

/-- `Inst_RRII` with the two fields of a memory operand. -/
def instRRIIMem (majorop : ℕ) (mem : FieldName) : Format FieldName :=
  instDadao (constBits 8 majorop) (varBits .rxHa 0 6) (varBits mem 12 6) (varBits mem 6 6) (varBits mem 0 6)

def instRIII (majorop : ℕ) : Format FieldName :=
  instDadao (constBits 8 majorop) (varBits .rxHa 0 6) (varBits .imm18 12 6) (varBits .imm18 6 6)
    (varBits .imm18 0 6)

def instRWII (majorop wpos : ℕ) : Format FieldName :=
  instDadao (constBits 8 majorop) (varBits .rxHa 0 6) (varBits .imm16 12 4 ++ constBits 2 wpos)
    (varBits .imm16 6 6) (varBits .imm16 0 6)

def instIIII (majorop : ℕ) : Format FieldName :=
  instDadao (constBits 8 majorop) (varBits .imm24 18 6) (varBits .imm24 12 6) (varBits .imm24 6 6)
    (varBits .imm24 0 6)

/-! ## Operand lists -/

def rd (name : FieldName) : Operand := ⟨name, .reg .gprd⟩

def rb (name : FieldName) : Operand := ⟨name, .reg .gprb⟩

def gpr (c : RegClass) (name : FieldName) : Operand := ⟨name, .reg c⟩

def imm (c : ImmClass) (name : FieldName) : Operand := ⟨name, .imm c⟩

/-- A record without tied operands. -/
def record (mnemonic : String) (word : Format FieldName) (outs ins : List Operand)
    (written : List FieldName) : Record :=
  { mnemonic, word, outs, ins, written, tied := none, isPseudo := false }

/-- A pseudo instruction. -/
def pseudo (mnemonic : String) (outs ins : List Operand) (written : List FieldName) : Record :=
  { mnemonic, word := [], outs, ins, written, tied := none, isPseudo := true }

/-- `ALU_ORRR`, with the classes of `ALU_RB_ORRR` and `COMPARE_ORRR`. -/
def aluORRR (minorop : ℕ) (mnemonic : String) (x y z : RegClass) : Record :=
  record mnemonic (instORRR 0b00010000 minorop) [gpr x .rxHb] [gpr y .ryHc, gpr z .rzHd] [.rxHb, .ryHc, .rzHd]

def r2rORRI (minorop : ℕ) (mnemonic : String) (x y : RegClass) : Record :=
  record mnemonic (instORRI 0b00010000 minorop (some 1)) [gpr x .rxHb] [gpr y .ryHc] [.rxHb, .ryHc]

def pseudoSETRX (mnemonic : String) (x : RegClass) : Record :=
  pseudo mnemonic [gpr x .rxHb] [⟨.addr, .bareSymbol⟩] [.rxHb, .addr]

def shiftORRI (minorop : ℕ) (mnemonic : String) : Record :=
  record mnemonic (instORRI 0b00010000 minorop none) [rd .rxHb] [rd .ryHc, imm .i64h1 .imm6]
    [.rxHb, .ryHc, .imm6]

/-- `ALU_RRRR`, and the multiplications and divisions. -/
def aluRRRR (majorop : ℕ) (mnemonic : String) : Record :=
  record mnemonic (instRRRR majorop) [rd .rdHa, rd .rdHb] [rd .rdHc, rd .rdHd] [.rdHa, .rdHb, .rdHc, .rdHd]

def aluRRII (majorop : ℕ) (mnemonic : String) (x y : RegClass) (c : ImmClass) : Record :=
  record mnemonic (instRRII majorop) [gpr x .rxHa] [gpr y .ryHb, imm c .imm12] [.rxHa, .ryHb, .imm12]

def compareRRII (majorop : ℕ) (mnemonic : String) (c : ImmClass) : Record :=
  record mnemonic (instRRII majorop) [] [rd .rxHa, rd .ryHb, imm c .imm12] [.rxHa, .ryHb, .imm12]

def condsetRRRR (majorop : ℕ) (mnemonic : String) : Record :=
  record mnemonic (instRRRR majorop) [rd .rdHb] [rd .rdHa, rd .rdHc, rd .rdHd] [.rdHa, .rdHb, .rdHc, .rdHd]

/-- `ORW_RWII` and `ANDNW_RWII`, which write the register they read. -/
def updateRWII (majorop wpos : ℕ) (mnemonic : String) (x : RegClass) : Record :=
  { mnemonic, word := instRWII majorop wpos, outs := [gpr x .rxHaWb],
    ins := [gpr x .rxHa, ⟨.wPos, .wposPred wpos⟩, imm (.i64w wpos) .imm16], written := [.rxHa, .wPos, .imm16],
    tied := some (.rxHaWb, .rxHa), isPseudo := false }

/-- `SETZW_RWII` and `SETOW_RWII`. -/
def setRWII (majorop wpos : ℕ) (mnemonic : String) (x : RegClass) : Record :=
  record mnemonic (instRWII majorop wpos) [gpr x .rxHa] [⟨.wPos, .wposPred wpos⟩, imm (.i64w wpos) .imm16]
    [.rxHa, .wPos, .imm16]

def loadRRII (majorop : ℕ) (mnemonic : String) (x : RegClass) : Record :=
  record mnemonic (instRRIIMem majorop .src) [gpr x .rxHa] [⟨.src, .memRRII⟩] [.rxHa, .src]

def loadRRRI (majorop : ℕ) (mnemonic : String) (x : RegClass) : Record :=
  record mnemonic (instRRRI majorop .src) [gpr x .rxHa] [⟨.src, .memRRRI⟩] [.rxHa, .src]

def storeRRII (majorop : ℕ) (mnemonic : String) (x : RegClass) : Record :=
  record mnemonic (instRRIIMem majorop .dst) [] [gpr x .rxHa, ⟨.dst, .memRRII⟩] [.rxHa, .dst]

def storeRRRI (majorop : ℕ) (mnemonic : String) (x : RegClass) : Record :=
  record mnemonic (instRRRI majorop .dst) [] [gpr x .rxHa, ⟨.dst, .memRRRI⟩] [.rxHa, .dst]

def branchRIII (majorop : ℕ) (mnemonic : String) : Record :=
  record mnemonic (instRIII majorop) [] [⟨.imm18, .brTarget⟩, rd .rxHa] [.rxHa, .imm18]

def branchRRII (majorop : ℕ) (mnemonic : String) : Record :=
  record mnemonic (instRRII majorop) [] [⟨.imm12, .brTarget⟩, rd .rxHa, rd .ryHb] [.rxHa, .ryHb, .imm12]

/-- `JUMP_RRII` and `CALL_RRII`. -/
def indirectRRII (majorop : ℕ) (mnemonic : String) : Record :=
  record mnemonic (instRRII majorop) [] [rb .rxHa, rd .ryHb, imm .i64lo12s .imm12] [.rxHa, .ryHb, .imm12]

/-! ## The records -/

/-- The instructions of `DadaoInstrInfo.td`. -/
inductive Opcode where
  | swymOiii
  | andOrrr | orrOrrr | xorOrrr | xnorOrrr | shluOrrr | shrsOrrr | shruOrrr
  | rd2rdOrri | rd2rbOrri | rb2rdOrri | rb2rbOrri | pseudoSETRD | pseudoSETRB
  | shluOrri | shrsOrri | shruOrri
  | addRrrr | subRrrr | addRbOrrr | subRbOrrr | andiRrii | addiRrii | addiRbRrii
  | mulsRrrr | muluRrrr | divsRrrr | divuRrrr
  | cmpsOrrr | cmpuOrrr | cmpOrrr | cmpsRrii | cmpuRrii
  | csn | csz | csp
  | orwRwiiW0 | orwRwiiW1 | orwRwiiW2 | orwRwiiW3 | orwRbRwiiW0 | orwRbRwiiW1 | orwRbRwiiW2 | orwRbRwiiW3
  | andnwRwiiW0 | andnwRwiiW1 | andnwRwiiW2 | andnwRwiiW3
  | andnwRbRwiiW0 | andnwRbRwiiW1 | andnwRbRwiiW2 | andnwRbRwiiW3
  | setzwRwiiW0 | setzwRwiiW1 | setzwRwiiW2 | setzwRwiiW3
  | setzwRbRwiiW0 | setzwRbRwiiW1 | setzwRbRwiiW2 | setzwRbRwiiW3
  | setowRwiiW0 | setowRwiiW1 | setowRwiiW2 | setowRwiiW3
  | ldbsRrii | ldwsRrii | ldtsRrii | ldoRrii | ldbuRrii | ldwuRrii | ldtuRrii | ldoRbRrii
  | ldmbsRrri | ldmwsRrri | ldmtsRrri | ldmoRdRrri | ldmbuRrri | ldmwuRrri | ldmtuRrri | ldmoRbRrri
  | stbRrii | stwRrii | sttRrii | stoRrii | stoRbRrii
  | stmbRrri | stmwRrri | stmtRrri | stmoRdRrri | stmoRbRrri
  | brnRiii | brnnRiii | brzRiii | brnzRiii | brpRiii | brnpRiii | breqRrii | brneRrii
  | jumpIiii | jumpRrii | callIiii | callRrii | retFixme
  | adjcallstackdown | adjcallstackup | adjdynalloc
  deriving DecidableEq, Repr

/-- **The record of an instruction**, in the order of `DadaoInstrInfo.td`. -/
def Opcode.record : Opcode → Record
  | .swymOiii => Llvm.record "swym" (instOIII 0b00010000 0b000000) [] [imm .i64lo18z .imm18] [.imm18]
  | .andOrrr => aluORRR 0b001000 "and" .gprd .gprd .gprd
  | .orrOrrr => aluORRR 0b001001 "orr" .gprd .gprd .gprd
  | .xorOrrr => aluORRR 0b001010 "xor" .gprd .gprd .gprd
  | .xnorOrrr => aluORRR 0b001011 "xnor" .gprd .gprd .gprd
  | .shluOrrr => aluORRR 0b010001 "shlu" .gprd .gprd .gprd
  | .shrsOrrr => aluORRR 0b010010 "shrs" .gprd .gprd .gprd
  | .shruOrrr => aluORRR 0b010011 "shru" .gprd .gprd .gprd
  | .rd2rdOrri => r2rORRI 0b101000 "setrd" .gprd .gprd
  | .rd2rbOrri => r2rORRI 0b101001 "setrb" .gprb .gprd
  | .rb2rdOrri => r2rORRI 0b101010 "setrd" .gprd .gprb
  | .rb2rbOrri => r2rORRI 0b101011 "setrb" .gprb .gprb
  | .pseudoSETRD => pseudoSETRX "setrd" .gprd
  | .pseudoSETRB => pseudoSETRX "setrb" .gprb
  | .shluOrri => shiftORRI 0b011001 "shlu"
  | .shrsOrri => shiftORRI 0b011010 "shrs"
  | .shruOrri => shiftORRI 0b011011 "shru"
  | .addRrrr => aluRRRR 0b00011010 "add"
  | .subRrrr => aluRRRR 0b00011011 "sub"
  | .addRbOrrr => aluORRR 0b101110 "add" .gprb .gprb .gprd
  | .subRbOrrr => aluORRR 0b101111 "sub" .gprb .gprb .gprd
  | .andiRrii => aluRRII 0b00011000 "andi" .gprd .gprd .i64lo12and
  | .addiRrii => aluRRII 0b00011001 "addi" .gprd .gprd .imm12
  | .addiRbRrii => aluRRII 0b01001001 "addi" .gprb .gprb .imm12
  | .mulsRrrr => aluRRRR 0b00011100 "muls"
  | .muluRrrr => aluRRRR 0b00011101 "mulu"
  | .divsRrrr => aluRRRR 0b00011110 "divs"
  | .divuRrrr => aluRRRR 0b00011111 "divu"
  | .cmpsOrrr => aluORRR 0b100100 "cmps" .gprd .gprd .gprd
  | .cmpuOrrr => aluORRR 0b100101 "cmpu" .gprd .gprd .gprd
  | .cmpOrrr => aluORRR 0b101101 "cmp" .gprd .gprb .gprb
  | .cmpsRrii => compareRRII 0b00010010 "cmps" .i64lo12s
  | .cmpuRrii => compareRRII 0b00010011 "cmpu" .i64lo12z
  | .csn => condsetRRRR 0b00100000 "csn"
  | .csz => condsetRRRR 0b00100010 "csz"
  | .csp => condsetRRRR 0b00100100 "csp"
  | .orwRwiiW0 => updateRWII 0b00010100 0b00 "orw" .gprd
  | .orwRwiiW1 => updateRWII 0b00010100 0b01 "orw" .gprd
  | .orwRwiiW2 => updateRWII 0b00010100 0b10 "orw" .gprd
  | .orwRwiiW3 => updateRWII 0b00010100 0b11 "orw" .gprd
  | .orwRbRwiiW0 => updateRWII 0b01001100 0b00 "orw" .gprb
  | .orwRbRwiiW1 => updateRWII 0b01001100 0b01 "orw" .gprb
  | .orwRbRwiiW2 => updateRWII 0b01001100 0b10 "orw" .gprb
  | .orwRbRwiiW3 => updateRWII 0b01001100 0b11 "orw" .gprb
  | .andnwRwiiW0 => updateRWII 0b00010101 0b00 "andnw" .gprd
  | .andnwRwiiW1 => updateRWII 0b00010101 0b01 "andnw" .gprd
  | .andnwRwiiW2 => updateRWII 0b00010101 0b10 "andnw" .gprd
  | .andnwRwiiW3 => updateRWII 0b00010101 0b11 "andnw" .gprd
  | .andnwRbRwiiW0 => updateRWII 0b01001101 0b00 "andnw" .gprb
  | .andnwRbRwiiW1 => updateRWII 0b01001101 0b01 "andnw" .gprb
  | .andnwRbRwiiW2 => updateRWII 0b01001101 0b10 "andnw" .gprb
  | .andnwRbRwiiW3 => updateRWII 0b01001101 0b11 "andnw" .gprb
  | .setzwRwiiW0 => setRWII 0b00010110 0b00 "setzw" .gprd
  | .setzwRwiiW1 => setRWII 0b00010110 0b01 "setzw" .gprd
  | .setzwRwiiW2 => setRWII 0b00010110 0b10 "setzw" .gprd
  | .setzwRwiiW3 => setRWII 0b00010110 0b11 "setzw" .gprd
  | .setzwRbRwiiW0 => setRWII 0b01001110 0b00 "setzw" .gprb
  | .setzwRbRwiiW1 => setRWII 0b01001110 0b01 "setzw" .gprb
  | .setzwRbRwiiW2 => setRWII 0b01001110 0b10 "setzw" .gprb
  | .setzwRbRwiiW3 => setRWII 0b01001110 0b11 "setzw" .gprb
  | .setowRwiiW0 => setRWII 0b00010111 0b00 "setow" .gprd
  | .setowRwiiW1 => setRWII 0b00010111 0b01 "setow" .gprd
  | .setowRwiiW2 => setRWII 0b00010111 0b10 "setow" .gprd
  | .setowRwiiW3 => setRWII 0b00010111 0b11 "setow" .gprd
  | .ldbsRrii => loadRRII 0b00110000 "ldbs" .gprd
  | .ldwsRrii => loadRRII 0b00110001 "ldws" .gprd
  | .ldtsRrii => loadRRII 0b00110010 "ldts" .gprd
  | .ldoRrii => loadRRII 0b00110011 "ldo" .gprd
  | .ldbuRrii => loadRRII 0b01000000 "ldbu" .gprd
  | .ldwuRrii => loadRRII 0b01000001 "ldwu" .gprd
  | .ldtuRrii => loadRRII 0b01000010 "ldtu" .gprd
  | .ldoRbRrii => loadRRII 0b01000011 "ldo" .gprb
  | .ldmbsRrri => loadRRRI 0b00110100 "ldmbs" .gprd
  | .ldmwsRrri => loadRRRI 0b00110101 "ldmws" .gprd
  | .ldmtsRrri => loadRRRI 0b00110110 "ldmts" .gprd
  | .ldmoRdRrri => loadRRRI 0b00110111 "ldmo" .gprd
  | .ldmbuRrri => loadRRRI 0b01000100 "ldmbu" .gprd
  | .ldmwuRrri => loadRRRI 0b01000101 "ldmwu" .gprd
  | .ldmtuRrri => loadRRRI 0b01000110 "ldmtu" .gprd
  | .ldmoRbRrri => loadRRRI 0b01000111 "ldmo" .gprb
  | .stbRrii => storeRRII 0b00111000 "stb" .gprd
  | .stwRrii => storeRRII 0b00111001 "stw" .gprd
  | .sttRrii => storeRRII 0b00111010 "stt" .gprd
  | .stoRrii => storeRRII 0b00111011 "sto" .gprd
  | .stoRbRrii => storeRRII 0b01001011 "sto" .gprb
  | .stmbRrri => storeRRRI 0b00111100 "stmb" .gprd
  | .stmwRrri => storeRRRI 0b00111101 "stmw" .gprd
  | .stmtRrri => storeRRRI 0b00111110 "stmt" .gprd
  | .stmoRdRrri => storeRRRI 0b00111111 "stmo" .gprd
  | .stmoRbRrri => storeRRRI 0b01001111 "stmo" .gprb
  | .brnRiii => branchRIII 0b00101000 "brn"
  | .brnnRiii => branchRIII 0b00101001 "brnn"
  | .brzRiii => branchRIII 0b00101010 "brz"
  | .brnzRiii => branchRIII 0b00101011 "brnz"
  | .brpRiii => branchRIII 0b00101100 "brp"
  | .brnpRiii => branchRIII 0b00101101 "brnp"
  | .breqRrii => branchRRII 0b00101110 "breq"
  | .brneRrii => branchRRII 0b00101111 "brne"
  | .jumpIiii => Llvm.record "jump" (instIIII 0b01100100) [] [⟨.imm24, .brTarget⟩] [.imm24]
  | .jumpRrii => indirectRRII 0b01100101 "jump"
  | .callIiii => Llvm.record "call" (instIIII 0b01101100) [] [⟨.imm24, .callTarget⟩] [.imm24]
  | .callRrii => indirectRRII 0b01101101 "call"
  | .retFixme => Llvm.record "ret"
      (instDadao (constBits 8 0b01101110) (constBits 6 0) (constBits 6 0) (constBits 6 0) (constBits 6 0)) [] [] []
  | .adjcallstackdown => pseudo "#ADJCALLSTACKDOWN" [] [imm .i64imm .amt1, imm .i64imm .amt2] [.amt1, .amt2]
  | .adjcallstackup => pseudo "#ADJCALLSTACKUP" [] [imm .i64imm .amt1, imm .i64imm .amt2] [.amt1, .amt2]
  | .adjdynalloc => pseudo "#ADJDYNALLOC" [rd .dst] [rd .src] [.dst, .src]

/-- The instructions, in the order of `DadaoInstrInfo.td`. -/
def Opcode.all : List Opcode :=
  [.swymOiii, .andOrrr, .orrOrrr, .xorOrrr, .xnorOrrr, .shluOrrr, .shrsOrrr, .shruOrrr,
    .rd2rdOrri, .rd2rbOrri, .rb2rdOrri, .rb2rbOrri, .pseudoSETRD, .pseudoSETRB,
    .shluOrri, .shrsOrri, .shruOrri,
    .addRrrr, .subRrrr, .addRbOrrr, .subRbOrrr, .andiRrii, .addiRrii, .addiRbRrii,
    .mulsRrrr, .muluRrrr, .divsRrrr, .divuRrrr,
    .cmpsOrrr, .cmpuOrrr, .cmpOrrr, .cmpsRrii, .cmpuRrii, .csn, .csz, .csp,
    .orwRwiiW0, .orwRwiiW1, .orwRwiiW2, .orwRwiiW3, .orwRbRwiiW0, .orwRbRwiiW1, .orwRbRwiiW2, .orwRbRwiiW3,
    .andnwRwiiW0, .andnwRwiiW1, .andnwRwiiW2, .andnwRwiiW3,
    .andnwRbRwiiW0, .andnwRbRwiiW1, .andnwRbRwiiW2, .andnwRbRwiiW3,
    .setzwRwiiW0, .setzwRwiiW1, .setzwRwiiW2, .setzwRwiiW3,
    .setzwRbRwiiW0, .setzwRbRwiiW1, .setzwRbRwiiW2, .setzwRbRwiiW3,
    .setowRwiiW0, .setowRwiiW1, .setowRwiiW2, .setowRwiiW3,
    .ldbsRrii, .ldwsRrii, .ldtsRrii, .ldoRrii, .ldbuRrii, .ldwuRrii, .ldtuRrii, .ldoRbRrii,
    .ldmbsRrri, .ldmwsRrri, .ldmtsRrri, .ldmoRdRrri, .ldmbuRrri, .ldmwuRrri, .ldmtuRrri, .ldmoRbRrri,
    .stbRrii, .stwRrii, .sttRrii, .stoRrii, .stoRbRrii,
    .stmbRrri, .stmwRrri, .stmtRrri, .stmoRdRrri, .stmoRbRrri,
    .brnRiii, .brnnRiii, .brzRiii, .brnzRiii, .brpRiii, .brnpRiii, .breqRrii, .brneRrii,
    .jumpIiii, .jumpRrii, .callIiii, .callRrii, .retFixme, .adjcallstackdown, .adjcallstackup, .adjdynalloc]

end Dadao.Llvm
