import Dadao.Llvm.InstrInfo

set_option relaxedAutoImplicit false
set_option autoImplicit false

/-!
# The code emitter

A model of `DadaoMCCodeEmitter.cpp`: the values of the operands of an `MCInst`, their fixups, and the words
that are emitted. `none` is a failed assertion, an operand out of range or an instruction without encoding.

## Main definitions

* `Dadao.Llvm.MCInst`, `Dadao.Llvm.MCFixup` — instructions and fixups.
* `Dadao.Llvm.getMachineOpValue`, `Dadao.Llvm.getRRIIMemoryOpValue`, … — the values of operands.
* `Dadao.Llvm.getBinaryCodeForInstr` — the generated insertion of the values into the word.
* `Dadao.Llvm.encodeInstruction` — the emitted words.
-/

namespace Dadao.Llvm

open Fields

/-! ## Instructions and fixups -/

/-- The registers: the numbered ones, and those with a name of their own. -/
inductive Register where
  | rd (n : BitVec 6) | rb (n : BitVec 6) | ra (n : BitVec 6)
  | rdzero | rdrv | rdcc | rbip | rbsp | rbfp | rbgp | rbtp | rbca | ravv | rasp
  deriving DecidableEq, Repr

/-- `getDadaoRegisterNumbering`. -/
def getDadaoRegisterNumbering : Register → ℕ
  | .rd n => n.toNat
  | .rb n => n.toNat
  | .ra n => n.toNat
  | .rdzero => 0
  | .rbip => 0
  | .ravv => 0
  | .rbsp => 1
  | .rbfp => 2
  | .rbgp => 3
  | .rbtp => 4
  | .rbca => 7
  | .rdcc => 7
  | .rdrv => 31
  | .rasp => 63

/-- The kinds of a target expression (`DadaoMCExpr::VariantKind`). -/
inductive VariantKind where
  | none | absHi | absLo
  deriving DecidableEq, Repr

/-- The expressions of operands. -/
inductive MCExpr where
  | constant (v : BitVec 64)
  | symbolRef (name : String)
  | binary (lhs rhs : MCExpr)
  | target (kind : VariantKind) (sub : MCExpr)
  deriving DecidableEq, Repr

/-- An operand of an instruction. -/
inductive MCOperand where
  | reg (r : Register)
  | imm (v : BitVec 64)
  | expr (e : MCExpr)
  deriving DecidableEq, Repr

structure MCInst where
  opcode : Opcode
  operands : List MCOperand
  deriving DecidableEq, Repr

/-- `getOperand`. -/
def MCInst.getOperand (inst : MCInst) (i : ℕ) : Option MCOperand := inst.operands[i]?

/-- The fixup kinds of the target, and the generic ones for data. -/
inductive FixupKind where
  | none | dadao21 | dadao21F | dadao25 | dadao18 | dadao12 | dadao32 | hi16 | lo16 | abs
  | data1 | data2 | data4 | data8
  deriving DecidableEq, Repr

/-- A fixup: its offset from the first emitted word, its expression and its kind. -/
structure MCFixup where
  offset : ℕ
  value : MCExpr
  kind : FixupKind
  deriving DecidableEq, Repr

/-! ## Operand values -/

/-- `FixupKind`, on the symbolic side of an expression. -/
def fixupKind : MCExpr → FixupKind
  | .symbolRef _ => .abs
  | .target .none _ => .abs
  | .target .absHi _ => .hi16
  | .target .absLo _ => .lo16
  | _ => .none

/-- The symbolic side of an expression. -/
def symbolicSide : MCExpr → MCExpr
  | .binary lhs _ => lhs
  | e => e

/-- `getMachineOpValue`: an expression has to be a symbol or a target expression. -/
def getMachineOpValue : MCOperand → Option (BitVec 32 × List MCFixup)
  | .reg r => some (BitVec.ofNat 32 (getDadaoRegisterNumbering r), [])
  | .imm v => some (v.setWidth 32, [])
  | .expr e =>
    match symbolicSide e with
    | .symbolRef _ | .target _ _ => some (0, [⟨0, e, fixupKind (symbolicSide e)⟩])
    | _ => none

/-- `getRRIIMemoryOpValue`. -/
def getRRIIMemoryOpValue (operands : List MCOperand) (opNo : ℕ) : Option (BitVec 32 × List MCFixup) := do
  let op1 ← operands[opNo + 0]?
  let op2 ← operands[opNo + 1]?
  match op1, op2 with
  | .reg r, .imm v =>
    if -2048 ≤ v.toInt ∧ v.toInt < 2048 then
      some (BitVec.ofNat 32 (getDadaoRegisterNumbering r) <<< 12 ||| (v.setWidth 32 &&& 0xfff), [])
    else none
  | .reg r, .expr e => do
    let (_, fixups) ← getMachineOpValue (.expr e)
    return (BitVec.ofNat 32 (getDadaoRegisterNumbering r) <<< 12, fixups)
  | _, _ => none

/-- `getRRRIMemoryOpValue`. -/
def getRRRIMemoryOpValue (operands : List MCOperand) (opNo : ℕ) : Option (BitVec 32 × List MCFixup) := do
  let op1 ← operands[opNo + 0]?
  let op2 ← operands[opNo + 1]?
  let aluMCOp ← operands[opNo + 2]?
  match op1, op2, aluMCOp with
  | .reg r, .reg r', .imm v =>
    some (BitVec.ofNat 32 (getDadaoRegisterNumbering r) <<< 12 |||
      BitVec.ofNat 32 (getDadaoRegisterNumbering r') <<< 6 ||| v.setWidth 32, [])
  | _, _, _ => none

/-- The fixup of a branch target, by the instruction. -/
def branchFixup : Opcode → FixupKind
  | .brnRiii | .brnnRiii | .brzRiii | .brnzRiii | .brpRiii | .brnpRiii => .dadao18
  | .callRrii | .jumpRrii | .breqRrii | .brneRrii => .dadao12
  | _ => .dadao25

/-- `getBranchTargetOpValue`. -/
def getBranchTargetOpValue (opcode : Opcode) (operands : List MCOperand) (opNo : ℕ) :
    Option (BitVec 32 × List MCFixup) := do
  match ← operands[opNo]? with
  | .expr e => some (0, [⟨0, e, branchFixup opcode⟩])
  | op => getMachineOpValue op

/-- The encoder of an operand class. -/
def encodeOperand (opcode : Opcode) (operands : List MCOperand) (opNo : ℕ) :
    OperandClass → Option (BitVec 32 × List MCFixup)
  | .brTarget | .callTarget => getBranchTargetOpValue opcode operands opNo
  | .memRRII => getRRIIMemoryOpValue operands opNo
  | .memRRRI => getRRRIMemoryOpValue operands opNo
  | _ => do getMachineOpValue (← operands[opNo]?)

/-! ## Words -/

/-- The values of the operands that have bits in the word, with the number of their first `MCOperand`. -/
def encodeOperands (opcode : Opcode) (word : Format FieldName) (operands : List MCOperand) :
    List Operand → ℕ → Option (List (FieldName × BitVec 32) × List MCFixup)
  | [], _ => some ([], [])
  | op :: ops, opNo => do
    if shows word op.name then
      let (v, fixups) ← encodeOperand opcode operands opNo op.cls
      let (vs, fixups') ← encodeOperands opcode word operands ops (opNo + op.cls.numOperands)
      return ((op.name, v) :: vs, fixups ++ fixups')
    else encodeOperands opcode word operands ops (opNo + op.cls.numOperands)

/-- `getBinaryCodeForInstr`, as it is generated from the record. -/
def getBinaryCodeForInstr (inst : MCInst) : Option (BitVec 32 × List MCFixup) := do
  let r := inst.opcode.record
  if r.isPseudo then none
  else
    let (vs, fixups) ← encodeOperands inst.opcode r.word inst.operands r.operands 0
    return (Fields.insert r.word fun name => (vs.lookup name).getD 0, fixups)

/-- The instruction stands for the address of a symbol. -/
def isSymbolLoad (inst : MCInst) : Bool :=
  inst.opcode == .pseudoSETRD ||
    (inst.opcode == .rd2rdOrri && match inst.getOperand 1 with
      | some (.expr _) => true
      | _ => false)

/-- `encodeInstruction`: the emitted words. The address of a symbol takes a `setzw` and three fillers. -/
def encodeInstruction (inst : MCInst) : Option (List (BitVec 32) × List MCFixup) :=
  if isSymbolLoad inst then
    match inst.getOperand 0, inst.getOperand 1 with
    | some rd, some (.expr e) => do
      let (setzw, fixups) ← getBinaryCodeForInstr ⟨.setzwRwiiW0, [rd, .imm 0, .imm 0]⟩
      let (swym, _) ← getBinaryCodeForInstr ⟨.swymOiii, [.imm 0]⟩
      return ([setzw, swym, swym, swym], ⟨0, e, .abs⟩ :: fixups)
    | _, _ => none
  else do
    let (w, fixups) ← getBinaryCodeForInstr inst
    return ([w], fixups)

end Dadao.Llvm
