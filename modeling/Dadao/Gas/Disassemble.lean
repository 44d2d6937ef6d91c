import Dadao.Gas.Assemble

set_option relaxedAutoImplicit false
set_option autoImplicit false

/-!
# Disassembling one instruction

A model of `opcodes/dadao-dis.c`. What `print_insn_dadao` prints is kept as data: the entry of the
generated table whose format string is used, the values the conversions of that string are given,
and the displacement added to the instruction's address for a branch target.

## Main definitions

* `Dadao.Gas.analyzeOperand` — `analyze_operand`.
* `Dadao.Gas.printInsnDadao` — `print_insn_dadao`; `none` when no entry matches.
* `Dadao.Gas.Printed.operands` — the operands a reader of the printed line sees.
-/

namespace Dadao.Gas

open Dadao.Opcodes

/-- `analyze_operand`: the data, and the width of a branch displacement if the operand is one.
The enumeration has no value outside the cases, so the `default` branch is not there. -/
def analyzeOperand (optype : DisassembleType) (insn : BitVec 32) : BitVec 32 × Option ℕ :=
  match optype with
  | .none => (0, none)
  | .immu6 => (insn &&& 0x3f#32, none)
  | .immu12 => (insn &&& 0xfff#32, none)
  | .immu18 => (insn &&& 0x3ffff#32, none)
  | .ww => ((insn >>> 16) &&& 0x3#32, none)
  | .immu16 => (insn &&& 0xffff#32, none)
  | .imms12 =>
    (if insn &&& 0x800#32 ≠ 0 then 0xfffff000#32 ||| (insn &&& 0xfff#32)
      else insn &&& 0xfff#32, none)
  | .imms18 =>
    (if insn &&& 0x20000#32 ≠ 0 then 0xfffc0000#32 ||| (insn &&& 0x3ffff#32)
      else insn &&& 0x3ffff#32, none)
  | .offset12 => (0, some 12)
  | .offset18 => (0, some 18)
  | .offset24 => (0, some 24)
  | .ha => ((insn >>> 18) &&& 0x3f#32, none)
  | .hb => ((insn >>> 12) &&& 0x3f#32, none)
  | .hc => ((insn >>> 6) &&& 0x3f#32, none)
  | .hd => (insn &&& 0x3f#32, none)

/-- `bfd_getb32`: four bytes as a big endian word. -/
def bfdGetb32 (buffer : ℕ → BitVec 8) : BitVec 32 :=
  ((buffer 0).setWidth 32 <<< 24) ||| ((buffer 1).setWidth 32 <<< 16) |||
    ((buffer 2).setWidth 32 <<< 8) ||| (buffer 3).setWidth 32

/-- The word `print_insn_dadao` reassembles from the four bytes. -/
def readInsn (buffer : ℕ → BitVec 8) : BitVec 32 :=
  let insn := bfdGetb32 buffer
  let ha := (insn >>> 10) &&& 0x3F#32
  let hb := (((insn >>> 8) &&& 0x3#32) <<< 4) + ((insn >>> 20) &&& 0xF#32)
  let hc := (((insn >>> 16) &&& 0xF#32) <<< 2) + (insn >>> 30)
  let hd := (insn >>> 24) &&& 0x3F#32
  ((insn &&& 0xFF#32) <<< 24) + (ha <<< 18) + (hb <<< 12) + (hc <<< 6) + hd

/-- The byte displacement of a branch: the masked field times four, less `wrap` when the bit
`sign` of it is set. -/
def fieldOffset (field sign : BitVec 32) (wrap : ℤ) (insn : BitVec 32) : ℤ :=
  let offset := (insn &&& field) <<< 2
  if offset &&& sign ≠ 0 then (offset.toNat : ℤ) - wrap else offset.toNat

/-- The byte displacement for each value of `cal_offset`. -/
def calOffset (width : ℕ) : BitVec 32 → ℤ :=
  if width = 12 then fieldOffset 0xfff#32 0x2000#32 0x4000
  else if width = 18 then fieldOffset 0x3ffff#32 0x80000#32 0x100000
  else fieldOffset 0xffffff#32 0x2000000#32 0x4000000

/-- The entries of the table, with their positions, whose match bits the word has; the loop of
`print_insn_dadao` stops at the first. -/
def findEntry (insn : BitVec 32) : ℕ → List DadaoDisassemble → Option (ℕ × DadaoDisassemble)
  | _, [] => none
  | i, d :: rest =>
    if insn &&& d.opcodeMask ≠ d.opcodeMatch then findEntry insn (i + 1) rest else some (i, d)

attribute [local simp] findEntry

/-- What is printed for a matched word: the entry, the values of `op_1` to `op_4`, and the
displacement of the target for a branch. -/
structure Printed where
  entry : ℕ
  row : DadaoDisassemble
  ops : List (BitVec 32)
  offset : Option ℤ

/-- The printing of a matched word; `cal_offset` is overwritten by each branch operand in turn,
so that the last one counts. -/
def printEntry (insn : BitVec 32) (i : ℕ) (d : DadaoDisassemble) : Printed :=
  let a := [d.op1, d.op2, d.op3, d.op4].map (analyzeOperand · insn)
  { entry := i, row := d, ops := a.map (·.1),
    offset := ((a.filterMap (·.2)).getLast?).map (calOffset · insn) }

/-- `print_insn_dadao` on the bytes at an address. -/
def printInsnDadao (table : List DadaoDisassemble) (buffer : ℕ → BitVec 8) : Option Printed :=
  let insn := readInsn buffer
  (findEntry insn 0 table).map fun (i, d) => printEntry insn i d

/-- The number of the first register of a file in the assembler's numbering. -/
def regBase (file : String) : Option ℤ :=
  [("rd", 0), ("rb", 0x40), ("rf", 0x80), ("ra", 0xC0), ("cp", 0x100), ("cr", (0x140 : ℤ))].lookup
    file

/-- The operand a printed conversion stands for; a branch displacement is taken as the signed
field value, a quarter of the byte displacement. -/
def Conversion.operand (offset : Option ℤ) (v : BitVec 32) : Conversion → ExpressionS
  | .offset => .const (offset.getD 0 / 4)
  | .hex => .const v.toNat
  | .dec => .const v.toInt
  | .wyde => ⟨.wyde, v.toNat, 0, 0⟩
  | .reg file => ⟨.register, (regBase file).getD (-1) + v.toNat, 0, 0⟩

/-- The operands of the printed line. -/
def Printed.operands (p : Printed) : List ExpressionS :=
  (p.row.format.conversions.zip p.ops).map fun c => Conversion.operand p.offset c.2 c.1

end Dadao.Gas
