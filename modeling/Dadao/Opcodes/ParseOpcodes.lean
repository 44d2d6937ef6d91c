import Mathlib.Algebra.Group.Nat.Defs
import Mathlib.Data.Nat.Notation
import Mathlib.Data.List.Basic

set_option relaxedAutoImplicit false
set_option autoImplicit false

/-!
# The opcode table generator `parse-opcodes.py`

A model of `DADAO-opcodes/parse-opcodes.py`: the reader of an opcodes file (`parse_line`,
`read_opcodes`), the renaming of repeated mnemonics (`get_upper_insts_dict`) and the back ends
whose output the GNU tool chain compiles (`gen_opc_file`, `gen_encoding_file`,
`gen_disassemble_file`). Text stays text: names, fields and bit strings are strings, dictionaries
are association lists in insertion order, and `none` is a Python exception (or, for an enumerator
of a generated C table, a name the C compiler would not know).

## Main definitions

* `Dadao.Opcodes.parseLine`, `Dadao.Opcodes.readOpcodes` — the reader.
* `Dadao.Opcodes.getUpperInstsDict` — the keys `LDOrd`, `LDOrb`, … of the encoding file.
* `Dadao.Opcodes.genOpcFile` — the rows of `dadao-insn.opc`, the assembler's table.
* `Dadao.Opcodes.genDisassembleFile` — the rows of `dadao-dis.h`, the disassembler's table.
-/

namespace Dadao.Opcodes

/-! ## Python strings and dictionaries -/

/-- The characters of an ASCII string, one per byte; the opcodes files are ASCII text. -/
def chars (s : String) : List Char := s.toUTF8.data.toList.map fun b => Char.ofNat b.toNat

/-- The characters `str.split()` splits at. -/
def isSpace (c : Char) : Bool :=
  c == ' ' || c == '\t' || c == '\n' || c == '\r' || c == '\x0b' || c == '\x0c'

/-- Cut a character list at the separators, dropping empty pieces; `cur` is the current piece,
reversed. -/
def splitAux (sep : Char → Bool) : List Char → List Char → List String
  | [], cur => if cur.isEmpty then [] else [String.ofList cur.reverse]
  | c :: cs, cur =>
    if sep c then
      if cur.isEmpty then splitAux sep cs [] else String.ofList cur.reverse :: splitAux sep cs []
    else splitAux sep cs (c :: cur)

/-- Python's `line.strip().split()`. -/
def pySplit (line : String) : List String := splitAux isSpace (chars line) []

/-- Python's `s.split(c)` into exactly two parts, the only use the script makes of it. -/
def splitPair (c : Char) (s : String) : Option (String × String) :=
  let l := chars s
  let a := l.takeWhile (· != c)
  let b := l.drop (a.length + 1)
  if l.contains c && !b.contains c then some (String.ofList a, String.ofList b) else none

/-- The slice `s[0:n]`. -/
def slice (s : String) (n : ℕ) : String := String.ofList ((chars s).take n)

/-- The slice `s[n:]`. -/
def sliceFrom (s : String) (n : ℕ) : String := String.ofList ((chars s).drop n)

/-- Python's `int(s, base)` for bases up to ten. -/
def pyInt (base : ℕ) (s : String) : Option ℕ :=
  if (chars s).isEmpty then none
  else (chars s).foldlM (fun acc c =>
    let d := c.toNat - '0'.toNat
    if '0' ≤ c ∧ d < base then some (base * acc + d) else none) 0

/-- `pat` occurs in `l`. -/
def isInfix (pat : List Char) : List Char → Bool
  | [] => pat.isEmpty
  | c :: cs => pat.isPrefixOf (c :: cs) || isInfix pat cs

/-- What follows the first occurrence of `pat` in `l`. -/
def afterInfix (pat : List Char) : List Char → List Char
  | [] => []
  | c :: cs => if pat.isPrefixOf (c :: cs) then (c :: cs).drop pat.length else afterInfix pat cs

/-- A string repeated, Python's `c * n`. -/
def repeatChar (c : Char) (n : ℕ) : String := String.ofList (List.replicate n c)

/-- Dictionary assignment: replace the value of a present key, else append. -/
def dictSet {α : Type} (d : List (String × α)) (k : String) (v : α) : List (String × α) :=
  if d.any (·.1 == k) then d.map fun p => if p.1 == k then (k, v) else p else d ++ [(k, v)]

/-! ## Reading an opcodes file -/

/-- The general indication of the type of an instruction (`enum dadao_insn_type`). -/
inductive InsnType where
  | normal | condbranch | condbranch12 | branch | geta | dref | jsr | pseudo | adrp | lo12
  deriving DecidableEq, Repr

/-- The resources, register files and conditions attached to a line. -/
structure Restrictions where
  resources : List String
  regfile : List (String × String)
  conds : List String
  deriving DecidableEq, Repr

/-- A line of an opcodes file, as `parse_line` returns it. -/
inductive Line where
  | instType (optype : String) (fields : List (String × ℕ))
  | restrictionType (r : Restrictions)
  | inst (name opcode : String) (r : Restrictions)
  deriving DecidableEq, Repr

/-- `is_binary_str`. -/
def isBinaryStr (item : String) : Bool := (chars item).all fun c => c == '0' || c == '1'

/-- One `name:len` field of an instruction type; an immediate carries its length in its name. -/
def parseField (field : String) : Option (String × ℕ) := do
  let (name, len) ← splitPair ':' field
  let n ← pyInt 10 len
  return (if slice name 3 == "imm" then name ++ toString n else name, n)

/-- One item after `&` or `&&`: a resource `@r`, a register file `rd@ha` or a condition. -/
def parseItem (r : Restrictions) (item : String) : Option Restrictions :=
  match chars item with
  | [] => none
  | c :: cs =>
    if c == '@' then some { r with resources := r.resources ++ [String.ofList cs] }
    else if cs.contains '@' then do
      let (regfile, field) ← splitPair '@' item
      return { r with regfile := dictSet r.regfile field regfile }
    else if c == '(' then some { r with conds := r.conds ++ [String.ofList cs.dropLast] }
    else some r

/-- The items of a line, in order. -/
def parseItems (items : List String) : Option Restrictions :=
  items.foldlM parseItem ⟨[], [], []⟩

/-- `parse_line`: `some none` for a line without information. -/
def parseLine (line : String) : Option (Option Line) :=
  match chars line with
  | [] => none
  | '#' :: _ => some none
  | '[' :: _ =>
    match (pySplit line).filter (fun item => item != "[" && item != "]") with
    | [] => none
    | optype :: fs => do
      let fields ← fs.mapM parseField
      return some (.instType optype (fields.foldl (fun d p => dictSet d p.1 p.2) []))
  | '&' :: cs => do return some (.restrictionType (← parseItems (splitAux isSpace cs [])))
  | _ =>
    match pySplit line with
    | name :: opcode :: [] => some (some (.inst name opcode ⟨[], [], []⟩))
    | name :: opcode :: x :: rest => do
      let opcode' := if isBinaryStr x then opcode ++ x else opcode
      let items := ((x :: rest).dropWhile (· != "&&")).drop 1
      return some (.inst name opcode' (← parseItems items))
    | _ => some none

/-- The description of one instruction, an entry of the dictionary `read_opcodes` builds. The
name is the dictionary key: a repeated mnemonic `ldo` is filed under `_1ldo`, `_2ldo`, `_3ldo`. -/
structure Inst where
  name : String
  optype : String
  fields : List (String × ℕ)
  opcode : String
  resources : List String
  regfile : List (String × String)
  conds : List String
  insnType : InsnType
  mask : String
  matchBits : String
  maskInt : ℕ
  matchInt : ℕ
  deriving DecidableEq, Repr

/-- `field_bincode`: the bits the first `==` condition mentioning the field fixes it to. -/
def fieldBincode (field : String) (conds : List String) : Option String :=
  (conds.find? fun rest =>
    isInfix (chars field) (chars rest) && isInfix ['=', '='] (chars rest)).map fun rest =>
      String.ofList (afterInfix ['=', '='] (chars rest))

/-- `get_mask_match`. -/
def getMaskMatch (fields : List (String × ℕ)) (opcode : String) (conds : List String) :
    String × String :=
  fields.foldl (fun (mm : String × String) (f : String × ℕ) =>
    if f.1 == "op" then (mm.1 ++ repeatChar '1' f.2, mm.2 ++ opcode)
    else match fieldBincode f.1 conds with
      | some b => (mm.1 ++ repeatChar '1' f.2, mm.2 ++ b)
      | none => (mm.1 ++ repeatChar '0' f.2, mm.2 ++ repeatChar '0' f.2)) ("", "")

/-- The key of an instruction: a repeated mnemonic gets the first free prefix `_1`, `_2`, `_3`,
and a fifth occurrence ends the script. -/
def freshName (insts : List Inst) (name : String) : Option String :=
  let used := fun n : String => insts.any (·.name == n)
  if !used name then some name
  else if !used ("_1" ++ name) then some ("_1" ++ name)
  else if !used ("_2" ++ name) then some ("_2" ++ name)
  else if !used ("_3" ++ name) then some ("_3" ++ name)
  else none

/-- The instruction type read off the resources. -/
def insnTypeOf (resources : List String) (regfile : List (String × String)) : InsnType :=
  if resources.contains "mem" then
    if resources.contains "jmp" then .jsr else .dref
  else if resources.contains "jmp" then
    if resources.contains "bpd" then
      if !regfile.any (·.1 == "hb") then .condbranch else .condbranch12
    else .branch
  else .normal

/-- The register files of a line extended by those of the current `&` line; a field named by
both gets the two names run together. -/
def mergeRegfile (own now : List (String × String)) : List (String × String) :=
  now.foldl (fun d p => match d.lookup p.1 with
    | some v => dictSet d p.1 (v ++ p.2)
    | none => dictSet d p.1 p.2) own

/-- The reader's variables: the last `[ ]` line, the last `&` line and the dictionary. -/
structure ReadState where
  nowType : Option (String × List (String × ℕ))
  nowRestrictions : Option Restrictions
  insts : List Inst
  deriving DecidableEq, Repr

/-- The body of the reader's loop on a parsed line. -/
def readStep (s : ReadState) : Line → Option ReadState
  | .instType optype fields => some { s with nowType := some (optype, fields) }
  | .restrictionType r => some { s with nowRestrictions := some r }
  | .inst name opcode r => do
    let (optype, fields) ← s.nowType
    let now ← s.nowRestrictions
    let resources := r.resources ++ now.resources
    let regfile := mergeRegfile r.regfile now.regfile
    let conds := r.conds ++ now.conds
    let name' ← freshName s.insts name
    let (mask, matchBits) := getMaskMatch fields opcode conds
    let maskInt ← pyInt 2 mask
    let matchInt ← pyInt 2 matchBits
    return { s with insts := s.insts ++ [{
      name := name', optype, fields, opcode, resources, regfile, conds,
      insnType := insnTypeOf resources regfile, mask, matchBits, maskInt, matchInt }] }

/-- `read_opcodes` on the lines of a file. -/
def readOpcodes (lines : List String) : Option (List Inst) := do
  let s ← lines.foldlM (fun s line => do
    match ← parseLine line with
    | none => return s
    | some l => readStep s l) (⟨none, none, []⟩ : ReadState)
  return s.insts

/-! ## The encoding file -/

/-- The mnemonic behind a dictionary key. -/
def mnemonic (name : String) : String :=
  if (chars name).head? == some '_' then sliceFrom name 2 else name

/-- `s.upper()` on ASCII letters. -/
def upper (s : String) : String := String.ofList ((chars s).map Char.toUpper)

/-- The first field, in order, in which two descriptions of one type use different register
files; `none` inside is a missing key. -/
def regfileDiff (a b : List (String × String)) :
    List (String × String) → Option (Option (String × String))
  | [] => some none
  | (k, _) :: rest => do
    let x ← a.lookup k
    let y ← b.lookup k
    if x != y then return some (x, y) else regfileDiff a b rest

/-- The first of the four fields in which two descriptions of different types differ. -/
def fieldDiff (a b : Inst) : ℕ → ℕ → Option (Option (String × String))
  | 0, _ => some none
  | n + 1, i => do
    let x ← (a.fields.map (·.1))[i]?
    let y ← (b.fields.map (·.1))[i]?
    if x != y then
      if slice x 3 == "imm" then return some ("i", "r")
      else if slice y 3 == "imm" then return some ("r", "i")
      else
        let rx ← a.regfile.lookup x
        let ry ← b.regfile.lookup y
        if rx != ry then return some (rx, ry) else fieldDiff a b n (i + 1)
    else fieldDiff a b n (i + 1)

/-- The body of the loop of `get_upper_insts_dict`. The suffixes survive from one iteration to
the next, as Python's loop variables do. -/
def upperStep (insts : List Inst)
    (s : List (String × Inst) × Option (String × String)) (d : Inst) :
    Option (List (String × Inst) × Option (String × String)) :=
  if (chars d.name).head? == some '_' then do
    let search := sliceFrom d.name 2
    let instruction := upper search
    -- a missing `search_inst` ends in a key error at the assignment below
    let e ← insts.find? (·.name == search)
    let diff ← if d.optype == e.optype then regfileDiff d.regfile e.regfile d.regfile
      else fieldDiff d e 4 0
    let (d1, d2) ← diff <|> s.2
    let dict := dictSet (dictSet s.1 (instruction ++ d1) d) (instruction ++ d2) e
    if (chars d.name)[1]? == some '1' then
      if dict.any (·.1 == instruction) then
        return (dict.filter (·.1 != instruction), some (d1, d2))
      else none
    else return (dict, some (d1, d2))
  else some (dictSet s.1 (upper d.name) d, s.2)

/-- `get_upper_insts_dict`. -/
def getUpperInstsDict (insts : List Inst) : Option (List (String × Inst)) := do
  let s ← insts.foldlM (upperStep insts) ([], none)
  return s.1

/-- The `MATCH_` and `MASK_` macros of `gen_encoding_file`, by the upper-case key. -/
def genEncodingFile (dict : List (String × Inst)) : List (String × BitVec 32 × BitVec 32) :=
  dict.map fun p => (upper p.1, BitVec.ofNat 32 p.2.matchInt, BitVec.ofNat 32 p.2.maskInt)

/-! ## The assembler's table -/

/-- The operand classes of the assembler (`enum dadao_operand_type`). -/
inductive OperandType where
  | none | op | rd | rb | rf | ra | immu6 | immu12 | immu18 | imms12 | imms18 | imms24
  | ww | immu16 | cp | cr | noop
  deriving DecidableEq, Repr

/-- The enumerator `dadao_operand_<name>`. -/
def OperandType.ofName (s : String) : Option OperandType :=
  [("none", .none), ("op", .op), ("rd", .rd), ("rb", .rb), ("rf", .rf), ("ra", .ra),
    ("immu6", .immu6), ("immu12", .immu12), ("immu18", .immu18), ("imms12", .imms12),
    ("imms18", .imms18), ("imms24", .imms24), ("ww", .ww), ("immu16", .immu16), ("cp", .cp),
    ("cr", .cr), ("noop", OperandType.noop)].lookup s

/-- A row of the assembler's table (`struct dadao_opcode`). -/
structure DadaoOpcode where
  name : String
  operandsNum : ℕ
  majorOpcode : BitVec 32
  minorOpcode : BitVec 32
  opFa : OperandType
  opFb : OperandType
  opFc : OperandType
  opFd : OperandType
  type : InsnType
  deriving DecidableEq, Repr

/-- `regfile_fillin`. -/
def regfileFillin (regfile : List (String × String)) (field : String) : String :=
  (regfile.lookup field).getD field

/-- The fields a row shows: the opcode field only when it is not eight bits wide. -/
def shownFields (d : Inst) : List String :=
  if d.fields.lookup "op" == some 8 then (d.fields.map (·.1)).drop 1 else d.fields.map (·.1)

/-- The operands of a row, padded with `none` to four. -/
def shownOperands (d : Inst) : List String :=
  (shownFields d ++ List.replicate (4 - (shownFields d).length) "none").map
    (regfileFillin d.regfile)

/-- One row of `gen_opc_file`. -/
def genOpcRow (d : Inst) : Option DadaoOpcode := do
  let exop := if (shownOperands d)[0]? == some "op" then 1 else 0
  let majop ← pyInt 2 (slice d.opcode 8)
  let minop ← if (chars d.opcode).length == 8 then some 0 else pyInt 2 (sliceFrom d.opcode 8)
  let ops ← (shownOperands d).mapM OperandType.ofName
  match ops with
  | [fa, fb, fc, fd] => return {
      name := mnemonic d.name, operandsNum := (shownFields d).length - exop,
      majorOpcode := BitVec.ofNat 32 majop, minorOpcode := BitVec.ofNat 32 minop,
      opFa := fa, opFb := fb, opFc := fc, opFd := fd, type := d.insnType }
  | _ => none

/-- `gen_opc_file`: the rows of `dadao-insn.opc`. -/
def genOpcFile (insts : List Inst) : Option (List DadaoOpcode) := insts.mapM genOpcRow

/-! ## The disassembler's table -/

/-- The operand kinds of the disassembler (`enum dadao_disassemble_type`). -/
inductive DisassembleType where
  | none | ha | hb | hc | hd | immu6 | immu12 | immu18 | imms12 | imms18 | ww | immu16
  | offset12 | offset18 | offset24
  deriving DecidableEq, Repr

/-- The enumerator `dadao_operand_<name>` of the generated header. -/
def DisassembleType.ofName (s : String) : Option DisassembleType :=
  [("none", .none), ("ha", .ha), ("hb", .hb), ("hc", .hc), ("hd", .hd), ("immu6", .immu6),
    ("immu12", .immu12), ("immu18", .immu18), ("imms12", .imms12), ("imms18", .imms18),
    ("ww", .ww), ("immu16", .immu16), ("offset12", .offset12), ("offset18", .offset18),
    ("offset24", DisassembleType.offset24)].lookup s

/-- A conversion of a format string: nothing for a branch target, `0x%x`, `%d`, `w%d`, or a
register file name followed by `%d`. -/
inductive Conversion where
  | offset | hex | dec | wyde | reg (file : String)
  deriving DecidableEq, Repr

/-- A format string: the mnemonic, a tab, and the conversions separated by commas. -/
structure DisassembleFormat where
  mnemonic : String
  conversions : List Conversion
  deriving DecidableEq, Repr

/-- The text of a conversion. -/
def Conversion.text : Conversion → String
  | .offset => ""
  | .hex => "0x%x"
  | .dec => "%d"
  | .wyde => "w%d"
  | .reg file => file ++ "%d"

/-- The format string the generated table holds. -/
def DisassembleFormat.text (f : DisassembleFormat) : String :=
  f.mnemonic ++ "\t" ++ ", ".intercalate (f.conversions.map Conversion.text)

/-- A row of the disassembler's table (`struct dadao_disassemble`). -/
structure DadaoDisassemble where
  opcodeMask : BitVec 32
  opcodeMatch : BitVec 32
  op1 : DisassembleType
  op2 : DisassembleType
  op3 : DisassembleType
  op4 : DisassembleType
  operandNum : ℕ
  format : DisassembleFormat
  deriving DecidableEq, Repr

/-- The kind and conversion of one operand; `slot` is the field the position stands for. -/
def disassembleOperand (resources : List String) (slot operand : String) :
    String × Option Conversion :=
  if operand == "none" then ("none", none)
  else if operand == "imms24" || (resources.contains "bpd" && slice operand 3 == "imm") then
    ("offset" ++ sliceFrom operand 4, some .offset)
  else if slice operand 4 == "immu" then (operand, some .hex)
  else if slice operand 4 == "imms" then (operand, some .dec)
  else if operand == "ww" then (operand, some .wyde)
  else (slot, some (.reg operand))

/-- One row of `gen_disassemble_file`. -/
def genDisassembleRow (d : Inst) : Option DadaoDisassemble := do
  let wide := d.fields.lookup "op" == some 8
  let exop := if wide then 0 else 1
  let slots := if wide then ["ha", "hb", "hc", "hd"] else ["hb", "hc", "hd"]
  let prefixBits := if wide then slice d.opcode 8 else slice d.opcode 14 ++ "00"
  let bits ← pyInt 2 prefixBits
  let shown := (slots.zip ((shownOperands d).drop exop)).map fun p =>
    disassembleOperand d.resources p.1 p.2
  let kinds ← (shown.map (·.1) ++ List.replicate exop "none").mapM DisassembleType.ofName
  match kinds with
  | [op1, op2, op3, op4] => return {
      opcodeMask := if wide then 0xff000000#32 else 0xfffc0000#32,
      opcodeMatch := BitVec.ofNat 32 (if wide then bits * 2 ^ 24 else bits * 2 ^ 16),
      op1, op2, op3, op4, operandNum := (shownFields d).length - exop,
      format := ⟨mnemonic d.name, shown.filterMap (·.2)⟩ }
  | _ => none

/-- `gen_disassemble_file`: the rows of `dadao_disassemble_opcodes`. -/
def genDisassembleFile (insts : List Inst) : Option (List DadaoDisassemble) :=
  insts.mapM genDisassembleRow

end Dadao.Opcodes
