import Mathlib.Data.Int.Notation
import Mathlib.Data.List.Induction
import Mathlib.Tactic.Lemma
import Dadao.Opcodes.Simrisc

set_option relaxedAutoImplicit false
set_option autoImplicit false

/-!
# Encoding one instruction

A model of the part of `gas/config/tc-dadao.c` that turns a mnemonic and its parsed operands into
an instruction word: the operand macros `__DD_EXP_SHOULD_BE_*`, `dd_get_insn_code`, the five hash
tables of `dadao_md_begin` and the chain of lookups in `dadao_md_assemble`. An `expressionS` keeps
the four members the functions read; the symbol table lookup `symbol_get_value_expression`, which
belongs to gas itself, is a parameter.

## Main definitions

* `Dadao.Gas.ddGetInsnCode` — `dd_get_insn_code`; `none` is the return value `-1`.
* `Dadao.Gas.mdBegin` — the hash tables.
* `Dadao.Gas.mdAssembleCode` — the first entry of tables one to five that accepts the operands.

## Main results

* `Dadao.Gas.chain_mdBegin` — the rows tried for a name are its first five.
-/

namespace Dadao.Gas

open Dadao.Opcodes

/-! ## Expressions -/

/-- The operators of an expression that the assembler of this target tells apart. -/
inductive OperatorT where
  | illegal | absent | constant | symbol | register | leftShift | wyde | other
  deriving DecidableEq, Repr

/-- A parsed operand (`expressionS`). Registers are numbered file by file, 64 to a file. -/
structure ExpressionS where
  xOp : OperatorT
  xAddNumber : ℤ
  xAddSymbol : ℕ
  xOpSymbol : ℕ
  deriving DecidableEq, Repr

/-- A constant operand. -/
def ExpressionS.const (v : ℤ) : ExpressionS := ⟨.constant, v, 0, 0⟩

@[simp] lemma ExpressionS.const_xOp (v : ℤ) : (ExpressionS.const v).xOp = .constant := rfl

@[simp] lemma ExpressionS.const_xAddNumber (v : ℤ) : (ExpressionS.const v).xAddNumber = v := rfl

/-! ## The operand macros

A macro either leaves the function with `-1` (`.error none`) or yields the field value. Leaving
the function with a value is `.error (some _)`: the return value together with `*insn_code`. The
return value `0` is the enumerator `dadao_type_normal`. -/

/-- The return value of `dd_get_insn_code` and the word it stores. -/
abbrev Ret := Option (InsnType × BitVec 32)

/-- The common body of `__DD_EXP_SHOULD_BE_RB`, `_RF`, `_RA`, `_CP` and `_CR`. -/
def expShouldBeReg (lo hi : ℤ) (e : ExpressionS) : Except Ret (BitVec 32) :=
  if e.xOp ≠ .register then .error none
  else if e.xAddNumber > hi then .error none
  else if e.xAddNumber < lo then .error none
  else .ok (BitVec.ofInt 32 (e.xAddNumber - lo))

/-- `__DD_EXP_SHOULD_BE_RD`, which has no lower bound. -/
def expShouldBeRd (e : ExpressionS) : Except Ret (BitVec 32) :=
  if e.xOp ≠ .register then .error none
  else if e.xAddNumber > 0x3F then .error none
  else .ok (BitVec.ofInt 32 e.xAddNumber)

/-- `__DD_EXP_SHOULD_BE_RB`. -/
def expShouldBeRb : ExpressionS → Except Ret (BitVec 32) := expShouldBeReg 0x40 0x7F

/-- `__DD_EXP_SHOULD_BE_RF`. -/
def expShouldBeRf : ExpressionS → Except Ret (BitVec 32) := expShouldBeReg 0x80 0xBF

/-- `__DD_EXP_SHOULD_BE_RA`. -/
def expShouldBeRa : ExpressionS → Except Ret (BitVec 32) := expShouldBeReg 0xC0 0xFF

/-- `__DD_EXP_SHOULD_BE_CP`. -/
def expShouldBeCp : ExpressionS → Except Ret (BitVec 32) := expShouldBeReg 0x100 0x13F

/-- `__DD_EXP_SHOULD_BE_CR`. -/
def expShouldBeCr : ExpressionS → Except Ret (BitVec 32) := expShouldBeReg 0x140 0x17F

/-- `__DD_EXP_SHOULD_BE_IMM`; the value is the operand as an `unsigned int`. -/
def expShouldBeImm (e : ExpressionS) (min max : ℤ) : Except Ret (BitVec 32) :=
  if e.xOp ≠ .constant then .error none
  else if e.xAddNumber > max then .error none
  else if e.xAddNumber < min then .error none
  else .ok (BitVec.ofInt 32 e.xAddNumber)

/-- `__DD_EXP_SHOULD_BE_WW`, which has no lower bound. -/
def expShouldBeWw (e : ExpressionS) : Except Ret (BitVec 32) :=
  if e.xOp ≠ .wyde then .error none
  else if e.xAddNumber > 0x3 then .error none
  else .ok (BitVec.ofInt 32 e.xAddNumber)

/-! ## `dd_get_insn_code` -/

/-- The `switch (insn->op_fa)`: the field `ha` and the number of operands read. -/
def switchFa (insn : DadaoOpcode) (exp : ℕ → ExpressionS) : Except Ret (BitVec 32 × ℕ) :=
  match insn.opFa with
  | .rd => do return (← expShouldBeRd (exp 0), 1)
  | .rb => do return (← expShouldBeRb (exp 0), 1)
  | .rf => do return (← expShouldBeRf (exp 0), 1)
  | .ra => do return (← expShouldBeRa (exp 0), 1)
  | .cp => do return (← expShouldBeCp (exp 0), 1)
  | .op => .ok (insn.minorOpcode, 0)
  | .imms24 =>
    -- only call and jump
    if (exp 0).xOp = .constant then do
      let v ← expShouldBeImm (exp 0) (-0x800000) 0x7FFFFF
      .error (some (.normal, insn.majorOpcode <<< 24 ||| (v &&& 0xFFFFFF#32)))
    else .error (some (insn.type, insn.majorOpcode <<< 24))
  | .none => .ok (0, 0)
  | _ => .error none

/-- The `switch (insn->op_fb)`, with `ha` and the operands read so far. -/
def switchFb (insn : DadaoOpcode) (exp : ℕ → ExpressionS) (ha : BitVec 32) (nExp : ℕ) :
    Except Ret (BitVec 32 × ℕ) :=
  match insn.opFb with
  | .rd => do return (← expShouldBeRd (exp nExp), nExp + 1)
  | .rb => do return (← expShouldBeRb (exp nExp), nExp + 1)
  | .rf => do return (← expShouldBeRf (exp nExp), nExp + 1)
  | .ra => do return (← expShouldBeRa (exp nExp), nExp + 1)
  | .cr => do return (← expShouldBeCr (exp nExp), nExp + 1)
  | .ww => do return (← expShouldBeWw (exp nExp), nExp + 1)
  | .imms18 =>
    if (exp nExp).xOp = .constant then do
      let v ← expShouldBeImm (exp nExp) (-0x20000) 0x1FFFF
      .error (some (.normal, insn.majorOpcode <<< 24 ||| ha <<< 18 ||| (v &&& 0x3FFFF#32)))
    else .error (some (insn.type, insn.majorOpcode <<< 24 ||| ha <<< 18))
  | .immu18 => do
    let v ← expShouldBeImm (exp nExp) 0 0x3FFFF
    .error (some (.normal, insn.majorOpcode <<< 24 ||| ha <<< 18 ||| (v &&& 0x3FFFF#32)))
  | .none => .ok (0, nExp)
  | _ => .error none

/-- The two expressions the last switches look at: the operands of `rg << i6`, or the next two
operands. -/
def expNextLast (symbolGetValueExpression : ℕ → ExpressionS) (insn : DadaoOpcode)
    (exp : ℕ → ExpressionS) (nOperands nExp : ℕ) : Except Ret (ExpressionS × ExpressionS) :=
  if nOperands = 3 ∧ (exp 2).xOp = .leftShift then
    if insn.opFc ≠ .rd ∨ insn.opFd ≠ .immu6 then .error none
    else .ok (symbolGetValueExpression (exp 2).xAddSymbol,
      symbolGetValueExpression (exp 2).xOpSymbol)
  else .ok (exp nExp, exp (nExp + 1))

/-- The `switch (insn->op_fc)`; `expN` is `exp[n_exp]`, which the 16-bit case reads. -/
def switchFc (insn : DadaoOpcode) (ha hb : BitVec 32) (expN expNext : ExpressionS) :
    Except Ret (BitVec 32) :=
  match insn.opFc with
  | .rd => expShouldBeRd expNext
  | .rb => expShouldBeRb expNext
  | .rf => expShouldBeRf expNext
  | .ra => expShouldBeRa expNext
  | .cr => expShouldBeCr expNext
  | .imms12 =>
    if expNext.xOp = .symbol then
      .error (some (insn.type, insn.majorOpcode <<< 24 ||| ha <<< 18 ||| hb <<< 12))
    else do
      let v ← expShouldBeImm expNext (-0x800) 0x7FF
      -- call rb0, rd0, 0 doesn't exist
      if insn.majorOpcode = 0x6D#32 ∧ insn.operandsNum = 3 ∧
          ha = 0 ∧ hb = 0 ∧ v &&& 0xFFF#32 = 0 then .error none
      else .error (some (.normal,
        insn.majorOpcode <<< 24 ||| ha <<< 18 ||| hb <<< 12 ||| (v &&& 0xFFF#32)))
  | .immu12 => do
    let v ← expShouldBeImm expNext 0 0xFFF
    .error (some (.normal,
      insn.majorOpcode <<< 24 ||| ha <<< 18 ||| hb <<< 12 ||| (v &&& 0xFFF#32)))
  | .immu16 => do
    let v ← expShouldBeImm expN 0 0xFFFF
    .error (some (.normal,
      insn.majorOpcode <<< 24 ||| ha <<< 18 ||| hb <<< 16 ||| (v &&& 0xFFFF#32)))
  | .none => .ok 0
  | _ => .error none

/-- The `switch (insn->op_fd)`. An omitted shift amount is zero. -/
def switchFd (insn : DadaoOpcode) (expLast : ExpressionS) : Except Ret (BitVec 32) :=
  match insn.opFd with
  | .rd => expShouldBeRd expLast
  | .rb => expShouldBeRb expLast
  | .rf => expShouldBeRf expLast
  | .ra => expShouldBeRa expLast
  | .cr => expShouldBeCr expLast
  | .immu6 => if expLast.xOp = .constant then expShouldBeImm expLast 0 0x3F else .ok 0
  | .none => .ok 0
  | _ => .error none

/-- The body of `dd_get_insn_code`; falling off its end is a success too. -/
def getInsnCodeBody (symbolGetValueExpression : ℕ → ExpressionS) (insn : DadaoOpcode)
    (exp : ℕ → ExpressionS) (nOperands : ℕ) : Except Ret (BitVec 32) := do
  if nOperands ≠ insn.operandsNum then .error none
  let (ha, n) ← switchFa insn exp
  let (hb, n) ← switchFb insn exp ha n
  let (expNext, expLast) ← expNextLast symbolGetValueExpression insn exp nOperands n
  let hc ← switchFc insn ha hb (exp n) expNext
  let hd ← switchFd insn expLast
  return insn.majorOpcode <<< 24 ||| ha <<< 18 ||| hb <<< 12 ||| hc <<< 6 ||| hd

/-- `dd_get_insn_code`: `none` for `-1`, otherwise the return value and the word. -/
def ddGetInsnCode (symbolGetValueExpression : ℕ → ExpressionS) (insn : DadaoOpcode)
    (exp : ℕ → ExpressionS) (nOperands : ℕ) : Ret :=
  match getInsnCodeBody symbolGetValueExpression insn exp nOperands with
  | .error r => r
  | .ok code => some (.normal, code)

/-! ## The table and its hash tables -/

/-- A pseudo instruction of `dadao-opc.c`. -/
def pseudoRow (name : String) (fa fb : OperandType) : DadaoOpcode :=
  ⟨name, 2, 0, 0, fa, fb, .none, .none, .pseudo⟩

/-- `dadao_opcodes`: the generated rows and the pseudo instructions. -/
def dadaoOpcodes : List DadaoOpcode := opcTable ++ [
  pseudoRow "setrd" .rd .noop, pseudoRow "setrd" .rd .rd, pseudoRow "setrd" .rd .rb,
  pseudoRow "setrd" .rd .rf, pseudoRow "setrd" .rd .ra,
  pseudoRow "setrb" .rb .noop, pseudoRow "setrb" .rb .rd, pseudoRow "setrb" .rb .rb,
  pseudoRow "setrf" .rf .noop, pseudoRow "setrf" .rf .rd, pseudoRow "setrf" .rf .rf]

/-- A hash table from names to rows. -/
abbrev HashControl := List (String × DadaoOpcode)

/-- `hash_insert`, which leaves a table with the key in it alone. -/
def hashInsert (h : HashControl) (key : String) (v : DadaoOpcode) : HashControl :=
  if h.any (·.1 == key) then h else h ++ [(key, v)]

/-- `hash_find`. -/
def hashFind (h : HashControl) (key : String) : Option DadaoOpcode := h.lookup key

/-- The five hash tables. -/
structure OpcodeHash where
  hash1 : HashControl
  hash2 : HashControl
  hash3 : HashControl
  hash4 : HashControl
  hash5 : HashControl

/-- The body of the loop of `dadao_md_begin`. -/
def mdBeginStep (h : OpcodeHash) (opcode : DadaoOpcode) : OpcodeHash :=
  if (hashFind h.hash4 opcode.name).isSome then
    { h with hash5 := hashInsert h.hash5 opcode.name opcode }
  else if (hashFind h.hash3 opcode.name).isSome then
    { h with hash4 := hashInsert h.hash4 opcode.name opcode }
  else if (hashFind h.hash2 opcode.name).isSome then
    { h with hash3 := hashInsert h.hash3 opcode.name opcode }
  else if (hashFind h.hash1 opcode.name).isSome then
    { h with hash2 := hashInsert h.hash2 opcode.name opcode }
  else { h with hash1 := hashInsert h.hash1 opcode.name opcode }

/-- The tables `dadao_md_begin` leaves for a given opcode table. -/
def mdBegin (opcodes : List DadaoOpcode) : OpcodeHash :=
  opcodes.foldl mdBeginStep ⟨[], [], [], [], []⟩

/-- The rows `dadao_md_assemble` tries for a mnemonic, in its order. -/
def OpcodeHash.chain (h : OpcodeHash) (name : String) : List DadaoOpcode :=
  [h.hash1, h.hash2, h.hash3, h.hash4, h.hash5].filterMap (hashFind · name)

/-! ### What the tables hold -/

lemma hashFind_isSome (h : HashControl) (key : String) : (hashFind h key).isSome = h.any (·.1 == key) := by
  induction h with
  | nil => rfl
  | cons e h ih =>
    rw [hashFind] at ih ⊢
    rw [List.lookup_cons, List.any_cons]
    by_cases he : e.1 = key
    · simp [he]
    · have hk : (key == e.1) = false := by simpa using Ne.symm he
      have hk' : (e.1 == key) = false := by simpa using he
      rw [hk, hk', ih, Bool.false_or]

lemma hashFind_hashInsert (h : HashControl) (key name : String) (v : DadaoOpcode) :
    hashFind (hashInsert h key v) name =
      if name = key then some ((hashFind h key).getD v) else hashFind h name := by
  have hsome := hashFind_isSome h key
  unfold hashInsert
  by_cases hany : h.any (·.1 == key) = true
  · rw [if_pos hany]
    rw [hany] at hsome
    obtain ⟨u, hu⟩ := Option.isSome_iff_exists.mp hsome
    split_ifs with hname
    · rw [hname, hu, Option.getD_some]
    · rfl
  · rw [if_neg hany]
    rw [Bool.not_eq_true] at hany
    rw [hany, Option.isSome_eq_false_iff, Option.isNone_iff_eq_none] at hsome
    rw [hashFind, List.lookup_append]
    split_ifs with hname
    · rw [hname, ← hashFind, hsome]
      simp
    · have hk : (name == key) = false := by simpa using hname
      rw [← hashFind, List.lookup_cons, hk]
      simp

/-- The `k`-th table. -/
def OpcodeHash.table (h : OpcodeHash) : ℕ → HashControl
  | 0 => h.hash1
  | 1 => h.hash2
  | 2 => h.hash3
  | 3 => h.hash4
  | _ => h.hash5

/-- The rows of a name. -/
def rowsOf (opcodes : List DadaoOpcode) (name : String) : List DadaoOpcode := opcodes.filter (·.name == name)

/-- One row more: it goes to the first table that does not know its name. -/
lemma hashFind_mdBeginStep {h : OpcodeHash} {rows : String → List DadaoOpcode} (r : DadaoOpcode)
    (htable : ∀ name, ∀ k < 5, hashFind (h.table k) name = (rows name)[k]?) (name : String) (k : ℕ)
    (hk : k < 5) : hashFind ((mdBeginStep h r).table k) name =
      (if r.name = name then rows name ++ [r] else rows name)[k]? := by
  have hk' : k = 0 ∨ k = 1 ∨ k = 2 ∨ k = 3 ∨ k = 4 := by omega
  have h0 := htable r.name 0 (by omega)
  have h1 := htable r.name 1 (by omega)
  have h2 := htable r.name 2 (by omega)
  have h3 := htable r.name 3 (by omega)
  have h4 := htable r.name 4 (by omega)
  have hname := htable name k hk
  simp only [OpcodeHash.table] at h0 h1 h2 h3 h4
  unfold mdBeginStep
  by_cases heq : r.name = name
  · subst heq
    rw [if_pos rfl, h1, h2, h3, h0]
    rcases hms : rows r.name with _ | ⟨a, _ | ⟨b, _ | ⟨c, _ | ⟨d, _ | ⟨e, ms⟩⟩⟩⟩⟩ <;>
      rw [hms] at h0 h1 h2 h3 h4 hname <;>
      rcases hk' with rfl | rfl | rfl | rfl | rfl <;>
      simp_all [OpcodeHash.table, hashFind_hashInsert]
  · rw [if_neg heq, ← hname]
    rcases hk' with rfl | rfl | rfl | rfl | rfl <;> split_ifs <;>
      simp [OpcodeHash.table, hashFind_hashInsert, Ne.symm heq]

/-- **The tables of a name** hold its rows in their order; those behind the fifth are in no table. -/
lemma hashFind_mdBegin (opcodes : List DadaoOpcode) (name : String) (k : ℕ) (hk : k < 5) :
    hashFind ((mdBegin opcodes).table k) name = (rowsOf opcodes name)[k]? := by
  induction opcodes using List.reverseRecOn generalizing name k with
  | nil => rcases k with _ | _ | _ | _ | _ | k <;> rfl
  | append_singleton opcodes r ih =>
    have hrows : rowsOf (opcodes ++ [r]) name =
        if r.name = name then rowsOf opcodes name ++ [r] else rowsOf opcodes name := by
      rw [rowsOf, List.filter_append, ← rowsOf]
      split_ifs with heq <;> simp [heq]
    rw [mdBegin, List.foldl_append, hrows]
    exact hashFind_mdBeginStep r ih name k hk

lemma OpcodeHash.table_zero (h : OpcodeHash) : h.table 0 = h.hash1 := rfl

/-- The first row of a name. -/
lemma hashFind_hash1 (opcodes : List DadaoOpcode) (name : String) :
    hashFind (mdBegin opcodes).hash1 name = (rowsOf opcodes name)[0]? := by
  rw [← OpcodeHash.table_zero, hashFind_mdBegin _ _ _ (by omega)]

/-- **The rows tried for a name** are its first five. -/
lemma chain_mdBegin (opcodes : List DadaoOpcode) (name : String) :
    (mdBegin opcodes).chain name = (rowsOf opcodes name).take 5 := by
  have h0 := hashFind_mdBegin opcodes name 0 (by omega)
  have h1 := hashFind_mdBegin opcodes name 1 (by omega)
  have h2 := hashFind_mdBegin opcodes name 2 (by omega)
  have h3 := hashFind_mdBegin opcodes name 3 (by omega)
  have h4 := hashFind_mdBegin opcodes name 4 (by omega)
  simp only [OpcodeHash.table] at h0 h1 h2 h3 h4
  rw [OpcodeHash.chain]
  simp only [List.filterMap_cons, h0, h1, h2, h3, h4, List.filterMap_nil]
  rcases rowsOf opcodes name with _ | ⟨a, _ | ⟨b, _ | ⟨c, _ | ⟨d, _ | ⟨e, ms⟩⟩⟩⟩⟩ <;> simp

/-! ### The lookup -/

/-- The result of the rows tried in turn while the return value is `-1`. -/
def tryRows (symbolGetValueExpression : ℕ → ExpressionS) (exp : ℕ → ExpressionS)
    (nOperands : ℕ) : List DadaoOpcode → Ret
  | [] => none
  | insn :: rest =>
    match ddGetInsnCode symbolGetValueExpression insn exp nOperands with
    | none => tryRows symbolGetValueExpression exp nOperands rest
    | some r => some r

/-- The word `dadao_md_assemble` obtains from `dd_get_insn_code` for a real instruction without
`%hi` or `%lo` operators; a mnemonic missing from the first table is an error. -/
def mdAssembleCode (symbolGetValueExpression : ℕ → ExpressionS) (name : String)
    (exp : ℕ → ExpressionS) (nOperands : ℕ) : Ret :=
  if (hashFind (mdBegin dadaoOpcodes).hash1 name).isSome then
    tryRows symbolGetValueExpression exp nOperands ((mdBegin dadaoOpcodes).chain name)
  else none

/-- `md_number_to_chars` of a word: little endian bytes. -/
def mdNumberToChars (w : BitVec 32) : ℕ → BitVec 8
  | 0 => w.setWidth 8
  | 1 => (w >>> 8).setWidth 8
  | 2 => (w >>> 16).setWidth 8
  | _ => (w >>> 24).setWidth 8

end Dadao.Gas
