import Dadao.Gas.RoundTrip
import Dadao.Gas.SetImm
import Dadao.Qemu.Insns

set_option relaxedAutoImplicit false
set_option autoImplicit false

/-!
# Statements of the compiler's output

The assembly statements the machine description prints for integer code: what the assembler makes of
them and what the words do in the simulator.

## Main definitions

* `Dadao.Gcc.Stmt` — a statement: a mnemonic and its operands.
* `Dadao.Gcc.assemble` — the words of statements, if the assembler accepts them.
* `Dadao.Gcc.Does` — statements that are accepted and make a new state of every state.
* `Dadao.Gcc.Achieves` — statements that are accepted and end in a state as wanted.

## Main results

* `Dadao.Gcc.Does.append` — statements one after the other.
* `Dadao.Gcc.assemble_of_row`, `Dadao.Gcc.does_of_row` — a statement with operands in range of a row of the table.
-/

namespace Dadao.Gcc

open Opcodes Gas Qemu

/-! ## Statements -/

/-- An operand as it is printed: a register or a number. -/
inductive Opnd where
  | reg (file : RegFile) (n : ℕ)
  | num (v : ℤ)
  deriving DecidableEq

/-- The register `rd`. -/
abbrev rd (n : ℕ) : Opnd := .reg .rd n

/-- The register `rb`. -/
abbrev rb (n : ℕ) : Opnd := .reg .rb n

/-- The number of the first register of a file. -/
def fileBase : RegFile → ℤ
  | .rd => 0
  | .rb => 0x40
  | .rf => 0x80
  | .ra => 0xC0

/-- The operand as the assembler parses it. -/
def Opnd.exp : Opnd → ExpressionS
  | .reg file n => ⟨.register, fileBase file + n, 0, 0⟩
  | .num v => .const v

/-- A statement. -/
structure Stmt where
  mnemonic : String
  opnds : List Opnd
  deriving DecidableEq

/-- The array of operands; behind the last one is an illegal expression. -/
def Stmt.exp (st : Stmt) (i : ℕ) : ExpressionS :=
  (st.opnds[i]?.map Opnd.exp).getD ⟨.illegal, 0, 0, 0⟩

/-- "The number of registers exceeds the limit", in `dadao_md_assemble`. -/
def Stmt.exceeds (st : Stmt) : Bool :=
  (st.mnemonic.toList.take 3 == "ldm".toList || st.mnemonic.toList.take 3 == "stm".toList) &&
      (st.exp 0).xAddNumber % 64 + (st.exp 3).xAddNumber > 64 ||
    st.mnemonic.toList[2]? == some '2' &&
      ((st.exp 0).xAddNumber % 64 + (st.exp 2).xAddNumber > 64 ||
        (st.exp 1).xAddNumber % 64 + (st.exp 2).xAddNumber > 64)

/-- `dadao_md_assemble`: the words of a statement. The pseudo instructions are those that set a register to
a constant. -/
def Stmt.assemble (g : ℕ → ExpressionS) (st : Stmt) : Option (List (BitVec 32)) :=
  if st.exceeds then none
  else if st.mnemonic = "setrd" ∨ st.mnemonic = "setrb" then
    if st.opnds.length = 2 ∧ (st.exp 0).xOp = .register ∧ (st.exp 1).xOp = .constant then
      some (ddPseudoSetImm (st.exp 0).xAddNumber.toNat (BitVec.ofInt 64 (st.exp 1).xAddNumber))
    else none
  else
    match mdAssembleCode g st.mnemonic st.exp st.opnds.length with
    | some (.normal, w) => some [w]
    | _ => none

/-- The words of statements. -/
def assemble (g : ℕ → ExpressionS) : List Stmt → Option (List (BitVec 32))
  | [] => some []
  | st :: stmts => do return (← st.assemble g) ++ (← assemble g stmts)

/-- **Statements that make `f` of a state** that meets `pre`: the assembler accepts them, and so do the
words. -/
def Does (pre : State → Prop) (stmts : List Stmt) (f : State → State) : Prop :=
  ∀ g, ∃ ws, assemble g stmts = some ws ∧ Yields pre ws f

/-- **Statements that reach `post`** from every state that meets `pre`: the assembler accepts them, and the
words end in such a state. -/
def Achieves (pre : State → Prop) (stmts : List Stmt) (post : State → State → Prop) : Prop :=
  ∀ g, ∃ ws, assemble g stmts = some ws ∧
    ∀ m, pre (view m) → ∃ m', Straight ws m m' ∧ post (view m) (view m')

/-- What statements reach is what they make of a state. -/
lemma Does.achieves_iff {pre : State → Prop} {stmts : List Stmt} {f : State → State}
    {post : State → State → Prop} (h : Does pre stmts f) :
    Achieves pre stmts post ↔ ∀ s, s.IsView → pre s → post s (f s) := by
  constructor
  · intro hach s hs hpre
    obtain ⟨m, rfl⟩ := hs.exists_view
    obtain ⟨ws, hws, hrun⟩ := h fun _ => .const 0
    obtain ⟨ws', hws', hrun'⟩ := hach fun _ => .const 0
    obtain rfl : ws = ws' := Option.some.inj (hws.symm.trans hws')
    obtain ⟨m₁, hstraight, hview⟩ := hrun m hpre
    obtain ⟨m₂, hstraight', hpost⟩ := hrun' m hpre
    obtain rfl := hstraight.unique hstraight'
    rwa [hview] at hpost
  · intro hpost g
    obtain ⟨ws, hws, hrun⟩ := h g
    refine ⟨ws, hws, fun m hm => ?_⟩
    obtain ⟨m', hstraight, hview⟩ := hrun m hm
    exact ⟨m', hstraight, hview ▸ hpost _ (isView_view m) hm⟩

/-- Statements of which one is rejected reach nothing. -/
lemma not_achieves {pre : State → Prop} {stmts : List Stmt} {post : State → State → Prop}
    (h : ∃ g, assemble g stmts = none) : ¬ Achieves pre stmts post := by
  obtain ⟨g, hg⟩ := h
  intro hach
  obtain ⟨ws, hws, -⟩ := hach g
  simp [hg] at hws

/-- No statements. -/
lemma does_nil : Does always [] id := fun _ => ⟨[], rfl, yields_nil⟩

/-- The words of statements one after the other. -/
lemma assemble_append (g : ℕ → ExpressionS) (stmts stmts' : List Stmt) :
    assemble g (stmts ++ stmts') = do return (← assemble g stmts) ++ (← assemble g stmts') := by
  induction stmts with
  | nil => cases h : assemble g stmts' <;> simp [assemble, h]
  | cons st stmts ih =>
    cases h : st.assemble g <;> cases h' : assemble g stmts <;> cases h'' : assemble g stmts' <;>
      simp [assemble, ih, h, h', h'']

/-- **Statements one after the other.** -/
lemma Does.append {pre pre' : State → Prop} {stmts stmts' : List Stmt} {f f' : State → State}
    (h : Does pre stmts f) (h' : Does pre' stmts' f') (hpre : ∀ s, pre s → pre' (f s)) :
    Does pre (stmts ++ stmts') (f' ∘ f) := by
  intro g
  obtain ⟨ws, hws, hy⟩ := h g
  obtain ⟨ws', hws', hy'⟩ := h' g
  exact ⟨ws ++ ws', by rw [assemble_append, hws, hws']; rfl, hy.append hy' hpre⟩

/-- A statement and those behind it. -/
lemma Does.cons {pre pre' : State → Prop} {st : Stmt} {stmts : List Stmt} {f f' : State → State}
    (h : Does pre [st] f) (h' : Does pre' stmts f') (hpre : ∀ s, pre s → pre' (f s)) :
    Does pre (st :: stmts) (f' ∘ f) := h.append h' hpre

/-- A statement that is rejected among others. -/
lemma assemble_eq_none_of_mem {g : ℕ → ExpressionS} {st : Stmt} {stmts : List Stmt} (hmem : st ∈ stmts)
    (h : st.assemble g = none) : assemble g stmts = none := by
  induction stmts with
  | nil => simp at hmem
  | cons st' stmts ih =>
    rcases List.mem_cons.mp hmem with rfl | hmem
    · simp [assemble, h]
    · cases h' : st'.assemble g <;> simp [assemble, h', ih hmem]

/-! ## Rows of the table -/

/-- The rows for the instructions that are printed. -/
def gccRows : List DadaoOpcode := [
  ⟨"ldo", 3, 51, 0, .rd, .rb, .imms12, .none, .dref⟩,
  ⟨"ldo", 3, 67, 0, .rb, .rb, .imms12, .none, .dref⟩,
  ⟨"sto", 3, 75, 0, .rb, .rb, .imms12, .none, .dref⟩,
  ⟨"ldtu", 3, 66, 0, .rd, .rb, .imms12, .none, .dref⟩,
  ⟨"stt", 3, 58, 0, .rd, .rb, .imms12, .none, .dref⟩,
  ⟨"ldmo", 4, 55, 0, .rd, .rb, .rd, .immu6, .dref⟩,
  ⟨"ldmo", 4, 71, 0, .rb, .rb, .rd, .immu6, .dref⟩,
  ⟨"stmo", 4, 79, 0, .rb, .rb, .rd, .immu6, .dref⟩,
  ⟨"rd2rd", 3, 16, 40, .op, .rd, .rd, .immu6, .normal⟩,
  ⟨"rd2rb", 3, 16, 41, .op, .rb, .rd, .immu6, .normal⟩,
  ⟨"rb2rd", 3, 16, 42, .op, .rd, .rb, .immu6, .normal⟩,
  ⟨"rb2rb", 3, 16, 43, .op, .rb, .rb, .immu6, .normal⟩,
  ⟨"add", 4, 26, 0, .rd, .rd, .rd, .rd, .normal⟩,
  ⟨"sub", 4, 27, 0, .rd, .rd, .rd, .rd, .normal⟩,
  ⟨"mulu", 4, 29, 0, .rd, .rd, .rd, .rd, .normal⟩,
  ⟨"divs", 4, 30, 0, .rd, .rd, .rd, .rd, .normal⟩,
  ⟨"divu", 4, 31, 0, .rd, .rd, .rd, .rd, .normal⟩,
  ⟨"addi", 3, 25, 0, .rd, .rd, .imms12, .none, .normal⟩,
  ⟨"addi", 3, 73, 0, .rb, .rb, .imms12, .none, .normal⟩,
  ⟨"cmps", 3, 18, 0, .rd, .rd, .imms12, .none, .normal⟩,
  ⟨"cmpu", 3, 19, 0, .rd, .rd, .immu12, .none, .normal⟩,
  ⟨"add", 3, 16, 46, .op, .rb, .rb, .rd, .normal⟩,
  ⟨"sub", 3, 16, 47, .op, .rb, .rb, .rd, .normal⟩,
  ⟨"cmps", 3, 16, 36, .op, .rd, .rd, .rd, .normal⟩,
  ⟨"cmpu", 3, 16, 37, .op, .rd, .rd, .rd, .normal⟩,
  ⟨"and", 3, 16, 8, .op, .rd, .rd, .rd, .normal⟩,
  ⟨"orr", 3, 16, 9, .op, .rd, .rd, .rd, .normal⟩,
  ⟨"xor", 3, 16, 10, .op, .rd, .rd, .rd, .normal⟩,
  ⟨"xnor", 3, 16, 11, .op, .rd, .rd, .rd, .normal⟩,
  ⟨"shlu", 3, 16, 17, .op, .rd, .rd, .rd, .normal⟩,
  ⟨"shrs", 3, 16, 18, .op, .rd, .rd, .rd, .normal⟩,
  ⟨"shru", 3, 16, 19, .op, .rd, .rd, .rd, .normal⟩,
  ⟨"shlu", 3, 16, 25, .op, .rd, .rd, .immu6, .normal⟩,
  ⟨"shrs", 3, 16, 26, .op, .rd, .rd, .immu6, .normal⟩,
  ⟨"shru", 3, 16, 27, .op, .rd, .rd, .immu6, .normal⟩,
  ⟨"ftqcmp", 3, 80, 32, .op, .rd, .rf, .rf, .normal⟩,
  ⟨"foqcmp", 3, 80, 40, .op, .rd, .rf, .rf, .normal⟩,
  ⟨"brn", 2, 40, 0, .rd, .imms18, .none, .none, .condbranch⟩,
  ⟨"brnn", 2, 41, 0, .rd, .imms18, .none, .none, .condbranch⟩,
  ⟨"brz", 2, 42, 0, .rd, .imms18, .none, .none, .condbranch⟩,
  ⟨"brnz", 2, 43, 0, .rd, .imms18, .none, .none, .condbranch⟩,
  ⟨"brp", 2, 44, 0, .rd, .imms18, .none, .none, .condbranch⟩,
  ⟨"brnp", 2, 45, 0, .rd, .imms18, .none, .none, .condbranch⟩]

/-- The rows tried for the mnemonics of which some operands are rejected. -/
def gccChains : List (String × List DadaoOpcode) := [
  ("addi", [⟨"addi", 3, 25, 0, .rd, .rd, .imms12, .none, .normal⟩,
    ⟨"addi", 3, 73, 0, .rb, .rb, .imms12, .none, .normal⟩]),
  ("sub", [⟨"sub", 4, 27, 0, .rd, .rd, .rd, .rd, .normal⟩,
    ⟨"sub", 3, 16, 47, .op, .rb, .rb, .rd, .normal⟩]),
  ("ldtu", [⟨"ldtu", 3, 66, 0, .rd, .rb, .imms12, .none, .dref⟩]),
  ("stt", [⟨"stt", 3, 58, 0, .rd, .rb, .imms12, .none, .dref⟩,
    ⟨"stt", 3, 90, 0, .rf, .rb, .imms12, .none, .dref⟩])]

/-- The rows are in the table, and these are the chains. -/
def gccCheck (rows : List DadaoOpcode) (h : OpcodeHash) : Bool :=
  gccRows.all rows.contains && gccChains.all fun c => h.chain c.1 == c.2

/-- The generated table has the rows. -/
lemma gccCheck_eq : gccCheck opcTable (mdBegin dadaoOpcodes) = true := by
  simp only [gccCheck, chain_mdBegin, rowsOf_eq_nameKey]
  rw [dadaoOpcodes, opcTable_eq]
  decide +kernel

lemma mem_opcTable {r : DadaoOpcode} (h : r ∈ gccRows) : r ∈ opcTable := by
  have hcheck := gccCheck_eq
  simp only [gccCheck, Bool.and_eq_true, List.all_eq_true, List.contains_iff_mem] at hcheck
  exact hcheck.1 r h

/-- What a check of the chains says. -/
lemma chain_of_gccCheck {rows : List DadaoOpcode} {h : OpcodeHash} (hcheck : gccCheck rows h = true)
    {name : String} {chain : List DadaoOpcode} (hmem : (name, chain) ∈ gccChains) : h.chain name = chain := by
  simp only [gccCheck, Bool.and_eq_true, List.all_eq_true, beq_iff_eq] at hcheck
  exact hcheck.2 _ hmem

lemma chain_eq {name : String} {chain : List DadaoOpcode} (h : (name, chain) ∈ gccChains) :
    (mdBegin dadaoOpcodes).chain name = chain := chain_of_gccCheck gccCheck_eq h

/-- None of them is the call through registers. -/
lemma not_isCallZero {r : DadaoOpcode} (h : r ∈ gccRows) (vals : List ℤ) : ¬ IsCallZero r vals := by
  have hmajor : ∀ r ∈ gccRows, r.majorOpcode ≠ 0x6D#32 := by decide
  exact fun hzero => hmajor r h hzero.2.1

/-- **A statement with operands in range of a row** of the table. -/
lemma assemble_of_mem {r : DadaoOpcode} (vals : List ℤ) {opnds : List Opnd} (hr : r ∈ opcTable)
    (hzero : ¬ IsCallZero r vals) (hset : r.name ≠ "setrd" ∧ r.name ≠ "setrb")
    (hopnds : opnds.map Opnd.exp = operands r vals) (hv : List.Forall₂ InRange (operandKinds r) vals)
    (hexceeds : (Stmt.mk r.name opnds).exceeds = false) (g : ℕ → ExpressionS) :
    assemble g [⟨r.name, opnds⟩] = some [BitVec.ofNat 32 (encode r vals)] := by
  have hlen : opnds.length = vals.length := by
    have h := congrArg List.length hopnds
    rwa [List.length_map, operands, List.length_zipWith, hv.length_eq, Nat.min_self] at h
  have hexp : HasOperands (Stmt.mk r.name opnds).exp (operands r vals) := by
    intro i e he
    rw [← hopnds, List.getElem?_map] at he
    rw [Stmt.exp, he, Option.getD_some]
  have hcode : mdAssembleCode g r.name (Stmt.mk r.name opnds).exp opnds.length =
      some (.normal, BitVec.ofNat 32 (encode r vals)) := by
    rw [hlen, mdAssembleCode_eq hv hexp hr, if_neg hzero]
  have hst : (Stmt.mk r.name opnds).assemble g = some [BitVec.ofNat 32 (encode r vals)] := by
    rw [Stmt.assemble, hexceeds, if_neg (by simp), if_neg (by simp [hset])]
    simp only [hcode]
  simp [assemble, hst]

/-- The same for the rows of the instructions that are printed. -/
lemma assemble_of_row {r : DadaoOpcode} (vals : List ℤ) {opnds : List Opnd} (hr : r ∈ gccRows)
    (hset : r.name ≠ "setrd" ∧ r.name ≠ "setrb") (hopnds : opnds.map Opnd.exp = operands r vals)
    (hv : List.Forall₂ InRange (operandKinds r) vals) (hexceeds : (Stmt.mk r.name opnds).exceeds = false)
    (g : ℕ → ExpressionS) : assemble g [⟨r.name, opnds⟩] = some [BitVec.ofNat 32 (encode r vals)] :=
  assemble_of_mem vals (mem_opcTable hr) (not_isCallZero hr vals) hset hopnds hv hexceeds g

/-- Such a statement does what its word does. -/
lemma does_of_row {r : DadaoOpcode} (vals : List ℤ) {opnds : List Opnd} {pre : State → Prop}
    {f : State → State} (hr : r ∈ gccRows) (hset : r.name ≠ "setrd" ∧ r.name ≠ "setrb")
    (hopnds : opnds.map Opnd.exp = operands r vals) (hv : List.Forall₂ InRange (operandKinds r) vals)
    (hexceeds : (Stmt.mk r.name opnds).exceeds = false)
    (hy : Yields pre [BitVec.ofNat 32 (encode r vals)] f) : Does pre [⟨r.name, opnds⟩] f :=
  fun g => ⟨_, assemble_of_row vals hr hset hopnds hv hexceeds g, hy⟩

end Dadao.Gcc
