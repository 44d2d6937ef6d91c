import Dadao.Bfd.FinalLink
import Dadao.Gas.RoundTrip

set_option relaxedAutoImplicit false
set_option autoImplicit false

/-!
# Relocations of the assembler

The part of `gas/config/tc-dadao.c` that leaves the value of a symbolic operand to the linker: the last switch
of `dadao_md_assemble`, `dd_pseudo_set_symbol`, the state of a relaxable fragment and the fixup it is converted
to, and `tc_gen_reloc`. With `-no-expand` the fixup is made at once, at the instruction.

The linker patches the word before the offset of a relocation, which is the instruction only if the fixup was
made behind it.

## Main definitions

* `Dadao.Gas.mdAssemble` — the instruction word and the symbolic operand left over.
* `Dadao.Gas.gasReloc` — the relocation of a statement.
* `Dadao.Gas.Agrees` — the linker patches the instruction with the value of its operand.

## Main results

* `Dadao.Gas.formCheck_dadaoOpcodes` — the rows of the mnemonics that take a symbol.
* `Dadao.Gas.agrees_iff` — when the assembler and the linker agree.
-/

namespace Dadao.Gas

open Dadao.Opcodes Dadao.Bfd

/-! ## Assembling a symbolic operand -/

/-- The states of a relaxable fragment, `STATE_ABS` to `STATE_BRCC12`. -/
inductive RelaxState where
  | abs | brcc | call | jump | hi18 | lo12 | brcc12
  deriving DecidableEq, Repr

/-- The relocation of `HANDLE_MAX_RELOC`. -/
def RelaxState.reloc : RelaxState → RelocType
  | .abs => .abs
  | .brcc => .brcc
  | .call => .call
  | .jump => .jump
  | .hi18 => .hi18
  | .lo12 => .lo12
  | .brcc12 => .brcc12

/-- The last switch of `dadao_md_assemble`: the state for a return value, and the operand that goes into the
fragment. -/
def switchRetCode : InsnType → Option (RelaxState × ℕ)
  | .condbranch => some (.brcc, 1)
  | .condbranch12 => some (.brcc12, 2)
  | .geta => some (.abs, 1)
  | .branch => some (.jump, 0)
  | .jsr => some (.call, 0)
  | .adrp => some (.hi18, 1)
  | .lo12 => some (.lo12, 2)
  | _ => none

/-- A parsed statement: the mnemonic, the operands with their number, and whether one of them is a `%lo`
(`is_adrp`). -/
structure Statement where
  name : String
  exp : ℕ → ExpressionS
  nOperands : ℕ
  isLo : Bool

/-- The last operand. -/
def Statement.lastOperand (st : Statement) : ExpressionS := st.exp (st.nOperands - 1)

/-- What is not part of the backend: the parts of gas it calls, the segments of the symbols, where symbol 0 is
`NULL`, and the value `insn_code` has before it is assigned. -/
structure GasEnv where
  symbolGetValueExpression : ℕ → ExpressionS
  /-- The symbol and the offset of `fix_new_exp`; `none` is an error. -/
  fixNewExp : ExpressionS → Option (ℕ × ℤ)
  fixNewExp_symbol : ∀ e : ExpressionS, e.xOp = .symbol → fixNewExp e = some (e.xAddSymbol, e.xAddNumber)
  /-- The symbol is defined in the segment and not weak. -/
  sameSegment : ℕ → Bool
  junk : BitVec 32

/-- The pseudo instructions that load an address. -/
def setNames : List String := ["setrd", "setrb", "setrf"]

/-- A register is set to a symbol. -/
def Statement.setsSymbol (st : Statement) : Bool :=
  setNames.contains st.name && st.nOperands == 2 && (st.exp 0).xOp == .register && (st.exp 1).xOp == .symbol

/-- The operand a relocation is made for: with `-no-expand` always the second. -/
def requested (expandOp : Bool) (st : Statement) (type : InsnType) : Option (RelaxState × ExpressionS) :=
  (switchRetCode type).map fun p => (p.1, st.exp (if expandOp then p.2 else 1))

/-- `dadao_md_assemble` with the first row of the mnemonic and the result of `dd_get_insn_code` for the rows tried in
turn. -/
def assembleRows (env : GasEnv) (expandOp : Bool) (st : Statement) (first : Option DadaoOpcode) (ret : Ret) :
    Option (BitVec 32 × Option (RelaxState × ExpressionS)) :=
  match first with
  | none => none
  | some insn =>
    if st.setsSymbol then
      some (ddPseudoSetSymbol (st.exp 0).xAddNumber.toNat, some (.abs, st.exp 1))
    else if setNames.contains st.name then none
    else if st.isLo then
      -- the return value is replaced, whatever the first row says
      let code := match ddGetInsnCode env.symbolGetValueExpression insn st.exp st.nOperands with
        | some (_, code) => code
        | none => env.junk
      some (code, requested expandOp st .lo12)
    else
      match ret with
      | some (.normal, code) => some (code, none)
      | some (type, code) =>
        if (switchRetCode type).isSome then some (code, requested expandOp st type) else none
      | none => none

/-- `dadao_md_assemble` for a statement with a symbolic operand: the word and the operand that is left to the
linker. `none` is an error; the constants and registers that `setrd`, `setrb` and `setrf` take instead of a symbol
are left out. -/
def mdAssemble (env : GasEnv) (expandOp : Bool) (st : Statement) :
    Option (BitVec 32 × Option (RelaxState × ExpressionS)) :=
  assembleRows env expandOp st (hashFind (mdBegin dadaoOpcodes).hash1 st.name)
    (mdAssembleCode env.symbolGetValueExpression st.name st.exp st.nOperands)

/-! ## Fragments and fixups -/

/-- A relaxable fragment: the size of its fixed part, which ends with the instruction, the place of the
instruction in it, its state and its symbol. `undf` is `STATE_UNDF`, the same as `STATE_MAX`. -/
structure Frag where
  frFix : ℕ
  frOpcode : ℕ
  state : RelaxState
  undf : Bool
  frSymbol : ℕ
  frOffset : ℤ
  deriving DecidableEq, Repr

/-- `frag_var` behind an instruction at an offset. -/
def fragVar (opcodep : ℕ) (state : RelaxState) (e : ExpressionS) : Frag where
  frFix := opcodep + 4
  frOpcode := opcodep
  state := state
  undf := true
  frSymbol := e.xAddSymbol
  frOffset := e.xAddNumber

/-- The subtype after `md_estimate_size_before_relax`. -/
def mdEstimateSizeBeforeRelax (sameSegment : ℕ → Bool) (f : Frag) : Frag :=
  match f.state with
  | .abs => f
  | _ => if f.frSymbol ≠ 0 ∧ sameSegment f.frSymbol = true then { f with undf := false } else f

/-- A fixup (`fixS`). -/
structure FixS where
  fxWhere : ℕ
  fxAddsy : ℕ
  fxOffset : ℤ
  fxRType : RelocType
  deriving DecidableEq, Repr

/-- The fixup of `md_convert_frag`, at the start of the variable part. -/
def mdConvertFrag (f : Frag) : Option FixS :=
  if f.undf then some ⟨f.frFix, f.frSymbol, f.frOffset, f.state.reloc⟩ else none

/-- The fixup of an operand. -/
def fixOf (env : GasEnv) (expandOp : Bool) (opcodep : ℕ) (state : RelaxState) (e : ExpressionS) : Option FixS :=
  if expandOp then mdConvertFrag (mdEstimateSizeBeforeRelax env.sameSegment (fragVar opcodep state e))
  else (env.fixNewExp e).map fun p => ⟨opcodep, p.1, p.2, state.reloc⟩

/-- A relocation of an object file. -/
structure Reloc where
  address : BitVec 64
  type : RelocType
  symbol : ℕ
  addend : ℤ
  deriving DecidableEq, Repr

/-- `tc_gen_reloc`. -/
def tcGenReloc (frAddress : BitVec 64) (fix : FixS) : Reloc where
  address := frAddress + BitVec.ofNat 64 fix.fxWhere
  type := fix.fxRType
  symbol := fix.fxAddsy
  addend := fix.fxOffset

/-- **The relocation of a statement** whose instruction is put down at an offset of a fragment. -/
def gasReloc (env : GasEnv) (expandOp : Bool) (frAddress : BitVec 64) (opcodep : ℕ) (st : Statement) :
    Option Reloc := do
  let (_, request) ← mdAssemble env expandOp st
  let (state, e) ← request
  let fix ← fixOf env expandOp opcodep state e
  return tcGenReloc frAddress fix

/-! ## What the linker makes of it -/

/-- The word `dadao_final_link_relocate` patches. -/
def Reloc.patchedWord (r : Reloc) : BitVec 64 := r.address - 4

/-- **The assembler and the linker agree** on a statement: there is a relocation, the linker patches the
instruction and nothing else, and the symbol and addend are those of the operand. -/
def Agrees (env : GasEnv) (expandOp : Bool) (frAddress : BitVec 64) (opcodep : ℕ) (st : Statement) : Prop :=
  ∃ r, gasReloc env expandOp frAddress opcodep st = some r ∧
    r.patchedWord = frAddress + BitVec.ofNat 64 opcodep ∧
    r.symbol = st.lastOperand.xAddSymbol ∧ r.addend = st.lastOperand.xAddNumber ∧
    ∀ (ov : CheckOverflow) (junk : BitVec 32) (p : Placement) (m : Memory) (symbol a : BitVec 64),
      patchedBytes r.type ≤ Memory.offsetFrom (frAddress + BitVec.ofNat 64 opcodep) a →
      (dadaoFinalLinkRelocate ov junk r.type p m r.address (BitVec.ofInt 64 r.addend) symbol).2 a = m a

/-! ## The forms -/

/-- The forms of instructions whose operand is left to the linker. -/
inductive Form where
  | set | brcc | brcc12 | call | jump | adrp | lo
  deriving DecidableEq, Repr

/-- The form of a statement. -/
def Statement.form (st : Statement) : Option Form :=
  if st.isLo then if st.nOperands = 3 then some .lo else none
  else if setNames.contains st.name then if st.nOperands = 2 then some .set else none
  else if ["brn", "brnn", "brz", "brnz", "brp", "brnp"].contains st.name then some .brcc
  else if ["breq", "brne"].contains st.name then some .brcc12
  else if st.name = "call" then some .call
  else if st.name = "jump" then some .jump
  else if st.name = "adrp" then some .adrp
  else none

/-- A statement of a form that the assembler accepts, the last operand of which is a symbol that is not
resolved in the section. -/
structure Relocatable (env : GasEnv) (expandOp : Bool) (st : Statement) (f : Form) : Prop where
  form : st.form = some f
  accepted : (mdAssemble env expandOp st).isSome = true
  symbolic : st.lastOperand.xOp = .symbol
  unresolved : f = .set ∨ env.sameSegment st.lastOperand.xAddSymbol = false
  /-- Registers have no symbol. -/
  register : ∀ i, (st.exp i).xOp = .register → (st.exp i).xAddSymbol = 0
  /-- A symbol is not `NULL`. -/
  symbol : st.lastOperand.xAddSymbol ≠ 0

/-! ## The hash tables -/

/-- Every entry is a row under its own name. -/
def FromRows (rows : List DadaoOpcode) (h : HashControl) : Prop :=
  ∀ p ∈ h, p.2 ∈ rows ∧ p.2.name = p.1

lemma FromRows.hashFind {rows : List DadaoOpcode} {h : HashControl} (hh : FromRows rows h) {name : String}
    {r : DadaoOpcode} (hr : hashFind h name = some r) : r ∈ rows ∧ r.name = name := by
  obtain ⟨l₁, l₂, heq, -⟩ := List.lookup_eq_some_iff.mp hr
  exact hh (name, r) (by rw [heq]; simp)

lemma FromRows.insert {rows : List DadaoOpcode} {h : HashControl} (hh : FromRows rows h) (r : DadaoOpcode) :
    FromRows (rows ++ [r]) (hashInsert h r.name r) := by
  intro p hp
  rw [hashInsert] at hp
  split_ifs at hp
  · exact ⟨List.mem_append_left _ (hh p hp).1, (hh p hp).2⟩
  · rcases List.mem_append.mp hp with hp | hp
    · exact ⟨List.mem_append_left _ (hh p hp).1, (hh p hp).2⟩
    · rw [List.mem_singleton.mp hp]
      exact ⟨List.mem_append_right _ (List.mem_singleton.mpr rfl), rfl⟩

lemma FromRows.mono {rows : List DadaoOpcode} {h : HashControl} (hh : FromRows rows h) (r : DadaoOpcode) :
    FromRows (rows ++ [r]) h :=
  fun p hp => ⟨List.mem_append_left _ (hh p hp).1, (hh p hp).2⟩

/-- A name is found after an insertion if it was before, or if it has been inserted. -/
lemma hashFind_isSome_hashInsert {h : HashControl} {k key : String} {r : DadaoOpcode}
    (hk : (hashFind h k).isSome = true ∨ key = k) : (hashFind (hashInsert h key r) k).isSome = true := by
  rw [hashFind, List.lookup_isSome_iff] at *
  rw [hashInsert]
  split_ifs with hany
  · rcases hk with hk | rfl
    · exact hk
    · obtain ⟨p, hp, heq⟩ := List.any_eq_true.mp hany
      exact ⟨p, hp, by rw [eq_of_beq heq]; simp⟩
  · rcases hk with ⟨p, hp, heq⟩ | rfl
    · exact ⟨p, List.mem_append_left _ hp, heq⟩
    · exact ⟨(key, r), List.mem_append_right _ (List.mem_singleton.mpr rfl), by simp⟩

/-- The tables after some rows: they hold these rows only, and the first one every name. -/
structure TablesFrom (rows : List DadaoOpcode) (h : OpcodeHash) : Prop where
  hash1 : FromRows rows h.hash1
  hash2 : FromRows rows h.hash2
  hash3 : FromRows rows h.hash3
  hash4 : FromRows rows h.hash4
  hash5 : FromRows rows h.hash5
  names : ∀ r ∈ rows, (hashFind h.hash1 r.name).isSome = true

/-- **One row more.** -/
lemma TablesFrom.step {rows : List DadaoOpcode} {h : OpcodeHash} (hh : TablesFrom rows h) (r : DadaoOpcode) :
    TablesFrom (rows ++ [r]) (mdBeginStep h r) := by
  -- a name found in any table is in the first one
  have hfound : ∀ {t : HashControl}, FromRows rows t → (hashFind t r.name).isSome = true →
      (hashFind h.hash1 r.name).isSome = true := by
    intro t ht hsome
    obtain ⟨r', hr'⟩ := Option.isSome_iff_exists.mp hsome
    obtain ⟨hmem, hname⟩ := ht.hashFind hr'
    rw [← hname]
    exact hh.names r' hmem
  have hnames : (hashFind h.hash1 r.name).isSome = true → ∀ r' ∈ rows ++ [r],
      (hashFind h.hash1 r'.name).isSome = true := by
    intro hr r' hr'
    rcases List.mem_append.mp hr' with hr' | hr'
    · exact hh.names r' hr'
    · rw [List.mem_singleton.mp hr']
      exact hr
  rw [mdBeginStep]
  split_ifs with h4 h3 h2 h1
  · exact ⟨hh.hash1.mono r, hh.hash2.mono r, hh.hash3.mono r, hh.hash4.mono r, hh.hash5.insert r,
      hnames (hfound hh.hash4 h4)⟩
  · exact ⟨hh.hash1.mono r, hh.hash2.mono r, hh.hash3.mono r, hh.hash4.insert r, hh.hash5.mono r,
      hnames (hfound hh.hash3 h3)⟩
  · exact ⟨hh.hash1.mono r, hh.hash2.mono r, hh.hash3.insert r, hh.hash4.mono r, hh.hash5.mono r,
      hnames (hfound hh.hash2 h2)⟩
  · exact ⟨hh.hash1.mono r, hh.hash2.insert r, hh.hash3.mono r, hh.hash4.mono r, hh.hash5.mono r, hnames h1⟩
  · refine ⟨hh.hash1.insert r, hh.hash2.mono r, hh.hash3.mono r, hh.hash4.mono r, hh.hash5.mono r, ?_⟩
    intro r' hr'
    rcases List.mem_append.mp hr' with hr' | hr'
    · exact hashFind_isSome_hashInsert (.inl (hh.names r' hr'))
    · rw [List.mem_singleton.mp hr']
      exact hashFind_isSome_hashInsert (.inr rfl)

/-- **The tables of the assembler** hold the rows of the opcode table. -/
lemma tablesFrom_mdBegin (rows : List DadaoOpcode) : TablesFrom rows (mdBegin rows) := by
  have hrun : ∀ (rest seen : List DadaoOpcode) (h : OpcodeHash), TablesFrom seen h →
      TablesFrom (seen ++ rest) (rest.foldl mdBeginStep h) := by
    intro rest
    induction rest with
    | nil =>
      intro seen h hh
      rwa [List.append_nil]
    | cons r rest ih =>
      intro seen h hh
      have hstep := ih (seen ++ [r]) (mdBeginStep h r) (hh.step r)
      rwa [List.append_assoc] at hstep
  have hnil : ∀ rows, FromRows rows [] := fun _ p hp => absurd hp List.not_mem_nil
  exact hrun rows [] ⟨[], [], [], [], []⟩ ⟨hnil _, hnil _, hnil _, hnil _, hnil _, by simp⟩

/-- The rows tried for a mnemonic are rows of that name. -/
lemma mem_chain {rows : List DadaoOpcode} {name : String} {r : DadaoOpcode}
    (hr : r ∈ (mdBegin rows).chain name) : r ∈ rows ∧ r.name = name := by
  have h := tablesFrom_mdBegin rows
  obtain ⟨t, ht, hfind⟩ := List.mem_filterMap.mp hr
  simp only [List.mem_cons, List.not_mem_nil, or_false] at ht
  rcases ht with rfl | rfl | rfl | rfl | rfl
  · exact h.hash1.hashFind hfind
  · exact h.hash2.hashFind hfind
  · exact h.hash3.hashFind hfind
  · exact h.hash4.hashFind hfind
  · exact h.hash5.hashFind hfind

/-- The row that accepts the operands. -/
lemma exists_row_of_tryRows {f : ℕ → ExpressionS} {exp : ℕ → ExpressionS} {n : ℕ} {rows : List DadaoOpcode}
    {res : InsnType × BitVec 32} (h : tryRows f exp n rows = some res) :
    ∃ r ∈ rows, ddGetInsnCode f r exp n = some res := by
  induction rows with
  | nil => exact absurd h (by simp [tryRows])
  | cons r rows ih =>
    rw [tryRows] at h
    split at h
    · obtain ⟨r', hr', hcode⟩ := ih h
      exact ⟨r', List.mem_cons_of_mem _ hr', hcode⟩
    · rename_i res' hres
      exact ⟨r, List.mem_cons_self, hres.trans h⟩

lemma exists_row_of_mdAssembleCode {f : ℕ → ExpressionS} {name : String} {exp : ℕ → ExpressionS} {n : ℕ}
    {res : InsnType × BitVec 32} (h : mdAssembleCode f name exp n = some res) :
    ∃ r ∈ dadaoOpcodes, r.name = name ∧ ddGetInsnCode f r exp n = some res := by
  rw [mdAssembleCode] at h
  split_ifs at h
  obtain ⟨r, hr, hcode⟩ := exists_row_of_tryRows h
  exact ⟨r, (mem_chain hr).1, (mem_chain hr).2, hcode⟩

/-! ## The rows of the forms -/

/-- The row takes its target in the word as a whole. -/
def isDirect (r : DadaoOpcode) : Bool := r.opFa == .imms24 && r.operandsNum == 1

/-- The row takes two registers and an offset. -/
def isThroughRegisters (a : OperandType) (r : DadaoOpcode) : Bool :=
  r.opFa == a && r.opFb == .rd && r.opFc == .imms12 && r.operandsNum == 3

/-- A row of a register and an 18-bit immediate. -/
def hasOneRegister (a : OperandType) (r : DadaoOpcode) : Bool :=
  r.opFa == a && r.opFb == .imms18 && r.operandsNum == 2

/-- What the forms need to know about the rows: the operands and the type of the mnemonics that take a symbol. -/
def formCheck (r : DadaoOpcode) : Bool :=
  if ["brn", "brnn", "brz", "brnz", "brp", "brnp"].contains r.name then
    r.type == .condbranch && hasOneRegister .rd r
  else if ["breq", "brne"].contains r.name then r.type == .condbranch12 && isThroughRegisters .rd r
  else if r.name == "call" then r.type == .jsr && (isDirect r || isThroughRegisters .rb r)
  else if r.name == "jump" then r.type == .branch && (isDirect r || isThroughRegisters .rb r)
  else if r.name == "adrp" then r.type == .normal && hasOneRegister .rb r
  else true

/-- The generated table passes the check. -/
lemma formCheck_dadaoOpcodes : dadaoOpcodes.all formCheck = true := by
  rw [dadaoOpcodes, opcTable_eq]
  decide +kernel

/-! ## Symbolic operands -/

section Rows

variable {f : ℕ → ExpressionS} {r : DadaoOpcode} {exp : ℕ → ExpressionS} {n : ℕ} {t : InsnType}
  {code : BitVec 32}

/-- The number of operands of a row that accepts them. -/
lemma operandsNum_of_ddGetInsnCode (h : ddGetInsnCode f r exp n = some (t, code)) : n = r.operandsNum := by
  by_contra hne
  have hbody : getInsnCodeBody f r exp n = .error none := by
    rw [getInsnCodeBody, if_pos hne]
    rfl
  rw [ddGetInsnCode, hbody] at h
  exact absurd h (by simp)

/-- A register operand. -/
lemma exists_expShouldBeRd (e : ExpressionS) :
    (∃ v, expShouldBeRd e = .ok v ∧ e.xOp = .register) ∨ expShouldBeRd e = .error none := by
  rw [expShouldBeRd]
  split_ifs with hop hmax
  · exact .inr rfl
  · exact .inr rfl
  · exact .inl ⟨_, rfl, not_not.mp hop⟩

lemma exists_expShouldBeRb (e : ExpressionS) :
    (∃ v, expShouldBeRb e = .ok v ∧ e.xOp = .register) ∨ expShouldBeRb e = .error none := by
  rw [expShouldBeRb, expShouldBeReg]
  split_ifs with hop hmax hmin
  · exact .inr rfl
  · exact .inr rfl
  · exact .inr rfl
  · exact .inl ⟨_, rfl, not_not.mp hop⟩

/-- The first operand of a row that starts with a register. -/
lemma exists_switchFa (exp : ℕ → ExpressionS) (hfa : r.opFa = .rd ∨ r.opFa = .rb) :
    (∃ v, switchFa r exp = .ok (v, 1) ∧ (exp 0).xOp = .register) ∨ switchFa r exp = .error none := by
  rcases hfa with hfa | hfa
  · rw [switchFa, hfa]
    rcases exists_expShouldBeRd (exp 0) with ⟨v, hv, hop⟩ | hnone
    · exact .inl ⟨v, by simp only [hv]; rfl, hop⟩
    · exact .inr (by simp only [hnone]; rfl)
  · rw [switchFa, hfa]
    rcases exists_expShouldBeRb (exp 0) with ⟨v, hv, hop⟩ | hnone
    · exact .inl ⟨v, by simp only [hv]; rfl, hop⟩
    · exact .inr (by simp only [hnone]; rfl)

/-- **A target** in the word as a whole. -/
lemma type_of_isDirect (hr : isDirect r = true) (h : ddGetInsnCode f r exp n = some (t, code))
    (hsym : (exp 0).xOp = .symbol) : n = 1 ∧ t = r.type := by
  have hn := operandsNum_of_ddGetInsnCode h
  rw [isDirect, Bool.and_eq_true] at hr
  have hfa : r.opFa = .imms24 := eq_of_beq hr.1
  refine ⟨hn.trans (eq_of_beq hr.2), ?_⟩
  have hbody : getInsnCodeBody f r exp n = .error (some (r.type, r.majorOpcode <<< 24)) := by
    rw [getInsnCodeBody, if_neg (not_not.mpr hn), switchFa, hfa]
    simp only [hsym]
    rfl
  rw [ddGetInsnCode, hbody] at h
  exact (Prod.mk.inj (Option.some.inj h)).1.symm

/-- **An 18-bit immediate** behind a register. -/
lemma type_of_hasOneRegister {a : OperandType} (ha : a = .rd ∨ a = .rb) (hr : hasOneRegister a r = true)
    (h : ddGetInsnCode f r exp n = some (t, code)) (hsym : (exp 1).xOp = .symbol) : n = 2 ∧ t = r.type := by
  have hn := operandsNum_of_ddGetInsnCode h
  rw [hasOneRegister, Bool.and_eq_true, Bool.and_eq_true] at hr
  have hfa : r.opFa = a := eq_of_beq hr.1.1
  have hfb : r.opFb = .imms18 := eq_of_beq hr.1.2
  refine ⟨hn.trans (eq_of_beq hr.2), ?_⟩
  rcases exists_switchFa exp (hfa ▸ ha) with ⟨v, hv, -⟩ | hnone
  · have hsecond : switchFb r exp v 1 = .error (some (r.type, r.majorOpcode <<< 24 ||| v <<< 18)) := by
      rw [switchFb, hfb]
      simp only [hsym]
      rfl
    have hbody : getInsnCodeBody f r exp n = .error (some (r.type, r.majorOpcode <<< 24 ||| v <<< 18)) := by
      rw [getInsnCodeBody, if_neg (not_not.mpr hn), hv]
      change (switchFb r exp v 1 >>= _) = _
      rw [hsecond]
      rfl
    rw [ddGetInsnCode, hbody] at h
    exact (Prod.mk.inj (Option.some.inj h)).1.symm
  · have hbody : getInsnCodeBody f r exp n = .error none := by
      rw [getInsnCodeBody, if_neg (not_not.mpr hn), hnone]
      rfl
    rw [ddGetInsnCode, hbody] at h
    exact absurd h (by simp)

/-- **An offset** behind two registers. -/
lemma type_of_isThroughRegisters {a : OperandType} (ha : a = .rd ∨ a = .rb) (hr : isThroughRegisters a r = true)
    (h : ddGetInsnCode f r exp n = some (t, code)) (hsym : (exp 2).xOp = .symbol) :
    n = 3 ∧ t = r.type ∧ (exp 0).xOp = .register := by
  have hn := operandsNum_of_ddGetInsnCode h
  rw [isThroughRegisters, Bool.and_eq_true, Bool.and_eq_true, Bool.and_eq_true] at hr
  have hfa : r.opFa = a := eq_of_beq hr.1.1.1
  have hfb : r.opFb = .rd := eq_of_beq hr.1.1.2
  have hfc : r.opFc = .imms12 := eq_of_beq hr.1.2
  refine ⟨hn.trans (eq_of_beq hr.2), ?_⟩
  have herror : getInsnCodeBody f r exp n = .error none → False := by
    intro hbody
    rw [ddGetInsnCode, hbody] at h
    exact absurd h (by simp)
  rcases exists_switchFa exp (hfa ▸ ha) with ⟨v, hv, hop⟩ | hnone
  · refine ⟨?_, hop⟩
    rcases exists_expShouldBeRd (exp 1) with ⟨v', hv', -⟩ | hnone
    · have hsecond : switchFb r exp v 1 = .ok (v', 2) := by
        rw [switchFb, hfb]
        simp only [hv']
        rfl
      have hnext : expNextLast f r exp n 2 = .ok (exp 2, exp 3) := by
        rw [expNextLast, if_neg]
        rw [hsym]
        rintro ⟨-, hshift⟩
        exact absurd hshift (by decide)
      have hthird : ∀ e, switchFc r v v' e (exp 2) =
          .error (some (r.type, r.majorOpcode <<< 24 ||| v <<< 18 ||| v' <<< 12)) := by
        intro e
        rw [switchFc, hfc]
        exact if_pos hsym
      have hbody : getInsnCodeBody f r exp n =
          .error (some (r.type, r.majorOpcode <<< 24 ||| v <<< 18 ||| v' <<< 12)) := by
        rw [getInsnCodeBody, if_neg (not_not.mpr hn), hv]
        change (switchFb r exp v 1 >>= _) = _
        rw [hsecond]
        change (expNextLast f r exp n 2 >>= _) = _
        rw [hnext]
        change (switchFc r v v' (exp 2) (exp 2) >>= _) = _
        rw [hthird]
        rfl
      rw [ddGetInsnCode, hbody] at h
      exact (Prod.mk.inj (Option.some.inj h)).1.symm
    · refine (herror ?_).elim
      have hsecond : switchFb r exp v 1 = .error none := by
        rw [switchFb, hfb]
        simp only [hnone]
        rfl
      rw [getInsnCodeBody, if_neg (not_not.mpr hn), hv]
      change (switchFb r exp v 1 >>= _) = _
      rw [hsecond]
      rfl
  · refine (herror ?_).elim
    rw [getInsnCodeBody, if_neg (not_not.mpr hn), hnone]
    rfl

end Rows

/-- The return value of a statement that is neither a `%lo` nor sets a register. -/
lemma ret_of_assembleRows {env : GasEnv} {expandOp : Bool} {st : Statement} {first : Option DadaoOpcode} {ret : Ret}
    (hlo : st.isLo = false) (hset : setNames.contains st.name = false)
    (h : (assembleRows env expandOp st first ret).isSome = true) :
    ∃ t code, ret = some (t, code) ∧
      assembleRows env expandOp st first ret = some (code, requested expandOp st t) := by
  have hsets : st.setsSymbol = false := by
    rw [Statement.setsSymbol, hset, Bool.false_and, Bool.false_and, Bool.false_and]
  cases first with
  | none => exact absurd h (by simp [assembleRows])
  | some insn =>
    simp only [assembleRows, hsets, hset, hlo, Bool.false_eq_true, if_false] at h ⊢
    cases ret with
    | none => exact absurd h (by simp)
    | some res =>
      obtain ⟨t, code⟩ := res
      refine ⟨t, code, rfl, ?_⟩
      by_cases hnormal : t = .normal
      · rw [hnormal]
        rfl
      · cases t <;> first | rfl | exact absurd h (by simp [switchRetCode])

lemma exists_row_of_mdAssemble {env : GasEnv} {expandOp : Bool} {st : Statement} (hlo : st.isLo = false)
    (hset : setNames.contains st.name = false) (h : (mdAssemble env expandOp st).isSome = true) :
    ∃ r ∈ dadaoOpcodes, r.name = st.name ∧ ∃ t code,
      ddGetInsnCode env.symbolGetValueExpression r st.exp st.nOperands = some (t, code) ∧
      mdAssemble env expandOp st = some (code, requested expandOp st t) := by
  obtain ⟨t, code, hret, heq⟩ := ret_of_assembleRows hlo hset h
  obtain ⟨r, hr, hname, hrow⟩ := exists_row_of_mdAssembleCode hret
  exact ⟨r, hr, hname, t, code, hrow, heq⟩

/-! ## Agreement -/

section Agree

variable {env : GasEnv} {frAddress : BitVec 64} {opcodep : ℕ} {st : Statement}

/-- The fixup of a fragment that is not resolved. -/
lemma fixOf_expand {state : RelaxState} {e : ExpressionS}
    (h : state = .abs ∨ e.xAddSymbol = 0 ∨ env.sameSegment e.xAddSymbol = false) :
    fixOf env true opcodep state e = some ⟨opcodep + 4, e.xAddSymbol, e.xAddNumber, state.reloc⟩ := by
  have hestimate : mdEstimateSizeBeforeRelax env.sameSegment (fragVar opcodep state e) = fragVar opcodep state e := by
    rw [mdEstimateSizeBeforeRelax]
    split
    · rfl
    · rename_i hne
      rw [if_neg]
      rintro ⟨hsym, hseg⟩
      rcases h with h | h | h
      · exact hne h
      · exact hsym h
      · change env.sameSegment e.xAddSymbol = true at hseg
        rw [h] at hseg
        exact absurd hseg (by decide)
  rw [fixOf, if_pos rfl, hestimate]
  rfl

/-- The relocation of an operand in a fragment. -/
lemma gasReloc_expand {code : BitVec 32} {state : RelaxState} {e : ExpressionS}
    (hasm : mdAssemble env true st = some (code, some (state, e)))
    (h : state = .abs ∨ e.xAddSymbol = 0 ∨ env.sameSegment e.xAddSymbol = false) :
    gasReloc env true frAddress opcodep st =
      some ⟨frAddress + BitVec.ofNat 64 (opcodep + 4), state.reloc, e.xAddSymbol, e.xAddNumber⟩ := by
  rw [gasReloc, hasm]
  simp only [Option.bind_eq_bind, Option.bind_some, fixOf_expand h]
  rfl

/-- **With expansion** the relocation of the last operand is right. -/
lemma agrees_expand (state : RelaxState) (code : BitVec 32)
    (hasm : mdAssemble env true st = some (code, some (state, st.lastOperand)))
    (h : state = .abs ∨ env.sameSegment st.lastOperand.xAddSymbol = false) :
    Agrees env true frAddress opcodep st := by
  have hplace : frAddress + BitVec.ofNat 64 (opcodep + 4) - 4 = frAddress + BitVec.ofNat 64 opcodep := by
    have h4 : BitVec.ofNat 64 4 = 4 := rfl
    rw [BitVec.ofNat_add, h4]
    ring
  refine ⟨_, gasReloc_expand hasm (h.imp_right .inr), hplace, rfl, rfl, ?_⟩
  intro ov junk p m symbol a ha
  rw [dadaoFinalLinkRelocate]
  refine dadaoElfPerformRelocation_apply _ _ _ _ _ _ _ ?_
  rwa [hplace]

/-- **Without expansion** the word before the instruction is patched. -/
lemma not_agrees_noExpand : ¬ Agrees env false frAddress opcodep st := by
  rintro ⟨r, hr, hplace, -⟩
  simp only [gasReloc, Option.bind_eq_bind, Option.bind_eq_some_iff, Prod.exists] at hr
  obtain ⟨code, request, -, state, e, -, fix, hfix, heq⟩ := hr
  rw [fixOf, if_neg (by decide), Option.map_eq_some_iff] at hfix
  obtain ⟨p, -, rfl⟩ := hfix
  rw [Reloc.patchedWord, ← Option.some.inj heq] at hplace
  change frAddress + BitVec.ofNat 64 opcodep - 4 = _ at hplace
  have hzero : frAddress + BitVec.ofNat 64 opcodep - 4 - (frAddress + BitVec.ofNat 64 opcodep) = 0 := by
    rw [hplace]
    simp
  have hfour : frAddress + BitVec.ofNat 64 opcodep - 4 - (frAddress + BitVec.ofNat 64 opcodep) = -4 := by
    ring
  rw [hfour] at hzero
  exact absurd hzero (by decide)

/-- Without a request there is no relocation. -/
lemma not_agrees_of_none {expandOp : Bool} {code : BitVec 32} (hasm : mdAssemble env expandOp st = some (code, none)) :
    ¬ Agrees env expandOp frAddress opcodep st := by
  rintro ⟨r, hr, -⟩
  rw [gasReloc, hasm] at hr
  exact absurd hr (by simp)

/-- The relocation of a register has no symbol. -/
lemma not_agrees_of_register {code : BitVec 32} {state : RelaxState} {e : ExpressionS}
    (hasm : mdAssemble env true st = some (code, some (state, e))) (he : e.xAddSymbol = 0)
    (hsym : st.lastOperand.xAddSymbol ≠ 0) : ¬ Agrees env true frAddress opcodep st := by
  rintro ⟨r, hr, -, hsymbol, -⟩
  rw [gasReloc_expand hasm (.inr (.inl he))] at hr
  rw [← Option.some.inj hr] at hsymbol
  exact hsym (hsymbol.symm.trans he)

end Agree

/-- **The statements that agree**: with expansion, all but an `adrp` and a call or jump through registers. -/
def Linked (expandOp : Bool) (f : Form) (st : Statement) : Prop :=
  expandOp = true ∧ f ≠ .adrp ∧ ¬ ((f = .call ∨ f = .jump) ∧ st.nOperands = 3)

/-- The rows of a form that is found by its mnemonic. -/
def Form.RowOf (r : DadaoOpcode) : Form → Prop
  | .brcc => r.type = .condbranch ∧ hasOneRegister .rd r = true
  | .brcc12 => r.type = .condbranch12 ∧ isThroughRegisters .rd r = true
  | .call => r.type = .jsr ∧ (isDirect r = true ∨ isThroughRegisters .rb r = true)
  | .jump => r.type = .branch ∧ (isDirect r = true ∨ isThroughRegisters .rb r = true)
  | .adrp => r.type = .normal ∧ hasOneRegister .rb r = true
  | _ => False

section Forms

variable {env : GasEnv} {expandOp : Bool} {st : Statement} {f : Form}

/-- The row that accepts a form found by its mnemonic. -/
lemma rowOf_of_relocatable (h : Relocatable env expandOp st f) (hset : f ≠ .set) (hlo : f ≠ .lo) :
    ∃ r t code, f.RowOf r ∧
      ddGetInsnCode env.symbolGetValueExpression r st.exp st.nOperands = some (t, code) ∧
      mdAssemble env expandOp st = some (code, requested expandOp st t) := by
  have hform := h.form
  rw [Statement.form] at hform
  split_ifs at hform with h1 h2 h3 h4 h5 h6 h7 h8 h9
  · exact absurd (Option.some.inj hform).symm hlo
  · exact absurd (Option.some.inj hform).symm hset
  all_goals
    obtain ⟨r, hr, hname, t, code, hcode, hasm⟩ :=
      exists_row_of_mdAssemble (by simpa using h1) (by simpa using h3) h.accepted
    have hcheck := List.all_eq_true.mp formCheck_dadaoOpcodes r hr
    refine ⟨r, t, code, ?_, hcode, hasm⟩
    rw [← Option.some.inj hform]
    simp only [formCheck, hname] at hcheck
  · rw [if_pos h5, Bool.and_eq_true] at hcheck
    exact ⟨eq_of_beq hcheck.1, hcheck.2⟩
  · rw [if_neg h5, if_pos h6, Bool.and_eq_true] at hcheck
    exact ⟨eq_of_beq hcheck.1, hcheck.2⟩
  · rw [if_neg h5, if_neg h6, if_pos (by simpa using h7), Bool.and_eq_true, Bool.or_eq_true] at hcheck
    exact ⟨eq_of_beq hcheck.1, hcheck.2⟩
  · rw [if_neg h5, if_neg h6, if_neg (by simpa using h7), if_pos (by simpa using h8), Bool.and_eq_true,
      Bool.or_eq_true] at hcheck
    exact ⟨eq_of_beq hcheck.1, hcheck.2⟩
  · rw [if_neg h5, if_neg h6, if_neg (by simpa using h7), if_neg (by simpa using h8),
      if_pos (by simpa using h9), Bool.and_eq_true] at hcheck
    exact ⟨eq_of_beq hcheck.1, hcheck.2⟩

lemma names_of_form_set (h : st.form = some .set) : setNames.contains st.name = true ∧ st.nOperands = 2 := by
  rw [Statement.form] at h
  by_cases hlo : st.isLo = true
  · rw [if_pos hlo] at h
    split_ifs at h
    cases h
  · rw [if_neg hlo] at h
    by_cases hset : setNames.contains st.name = true
    · rw [if_pos hset] at h
      split_ifs at h with h2
      exact ⟨hset, h2⟩
    · rw [if_neg hset] at h
      split_ifs at h <;> cases h

lemma operands_of_form_lo (h : st.form = some .lo) : st.isLo = true ∧ st.nOperands = 3 := by
  rw [Statement.form] at h
  by_cases hlo : st.isLo = true
  · rw [if_pos hlo] at h
    split_ifs at h with h3
    exact ⟨hlo, h3⟩
  · rw [if_neg hlo] at h
    split_ifs at h <;> cases h

/-- A register is set to a symbol. -/
lemma mdAssemble_of_set (h : Relocatable env expandOp st .set) : st.nOperands = 2 ∧
    ∃ code, mdAssemble env expandOp st = some (code, some (.abs, st.exp 1)) := by
  obtain ⟨h3, h4⟩ := names_of_form_set h.form
  refine ⟨h4, ddPseudoSetSymbol (st.exp 0).xAddNumber.toNat, ?_⟩
  have hsome := h.accepted
  rw [mdAssemble] at hsome ⊢
  generalize hashFind (mdBegin dadaoOpcodes).hash1 st.name = first at hsome ⊢
  cases first with
  | none => exact absurd hsome (by simp [assembleRows])
  | some insn =>
    by_cases hsets : st.setsSymbol = true
    · simp only [assembleRows, hsets, if_true]
    · simp only [assembleRows, hsets, h3, Bool.false_eq_true, if_false, if_true] at hsome
      exact absurd hsome (by simp)

/-- An operand `%lo`. -/
lemma mdAssemble_of_lo (h : Relocatable env true st .lo) : st.nOperands = 3 ∧
    ∃ code, mdAssemble env true st = some (code, some (.lo12, st.exp 2)) := by
  obtain ⟨h1, h2⟩ := operands_of_form_lo h.form
  refine ⟨h2, ?_⟩
  have hsets : st.setsSymbol = false := by
    have hne : (st.nOperands == 2) = false := by
      rw [h2]
      rfl
    rw [Statement.setsSymbol, hne, Bool.and_false, Bool.false_and, Bool.false_and]
  have hsome := h.accepted
  rw [mdAssemble] at hsome ⊢
  generalize hashFind (mdBegin dadaoOpcodes).hash1 st.name = first at hsome ⊢
  cases first with
  | none => exact absurd hsome (by simp [assembleRows])
  | some insn =>
    by_cases hset : setNames.contains st.name = true
    · simp only [assembleRows, hsets, hset, Bool.false_eq_true, if_false, if_true] at hsome
      exact absurd hsome (by simp)
    · exact ⟨_, by simp only [assembleRows, hsets, hset, h1, Bool.false_eq_true, if_false, if_true]; rfl⟩

/-- **A target** of a call or jump: right in the word as a whole, and the symbol of a register where there are
registers. -/
lemma agrees_target {r : DadaoOpcode} {t : InsnType} {code : BitVec 32} {state : RelaxState}
    (h : Relocatable env true st f) (hset : f ≠ .set) (frAddress : BitVec 64) (opcodep : ℕ)
    (hrow : isDirect r = true ∨ isThroughRegisters .rb r = true) (htype : switchRetCode r.type = some (state, 0))
    (hcode : ddGetInsnCode env.symbolGetValueExpression r st.exp st.nOperands = some (t, code))
    (hasm : mdAssemble env true st = some (code, requested true st t)) :
    Agrees env true frAddress opcodep st ↔ st.nOperands ≠ 3 := by
  have hn := operandsNum_of_ddGetInsnCode hcode
  have hsym := h.symbolic
  rcases hrow with hrow | hrow
  · have h1 : st.nOperands = 1 := by
      rw [isDirect, Bool.and_eq_true] at hrow
      exact hn.trans (eq_of_beq hrow.2)
    have hlast : st.lastOperand = st.exp 0 := by rw [Statement.lastOperand, h1]
    obtain ⟨-, rfl⟩ := type_of_isDirect hrow hcode (hlast ▸ hsym)
    refine iff_of_true ?_ (by omega)
    rw [requested, htype] at hasm
    refine agrees_expand state code ?_ (.inr (h.unresolved.resolve_left hset))
    rw [hasm, hlast]
    rfl
  · have h3 : st.nOperands = 3 := by
      rw [isThroughRegisters, Bool.and_eq_true] at hrow
      exact hn.trans (eq_of_beq hrow.2)
    have hlast : st.lastOperand = st.exp 2 := by rw [Statement.lastOperand, h3]
    obtain ⟨-, rfl, hreg⟩ := type_of_isThroughRegisters (.inr rfl) hrow hcode (hlast ▸ hsym)
    refine iff_of_false ?_ (by omega)
    rw [requested, htype] at hasm
    exact not_agrees_of_register hasm (h.register 0 hreg) h.symbol

end Forms

/-- **The assembler and the linker agree** on a statement whose operand is left to the linker if and only if the
assembler expands, and the statement is neither an `adrp` nor a call or jump through registers. -/
theorem agrees_iff {env : GasEnv} {expandOp : Bool} {st : Statement} {f : Form} (h : Relocatable env expandOp st f)
    (frAddress : BitVec 64) (opcodep : ℕ) : Agrees env expandOp frAddress opcodep st ↔ Linked expandOp f st := by
  cases expandOp with
  | false => exact iff_of_false not_agrees_noExpand fun hl => absurd hl.1 (by decide)
  | true =>
    have hsym := h.symbolic
    cases f with
    | set =>
      obtain ⟨h2, code, hasm⟩ := mdAssemble_of_set h
      have hlast : st.lastOperand = st.exp 1 := by rw [Statement.lastOperand, h2]
      rw [← hlast] at hasm
      exact iff_of_true (agrees_expand _ _ hasm (.inl rfl)) ⟨rfl, by decide, by simp⟩
    | lo =>
      obtain ⟨h3, code, hasm⟩ := mdAssemble_of_lo h
      have hlast : st.lastOperand = st.exp 2 := by rw [Statement.lastOperand, h3]
      rw [← hlast] at hasm
      exact iff_of_true (agrees_expand _ _ hasm (.inr (h.unresolved.resolve_left (by decide))))
        ⟨rfl, by decide, by simp⟩
    | brcc =>
      obtain ⟨r, t, code, ⟨htype, hrow⟩, hcode, hasm⟩ := rowOf_of_relocatable h (by decide) (by decide)
      have h2 : st.nOperands = 2 := by
        rw [hasOneRegister, Bool.and_eq_true] at hrow
        exact (operandsNum_of_ddGetInsnCode hcode).trans (eq_of_beq hrow.2)
      have hlast : st.lastOperand = st.exp 1 := by rw [Statement.lastOperand, h2]
      obtain ⟨-, rfl⟩ := type_of_hasOneRegister (.inl rfl) hrow hcode (hlast ▸ hsym)
      rw [requested, htype] at hasm
      change _ = some (code, some (RelaxState.brcc, st.exp 1)) at hasm
      rw [← hlast] at hasm
      exact iff_of_true (agrees_expand _ _ hasm (.inr (h.unresolved.resolve_left (by decide))))
        ⟨rfl, by decide, by simp⟩
    | brcc12 =>
      obtain ⟨r, t, code, ⟨htype, hrow⟩, hcode, hasm⟩ := rowOf_of_relocatable h (by decide) (by decide)
      have h3 : st.nOperands = 3 := by
        rw [isThroughRegisters, Bool.and_eq_true] at hrow
        exact (operandsNum_of_ddGetInsnCode hcode).trans (eq_of_beq hrow.2)
      have hlast : st.lastOperand = st.exp 2 := by rw [Statement.lastOperand, h3]
      obtain ⟨-, rfl, -⟩ := type_of_isThroughRegisters (.inl rfl) hrow hcode (hlast ▸ hsym)
      rw [requested, htype] at hasm
      change _ = some (code, some (RelaxState.brcc12, st.exp 2)) at hasm
      rw [← hlast] at hasm
      exact iff_of_true (agrees_expand _ _ hasm (.inr (h.unresolved.resolve_left (by decide))))
        ⟨rfl, by decide, by simp⟩
    | adrp =>
      obtain ⟨r, t, code, ⟨htype, hrow⟩, hcode, hasm⟩ := rowOf_of_relocatable h (by decide) (by decide)
      have h2 : st.nOperands = 2 := by
        rw [hasOneRegister, Bool.and_eq_true] at hrow
        exact (operandsNum_of_ddGetInsnCode hcode).trans (eq_of_beq hrow.2)
      have hlast : st.lastOperand = st.exp 1 := by rw [Statement.lastOperand, h2]
      obtain ⟨-, rfl⟩ := type_of_hasOneRegister (.inr rfl) hrow hcode (hlast ▸ hsym)
      rw [requested, htype] at hasm
      exact iff_of_false (not_agrees_of_none hasm) fun hl => hl.2.1 rfl
    | call =>
      obtain ⟨r, t, code, ⟨htype, hrow⟩, hcode, hasm⟩ := rowOf_of_relocatable h (by decide) (by decide)
      rw [agrees_target h (by decide) frAddress opcodep hrow (by rw [htype]; rfl) hcode hasm]
      exact ⟨fun h3 => ⟨rfl, by decide, fun hc => h3 hc.2⟩, fun hl h3 => hl.2.2 ⟨.inl rfl, h3⟩⟩
    | jump =>
      obtain ⟨r, t, code, ⟨htype, hrow⟩, hcode, hasm⟩ := rowOf_of_relocatable h (by decide) (by decide)
      rw [agrees_target h (by decide) frAddress opcodep hrow (by rw [htype]; rfl) hcode hasm]
      exact ⟨fun h3 => ⟨rfl, by decide, fun hc => h3 hc.2⟩, fun hl h3 => hl.2.2 ⟨.inr rfl, h3⟩⟩

/-- Gas with two symbols, none of them in the section. -/
def sampleEnv : GasEnv where
  symbolGetValueExpression := fun _ => .const 0
  fixNewExp e := if e.xOp = .symbol then some (e.xAddSymbol, e.xAddNumber) else none
  fixNewExp_symbol := fun _ h => if_pos h
  sameSegment := fun _ => false
  junk := 0

/-- `setrd rd8, f`. -/
def setStatement : Statement where
  name := "setrd"
  exp i := if i = 0 then ⟨.register, 8, 0, 0⟩ else if i = 1 then ⟨.symbol, 0, 1, 0⟩ else ⟨.illegal, 0, 0, 0⟩
  nOperands := 2
  isLo := false

lemma relocatable_setStatement (expandOp : Bool) : Relocatable sampleEnv expandOp setStatement .set where
  form := by decide
  accepted := by
    obtain ⟨r, hr, hname⟩ : ∃ r ∈ dadaoOpcodes, r.name = "setrd" :=
      ⟨_, List.mem_append_right _ List.mem_cons_self, rfl⟩
    have hfound := (tablesFrom_mdBegin dadaoOpcodes).names r hr
    rw [hname] at hfound
    obtain ⟨insn, hinsn⟩ := Option.isSome_iff_exists.mp hfound
    have hsets : setStatement.setsSymbol = true := by decide
    rw [mdAssemble, show setStatement.name = "setrd" from rfl, hinsn]
    simp only [assembleRows, hsets, if_true, Option.isSome_some]
  symbolic := rfl
  unresolved := .inl rfl
  register := by
    intro i hi
    rw [setStatement] at hi ⊢
    simp only at hi ⊢
    split_ifs at hi ⊢
    rfl
  symbol := by decide

/-- They agree on `setrd rd8, f`. -/
theorem agrees_setStatement : Agrees sampleEnv true 0 0 setStatement :=
  (agrees_iff (relocatable_setStatement true) 0 0).mpr ⟨rfl, by decide, by decide⟩

/-- With `-no-expand` they do not. -/
theorem not_agrees_setStatement : ¬ ∀ (env : GasEnv) (expandOp : Bool) (st : Statement) (f : Form),
    Relocatable env expandOp st f → ∀ frAddress opcodep, Agrees env expandOp frAddress opcodep st :=
  fun h => not_agrees_noExpand (h sampleEnv false setStatement .set (relocatable_setStatement false) 0 0)

end Dadao.Gas
