import Dadao.Bfd.PcRelative
import Dadao.Gas.AddrOffset
import Dadao.Gcc.IntCorrect
import Dadao.Qemu.Calls

set_option relaxedAutoImplicit false
set_option autoImplicit false

/-!
# Calls and jumps

The addresses that calls, indirect jumps and table jumps accept, what is printed for them, and where the
assembled words go in the simulator. Each pattern prints the parts of a sum by its own code; the simulator counts
the constant in words.

## Main definitions

* `Dadao.Gcc.Target` — the addresses.
* `Dadao.Gcc.TransferInsn` — the patterns, with their printing.
* `Dadao.Gcc.Site` — where a statement with a symbol is put, and how the symbol is resolved.
* `Dadao.Gcc.Transfer.Right` — control goes to the address.

## Main results

* `Dadao.Gcc.site_reached_iff` — which symbols are reached.
* `Dadao.Gcc.transfer_right_iff` — which addresses are reached.
-/

namespace Dadao.Gcc

open Opcodes Gas Qemu Tcg

/-! ## Addresses -/

/-- The place of a statement with a symbol: the placement of its section with the offset of the relocation and the
contents around it, whether the symbol is in the same section, its value and the constant added to it. Instructions
are at multiples of four. -/
structure Site where
  place : Bfd.Placement
  rOffset : BitVec 64
  contents : Memory
  inSection : Bool
  symbol : BitVec 64
  constant : ℤ
  aligned : (place.insnAddr rOffset).toNat % 4 = 0

namespace Site

variable (site : Site)

/-- The address of the instruction. -/
def pc : BitVec 64 := site.place.insnAddr site.rOffset

/-- The address that the expression denotes. -/
def target : BitVec 64 := site.symbol + BitVec.ofInt 64 site.constant

/-- The distance to it. -/
def distance : BitVec 64 := site.target - site.pc

/-- The distance is a multiple of four that the signed field of a call holds. -/
def InReach : Prop := site.distance.toNat % 4 = 0 ∧ -2 ^ 25 ≤ site.distance.toInt ∧ site.distance.toInt < 2 ^ 25

/-- The relocation of a word. -/
def reloc (w : BitVec 32) : Bfd.BranchReloc where
  type := .call
  place := site.place
  contents := Bfd.bfdPut32 site.contents (site.rOffset - 4) (w.setWidth 64)
  rOffset := site.rOffset
  rAddend := BitVec.ofInt 64 site.constant
  symbol := site.symbol

/-- The word with its field filled: by the assembler, if the symbol is in the same section, else by the linker.
`none` is an error. -/
def resolve (ov : Bfd.CheckOverflow) (junk : BitVec 64) (junk' : BitVec 32) (w : BitVec 32) : Option (BitVec 32) :=
  if site.inSection then (ddSetAddrOffset junk (mdNumberToChars w) site.distance 24 true).map readInsn
  else if ((site.reloc w).link ov junk').1 = .ok then
    some (Bfd.wordAt ((site.reloc w).link ov junk').2 (site.rOffset - 4))
  else none

end Site

/-- The addresses. A sum of registers has either of them first; a symbol may have a constant. -/
inductive Target where
  | reg (b : ℕ)
  | index (b d : ℕ) (swapped : Bool)
  | offset (b : ℕ) (c : ℤ)
  | symbol (site : Site)

namespace Target

/-- `dd_legitimate_address_p`. -/
def legitimate : Target → Bool
  | reg b => isRb b
  | index b d _ => isRb b && isRd d
  | offset b c => isRb b && satisfiesId c
  | symbol _ => false

/-- `dadao_symbolic_or_address_operand`. -/
def symbolicOrAddress : Target → Bool
  | symbol _ => true
  | t => t.legitimate

/-- The address that the expression denotes. -/
def value (s : State) : Target → BitVec 64
  | reg b => s.reg .rb b
  | index b d _ => s.reg .rb b + s.reg .rd d
  | offset b c => s.reg .rb b + BitVec.ofInt 64 c
  | symbol site => site.target

end Target

/-! ## Patterns -/

/-- What is printed: a statement, or a mnemonic with a symbol and a constant. -/
inductive Printed where
  | stmt (st : Stmt)
  | symbolic (mnemonic : String) (site : Site)

/-- An operand of a call: its address, a number, or another one that is not looked at. -/
inductive CallOperand where
  | address (t : Target)
  | constInt (v : ℤ)
  | other

/-- `INTVAL`. -/
def CallOperand.intval : CallOperand → Option ℤ
  | constInt v => some v
  | _ => none

/-- The two operands of a sum, in their order. -/
def plusOpnds (b d : ℕ) (swapped : Bool) : List Opnd := if swapped then [rd d, rb b] else [rb b, rd d]

/-- `dadao_print_call_operand`. -/
def dadaoPrintCallOperand (op : ℕ → CallOperand) (strict : Bool) : Option Printed :=
  match if strict then op 0 else op 1 with
  | .address (.reg b) => some (.stmt ⟨"call", [rb b, rd 0, .num 0]⟩)
  | .address (.symbol site) => some (.symbolic "call" site)
  | .address (.index b d swapped) =>
    (if strict then op 2 else op 3).intval.map fun off =>
      .stmt ⟨"call", plusOpnds b d swapped ++ [.num off]⟩
  | .address (.offset b c) =>
    (if strict then op 2 else op 3).intval.map fun off => .stmt ⟨"call", [rb b, rd 0, .num (off + c)]⟩
  | _ => none

/-- The template of `indirect_jump`. -/
def printIndirectJump : Target → Printed
  | .reg b => .stmt ⟨"jump", [rb b]⟩
  | .index b d swapped => .stmt ⟨"jump", plusOpnds b d swapped ++ [.num 0]⟩
  | .offset b _ => .stmt ⟨"jump", [rb b, rd 0, .num 0]⟩
  | .symbol site => .symbolic "jump" site

/-- The template of `tablejump`. -/
def printTablejump : Target → Printed
  | .reg b => .stmt ⟨"jump", [rb b, rd 0, .num 0]⟩
  | .index b d swapped => .stmt ⟨"jump", plusOpnds b d swapped ++ [.num 0]⟩
  | .offset b _ => .stmt ⟨"jump", [rb b, rd 0, .num 0]⟩
  | .symbol site => .symbolic "jump" site

/-- The patterns. -/
inductive TransferInsn where
  | ddCallReal | ddCallValueReal | indirectJump | tablejump
  deriving DecidableEq, Repr

namespace TransferInsn

/-- Whether it is a call. -/
def isCall : TransferInsn → Bool
  | ddCallReal | ddCallValueReal => true
  | indirectJump | tablejump => false

/-- The predicate of the address. -/
def accepts : TransferInsn → Target → Bool
  | ddCallReal, t | ddCallValueReal, t => t.symbolicOrAddress
  | indirectJump, t | tablejump, t => t.legitimate

/-- The operands of a call: the last one is the constant zero that stands for the end of the arguments. -/
def callOperands (t : Target) (strict : Bool) : ℕ → CallOperand
  | 0 => if strict then .address t else .other
  | 1 => if strict then .other else .address t
  | _ => .constInt 0

/-- What is printed. -/
def print : TransferInsn → Target → Option Printed
  | ddCallReal, t => dadaoPrintCallOperand (callOperands t true) true
  | ddCallValueReal, t => dadaoPrintCallOperand (callOperands t false) false
  | indirectJump, t => some (printIndirectJump t)
  | tablejump, t => some (printTablejump t)

end TransferInsn

/-! ## What it is for -/

/-- **A word goes to an address**; a call does so where its return address can be pushed. -/
def GoesTo (isCall : Bool) (w : BitVec 32) (m : Machine Elem) (addr : BitVec 64) : Prop :=
  (isCall = true → CanPush m) → ∃ m', Executes w m (.done m') ∧ m'.env.globals .pc = addr

/-- The operand of a statement with a symbol, as the assembler parses it. -/
def symbolExp (sym : ℕ) (c : ℤ) : ExpressionS := ⟨.symbol, c, sym, 0⟩

/-- **A printed statement reaches the address**: the assembler makes a word of it that goes to the address in every
state; with a symbol, the word goes there at its site behind the resolution of the symbol. -/
def Printed.Reaches (isCall : Bool) (t : Target) : Printed → Prop
  | stmt st => ∀ g, ∃ w, assemble g [st] = some [w] ∧ ∀ m, GoesTo isCall w m (t.value (view m))
  | symbolic mnemonic site => ∀ g sym, ∃ type w,
      mdAssembleCode g mnemonic (fun _ => symbolExp sym site.constant) 1 = some (type, w) ∧
        ∀ ov junk junk', ∃ w', site.resolve ov junk junk' w = some w' ∧
          ∀ m, m.env.globals .pc = site.pc → GoesTo isCall w' m site.target

/-- **A transfer of control**: a pattern and an address that it accepts. -/
structure Transfer where
  insn : TransferInsn
  target : Target
  accepted : insn.accepts target = true

/-- **Control goes to the address.** -/
def Transfer.Right (x : Transfer) : Prop :=
  ∃ p, x.insn.print x.target = some p ∧ p.Reaches x.insn.isCall x.target

/-- The addresses that are reached: a register, but for `indirect_jump`; a sum of registers with the base first; a
register and a constant that is zero; a symbol within reach. -/
def Transfer.Fits (x : Transfer) : Prop :=
  match x.target with
  | .reg _ => x.insn ≠ .indirectJump
  | .index _ _ swapped => swapped = false
  | .offset _ c => c = 0
  | .symbol site => site.InReach

/-! ## Rows of the table -/

/-- The rows of a name are tried in turn. -/
lemma mdAssembleCode_of_rows {name : String} {r : DadaoOpcode} {rows : List DadaoOpcode}
    (h : rowsOf dadaoOpcodes name = r :: rows) (g exp : ℕ → ExpressionS) (n : ℕ) :
    mdAssembleCode g name exp n = tryRows g exp n ((r :: rows).take 5) := by
  have hfind : hashFind (mdBegin dadaoOpcodes).hash1 name = some r := by
    rw [hashFind_hash1, h]
    rfl
  rw [mdAssembleCode, hfind, if_pos Option.isSome_some, chain_mdBegin, h]

lemma mem_of_mem_rowsOf {rows : List DadaoOpcode} {name : String} {r : DadaoOpcode} (h : r ∈ rowsOf rows name) :
    r ∈ rows := List.mem_of_mem_filter h

/-- The row of a statement with an address. -/
def directRow (name : String) (major : BitVec 32) (type : InsnType) : DadaoOpcode :=
  ⟨name, 1, major, 0, .imms24, .none, .none, .none, type⟩

/-- The row of a statement with two registers and a number. -/
def indirectRow (name : String) (major : BitVec 32) (type : InsnType) : DadaoOpcode :=
  ⟨name, 3, major, 0, .rb, .rd, .imms12, .none, type⟩

/-- The rows of a mnemonic in the table. -/
def transferCheck (rows : List DadaoOpcode) (name : String) (major : BitVec 32) (type : InsnType) : Bool :=
  rowsOf rows name == [directRow name major type, indirectRow name (major + 1) type]

lemma transferCheck_eq :
    transferCheck opcTable "call" 108 .jsr = true ∧ transferCheck opcTable "jump" 100 .branch = true := by
  rw [opcTable_eq]
  decide +kernel

/-- A mnemonic with a direct and an indirect form. -/
structure Mnemonic where
  name : String
  major : BitVec 32
  type : InsnType
  plain : PlainName name
  check : transferCheck opcTable name major type = true
  small : major.toNat + 1 < 2 ^ 8
  pseudo : rowsOf (dadaoOpcodes.drop opcTable.length) name = []

/-- `call`. -/
def call : Mnemonic := ⟨"call", 108, .jsr, by decide, transferCheck_eq.1, by decide, by
  rw [dadaoOpcodes, List.drop_left]
  rfl⟩

/-- `jump`. -/
def jump : Mnemonic := ⟨"jump", 100, .branch, by decide, transferCheck_eq.2, by decide, by
  rw [dadaoOpcodes, List.drop_left]
  rfl⟩

namespace Mnemonic

variable (x : Mnemonic)

/-- Its rows. -/
lemma rows_opcTable : rowsOf opcTable x.name =
    [directRow x.name x.major x.type, indirectRow x.name (x.major + 1) x.type] := by
  have hcheck := x.check
  rwa [transferCheck, beq_iff_eq] at hcheck

lemma rows : rowsOf dadaoOpcodes x.name =
    [directRow x.name x.major x.type, indirectRow x.name (x.major + 1) x.type] := by
  have hpseudo := x.pseudo
  rw [dadaoOpcodes, List.drop_left] at hpseudo
  rw [dadaoOpcodes, rowsOf, List.filter_append, ← rowsOf, ← rowsOf, hpseudo, x.rows_opcTable, List.append_nil]

lemma mem_opcTable : indirectRow x.name (x.major + 1) x.type ∈ opcTable := by
  have hmem : indirectRow x.name (x.major + 1) x.type ∈ rowsOf opcTable x.name := by
    rw [x.rows_opcTable]
    simp
  exact mem_of_mem_rowsOf hmem

/-- **A base, an index and a number**: the word of the indirect form. -/
lemma assemble_indirect {b d : ℕ} {c : ℤ} (hb : b < 64) (hb0 : b ≠ 0) (hd : d < 64) (hc : InRange .imms12 c)
    (g : ℕ → ExpressionS) : assemble g [⟨x.name, [rb b, rd d, .num c]⟩] =
      some [quad (x.major.toNat + 1) b d (fieldOf .imms12 c / 64) (fieldOf .imms12 c % 64)] := by
  have hkinds : operandKinds (indirectRow x.name (x.major + 1) x.type) =
      [fileKind .rb, fileKind .rd, .imms12] := rfl
  obtain ⟨hopnds, hrange⟩ := operands_rrii (.inl rfl) hkinds hb hd hc
  have hzero : ¬IsCallZero (indirectRow x.name (x.major + 1) x.type) [(b : ℤ), d, c] := by
    rintro ⟨-, -, -, hvals⟩
    obtain ⟨hzero, -⟩ := List.cons.inj hvals
    omega
  have hset : x.name ≠ "setrd" ∧ x.name ≠ "setrb" := x.plain.1
  have hmajor : (x.major + 1).toNat = x.major.toNat + 1 := by
    have hsmall := x.small
    have hone : (1 : BitVec 32).toNat = 1 := rfl
    rw [BitVec.toNat_add, hone]
    exact Nat.mod_eq_of_lt (by omega)
  have hasm := assemble_of_mem [(b : ℤ), d, c] x.mem_opcTable hzero hset hopnds hrange (x.plain.exceeds _) g
  rw [encode_rrii (.inl rfl) hkinds (by simp [indirectRow]) hb hd] at hasm
  rw [quad, ← hmajor]
  exact hasm

/-- **A symbol** is left to be resolved. -/
lemma code_symbolic (g exp : ℕ → ExpressionS) (hexp : (exp 0).xOp ≠ .constant) :
    mdAssembleCode g x.name exp 1 = some (x.type, x.major <<< 24) := by
  rw [mdAssembleCode_of_rows x.rows]
  simp [tryRows, ddGetInsnCode, getInsnCodeBody, directRow, switchFa, hexp]
  rfl

/-- A register alone is taken for a symbol. -/
lemma assemble_reg (htype : x.type ≠ .normal) (b : ℕ) (g : ℕ → ExpressionS) :
    assemble g [⟨x.name, [rb b]⟩] = none := by
  have hcode := x.code_symbolic g (Stmt.mk x.name [rb b]).exp (by simp [Stmt.exp, Opnd.exp])
  have hst : (Stmt.mk x.name [rb b]).assemble g = none := by
    rw [Stmt.assemble, x.plain.exceeds, if_neg (by simp), if_neg (by simp [x.plain.1])]
    simp only [List.length_cons, List.length_nil, Nat.zero_add, hcode]
    split
    · next h => exact absurd (Option.some.inj h) (by simp [htype])
    · rfl
  simp [assemble, hst]

/-- An index before its base is rejected. -/
lemma assemble_swapped {d : ℕ} (hd : d < 64) (b : ℕ) (c : ℤ) (g : ℕ → ExpressionS) :
    assemble g [⟨x.name, [rd d, rb b, .num c]⟩] = none := by
  have hfa : switchFa (indirectRow x.name (x.major + 1) x.type) (Stmt.mk x.name [rd d, rb b, .num c]).exp =
      .error none := by
    have hlow : (d : ℤ) < 64 := by omega
    have hhigh : ¬(127 : ℤ) < d := by omega
    simp [switchFa, indirectRow, expShouldBeRb, expShouldBeReg, Stmt.exp, Opnd.exp, fileBase, hlow, hhigh]
  have hindirect : ddGetInsnCode g (indirectRow x.name (x.major + 1) x.type)
      (Stmt.mk x.name [rd d, rb b, .num c]).exp 3 = none := by
    rw [ddGetInsnCode, getInsnCodeBody, hfa]
    rfl
  have hdirect : ddGetInsnCode g (directRow x.name x.major x.type)
      (Stmt.mk x.name [rd d, rb b, .num c]).exp 3 = none := rfl
  have hcode : mdAssembleCode g x.name (Stmt.mk x.name [rd d, rb b, .num c]).exp 3 = none := by
    rw [mdAssembleCode_of_rows x.rows]
    simp only [List.take, tryRows, hdirect, hindirect]
  have hst : (Stmt.mk x.name [rd d, rb b, .num c]).assemble g = none := by
    rw [Stmt.assemble, x.plain.exceeds, if_neg (by simp), if_neg (by simp [x.plain.1])]
    simp [hcode]
  simp [assemble, hst]

end Mnemonic

/-! ## Symbols -/

/-- The word of a call of a symbol, before its field is filled. -/
def callWord : BitVec 32 := 0x6C000000

/-- A call with a filled field: the opcode is kept, and the field is the distance in words. -/
def Filled (distance : BitVec 64) (w : BitVec 32) : Prop :=
  (w >>> 24).toNat = 0x6C ∧ w.toNat % 2 ^ 24 = distance.toNat / 4 % 2 ^ 24

/-- A call with a filled field, by its number. -/
lemma filled_of_toNat {distance : BitVec 64} {w : BitVec 32}
    (h : w.toNat = 0x6C * 2 ^ 24 + distance.toNat / 4 % 2 ^ 24) : Filled distance w := by
  have hlt : distance.toNat / 4 % 2 ^ 24 < 2 ^ 24 := Nat.mod_lt _ (by decide)
  refine ⟨?_, ?_⟩
  · rw [BitVec.toNat_ushiftRight, Nat.shiftRight_eq_div_pow]
    omega
  · omega

/-- **The assembler fills the field.** -/
lemma filled_of_assembler {junk v : BitVec 64} {w' : BitVec 32}
    (h : (ddSetAddrOffset junk (mdNumberToChars callWord) v 24 true).map readInsn = some w') :
    v.toNat % 4 = 0 ∧ Filled v w' := by
  have haligned : true = true → 4 ∣ v.toInt := by
    intro _
    by_contra hnot
    rw [ddSetAddrOffset_eq_none (.inr (.inr rfl)) junk _ (.inl ⟨rfl, hnot⟩)] at h
    exact absurd h (by simp)
  have hmod : v.toNat % 4 = 0 := by
    have hdvd := haligned rfl
    rw [BitVec.toInt_eq_toNat_cond] at hdvd
    split_ifs at hdvd <;> omega
  refine ⟨hmod, filled_of_toNat ?_⟩
  rw [ddSetAddrOffset_eq (.inr (.inr rfl)) junk _ haligned] at h
  split_ifs at h
  · exact absurd h (by simp)
  rw [setOffsetFields_eq _ _ (.inr (.inr rfl)), Option.map_some, readInsn_mdNumberToChars] at h
  obtain rfl := Option.some.inj h
  have hfield : (offsetOf true v).setWidth 24 = BitVec.ofNat 24 (v.toNat / 4) := by
    rw [Bfd.BranchReloc.ofNat_div_four (by omega), ← BitVec.signExtend_eq_setWidth_of_le _ (by omega)]
    exact congrArg (BitVec.ofInt 24) (toInt_offsetOf haligned)
  have hnat : (((offsetOf true v).setWidth 24).setWidth 32).toNat = v.toNat / 4 % 2 ^ 24 := by
    rw [hfield, BitVec.toNat_setWidth, BitVec.toNat_ofNat]
    omega
  rw [Bits.toNat_or_eq_add 24 (by decide) (by rw [hnat]; exact Nat.mod_lt _ (by decide)), hnat]
  rfl

/-- **The assembler accepts a distance in reach.** -/
lemma assembler_accepts {v : BitVec 64} (hmod : v.toNat % 4 = 0) (hge : -2 ^ 25 ≤ v.toInt) (hlt : v.toInt < 2 ^ 25)
    (junk : BitVec 64) : ∃ w', (ddSetAddrOffset junk (mdNumberToChars callWord) v 24 true).map readInsn = some w' := by
  have haligned : true = true → 4 ∣ v.toInt := by
    intro _
    rw [BitVec.toInt_eq_toNat_cond]
    split_ifs <;> omega
  have hvalue : fieldValue true v = v.toInt / 4 := if_pos rfl
  have hneg := toInt_negOffset junk haligned (by simp)
  rw [ddSetAddrOffset_eq_some (.inr (.inr rfl)) callWord haligned (by omega) (by omega)]
  exact ⟨_, rfl⟩

section Linker

variable (site : Site)

/-- The word that the relocation is for. -/
lemma insn_reloc (w : BitVec 32) : (site.reloc w).insn = w := by
  rw [Bfd.BranchReloc.insn]
  exact (Bfd.wordAt_bfdPut32 ..).trans (BitVec.setWidth_setWidth_of_le w (by omega))

lemma isBranchWord_reloc : Bfd.IsBranchWord (site.reloc callWord).type (site.reloc callWord).insn := by
  rw [insn_reloc]
  exact show Bfd.IsBranchWord .call callWord by decide

/-- **The word that is left is filled** with the distance, and there is one for a distance in reach. -/
lemma filled_of_resolve {ov : Bfd.CheckOverflow} {junk : BitVec 64} {junk' w' : BitVec 32}
    (h : site.resolve ov junk junk' callWord = some w') : site.distance.toNat % 4 = 0 ∧ Filled site.distance w' := by
  unfold Site.resolve at h
  by_cases hin : site.inSection = true
  · rw [if_pos hin] at h
    exact filled_of_assembler h
  · rw [if_neg hin] at h
    have hw := isBranchWord_reloc site
    by_cases haccepted : (site.reloc callWord).Accepted
    · refine ⟨haccepted.1, filled_of_toNat ?_⟩
      rw [Bfd.BranchReloc.link_of_accepted hw ov junk' haccepted, if_pos rfl] at h
      obtain rfl := Option.some.inj ((congrArg some (Bfd.wordAt_bfdPut32 ..).symm).trans h)
      rw [Bfd.BranchReloc.toNat_patch hw, insn_reloc]
      rfl
    · rw [Bfd.BranchReloc.link_of_not_accepted hw ov junk' haccepted] at h
      exact absurd h (by simp)

lemma resolve_of_inReach (h : site.InReach) (ov : Bfd.CheckOverflow) (junk : BitVec 64) (junk' : BitVec 32) :
    ∃ w', site.resolve ov junk junk' callWord = some w' := by
  obtain ⟨hmod, hge, hlt⟩ := h
  unfold Site.resolve
  by_cases hin : site.inSection = true
  · rw [if_pos hin]
    exact assembler_accepts hmod hge hlt junk
  · rw [if_neg hin]
    have haccepted : (site.reloc callWord).Accepted := by
      refine ⟨hmod, ?_, ?_⟩
      · change -2 ^ 26 ≤ site.distance.toInt
        omega
      · change site.distance.toInt < 2 ^ 26
        omega
    rw [Bfd.BranchReloc.link_of_accepted (isBranchWord_reloc site) ov junk' haccepted, if_pos rfl]
    exact ⟨_, rfl⟩

end Linker

/-! ## What is reached -/

/-- A call with a filled field. -/
lemma executes_filled {distance : BitVec 64} {w : BitVec 32} (h : Filled distance w) {m : Machine Elem}
    (hpc : (m.env.globals .pc).toNat % 4 = 0) (hroom : CanPush m) :
    ∃ m', Executes w m (.done m') ∧ m'.env.globals .pc = m.env.globals .pc + fieldImms 24 w * 4 := by
  refine calls_iiii (plain_of_opcode (by rw [h.1]; simp [PlainOpcode])) (fun pc => by rw [disasDadao, h.1]; rfl) hroom ?_
  intro heq
  have hnat := congrArg (fun v : BitVec 64 => v.toNat % 4) heq
  have hones : (-1 : BitVec 64).toNat = 2 ^ 64 - 1 := rfl
  have hfour : (4 : BitVec 64).toNat = 4 := rfl
  simp only [BitVec.toNat_add, BitVec.toNat_mul, hones, hfour] at hnat
  omega

/-- A machine at an address with room for a return address. -/
def machineAt (pc : BitVec 64) : Machine Elem :=
  ⟨⟨fun e => if e = .reg .ra 1 then 0 else pc, fun _ => 0⟩, fun _ => 0⟩

lemma canPush_machineAt (pc : BitVec 64) : CanPush (machineAt pc) := .inl (by simp [machineAt])

/-- **A symbol is reached** exactly when the distance is a multiple of four in the range of the signed field. -/
lemma site_reached_iff (site : Site) :
    (Printed.symbolic "call" site).Reaches true (.symbol site) ↔ site.InReach := by
  have hcode (g : ℕ → ExpressionS) (sym : ℕ) : mdAssembleCode g "call" (fun _ => symbolExp sym site.constant) 1 =
      some (.jsr, callWord) := call.code_symbolic g _ (by simp [symbolExp])
  have hreach {w : BitVec 32} (hmod : site.distance.toNat % 4 = 0) (hw : Filled site.distance w) :
      fieldImms 24 w * 4 = site.distance ↔ -2 ^ 25 ≤ site.distance.toInt ∧ site.distance.toInt < 2 ^ 25 :=
    Bfd.BranchReloc.fieldImms_mul_four_iff (by omega) hmod hw.2
  have htarget : site.pc + site.distance = site.target := by
    rw [Site.distance]
    exact add_sub_cancel ..
  constructor
  · intro h
    obtain ⟨type, w, hw, hall⟩ := h (fun _ => .const 0) 0
    obtain ⟨-, rfl⟩ := Prod.mk.inj (Option.some.inj ((hcode _ _).symm.trans hw))
    obtain ⟨w', hresolve, hgoes⟩ := hall .documented 0 0
    obtain ⟨hmod, hfilled⟩ := filled_of_resolve site hresolve
    refine ⟨hmod, (hreach hmod hfilled).mp ?_⟩
    have hroom := canPush_machineAt site.pc
    obtain ⟨m₁, hexec, hpc⟩ := hgoes (machineAt site.pc) rfl fun _ => hroom
    obtain ⟨m₂, hexec', hpc'⟩ := executes_filled hfilled (m := machineAt site.pc) site.aligned hroom
    rw [Outcome.done.inj (hexec'.unique hexec), hpc, ← htarget] at hpc'
    exact (add_left_cancel hpc').symm
  · intro hin g sym
    refine ⟨_, _, hcode g sym, fun ov junk junk' => ?_⟩
    obtain ⟨w', hresolve⟩ := resolve_of_inReach site hin ov junk junk'
    obtain ⟨hmod, hfilled⟩ := filled_of_resolve site hresolve
    refine ⟨w', hresolve, fun m hm hroom => ?_⟩
    obtain ⟨m', hexec, hpc⟩ := executes_filled hfilled (by rw [hm]; exact site.aligned) (hroom rfl)
    refine ⟨m', hexec, ?_⟩
    rw [hpc, hm, (hreach hmod hfilled).mpr hin.2, htarget]

/-! ## Registers -/

/-- The mnemonic of a pattern. -/
def mnemonic (isCall : Bool) : Mnemonic := if isCall then call else jump

/-- **The word of a base, an index and a number** goes to their sum, with the number in words. -/
lemma goesTo_indirect (isCall : Bool) {b d : ℕ} {c : ℤ} (hb : b < 64) (hb0 : b ≠ 0) (hd : d < 64)
    (hc : InRange .imms12 c) (m : Machine Elem) : GoesTo isCall
      (quad ((mnemonic isCall).major.toNat + 1) b d (fieldOf .imms12 c / 64) (fieldOf .imms12 c % 64)) m
        ((view m).reg .rb b + (view m).reg .rd d + BitVec.ofInt 64 c * 4) := by
  intro hroom
  rw [← signExtend_imms12 hc]
  cases isCall with
  | true =>
    have hmajor : (mnemonic true).major.toNat + 1 = 109 := rfl
    have hf := fields_rrii 109 (.inl rfl) c (by omega) hb hd
    rw [hmajor]
    exact calls_rrii hf (hf.plain (by simp [PlainOpcode])) (fun pc => by rw [disasDadao, hf.opcode]; rfl) hb0
      (hroom rfl)
  | false =>
    have hmajor : (mnemonic false).major.toNat + 1 = 101 := rfl
    have hf := fields_rrii 101 (.inl rfl) c (by omega) hb hd
    rw [hmajor]
    obtain ⟨m', hexec, -, hpc⟩ := jumps_rrii hf (hf.plain (by simp [PlainOpcode]))
      (fun pc => by rw [disasDadao, hf.opcode]; rfl) hb0 m
    exact ⟨m', hexec, hpc⟩

section Indirect

variable (isCall : Bool) {t : Target} {b d : ℕ} {c : ℤ}

/-- A statement with the parts of the address reaches it. -/
lemma reaches_of_value (hb : b < 64) (hb0 : b ≠ 0) (hd : d < 64) (hc : InRange .imms12 c)
    (hvalue : ∀ s : State, s.IsView → t.value s = s.reg .rb b + s.reg .rd d + BitVec.ofInt 64 c * 4) :
    (Printed.stmt ⟨(mnemonic isCall).name, [rb b, rd d, .num c]⟩).Reaches isCall t := by
  intro g
  refine ⟨_, (mnemonic isCall).assemble_indirect hb hb0 hd hc g, fun m => ?_⟩
  rw [hvalue _ (isView_view m)]
  exact goesTo_indirect isCall hb hb0 hd hc m

/-- A statement that reaches the address has its parts, with all registers zero too. -/
lemma value_of_reaches (hb : b < 64) (hb0 : b ≠ 0) (hd : d < 64) (hc : InRange .imms12 c)
    (h : (Printed.stmt ⟨(mnemonic isCall).name, [rb b, rd d, .num c]⟩).Reaches isCall t) :
    t.value (view (machineAt 0)) = BitVec.ofInt 64 c * 4 := by
  obtain ⟨w, hw, hgoes⟩ := h fun _ => .const 0
  rw [(mnemonic isCall).assemble_indirect hb hb0 hd hc] at hw
  obtain ⟨rfl, -⟩ := List.cons.inj (Option.some.inj hw)
  obtain ⟨m₁, hexec, hpc⟩ := hgoes (machineAt 0) fun _ => canPush_machineAt 0
  obtain ⟨m₂, hexec', hpc'⟩ := goesTo_indirect isCall hb hb0 hd hc (machineAt 0) fun _ => canPush_machineAt 0
  have hrb : (view (machineAt 0)).reg .rb b = 0 := by
    cases b <;> rfl
  have hrd : (view (machineAt 0)).reg .rd d = 0 := by
    cases d <;> rfl
  rw [Outcome.done.inj (hexec'.unique hexec), hpc, hrb, hrd, add_zero, zero_add] at hpc'
  exact hpc'

end Indirect

/-- A small number is its multiple by four only if it is zero. -/
lemma ofInt_eq_mul_four {c : ℤ} (hc : InRange .imms12 c) (h : BitVec.ofInt 64 c = BitVec.ofInt 64 c * 4) : c = 0 := by
  simp only [InRange, operandSigned, operandWidth, if_true] at hc
  have hmul : BitVec.ofInt 64 c * 4 = BitVec.ofInt 64 (c * 4) := (BitVec.ofInt_mul c 4).symm
  have hint := congrArg BitVec.toInt (h.trans hmul)
  rw [BitVec.toInt_ofInt_eq_self (by omega) (by omega) (by omega),
    BitVec.toInt_ofInt_eq_self (by omega) (by omega) (by omega)] at hint
  omega

/-- A small number is zero only if it is. -/
lemma ofInt_eq_zero {c : ℤ} (hc : InRange .imms12 c) (h : BitVec.ofInt 64 c = 0) : c = 0 := by
  simp only [InRange, operandSigned, operandWidth, if_true] at hc
  have hnat := congrArg BitVec.toNat h
  rw [BitVec.toNat_ofInt] at hnat
  change _ = 0 at hnat
  omega

/-! ## What is printed -/

namespace TransferInsn

variable (x : TransferInsn)

lemma print_reg (hx : x ≠ .indirectJump) (b : ℕ) :
    x.print (.reg b) = some (.stmt ⟨(mnemonic x.isCall).name, [rb b, rd 0, .num 0]⟩) := by
  cases x with
  | indirectJump => exact absurd rfl hx
  | _ => rfl

lemma print_index (b d : ℕ) (swapped : Bool) : x.print (.index b d swapped) =
    some (.stmt ⟨(mnemonic x.isCall).name, plusOpnds b d swapped ++ [.num 0]⟩) := by
  cases x <;> rfl

/-- The constant of a sum is printed by the calls only. -/
lemma print_offset (b : ℕ) (c : ℤ) : x.print (.offset b c) =
    some (.stmt ⟨(mnemonic x.isCall).name, [rb b, rd 0, .num (if x.isCall then c else 0)]⟩) := by
  cases x with
  | ddCallReal => exact congrArg (fun v => some (Printed.stmt ⟨"call", [rb b, rd 0, .num v]⟩)) (zero_add c)
  | ddCallValueReal => exact congrArg (fun v => some (Printed.stmt ⟨"call", [rb b, rd 0, .num v]⟩)) (zero_add c)
  | _ => rfl

end TransferInsn

namespace Transfer

variable {insn : TransferInsn}

lemma inRange_zero : InRange .imms12 0 := by
  simp [InRange, operandSigned, operandWidth]

/-- A register. -/
lemma right_reg_iff {b : ℕ} (h : insn.accepts (.reg b) = true) :
    Right ⟨insn, .reg b, h⟩ ↔ insn ≠ .indirectJump := by
  have hb : isRb b = true := by
    cases insn <;> exact h
  simp only [isRb, Bool.and_eq_true, decide_eq_true_eq, bne_iff_ne] at hb
  constructor
  · rintro ⟨p, hprint, hreach⟩ rfl
    obtain rfl := Option.some.inj hprint
    obtain ⟨w, hw, -⟩ := hreach fun _ => .const 0
    rw [show (⟨"jump", [rb b]⟩ : Stmt) = ⟨jump.name, [rb b]⟩ from rfl, jump.assemble_reg (by decide)] at hw
    exact absurd hw (by simp)
  · intro hne
    refine ⟨_, insn.print_reg hne b, reaches_of_value insn.isCall hb.1 hb.2 (by omega) inRange_zero ?_⟩
    intro s hs
    simp [Target.value, hs.rd]

/-- A sum of registers. -/
lemma right_index_iff {b d : ℕ} {swapped : Bool} (h : insn.accepts (.index b d swapped) = true) :
    Right ⟨insn, .index b d swapped, h⟩ ↔ swapped = false := by
  have hregs : (isRb b && isRd d) = true := by
    cases insn <;> exact h
  simp only [isRb, isRd, Bool.and_eq_true, decide_eq_true_eq, bne_iff_ne] at hregs
  obtain ⟨⟨hb, hb0⟩, ⟨hd, -⟩, -⟩ := hregs
  constructor
  · rintro ⟨p, hprint, hreach⟩
    rw [insn.print_index] at hprint
    obtain rfl := Option.some.inj hprint
    cases swapped with
    | false => rfl
    | true =>
      obtain ⟨w, hw, -⟩ := hreach fun _ => .const 0
      exact absurd (((mnemonic insn.isCall).assemble_swapped hd b 0 _).symm.trans hw) (by simp)
  · rintro rfl
    refine ⟨_, insn.print_index b d false, reaches_of_value insn.isCall hb hb0 hd inRange_zero ?_⟩
    intro s hs
    simp [Target.value]

/-- A register and a constant. -/
lemma right_offset_iff {b : ℕ} {c : ℤ} (h : insn.accepts (.offset b c) = true) :
    Right ⟨insn, .offset b c, h⟩ ↔ c = 0 := by
  have hparts : (isRb b && satisfiesId c) = true := by
    cases insn <;> exact h
  simp only [isRb, satisfiesId, Bool.and_eq_true, decide_eq_true_eq, bne_iff_ne] at hparts
  obtain ⟨⟨hb, hb0⟩, hge, hle⟩ := hparts
  have hc : InRange .imms12 c := by
    simp only [InRange, operandSigned, operandWidth, if_true]
    omega
  constructor
  · rintro ⟨p, hprint, hreach⟩
    rw [insn.print_offset] at hprint
    obtain rfl := Option.some.inj hprint
    have hbase : (Target.offset b c).value (view (machineAt 0)) = BitVec.ofInt 64 c := by
      have hrb : (view (machineAt 0)).reg .rb b = 0 := by
        cases b <;> rfl
      rw [Target.value, hrb, zero_add]
    cases hcall : insn.isCall with
    | true =>
      rw [hcall, if_pos rfl] at hreach
      have hvalue := value_of_reaches true hb hb0 (by omega) hc hreach
      exact ofInt_eq_mul_four hc (hbase.symm.trans hvalue)
    | false =>
      rw [hcall, if_neg Bool.false_ne_true] at hreach
      have hvalue := value_of_reaches false hb hb0 (by omega) inRange_zero hreach
      exact ofInt_eq_zero hc (hbase.symm.trans hvalue)
  · rintro rfl
    refine ⟨_, (insn.print_offset b 0).trans (by rw [ite_self]),
      reaches_of_value insn.isCall hb hb0 (by omega) inRange_zero ?_⟩
    intro s hs
    simp [Target.value, hs.rd]

/-- A symbol, which only the calls accept. -/
lemma right_symbol_iff {site : Site} (h : insn.accepts (.symbol site) = true) :
    Right ⟨insn, .symbol site, h⟩ ↔ site.InReach := by
  have hcall : insn.isCall = true ∧ insn.print (.symbol site) = some (.symbolic "call" site) := by
    cases insn with
    | ddCallReal => exact ⟨rfl, rfl⟩
    | ddCallValueReal => exact ⟨rfl, rfl⟩
    | indirectJump => exact absurd h Bool.false_ne_true
    | tablejump => exact absurd h Bool.false_ne_true
  rw [← site_reached_iff]
  constructor
  · rintro ⟨p, hprint, hreach⟩
    obtain rfl := Option.some.inj (hcall.2.symm.trans hprint)
    rwa [hcall.1] at hreach
  · intro hreach
    refine ⟨_, hcall.2, ?_⟩
    rwa [hcall.1]

end Transfer

/-- **Control reaches the address** exactly for the addresses with printings that the assembler and the simulator
take for the same: a register behind all patterns but `indirect_jump`, a sum of registers with its base first, a
register with the constant zero, and a symbol within reach. -/
theorem transfer_right_iff (x : Transfer) : x.Right ↔ x.Fits := by
  obtain ⟨insn, target, h⟩ := x
  cases target with
  | reg b => exact Transfer.right_reg_iff h
  | index b d swapped => exact Transfer.right_index_iff h
  | offset b c => exact Transfer.right_offset_iff h
  | symbol site => exact Transfer.right_symbol_iff h

/-- A call of the address eight bytes behind a register. -/
def callBehind : Transfer := ⟨.ddCallReal, .offset 5 8, rfl⟩

/-- It goes to an address that is thirty-two bytes behind. -/
theorem callBehind_not_right : ¬callBehind.Right := by
  intro h
  exact absurd ((Transfer.right_offset_iff callBehind.accepted).mp h) (by decide)

end Dadao.Gcc
