import Dadao.Gas.Generated

set_option relaxedAutoImplicit false
set_option autoImplicit false

/-!
# Round trip of the assembler and the disassembler

The rows of the two tables generated from `simrisc.opcodes` are checked once; everything else is about
rows in general.

## Main results

* `Dadao.Gas.tableCheck_eq` — the generated tables agree, no two entries match one word, and the
  chain of a mnemonic reaches each of its rows.
* `Dadao.Gas.assemble_disassemble` — the round trip, in both directions.
* `Dadao.Gas.call_zero_registers_rejected` — the one operand choice that is not encoded.
-/

namespace Dadao.Gas

open Dadao.Opcodes Dadao.Bits

/-! ## The generated tables -/

/-- No word has the match bits of two rows. -/
def disjointRows : List DadaoDisassemble → Bool
  | [] => true
  | d :: ds => ds.all (fun d' => d.opcodeMatch &&& d'.opcodeMask != d'.opcodeMatch &&& d.opcodeMask) &&
    disjointRows ds

/-- The rows a mnemonic's chain tries before a given one reject its operands, and the row is in
the chain. Where the row itself may reject operands, the later rows reject them too. -/
def chainCheck (r : DadaoOpcode) : List DadaoOpcode → Bool
  | [] => false
  | r' :: rest =>
    if r' == r then r.majorOpcode != 0x6D#32 || rest.all (clashes · (operandKinds r))
    else clashes r' (operandKinds r) && chainCheck r rest

attribute [local simp] disjointRows chainCheck

/-- The row of the call through registers. -/
def callRow : DadaoOpcode := ⟨"call", 3, 0x6D, 0, .rb, .rd, .imms12, .none, .jsr⟩

/-- Everything the round trip needs to know about the generated tables. -/
def tableCheck (rows : List DadaoOpcode) (dis : List DadaoDisassemble) (h : OpcodeHash) : Bool :=
  rows.length == 169 && rows.contains callRow && dis == rows.map expectedRow &&
    rows.all wellShaped && disjointRows dis &&
    rows.all fun r => (hashFind h.hash1 r.name).isSome && chainCheck r (h.chain r.name)

/-- No word belongs to two of the rows. -/
lemma disjointRows_expectedRow : disjointRows (opcRows.map expectedRow) = true := by
  decide +kernel

/-- The rows of a name by the numbers of the names. -/
lemma rowsOf_eq_nameKey (opcodes : List DadaoOpcode) (name : String) :
    rowsOf opcodes name = opcodes.filter fun r => (nameKey r.name).beq (nameKey name) :=
  List.filter_congr fun r _ => beq_nameKey r.name name

/-- The chain of a mnemonic reaches each of its rows. -/
lemma chainCheck_opcRows : (opcRows.all fun r => (hashFind (mdBegin dadaoOpcodes).hash1 r.name).isSome &&
    chainCheck r ((mdBegin dadaoOpcodes).chain r.name)) = true := by
  simp only [hashFind_hash1, chain_mdBegin, rowsOf_eq_nameKey]
  rw [dadaoOpcodes, opcTable_eq]
  decide +kernel

/-- The generated tables pass the check. -/
lemma tableCheck_eq : tableCheck opcTable disassembleTable (mdBegin dadaoOpcodes) = true := by
  rw [opcTable_eq, generated_eq.2]
  have hrows : (opcRows.length == 169 && opcRows.contains callRow && opcRows.all wellShaped) = true := by
    decide +kernel
  simp only [Bool.and_eq_true] at hrows
  simp only [tableCheck, Bool.and_eq_true, beq_self_eq_true, and_true]
  exact ⟨⟨⟨hrows.1, hrows.2⟩, disjointRows_expectedRow⟩, chainCheck_opcRows⟩

/-- The generators produce a row for each of the 169 instructions of the file. -/
lemma opcTable_length : opcTable.length = 169 := by
  have h := tableCheck_eq
  simp only [tableCheck, Bool.and_eq_true, beq_iff_eq] at h
  exact h.1.1.1.1.1

lemma callRow_mem : callRow ∈ opcTable := by
  have h := tableCheck_eq
  simp only [tableCheck, Bool.and_eq_true, List.contains_iff_mem] at h
  exact h.1.1.1.1.2

/-- The two generated tables agree row by row. -/
lemma disassembleTable_eq : disassembleTable = opcTable.map expectedRow := by
  have h := tableCheck_eq
  simp only [tableCheck, Bool.and_eq_true, beq_iff_eq] at h
  exact h.1.1.1.2

lemma wellShaped_of_mem {r : DadaoOpcode} (hr : r ∈ opcTable) : wellShaped r = true := by
  have h := tableCheck_eq
  simp only [tableCheck, Bool.and_eq_true, List.all_eq_true] at h
  exact h.1.1.2 r hr

lemma disjointRows_disassembleTable : disjointRows disassembleTable = true := by
  have h := tableCheck_eq
  simp only [tableCheck, Bool.and_eq_true] at h
  exact h.1.2

lemma chainCheck_of_mem {r : DadaoOpcode} (hr : r ∈ opcTable) :
    (hashFind (mdBegin dadaoOpcodes).hash1 r.name).isSome = true ∧
      chainCheck r ((mdBegin dadaoOpcodes).chain r.name) = true := by
  have h := tableCheck_eq
  simp only [tableCheck, Bool.and_eq_true, List.all_eq_true] at h
  exact h.2 r hr

/-! ## The table scan -/

/-- The scan stops at the row a word belongs to. -/
lemma findEntry_of_disjoint {ds : List DadaoDisassemble} (h : disjointRows ds = true)
    {w : BitVec 32} {i : ℕ} {d : DadaoDisassemble} (hi : ds[i]? = some d)
    (hm : w &&& d.opcodeMask = d.opcodeMatch) (k : ℕ) :
    findEntry w k ds = some (k + i, d) := by
  induction ds generalizing i k with
  | nil => simp at hi
  | cons d' ds ih =>
    simp only [disjointRows, Bool.and_eq_true, List.all_eq_true, bne_iff_ne] at h
    cases i with
    | zero =>
      obtain rfl : d' = d := by simpa using hi
      simp [findEntry, hm]
    | succ i =>
      have hmem : d ∈ ds := List.mem_of_getElem? (by simpa using hi)
      have hne : w &&& d'.opcodeMask ≠ d'.opcodeMatch := fun hm' =>
        h.1 d hmem (and_eq_of_matches hm' hm)
      rw [findEntry, if_pos hne, ih h.2 (by simpa using hi)]
      congr 2
      omega

/-- The row the scan stops at. -/
lemma findEntry_some {ds : List DadaoDisassemble} {w : BitVec 32} {k m : ℕ} {d : DadaoDisassemble}
    (h : findEntry w k ds = some (m, d)) :
    ∃ i, m = k + i ∧ ds[i]? = some d ∧ w &&& d.opcodeMask = d.opcodeMatch := by
  induction ds generalizing k with
  | nil => simp [findEntry] at h
  | cons d' ds ih =>
    rw [findEntry] at h
    split_ifs at h with hne
    · obtain ⟨i, hm, hi, hmatch⟩ := ih h
      exact ⟨i + 1, by omega, by simpa using hi, hmatch⟩
    · simp only [Option.some.injEq, Prod.mk.injEq] at h
      obtain ⟨rfl, rfl⟩ := h
      exact ⟨0, rfl, rfl, not_not.mp hne⟩

/-! ## The chain of hash tables -/

section Chain

variable {g : ℕ → ExpressionS} {r : DadaoOpcode} {exp : ℕ → ExpressionS} {vals : List ℤ}
variable (hv : List.Forall₂ InRange (operandKinds r) vals) (hexp : HasOperands exp (operands r vals))

include hv hexp

/-- Rows that clash are tried in vain. -/
lemma tryRows_eq_none {rows : List DadaoOpcode}
    (h : rows.all (clashes · (operandKinds r)) = true) :
    tryRows g exp vals.length rows = none := by
  induction rows with
  | nil => rfl
  | cons r' rows ih =>
    simp only [List.all_cons, Bool.and_eq_true] at h
    rw [tryRows, ddGetInsnCode_eq_none hv hexp h.1]
    exact ih h.2

/-- The chain of a mnemonic reaches the row itself. -/
lemma tryRows_eq_encode (hr : wellShaped r = true) {rows : List DadaoOpcode}
    (h : chainCheck r rows = true) :
    tryRows g exp vals.length rows =
      if IsCallZero r vals then none else some (.normal, BitVec.ofNat 32 (encode r vals)) := by
  induction rows with
  | nil => simp [chainCheck] at h
  | cons r' rows ih =>
    rw [chainCheck] at h
    split_ifs at h with heq
    · obtain rfl : r' = r := by simpa using heq
      rw [tryRows, ddGetInsnCode_eq_encode hr hv hexp]
      by_cases hz : IsCallZero r' vals
      · simp only [if_pos hz]
        refine tryRows_eq_none hv hexp ?_
        simpa [hz.2.1] using h
      · simp only [if_neg hz]
    · rw [Bool.and_eq_true] at h
      rw [tryRows, ddGetInsnCode_eq_none hv hexp h.1]
      exact ih h.2

/-- What the assembler makes of operands in range of a row of the table. -/
lemma mdAssembleCode_eq (hr : r ∈ opcTable) :
    mdAssembleCode g r.name exp vals.length =
      if IsCallZero r vals then none else some (.normal, BitVec.ofNat 32 (encode r vals)) := by
  obtain ⟨hfind, hchain⟩ := chainCheck_of_mem hr
  rw [mdAssembleCode, if_pos hfind, tryRows_eq_encode hv hexp (wellShaped_of_mem hr) hchain]

end Chain

/-- The disassembler on a word of a row. -/
lemma printInsnDadao_eq {i : ℕ} {r : DadaoOpcode} {w : BitVec 32} (hi : opcTable[i]? = some r)
    (hw : w.toNat / 2 ^ (widths r).sum = header r) :
    printInsnDadao disassembleTable (mdNumberToChars w) = some (printEntry w i (expectedRow r)) := by
  have hr := wellShaped_of_mem (List.mem_of_getElem? hi)
  have hd : disassembleTable[i]? = some (expectedRow r) := by simp [disassembleTable_eq, hi]
  rw [printInsnDadao, readInsn_mdNumberToChars, findEntry_of_disjoint
    disjointRows_disassembleTable hd ((matches_iff hr w).mpr hw)]
  simp

/-- A word the disassembler attributes to an entry is a word of that row of the assembler. -/
lemma printInsnDadao_some {w : BitVec 32} {p : Printed}
    (h : printInsnDadao disassembleTable (mdNumberToChars w) = some p) :
    ∃ i r, opcTable[i]? = some r ∧ w.toNat / 2 ^ (widths r).sum = header r ∧
      p = printEntry w i (expectedRow r) := by
  rw [printInsnDadao, readInsn_mdNumberToChars, Option.map_eq_some_iff] at h
  obtain ⟨⟨m, d⟩, hfind, rfl⟩ := h
  obtain ⟨i, rfl, hi, hm⟩ := findEntry_some hfind
  rw [disassembleTable_eq, List.getElem?_map, Option.map_eq_some_iff] at hi
  obtain ⟨r, hi, rfl⟩ := hi
  have hr := wellShaped_of_mem (List.mem_of_getElem? hi)
  exact ⟨i, r, hi, (matches_iff hr w).mp hm, by simp⟩

/-- **Round trip of the assembler and the disassembler.** Every row of the table with operands in
the ranges of its kinds is encoded, attributed to the same entry and printed with the same
operands, apart from `call rb0, rd0, 0`, which the assembler rejects; and a printed line that the
assembler accepts is assembled to the word it was printed for.

**Proof sketch.** Both programs agree with the layout: `dd_get_insn_code` builds `encode`, the
disassembler reads `decode`, and these are inverse to each other on operands in range and on words
with the opcode of the row. -/
theorem assemble_disassemble (g : ℕ → ExpressionS) :
    (∀ (i : ℕ) r, opcTable[i]? = some r → ∀ vals, List.Forall₂ InRange (operandKinds r) vals →
      ∀ exp, HasOperands exp (operands r vals) →
      if IsCallZero r vals then mdAssembleCode g r.name exp vals.length = none
      else ∃ w p, mdAssembleCode g r.name exp vals.length = some (.normal, w) ∧
        printInsnDadao disassembleTable (mdNumberToChars w) = some p ∧
        p.entry = i ∧ p.row.format.mnemonic = r.name ∧ p.operands = operands r vals) ∧
    (∀ w p, printInsnDadao disassembleTable (mdNumberToChars w) = some p →
      ∀ exp, HasOperands exp p.operands → ∀ ret w',
      mdAssembleCode g p.row.format.mnemonic exp p.operands.length = some (ret, w') → w' = w) := by
  constructor
  · intro i r hi vals hv exp hexp
    have hmem := List.mem_of_getElem? hi
    have hr := wellShaped_of_mem hmem
    rw [mdAssembleCode_eq hv hexp hmem]
    split_ifs with hz
    · rfl
    · have hnat : (BitVec.ofNat 32 (encode r vals)).toNat = encode r vals := by
        rw [BitVec.toNat_ofNat, Nat.mod_eq_of_lt (encode_lt hr hv)]
      refine ⟨_, _, rfl, printInsnDadao_eq hi (by rw [hnat, encode_div hv]), rfl, rfl, ?_⟩
      rw [printed_operands_eq _ _ hr, hnat, decode_encode hv]
  · intro w p hp exp hexp ret w' hw'
    obtain ⟨i, r, hi, hw, rfl⟩ := printInsnDadao_some hp
    have hmem := List.mem_of_getElem? hi
    have hr := wellShaped_of_mem hmem
    have hv := inRange_decode r w.toNat
    rw [printed_operands_eq _ _ hr] at hexp hw'
    have hlen : (operands r (decode r w.toNat)).length = (decode r w.toNat).length := by
      simp [operands, hv.length_eq]
    rw [hlen, show (printEntry w i (expectedRow r)).row.format.mnemonic = r.name from rfl,
      mdAssembleCode_eq hv hexp hmem] at hw'
    split_ifs at hw' with hz
    simp only [Option.some.injEq, Prod.mk.injEq] at hw'
    rw [← hw'.2, encode_decode hw, BitVec.ofNat_toNat, BitVec.setWidth_eq]

/-- The exception is real: the table has the row, its operands are in range, and no word is
built. -/
theorem call_zero_registers_rejected :
    ¬ ∀ (g : ℕ → ExpressionS) (i : ℕ) r, opcTable[i]? = some r →
      ∀ vals, List.Forall₂ InRange (operandKinds r) vals →
      ∀ exp, HasOperands exp (operands r vals) →
      ∃ ret w, mdAssembleCode g r.name exp vals.length = some (ret, w) := by
  intro h
  obtain ⟨i, hi⟩ := List.mem_iff_getElem?.mp callRow_mem
  have hv : List.Forall₂ InRange (operandKinds callRow) [0, 0, 0] := by decide
  have hexp : HasOperands (fun k => (operands callRow [0, 0, 0]).getD k (.const 0))
      (operands callRow [0, 0, 0]) := by
    intro k e he
    simp [List.getD_eq_getElem?_getD, he]
  obtain ⟨ret, w, hw⟩ := h (fun _ => .const 0) i callRow hi [0, 0, 0] hv _ hexp
  rw [mdAssembleCode_eq hv hexp callRow_mem, if_pos (by decide)] at hw
  simp at hw

end Dadao.Gas
