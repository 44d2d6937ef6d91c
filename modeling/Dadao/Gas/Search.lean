import Dadao.Gas.RoundTrip

set_option relaxedAutoImplicit false
set_option autoImplicit false

/-!
# The end of the table search

The loop of `print_insn_dadao` over the array that `gen_disassemble_file` writes. The loop leaves at an element
without a format; every element that is written has one.

## Main definitions

* `Dadao.Gas.search` — the loop, with the position it ends at.
* `Dadao.Gas.Generated` — an array as it is generated.
* `Dadao.Gas.SearchEnds` — the loop ends inside the array.

## Main results

* `Dadao.Gas.searchEnds_of_sentinel` — with an element without a format at its end, the loop would always do so.
* `Dadao.Gas.searchEnds_generated_iff` — it does so exactly for the words that an element matches.
-/

namespace Dadao.Gas

open Dadao.Opcodes

/-- An element of the array, as the loop reads it; the format is a pointer that may be null. -/
structure Element where
  opcodeMask : BitVec 32
  opcodeMatch : BitVec 32
  disassembleFormat : Option DisassembleFormat
  deriving DecidableEq, Repr

/-- The element of a row. -/
def elementOf (d : DadaoDisassemble) : Element := ⟨d.opcodeMask, d.opcodeMatch, some d.format⟩

/-- How the loop ends: at an element that matches, at one without a format, or behind the last one, with whatever
lies there. -/
inductive SearchEnd where
  | found (i : ℕ)
  | null (i : ℕ)
  | past (i : ℕ)
  deriving DecidableEq, Repr

/-- The position that is read last. -/
def SearchEnd.position : SearchEnd → ℕ
  | found i | null i | past i => i

/-- The loop of `print_insn_dadao`, from position `i`. -/
def search (insn : BitVec 32) : ℕ → List Element → SearchEnd
  | i, [] => .past i
  | i, e :: rest =>
    if e.disassembleFormat = none then .null i
    else if insn &&& e.opcodeMask ≠ e.opcodeMatch then search insn (i + 1) rest
    else .found i

/-- The value that `print_insn_dadao` returns behind the loop; `none` when it has read behind the array. -/
def SearchEnd.returned : SearchEnd → Option ℤ
  | found _ | null _ => some 4
  | past _ => none

/-- **The loop ends at an element of the array**, and the function returns. -/
def SearchEnds (array : List Element) (buffer : ℕ → BitVec 8) : Prop :=
  (search (readInsn buffer) 0 array).position < array.length ∧
    (search (readInsn buffer) 0 array).returned = some 4

/-- The word has the match bits of an element. -/
def Element.Matches (e : Element) (insn : BitVec 32) : Prop := insn &&& e.opcodeMask = e.opcodeMatch

/-! ## The loop -/

section Loop

variable {insn : BitVec 32}

/-- The loop ends in the array or right behind it. -/
lemma search_spec (array : List Element) (k : ℕ) :
    (search insn k array = .past (k + array.length) ∧
      ∀ e ∈ array, e.disassembleFormat ≠ none ∧ ¬e.Matches insn) ∨
    ((search insn k array).position < k + array.length ∧ (search insn k array).returned = some 4 ∧
      ∃ e ∈ array, e.disassembleFormat = none ∨ e.Matches insn) := by
  induction array generalizing k with
  | nil => exact .inl ⟨rfl, by simp⟩
  | cons e rest ih =>
    rw [search]
    by_cases hnull : e.disassembleFormat = none
    · rw [if_pos hnull]
      exact .inr ⟨by simp [SearchEnd.position], rfl, e, List.mem_cons_self, .inl hnull⟩
    · rw [if_neg hnull]
      by_cases hne : insn &&& e.opcodeMask ≠ e.opcodeMatch
      · rw [if_pos hne, List.length_cons]
        rcases ih (k + 1) with ⟨hpast, hall⟩ | ⟨hpos, hret, e', he', hstop⟩
        · refine .inl ⟨hpast.trans (by congr 1; omega), ?_⟩
          intro e' he'
          rcases List.mem_cons.mp he' with rfl | he'
          · exact ⟨hnull, hne⟩
          · exact hall e' he'
        · exact .inr ⟨by omega, hret, e', List.mem_cons_of_mem _ he', hstop⟩
      · rw [if_neg hne]
        exact .inr ⟨by simp [SearchEnd.position], rfl, e, List.mem_cons_self, .inr (not_not.mp hne)⟩

/-- **The loop ends in the array** if an element of it has no format or matches, and only then. -/
lemma searchEnds_iff (array : List Element) (buffer : ℕ → BitVec 8) :
    SearchEnds array buffer ↔ ∃ e ∈ array, e.disassembleFormat = none ∨ e.Matches (readInsn buffer) := by
  rcases @search_spec (readInsn buffer) array 0 with ⟨hpast, hall⟩ | ⟨hpos, hret, hexists⟩
  · refine iff_of_false ?_ ?_
    · rintro ⟨-, hret⟩
      rw [hpast] at hret
      exact absurd hret (by simp [SearchEnd.returned])
    · rintro ⟨e, he, hnull | hmatch⟩
      · exact (hall e he).1 hnull
      · exact (hall e he).2 hmatch
  · exact iff_of_true ⟨by omega, hret⟩ hexists

/-- With an element without a format at the end of the array, the loop would always end in it. -/
lemma searchEnds_of_sentinel (array : List Element) (buffer : ℕ → BitVec 8) :
    SearchEnds (array ++ [⟨0, 0, none⟩]) buffer :=
  (searchEnds_iff ..).mpr ⟨⟨0, 0, none⟩, by simp, .inl rfl⟩

end Loop

/-! ## The generated array -/

/-- An array that `gen_disassemble_file` writes. -/
structure Generated where
  insts : List Inst
  rows : List DadaoDisassemble
  generated : genDisassembleFile insts = some rows

/-- The array in memory. -/
def Generated.array (g : Generated) : List Element := g.rows.map elementOf

/-- An entry matches the word. -/
def Generated.Matched (g : Generated) (buffer : ℕ → BitVec 8) : Prop :=
  ∃ d ∈ g.rows, readInsn buffer &&& d.opcodeMask = d.opcodeMatch

instance (g : Generated) (buffer : ℕ → BitVec 8) : Decidable (g.Matched buffer) := by
  unfold Generated.Matched
  infer_instance

/-- **The search ends at an element of the generated array** exactly for the words that an entry matches. -/
theorem searchEnds_generated_iff (g : Generated) (buffer : ℕ → BitVec 8) :
    SearchEnds g.array buffer ↔ g.Matched buffer := by
  rw [searchEnds_iff]
  constructor
  · rintro ⟨e, he, hstop⟩
    obtain ⟨d, hd, rfl⟩ := List.mem_map.mp he
    rcases hstop with hnull | hmatch
    · exact absurd hnull (by simp [elementOf])
    · exact ⟨d, hd, hmatch⟩
  · rintro ⟨d, hd, hmatch⟩
    exact ⟨elementOf d, List.mem_map_of_mem hd, .inr hmatch⟩

/-- The array of the instruction set. -/
def simriscGenerated : Generated where
  insts := insts
  rows := disassembleTable
  generated := by
    have hlength : disassembleTable.length = 169 := by
      rw [disassembleTable_eq, List.length_map, opcTable_length]
    rw [disassembleTable] at hlength ⊢
    cases h : genDisassembleFile insts with
    | none =>
      rw [h] at hlength
      exact absurd hlength (by simp)
    | some rows => rfl

/-- No row matches a word. -/
def matchesNone (rows : List DadaoDisassemble) (w : BitVec 32) : Bool :=
  rows.all fun d => w &&& d.opcodeMask != d.opcodeMatch

lemma ne_of_matchesNone {rows : List DadaoDisassemble} {w : BitVec 32} (h : matchesNone rows w = true)
    {d : DadaoDisassemble} (hd : d ∈ rows) : w &&& d.opcodeMask ≠ d.opcodeMatch := by
  rw [matchesNone, List.all_eq_true] at h
  exact bne_iff_ne.mp (h d hd)

/-- The word that no row matches. -/
def unmatchedWord : BitVec 32 := 0xFF000000

lemma matchesNone_simrisc : matchesNone disassembleTable unmatchedWord = true := by
  rw [generated_eq.2]
  decide +kernel

/-- **A word that no row matches** is searched for behind the array. -/
lemma not_searchEnds (g : Generated) {w : BitVec 32} (h : matchesNone g.rows w = true) :
    ¬SearchEnds g.array (mdNumberToChars w) := by
  rw [searchEnds_iff]
  rintro ⟨e, he, hstop⟩
  obtain ⟨d, hd, rfl⟩ := List.mem_map.mp he
  rcases hstop with hnull | hmatch
  · exact absurd hnull (by simp [elementOf])
  · rw [Element.Matches, readInsn_mdNumberToChars] at hmatch
    exact ne_of_matchesNone h hd hmatch

/-- The search for a word with opcode `0xFF` reads behind the array. -/
theorem simrisc_search_past : ¬SearchEnds simriscGenerated.array (mdNumberToChars unmatchedWord) := by
  apply not_searchEnds
  simp only [simriscGenerated]
  exact matchesNone_simrisc

end Dadao.Gas
