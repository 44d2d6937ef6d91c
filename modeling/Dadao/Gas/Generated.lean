import Dadao.Gas.Printed
import Dadao.Opcodes.Dasm
import Dadao.Opcodes.Keys
import Dadao.Opcodes.Rows

set_option relaxedAutoImplicit false
set_option autoImplicit false

/-!
# What is generated from `simrisc.opcodes`

The kernel runs the model of the generator once on the opcodes file: each instruction gives its row of the
assembler's table, its row of the disassembler's table and an entry of `output_dasm`. What else is known of
the tables is checked on the rows.

## Main definitions

* `Dadao.Gas.dasmCheck` — the entry of an instruction has the fields of its row.

## Main results

* `Dadao.Gas.generatedCheck_insts` — every instruction of the file and its row pass the checks.
* `Dadao.Gas.generated_eq` — the two tables.
-/

namespace Dadao.Gas

open Dadao.Opcodes Dadao.Bits

/-! ## An instruction and its row -/

/-- The lowest bit and the width of each field. -/
def tailSums : List ℕ → List (ℕ × ℕ)
  | [] => []
  | w :: ws => (ws.sum, w) :: tailSums ws

/-- Where `output_dasm` reads a field: its lowest bit and its width. -/
def fieldPos : DasmField → ℕ × ℕ
  | .reg i j => (32 - j, j - i)
  | .ww => (16, 2)
  | .immu n | .imms n => (0, n)
  | .other => (0, 0)

/-- The name of a field says what the kind of the operand says. -/
def operandCheck (br : Bool) (e : DasmEntry) (operand : String) (k : OperandType) : Bool :=
  match dasmField operand with
  | some (.reg i j) =>
    decide (i ≤ j) && decide (j ≤ 32) &&
      (regFile k).isSome && e.regfile.lookup operand == (regFile k).map (·.1)
  | some .ww => k == .ww
  | some (.immu n) => disConversion br k == .hex && decide (n ≤ 32)
  | some (.imms n) =>
    operandSigned k && operandWidth k == n &&
      disConversion br k == (if operand == "imms24" || e.resources.contains "bpd" then .offset else .dec)
  | _ => false

/-- The fields of an entry, without the opcode. -/
def operandNames (fields : List String) : List String := fields.filter (· != "op")

/-- The fields of an entry are those of a row. -/
def fieldsCheck (e : DasmEntry) (r : DadaoOpcode) : Bool :=
  (operandNames e.fields).map (fun x => (dasmField x).map fieldPos) == (tailSums (widths r)).map some &&
    (operandNames e.fields).all (· != "none") &&
    ((operandNames e.fields).zip (operandKinds r)).all fun p => operandCheck (isBranch r) e p.1 p.2

/-- The digits of the opcode of a row. -/
def opcodeDigits (r : DadaoOpcode) : List Char := binDigits (if r.opFa = .op then 14 else 8) (header r)

/-- What the agreement needs to know about an instruction and its row: the words it selects, the digits of
its opcode and the names of its fields. -/
def dasmCheck (d : Inst) (r : DadaoOpcode) : Bool :=
  d.maskInt == (expectedRow r).opcodeMask.toNat && d.matchInt == (expectedRow r).opcodeMatch.toNat &&
    d.opcode == String.ofList (opcodeDigits r) && mnemonic d.name == r.name && fieldsCheck (dasmEntry d) r

/-- What is generated for an instruction is what its row says. -/
def generatedCheck (d : Inst) (r : DadaoOpcode) : Bool :=
  genOpcRow d == some r && genDisassembleRow d == some (expectedRow r) && dasmCheck d r

/-- **What is generated**; the kernel runs the reader and the generators on the opcodes file. -/
lemma generatedCheck_insts : insts.length = opcRows.length ∧
    ((insts.zip opcRows).all fun p => generatedCheck p.1 p.2) = true := by
  rw [insts, readOpcodes_eq_key]
  decide +kernel

/-! ## The tables -/

lemma mapM_eq_some_of_zip {α β : Type} {f : α → Option β} {as : List α} {bs : List β}
    (hlen : as.length = bs.length) (h : ∀ p ∈ as.zip bs, f p.1 = some p.2) : as.mapM f = some bs := by
  induction as generalizing bs with
  | nil =>
    obtain rfl : bs = [] := List.length_eq_zero_iff.mp hlen.symm
    rfl
  | cons a as ih =>
    obtain _ | ⟨b, bs⟩ := bs
    · cases hlen
    · have hhead : f a = some b := h (a, b) List.mem_cons_self
      have htail := ih (by simpa using hlen) fun p hp => h p (List.mem_cons_of_mem _ hp)
      rw [List.mapM_cons, hhead, htail]
      rfl

lemma generatedCheck_of_mem {p : Inst × DadaoOpcode} (hp : p ∈ insts.zip opcRows) :
    genOpcRow p.1 = some p.2 ∧ genDisassembleRow p.1 = some (expectedRow p.2) ∧ dasmCheck p.1 p.2 = true := by
  have h := List.all_eq_true.mp generatedCheck_insts.2 p hp
  simp only [generatedCheck, Bool.and_eq_true, beq_iff_eq] at h
  exact ⟨h.1.1, h.1.2, h.2⟩

/-- The tables have the rows. -/
lemma generated_eq : opcTable = opcRows ∧ disassembleTable = opcRows.map expectedRow := by
  have hopc : genOpcFile insts = some opcRows :=
    mapM_eq_some_of_zip generatedCheck_insts.1 fun p hp => (generatedCheck_of_mem hp).1
  have hdis : genDisassembleFile insts = some (opcRows.map expectedRow) := by
    refine mapM_eq_some_of_zip ?_ fun p hp => ?_
    · rw [List.length_map, generatedCheck_insts.1]
    · rw [List.zip_map_right, List.mem_map] at hp
      obtain ⟨q, hq, rfl⟩ := hp
      exact (generatedCheck_of_mem hq).2.1
  rw [opcTable, disassembleTable, hopc, hdis, Option.getD_some, Option.getD_some]
  exact ⟨rfl, rfl⟩

lemma opcTable_eq : opcTable = opcRows := generated_eq.1

/-- Every instruction of the file and its row pass the check of the entries. -/
lemma dasmCheck_eq : insts.length = opcTable.length ∧
    ((insts.zip opcTable).all fun p => dasmCheck p.1 p.2) = true := by
  rw [opcTable_eq]
  exact ⟨generatedCheck_insts.1, List.all_eq_true.mpr fun p hp => (generatedCheck_of_mem hp).2.2⟩

end Dadao.Gas
