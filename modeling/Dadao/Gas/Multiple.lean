import Dadao.Gas.RoundTrip
import Dadao.Qemu.SameResult

set_option relaxedAutoImplicit false
set_option autoImplicit false

/-!
# Several registers as one instruction each

The part of `dadao_md_assemble` that replaces a load, store or move of several registers by instructions
on one register each (`-multiple-to-single`), and the inputs for which the emitted words do what the
instruction does in the simulator.

## Main definitions

* `Dadao.Gas.multipleMem`, `Dadao.Gas.multipleMove` — the emitted words.
* `Dadao.Gas.mdAssembleWords` — what is assembled, with and without the option.
* `Dadao.Gas.KeepsMeaning` — the condition.

## Main results

* `Dadao.Gas.multiple_to_single_iff` — the emitted words have the result of the instruction if and only if
  the condition holds.
-/

namespace Dadao.Gas

open Dadao.Opcodes Dadao.Bits
open Dadao.Qemu (RegFile Multi multiOf fieldHa fieldHb fieldHc fieldHd quad Fields fields_quad addiWord memWords
  moveWords singleWords SameResult Strides)

/-! ## `dadao_md_assemble` -/

/-- The name of an instruction starts with `ldm` or `stm`. -/
def isMemName (insn : DadaoOpcode) : Bool :=
  insn.name.toList.take 3 == ['l', 'd', 'm'] || insn.name.toList.take 3 == ['s', 't', 'm']

/-- The third letter of the name is `2`. -/
def isMoveName (insn : DadaoOpcode) : Bool := insn.name.toList[2]? == some '2'

/-- The number of registers exceeds the limit. -/
def overLimit (insn : DadaoOpcode) (exp : ℕ → ExpressionS) : Bool :=
  isMemName insn && decide ((exp 0).xAddNumber.tmod 64 + (exp 3).xAddNumber > 64) ||
  isMoveName insn && (decide ((exp 0).xAddNumber.tmod 64 + (exp 2).xAddNumber > 64) ||
    decide ((exp 1).xAddNumber.tmod 64 + (exp 2).xAddNumber > 64))

/-- `MATCH_ADDIRD`. -/
def matchAddird : BitVec 32 := 0x19000000

/-- `addi` of the index register. -/
def bumpWord (exp : ℕ → ExpressionS) (imm : BitVec 32) : BitVec 32 :=
  matchAddird ||| BitVec.ofInt 32 (exp 2).xAddNumber <<< 18 ||| BitVec.ofInt 32 (exp 2).xAddNumber <<< 12 ||| imm

/-- The load or store of one register; the number of the first register is not rebased. -/
def memWord (insn : DadaoOpcode) (exp : ℕ → ExpressionS) (i : ℤ) : BitVec 32 :=
  insn.majorOpcode <<< 24 ||| BitVec.ofInt 32 ((exp 0).xAddNumber + i) <<< 18 |||
    BitVec.ofInt 32 ((exp 1).xAddNumber - 64) <<< 12 ||| BitVec.ofInt 32 (exp 2).xAddNumber <<< 6 ||| 1

/-- `len_data`. -/
def lenData (insn : DadaoOpcode) : ℕ := 1 <<< (insn.majorOpcode &&& 3).toNat

/-- The words for a load or store of several registers. -/
def multipleMem (insn : DadaoOpcode) (exp : ℕ → ExpressionS) : List (BitVec 32) :=
  [memWord insn exp 0] ++
  (List.range' 1 ((exp 3).xAddNumber - 1).toNat).flatMap (fun i : ℕ =>
    [bumpWord exp (BitVec.ofNat 32 (lenData insn)), memWord insn exp i]) ++
  [bumpWord exp (BitVec.ofInt 32 (0x1000 - lenData insn * ((exp 3).xAddNumber - 1)))]

/-- The number of a register in its file. -/
def rebase (kind : OperandType) (v : ℤ) : ℤ :=
  match kind with
  | .rb => v - 64
  | .rf => v - 128
  | .ra => v - 192
  | _ => v

/-- The move of one register. -/
def moveWord (insn : DadaoOpcode) (exp : ℕ → ExpressionS) (i : ℤ) : BitVec 32 :=
  insn.majorOpcode <<< 24 ||| insn.minorOpcode <<< 18 |||
    BitVec.ofInt 32 (rebase insn.opFb (exp 0).xAddNumber + i) <<< 12 |||
    BitVec.ofInt 32 (rebase insn.opFc (exp 1).xAddNumber + i) <<< 6 ||| 1

/-- The words for a move of several registers. -/
def multipleMove (insn : DadaoOpcode) (exp : ℕ → ExpressionS) : List (BitVec 32) :=
  [moveWord insn exp 0] ++
  (List.range' 1 ((exp 2).xAddNumber - 1).toNat).map fun i : ℕ => moveWord insn exp i

/-- The words for an instruction that has been found. The fourth operand of an instruction with three is what
its place in the array was left with. -/
def assembleFound (multipleToSingle : Bool) (insn : DadaoOpcode) (exp : ℕ → ExpressionS)
    (code : Ret) : Option (List (BitVec 32)) :=
  if overLimit insn exp then none
  else if multipleToSingle ∧ isMemName insn ∧ (exp 3).xAddNumber > 1 then some (multipleMem insn exp)
  else if multipleToSingle ∧ isMoveName insn ∧ (exp 3).xAddNumber > 0 then some (multipleMove insn exp)
  else
    match code with
    | some (.normal, w) => some [w]
    | _ => none

/-- **The words of a line** with a real instruction and no relocation; `none` for an error. -/
def mdAssembleWords (multipleToSingle : Bool) (g : ℕ → ExpressionS) (name : String) (exp : ℕ → ExpressionS)
    (nOperands : ℕ) : Option (List (BitVec 32)) :=
  (hashFind (mdBegin dadaoOpcodes).hash1 name).bind fun insn =>
    assembleFound multipleToSingle insn exp (mdAssembleCode g name exp nOperands)

/-! ## The rows -/

/-- The register file of a kind. -/
def fileOf : OperandType → Option RegFile
  | .rd => some .rd
  | .rb => some .rb
  | .rf => some .rf
  | .ra => some .ra
  | _ => none

/-- The number of a register file. -/
def fileNo : RegFile → ℕ
  | .rd => 0
  | .rb => 1
  | .rf => 2
  | .ra => 3

/-- The opcode bits of a row. -/
def headerWord (r : DadaoOpcode) : BitVec 32 := quad r.majorOpcode.toNat r.minorOpcode.toNat 0 0 0

/-- The first row of a name. -/
def firstRow (r : DadaoOpcode) : DadaoOpcode := (rowsOf opcRows r.name).headD r

/-- The size of an access. -/
def isSize (n : ℕ) : Bool := n == 1 || n == 2 || n == 4 || n == 8

/-- The row of a load or store of several registers of a file, and the first row of its name, whose opcode
bits are set where the number of the file is. -/
def memCheck (r : DadaoOpcode) (file : RegFile) (bytes : ℕ) : Bool :=
  fileOf r.opFa == some file && r.opFb == .rb && r.opFc == .rd && r.opFd == .immu6 &&
    r.majorOpcode.toNat < 256 && r.majorOpcode.toNat != 0x10 && r.majorOpcode.toNat != 0x50 &&
    r.minorOpcode == 0 && isMemName (firstRow r) && (firstRow r).majorOpcode.toNat < 256 &&
    (firstRow r).majorOpcode.toNat != 0x10 && (firstRow r).majorOpcode.toNat != 0x50 &&
    (firstRow r).majorOpcode.toNat ||| fileNo file == (firstRow r).majorOpcode.toNat &&
    (firstRow r).minorOpcode == 0 && lenData (firstRow r) == bytes && isSize bytes

/-- The row of a move of several registers. -/
def moveCheck (r : DadaoOpcode) (src dest : RegFile) : Bool :=
  r.opFa == .op && fileOf r.opFb == some dest && fileOf r.opFc == some src && r.opFd == .immu6 &&
    firstRow r == r && isMoveName r && !isMemName r && r.majorOpcode.toNat == 0x10 && r.minorOpcode.toNat < 64

/-- The row of an instruction on several registers. -/
def kindCheck (r : DadaoOpcode) : Multi → Bool
  | .ldm dest op => memCheck r dest op.bytes &&
    if firstRow r == r then dest != .rb
    else multiOf (headerWord (firstRow r)) == some (.ldm .rd op) && dest != .rd
  | .stm src op => memCheck r src op.bytes && (firstRow r == r) == (src == .rd) &&
    multiOf (headerWord (firstRow r)) == some (.stm .rd op)
  | .r2r src dest => moveCheck r src dest
  | .fcvt .. => true

/-- The opcode bits of a row are where the simulator looks for them. -/
def headerCheck (r : DadaoOpcode) : Bool :=
  r.majorOpcode.toNat < 256 && r.minorOpcode.toNat < 64 &&
    (r.opFa == .op || r.majorOpcode.toNat != 0x10 && r.majorOpcode.toNat != 0x50)

/-- **The table passes the checks.** -/
lemma check_of_mem {r : DadaoOpcode} (hr : r ∈ opcRows) :
    headerCheck r = true ∧ (multiOf (headerWord r)).all (kindCheck r) = true := by
  have hall : (opcRows.all fun r => headerCheck r && (multiOf (headerWord r)).all (kindCheck r)) = true := by
    decide +kernel
  exact Bool.and_eq_true_iff.mp (List.all_eq_true.mp hall r hr)

/-- The first table. -/
lemma hash1_mdBegin (opcodes : List DadaoOpcode) (name : String) :
    hashFind (mdBegin opcodes).hash1 name = (rowsOf opcodes name)[0]? :=
  hashFind_mdBegin opcodes name 0 (by omega)

/-- What the assembler looks at first. -/
lemma hash1_eq {r : DadaoOpcode} (hr : r ∈ opcRows) :
    hashFind (mdBegin dadaoOpcodes).hash1 r.name = some (firstRow r) := by
  have hrow : r ∈ rowsOf opcRows r.name := List.mem_filter.mpr ⟨hr, by simp⟩
  obtain ⟨first, rest, hrows⟩ := List.exists_cons_of_ne_nil (List.ne_nil_of_mem hrow)
  have hfirst : (rowsOf dadaoOpcodes r.name)[0]? = some (firstRow r) := by
    rw [firstRow, hrows, dadaoOpcodes, opcTable_eq, rowsOf, List.filter_append, ← rowsOf, hrows]
    rfl
  rw [hash1_mdBegin, hfirst]

/-- The instruction depends on the opcode bits only. -/
lemma multiOf_congr {w w' : BitVec 32} (hop : (w >>> 24).toNat = (w' >>> 24).toNat)
    (ha : (w >>> 24).toNat = 0x10 ∨ (w >>> 24).toNat = 0x50 → fieldHa w = fieldHa w') :
    multiOf w = multiOf w' := by
  unfold multiOf
  rw [← hop]
  split <;> try rfl
  · rename_i heq
    rw [Qemu.multiMinor10, Qemu.multiMinor10, ha (.inl heq)]
  · rename_i heq
    rw [Qemu.multiMinor50, Qemu.multiMinor50, ha (.inr heq)]

/-! ## The operands -/

/-- A register of a file, as it is parsed. -/
lemma operandExp_file {k : OperandType} {file : RegFile} (h : fileOf k = some file) (v : ℤ) :
    (operandExp k v).xAddNumber = 64 * fileNo file + v ∧ operandWidth k = 6 ∧
      (InRange k v → 0 ≤ v ∧ v < 64) ∧ k ≠ .op ∧ k ≠ .none := by
  cases k <;> simp only [fileOf, Option.some.injEq, reduceCtorEq] at h <;> subst h <;>
    simp [operandExp, regFile, fileNo, operandWidth, InRange, operandSigned]

/-- A small number as a register field. -/
lemma ofInt_natCast_add {n i : ℕ} : BitVec.ofInt 32 ((n : ℤ) + i) = BitVec.ofNat 32 (n + i) := by
  rw [← Int.natCast_add]
  exact BitVec.ofInt_natCast 32 _

/-- The three low fields. -/
lemma low_eq {b c d : ℕ} (hb : b < 64) (hc : c < 64) (hd : d < 64) :
    (BitVec.ofNat 32 b <<< 12 ||| BitVec.ofNat 32 c <<< 6 ||| BitVec.ofNat 32 d).toNat =
      b * 2 ^ 12 + c * 2 ^ 6 + d := by
  have hnat {n : ℕ} (hn : n < 64) : (BitVec.ofNat 32 n).toNat = n := by
    rw [BitVec.toNat_ofNat, Nat.mod_eq_of_lt (by omega)]
  have hb' : (BitVec.ofNat 32 b <<< 12).toNat = b * 2 ^ 12 := by
    rw [toNat_shiftLeft_of_lt (by rw [hnat hb]; omega), hnat hb]
  have hc' : (BitVec.ofNat 32 c <<< 6).toNat = c * 2 ^ 6 := by
    rw [toNat_shiftLeft_of_lt (by rw [hnat hc]; omega), hnat hc]
  have hbc : (BitVec.ofNat 32 b <<< 12 ||| BitVec.ofNat 32 c <<< 6).toNat = b * 2 ^ 12 + c * 2 ^ 6 := by
    rw [toNat_or_eq_add 12 (by omega) (by omega), hb', hc']
  rw [toNat_or_eq_add 6 (by omega) (by rw [hnat hd]; omega), hbc, hnat hd]

/-- A word by its fields. The number of the file of the first register goes to the opcode bits. -/
lemma word_file {M : BitVec 32} {f a b c d : ℕ} (hM : M.toNat < 256) (hf : M.toNat ||| f = M.toNat) (hlt : f < 4)
    (ha : a < 64) (hb : b < 64) (hc : c < 64) (hd : d < 64) :
    M <<< 24 ||| BitVec.ofNat 32 (64 * f + a) <<< 18 ||| BitVec.ofNat 32 b <<< 12 ||| BitVec.ofNat 32 c <<< 6 |||
      BitVec.ofNat 32 d = quad M.toNat a b c d := by
  have hfile : BitVec.ofNat 32 (64 * f + a) <<< 18 = BitVec.ofNat 32 f <<< 24 ||| BitVec.ofNat 32 a <<< 18 := by
    apply BitVec.eq_of_toNat_eq
    have hf' : (BitVec.ofNat 32 f <<< 24).toNat = f * 2 ^ 24 := by
      rw [toNat_shiftLeft_of_lt (by rw [BitVec.toNat_ofNat]; omega), BitVec.toNat_ofNat,
        Nat.mod_eq_of_lt (by omega)]
    have ha' : (BitVec.ofNat 32 a <<< 18).toNat = a * 2 ^ 18 := by
      rw [toNat_shiftLeft_of_lt (by rw [BitVec.toNat_ofNat]; omega), BitVec.toNat_ofNat,
        Nat.mod_eq_of_lt (by omega)]
    rw [toNat_or_eq_add 24 (by omega) (by omega), hf', ha', toNat_shiftLeft_of_lt
      (by rw [BitVec.toNat_ofNat]; omega), BitVec.toNat_ofNat, Nat.mod_eq_of_lt (by omega)]
    omega
  have hopcode : M <<< 24 ||| BitVec.ofNat 32 f <<< 24 = M <<< 24 := by
    have hor : M ||| BitVec.ofNat 32 f = M := by
      apply BitVec.eq_of_toNat_eq
      rw [BitVec.toNat_or, BitVec.toNat_ofNat, Nat.mod_eq_of_lt (by omega), hf]
    rw [← BitVec.shiftLeft_or_distrib, hor]
  have hword := word_eq hM ha (low_eq hb hc hd) (by omega)
  rw [hfile, ← BitVec.or_assoc, hopcode]
  simp only [BitVec.or_assoc] at hword ⊢
  rw [hword, quad, ← Nat.add_assoc, ← Nat.add_assoc]

/-- `addi` of the index. -/
lemma bumpWord_eq {exp : ℕ → ExpressionS} {c imm : ℕ} (hexp : (exp 2).xAddNumber = c) (hc : c < 64)
    (himm : imm < 2 ^ 12) : bumpWord exp (BitVec.ofNat 32 imm) = addiWord c imm := by
  have hlow : (BitVec.ofNat 32 c <<< 12 ||| BitVec.ofNat 32 imm).toNat = c * 2 ^ 12 + imm := by
    have hc' : (BitVec.ofNat 32 c <<< 12).toNat = c * 2 ^ 12 := by
      rw [toNat_shiftLeft_of_lt (by rw [BitVec.toNat_ofNat]; omega), BitVec.toNat_ofNat,
        Nat.mod_eq_of_lt (by omega)]
    rw [toNat_or_eq_add 12 (by omega) (by rw [BitVec.toNat_ofNat]; omega), hc', BitVec.toNat_ofNat,
      Nat.mod_eq_of_lt (by omega)]
  have hword := word_eq (M := 0x19#32) (by decide) hc hlow (by omega)
  have hsum : (0x19#32).toNat * 2 ^ 24 + c * 2 ^ 18 + (c * 2 ^ 12 + imm) =
      0x19 * 2 ^ 24 + c * 2 ^ 18 + c * 2 ^ 12 + imm / 2 ^ 6 * 2 ^ 6 + imm % 2 ^ 6 := by
    have hopcode : (0x19#32).toNat = 0x19 := rfl
    omega
  rw [hsum, ← quad, ← addiWord] at hword
  rw [← hword, bumpWord, hexp, BitVec.ofInt_natCast, BitVec.or_assoc, BitVec.or_assoc]
  simp only [BitVec.or_assoc]
  rfl

section Words

variable {insn : DadaoOpcode} {exp : ℕ → ExpressionS} {f a b c n : ℕ}

/-- The load or store of one register. -/
lemma memWord_eq (hM : insn.majorOpcode.toNat < 256) (hf : insn.majorOpcode.toNat ||| f = insn.majorOpcode.toNat)
    (hlt : f < 4) (h0 : (exp 0).xAddNumber = 64 * f + a) (h1 : (exp 1).xAddNumber = 64 + b)
    (h2 : (exp 2).xAddNumber = c) (hb : b < 64) (hc : c < 64) {i : ℕ} (hi : a + i < 64) :
    memWord insn exp i = quad insn.majorOpcode.toNat (a + i) b c 1 := by
  have hfirst : BitVec.ofInt 32 ((exp 0).xAddNumber + i) = BitVec.ofNat 32 (64 * f + (a + i)) := by
    rw [h0, ← BitVec.ofInt_natCast]
    congr 1
    omega
  have hbase : BitVec.ofInt 32 ((exp 1).xAddNumber - 64) = BitVec.ofNat 32 b := by
    rw [h1, ← BitVec.ofInt_natCast]
    congr 1
    omega
  rw [memWord, hfirst, hbase, h2, BitVec.ofInt_natCast, ← word_file hM hf hlt hi hb hc (show 1 < 64 by omega)]
  rfl

/-- **The words for a load or store** are those for one register after the other. -/
lemma multipleMem_eq (hM : insn.majorOpcode.toNat < 256)
    (hf : insn.majorOpcode.toNat ||| f = insn.majorOpcode.toNat) (hlt : f < 4)
    (h0 : (exp 0).xAddNumber = 64 * f + a) (h1 : (exp 1).xAddNumber = 64 + b) (h2 : (exp 2).xAddNumber = c)
    (h3 : (exp 3).xAddNumber = n) (hb : b < 64) (hc : c < 64) (hn : 1 < n) (han : a + n ≤ 64)
    (hlen : lenData insn ≤ 8) (hpos : 1 ≤ lenData insn) : multipleMem insn exp =
      memWords insn.majorOpcode.toNat (lenData insn) a b c (n - 1) ++
        [addiWord c (0x1000 - lenData insn * (n - 1))] := by
  have hword {i : ℕ} (hi : a + i < 64) := memWord_eq hM hf hlt h0 h1 h2 hb hc hi
  have hcount : ((exp 3).xAddNumber - 1).toNat = n - 1 := by omega
  have hup (k : ℕ) (hk : a + k < 64) : [memWord insn exp 0] ++ (List.range' 1 k).flatMap (fun i : ℕ =>
      [bumpWord exp (BitVec.ofNat 32 (lenData insn)), memWord insn exp i]) =
        memWords insn.majorOpcode.toNat (lenData insn) a b c k := by
    induction k with
    | zero =>
      have hzero := hword (i := 0) (by omega)
      simpa [memWords] using hzero
    | succ k ih =>
      rw [List.range'_1_concat, List.flatMap_append, ← List.append_assoc, ih (by omega), memWords,
        List.flatMap_singleton, bumpWord_eq h2 hc (by omega), Nat.add_comm 1 k, hword hk]
  have hmul : lenData insn * (n - 1) ≤ 8 * 63 := Nat.mul_le_mul hlen (by omega)
  have hstep : 0 < lenData insn * (n - 1) := Nat.mul_pos hpos (by omega)
  have hback : BitVec.ofInt 32 (0x1000 - lenData insn * ((exp 3).xAddNumber - 1)) =
      BitVec.ofNat 32 (0x1000 - lenData insn * (n - 1)) := by
    have hcast : ((n - 1 : ℕ) : ℤ) = (n : ℤ) - 1 := by omega
    rw [h3, ← hcast, ← Int.natCast_mul, ← BitVec.ofInt_natCast]
    congr 1
    omega
  rw [multipleMem, hcount, hup _ (by omega), hback, bumpWord_eq h2 hc (by omega)]

/-- **The words for a move** are those for one register after the other. -/
lemma multipleMove_eq {b c : ℕ} {src dest : RegFile} (hmajor : insn.majorOpcode.toNat = 0x10)
    (hminor : insn.minorOpcode.toNat < 64) (hdest : fileOf insn.opFb = some dest) (hsrc : fileOf insn.opFc = some src)
    (h0 : (exp 0).xAddNumber = 64 * fileNo dest + b) (h1 : (exp 1).xAddNumber = 64 * fileNo src + c)
    (h2 : (exp 2).xAddNumber = n) (hn : 1 ≤ n) (hbn : b + n ≤ 64) (hcn : c + n ≤ 64) :
    multipleMove insn exp = moveWords insn.minorOpcode.toNat b c n := by
  have hbase {k : OperandType} {file : RegFile} (hk : fileOf k = some file) (v : ℤ) :
      rebase k (64 * fileNo file + v) = v := by
    cases k <;> simp only [fileOf, Option.some.injEq, reduceCtorEq] at hk <;> subst hk <;>
      simp [rebase, fileNo]
  have hword {i : ℕ} (hi : i < n) : moveWord insn exp i = quad 0x10 insn.minorOpcode.toNat (b + i) (c + i) 1 := by
    have hfile := word_file (M := insn.majorOpcode) (f := 0) (by omega) (Nat.or_zero _) (by omega) hminor
      (show b + i < 64 by omega) (show c + i < 64 by omega) (show 1 < 64 by omega)
    have hmin : BitVec.ofNat 32 (64 * 0 + insn.minorOpcode.toNat) = insn.minorOpcode := by
      rw [Nat.mul_zero, Nat.zero_add, BitVec.ofNat_toNat, BitVec.setWidth_eq]
    rw [hmin, hmajor] at hfile
    rw [moveWord, h0, h1, hbase hdest, hbase hsrc, ofInt_natCast_add, ofInt_natCast_add, ← hfile]
    rfl
  have hcount : ((exp 2).xAddNumber - 1).toNat = n - 1 := by omega
  have hrange : List.range n = 0 :: List.range' 1 (n - 1) := by
    obtain ⟨k, rfl⟩ : ∃ k, n = k + 1 := ⟨n - 1, by omega⟩
    rw [List.range_eq_range', List.range'_succ, Nat.add_sub_cancel]
  rw [multipleMove, hcount, moveWords, hrange, List.map_cons, List.singleton_append]
  refine congrArg₂ List.cons (hword hn) (List.map_congr_left fun i hi => hword ?_)
  have hmem := List.mem_range'_1.mp hi
  omega

end Words

/-! ## The theorem -/

section Rows

variable {r : DadaoOpcode} {vals : List ℤ} {exp : ℕ → ExpressionS}

/-- The instruction of a word of a row. -/
lemma multiOf_encode (hr : r ∈ opcRows) (hv : List.Forall₂ InRange (operandKinds r) vals) :
    multiOf (BitVec.ofNat 32 (encode r vals)) = multiOf (headerWord r) := by
  obtain ⟨hcheck, -⟩ := check_of_mem hr
  simp only [headerCheck, Bool.and_eq_true, Bool.or_eq_true, beq_iff_eq, bne_iff_ne, ne_eq,
    decide_eq_true_eq] at hcheck
  obtain ⟨⟨hmajor, hminor⟩, hop⟩ := hcheck
  have hshaped := wellShaped_of_mem (opcTable_eq ▸ hr)
  have hnat : (BitVec.ofNat 32 (encode r vals)).toNat = encode r vals := by
    rw [BitVec.toNat_ofNat, Nat.mod_eq_of_lt (encode_lt hshaped hv)]
  have hdiv := encode_div hv
  rw [header, (widths_sum hshaped).1] at hdiv
  have hheader := fields_quad r.majorOpcode.toNat hmajor hminor (show 0 < 2 ^ 6 by omega) (show 0 < 2 ^ 6 by omega)
    (show 0 < 2 ^ 6 by omega)
  have hopcode : (BitVec.ofNat 32 (encode r vals) >>> 24).toNat = r.majorOpcode.toNat := by
    rw [BitVec.toNat_ushiftRight, Nat.shiftRight_eq_div_pow, hnat]
    by_cases h : r.opFa = .op
    · rw [if_pos h, if_pos h] at hdiv
      omega
    · rwa [if_neg h, if_neg h] at hdiv
  refine multiOf_congr (hopcode.trans hheader.opcode.symm) fun hbyte => ?_
  have h : r.opFa = .op := by
    refine hop.resolve_right fun hne => ?_
    rw [hopcode] at hbyte
    exact hbyte.elim hne.1 hne.2
  rw [if_pos h, if_pos h] at hdiv
  rw [headerWord, hheader.ha, fieldHa, toNat_and_mask _ _ 6 rfl, BitVec.toNat_ushiftRight,
    Nat.shiftRight_eq_div_pow, hnat]
  omega

/-- The word of a row with four fields. -/
lemma encode_four {k0 k1 k2 k3 : OperandType} (hop : r.opFa ≠ .op) (hk : operandKinds r = [k0, k1, k2, k3])
    (h0 : operandWidth k0 = 6) (h1 : operandWidth k1 = 6) (h2 : operandWidth k2 = 6) (h3 : operandWidth k3 = 6)
    {a b c n : ℕ} (ha : a < 64) (hb : b < 64) (hc : c < 64) (hn : n < 64) :
    BitVec.ofNat 32 (encode r [(a : ℤ), b, c, n]) = quad r.majorOpcode.toNat a b c n := by
  have hfield {k : OperandType} {v : ℕ} (hw : operandWidth k = 6) (hv : v < 64) : fieldOf k v = v := by
    rw [fieldOf, hw]
    omega
  rw [encode, widths, hk]
  simp only [header, if_neg hop, List.map_cons, List.map_nil, List.zipWith_cons_cons, List.zipWith_nil_right,
    h0, h1, h2, h3, hfield h0 ha, hfield h1 hb, hfield h2 hc, hfield h3 hn, pack, List.sum_cons, List.sum_nil, quad]
  refine congrArg (BitVec.ofNat 32) ?_
  omega

/-- The word of a row with a minor opcode and three fields. -/
lemma encode_three {k0 k1 k2 : OperandType} (hop : r.opFa = .op) (hk : operandKinds r = [k0, k1, k2])
    (h0 : operandWidth k0 = 6) (h1 : operandWidth k1 = 6) (h2 : operandWidth k2 = 6)
    {b c n : ℕ} (hb : b < 64) (hc : c < 64) (hn : n < 64) :
    BitVec.ofNat 32 (encode r [(b : ℤ), c, n]) = quad r.majorOpcode.toNat r.minorOpcode.toNat b c n := by
  have hfield {k : OperandType} {v : ℕ} (hw : operandWidth k = 6) (hv : v < 64) : fieldOf k v = v := by
    rw [fieldOf, hw]
    omega
  rw [encode, widths, hk]
  simp only [header, if_pos hop, List.map_cons, List.map_nil, List.zipWith_cons_cons, List.zipWith_nil_right,
    h0, h1, h2, hfield h0 hb, hfield h1 hc, hfield h2 hn, pack, List.sum_cons, List.sum_nil, quad]
  refine congrArg (BitVec.ofNat 32) ?_
  omega

variable {g : ℕ → ExpressionS} {w : BitVec 32}

/-- The first row is the one that is found. -/
lemma mdAssembleWords_eq (multipleToSingle : Bool) (nOperands : ℕ) (hr : r ∈ opcRows) :
    mdAssembleWords multipleToSingle g r.name exp nOperands =
      assembleFound multipleToSingle (firstRow r) exp (mdAssembleCode g r.name exp nOperands) := by
  rw [mdAssembleWords, hash1_eq hr, Option.bind_some]

/-- An accepted line. -/
lemma accepted {insn : DadaoOpcode} {code : Ret} (h : assembleFound false insn exp code = some [w]) :
    overLimit insn exp = false ∧ code = some (.normal, w) := by
  unfold assembleFound at h
  simp only [Bool.false_eq_true, false_and, if_false] at h
  by_cases hlimit : overLimit insn exp = true
  · rw [if_pos hlimit] at h
    exact absurd h (by simp)
  · rw [if_neg hlimit] at h
    refine ⟨Bool.eq_false_of_not_eq_true hlimit, ?_⟩
    obtain _ | ⟨type, v⟩ := code
    · exact absurd h (by simp)
    · cases type <;> simp_all

/-- A line with the option. -/
lemma assembleFound_true {insn : DadaoOpcode} (hlimit : overLimit insn exp = false) :
    assembleFound true insn exp (some (.normal, w)) =
      if isMemName insn ∧ (exp 3).xAddNumber > 1 then some (multipleMem insn exp)
      else if isMoveName insn ∧ (exp 3).xAddNumber > 0 then some (multipleMove insn exp)
      else some [w] := by
  simp only [assembleFound, hlimit, Bool.false_eq_true, if_false, true_and]

/-- The instructions on several registers that move them, without the conversions. -/
def IsBlock : Multi → Prop
  | .fcvt .. => False
  | _ => True

/-- **When the emitted words keep the meaning.** A load or store has to be of the file of the first row with
its name, the address has to go on by one element, and the index must not be among the registers, or only as
the first one that is stored. A move must not go up over a source that is still to be read; without a number
behind its operands it is not replaced. -/
def KeepsMeaning (r : DadaoOpcode) (junk : ℤ) (w : BitVec 32) : Multi → Prop
  | .ldm dest op => firstRow r = r ∧ Strides (fieldHb w) (fieldHc w) op.bytes ∧
    ¬ (dest = .rd ∧ fieldHc w ≠ 0 ∧ fieldHa w ≤ fieldHc w ∧ fieldHc w < fieldHa w + fieldHd w)
  | .stm _ op => firstRow r = r ∧ Strides (fieldHb w) (fieldHc w) op.bytes ∧
    ¬ (fieldHc w ≠ 0 ∧ fieldHa w < fieldHc w ∧ fieldHc w < fieldHa w + fieldHd w)
  | .r2r src dest => 0 < junk → ¬ (src = dest ∧ fieldHc w < fieldHb w ∧ fieldHb w < fieldHc w + fieldHd w)
  | .fcvt .. => True

/-- Naturals for the values of four register fields. -/
lemma exists_four {k0 k1 k2 k3 : OperandType} (hk : operandKinds r = [k0, k1, k2, k3])
    (hrange : ∀ k ∈ [k0, k1, k2, k3], ∀ v, InRange k v → 0 ≤ v ∧ v < 64)
    (hv : List.Forall₂ InRange (operandKinds r) vals) : ∃ a b c n : ℕ, vals = [(a : ℤ), b, c, n] ∧
      a < 64 ∧ b < 64 ∧ c < 64 ∧ n < 64 := by
  rw [hk] at hv
  obtain ⟨v0, _, h0, hv0, rfl⟩ := List.forall₂_cons_left_iff.mp hv
  obtain ⟨v1, _, h1, hv1, rfl⟩ := List.forall₂_cons_left_iff.mp hv0
  obtain ⟨v2, _, h2, hv2, rfl⟩ := List.forall₂_cons_left_iff.mp hv1
  obtain ⟨v3, _, h3, hv3, rfl⟩ := List.forall₂_cons_left_iff.mp hv2
  obtain rfl := List.forall₂_nil_left_iff.mp hv3
  have h0 := hrange k0 (by simp) v0 h0
  have h1 := hrange k1 (by simp) v1 h1
  have h2 := hrange k2 (by simp) v2 h2
  have h3 := hrange k3 (by simp) v3 h3
  refine ⟨v0.toNat, v1.toNat, v2.toNat, v3.toNat, ?_, by omega, by omega, by omega, by omega⟩
  simp only [List.cons.injEq, and_true]
  omega

/-- Naturals for the values of three register fields. -/
lemma exists_three {k0 k1 k2 : OperandType} (hk : operandKinds r = [k0, k1, k2])
    (hrange : ∀ k ∈ [k0, k1, k2], ∀ v, InRange k v → 0 ≤ v ∧ v < 64)
    (hv : List.Forall₂ InRange (operandKinds r) vals) : ∃ b c n : ℕ, vals = [(b : ℤ), c, n] ∧
      b < 64 ∧ c < 64 ∧ n < 64 := by
  rw [hk] at hv
  obtain ⟨v0, _, h0, hv0, rfl⟩ := List.forall₂_cons_left_iff.mp hv
  obtain ⟨v1, _, h1, hv1, rfl⟩ := List.forall₂_cons_left_iff.mp hv0
  obtain ⟨v2, _, h2, hv2, rfl⟩ := List.forall₂_cons_left_iff.mp hv1
  obtain rfl := List.forall₂_nil_left_iff.mp hv2
  have h0 := hrange k0 (by simp) v0 h0
  have h1 := hrange k1 (by simp) v1 h1
  have h2 := hrange k2 (by simp) v2 h2
  refine ⟨v0.toNat, v1.toNat, v2.toNat, ?_, by omega, by omega, by omega⟩
  simp only [List.cons.injEq, and_true]
  omega

/-- A count, as it is parsed. -/
lemma operandExp_immu6 (v : ℤ) : (operandExp .immu6 v).xAddNumber = v ∧ operandWidth .immu6 = 6 ∧
    (InRange .immu6 v → 0 ≤ v ∧ v < 64) := by
  simp [operandExp, regFile, InRange, operandSigned, operandWidth]

/-- The operands and the word of a load or store of several registers. -/
lemma mem_operands {file : RegFile} {bytes : ℕ} (hcheck : memCheck r file bytes = true)
    (hv : List.Forall₂ InRange (operandKinds r) vals) (hexp : HasOperands exp (operands r vals)) :
    ∃ a b c n : ℕ, a < 64 ∧ b < 64 ∧ c < 64 ∧ n < 64 ∧
      (exp 0).xAddNumber = 64 * fileNo file + a ∧ (exp 1).xAddNumber = 64 + b ∧ (exp 2).xAddNumber = c ∧
      (exp 3).xAddNumber = n ∧
      Fields (BitVec.ofNat 32 (encode r vals)) r.majorOpcode.toNat a b c n := by
  simp only [memCheck, Bool.and_eq_true, beq_iff_eq, decide_eq_true_eq] at hcheck
  obtain ⟨⟨⟨⟨⟨⟨⟨⟨⟨⟨⟨⟨⟨⟨⟨hfa, hfb⟩, hfc⟩, hfd⟩, hmajor⟩, -⟩, -⟩, -⟩, -⟩, -⟩, -⟩, -⟩, -⟩, -⟩, -⟩, -⟩ := hcheck
  have hfile (v : ℤ) := operandExp_file hfa v
  have hk : operandKinds r = [r.opFa, .rb, .rd, .immu6] := by
    simp [operandKinds, hfb, hfc, hfd, (hfile 0).2.2.2.1, (hfile 0).2.2.2.2]
  have hrb (v : ℤ) := operandExp_file (k := .rb) rfl v
  have hrd (v : ℤ) := operandExp_file (k := .rd) rfl v
  obtain ⟨a, b, c, n, rfl, ha, hb, hc, hn⟩ := exists_four hk (by
    intro k hmem v hin
    simp only [List.mem_cons, List.not_mem_nil, or_false] at hmem
    rcases hmem with rfl | rfl | rfl | rfl
    · exact (hfile v).2.2.1 hin
    · exact (hrb v).2.2.1 hin
    · exact (hrd v).2.2.1 hin
    · exact (operandExp_immu6 v).2.2 hin) hv
  rw [operands, hk] at hexp
  have h0 := hexp 0 _ rfl
  have h1 := hexp 1 _ rfl
  have h2 := hexp 2 _ rfl
  have h3 := hexp 3 _ rfl
  refine ⟨a, b, c, n, ha, hb, hc, hn, by rw [h0, (hfile a).1], by rw [h1, (hrb b).1]; rfl,
    by rw [h2, (hrd c).1]; simp [fileNo], by rw [h3, (operandExp_immu6 n).1], ?_⟩
  rw [encode_four (hfile 0).2.2.2.1 hk (hfile 0).2.1 rfl rfl rfl ha hb hc hn]
  exact fields_quad _ hmajor ha hb hc hn

/-- What the first row of a load or store gives. -/
lemma mem_first {file : RegFile} {bytes : ℕ} (hcheck : memCheck r file bytes = true) :
    isMemName (firstRow r) = true ∧ (firstRow r).majorOpcode.toNat < 256 ∧
      (firstRow r).majorOpcode.toNat ||| fileNo file = (firstRow r).majorOpcode.toNat ∧
      lenData (firstRow r) = bytes ∧ (bytes = 1 ∨ bytes = 2 ∨ bytes = 4 ∨ bytes = 8) ∧
      ∀ v : BitVec 32, (v >>> 24).toNat = (firstRow r).majorOpcode.toNat →
        multiOf v = multiOf (headerWord (firstRow r)) := by
  simp only [memCheck, Bool.and_eq_true, beq_iff_eq, bne_iff_ne, ne_eq, decide_eq_true_eq, isSize,
    Bool.or_eq_true] at hcheck
  obtain ⟨⟨⟨⟨⟨⟨⟨⟨-, hname⟩, hmajor⟩, h10⟩, h50⟩, hfile⟩, hminor⟩, hlen⟩, hsize⟩ := hcheck
  have hheader := fields_quad (firstRow r).majorOpcode.toNat hmajor
    (show (firstRow r).minorOpcode.toNat < 2 ^ 6 by rw [hminor]; decide) (show 0 < 2 ^ 6 by omega)
    (show 0 < 2 ^ 6 by omega) (show 0 < 2 ^ 6 by omega)
  refine ⟨hname, hmajor, hfile, hlen, by omega, fun v hv => ?_⟩
  refine multiOf_congr (hv.trans hheader.opcode.symm) fun hbyte => ?_
  rw [hv] at hbyte
  exact absurd hbyte (by simp [h10, h50])

/-- **The words for a load or store of several registers.** -/
lemma assembleFound_mem {file : RegFile} {bytes : ℕ} (hcheck : memCheck r file bytes = true)
    (hv : List.Forall₂ InRange (operandKinds r) vals) (hexp : HasOperands exp (operands r vals))
    (hlimit : overLimit (firstRow r) exp = false) (hw : w = BitVec.ofNat 32 (encode r vals))
    (hcount : 1 < fieldHd w) : fieldHa w + fieldHd w ≤ 64 ∧
      assembleFound true (firstRow r) exp (some (.normal, w)) =
        some (singleWords (firstRow r).majorOpcode.toNat bytes w (fieldHd w - 1)) := by
  obtain ⟨a, b, c, n, ha, hb, hc, hn, h0, h1, h2, h3, hfields⟩ := mem_operands hcheck hv hexp
  obtain ⟨hname, hmajor, hfile, hlen, hsize, -⟩ := mem_first hcheck
  rw [← hw] at hfields
  rw [hfields.hd] at hcount
  have hlt : fileNo file < 4 := by cases file <;> decide
  have hsum : a + n ≤ 64 := by
    simp only [overLimit, hname, Bool.true_and, Bool.or_eq_false_iff, decide_eq_false_iff_not] at hlimit
    have h := hlimit.1
    rw [h0, h3, Int.tmod_eq_emod_of_nonneg (by omega)] at h
    omega
  rw [hfields.ha, hfields.hd, assembleFound_true hlimit, if_pos ⟨hname, by omega⟩,
    multipleMem_eq hmajor hfile hlt h0 h1 h2 h3 hb hc hcount hsum (by omega) (by omega), hlen, singleWords,
    hfields.ha, hfields.hb, hfields.hc]
  exact ⟨hsum, rfl⟩

/-- **The words for a move of several registers.** -/
lemma assembleFound_move {src dest : RegFile} (hcheck : moveCheck r src dest = true)
    (hv : List.Forall₂ InRange (operandKinds r) vals) (hexp : HasOperands exp (operands r vals))
    (hlimit : overLimit (firstRow r) exp = false) (hw : w = BitVec.ofNat 32 (encode r vals))
    (hcount : 1 < fieldHd w) : fieldHb w + fieldHd w ≤ 64 ∧ fieldHc w + fieldHd w ≤ 64 ∧
      (w >>> 24).toNat = 0x10 ∧ assembleFound true (firstRow r) exp (some (.normal, w)) =
        some (if 0 < (exp 3).xAddNumber then moveWords (fieldHa w) (fieldHb w) (fieldHc w) (fieldHd w)
          else [w]) := by
  simp only [moveCheck, Bool.and_eq_true, beq_iff_eq, decide_eq_true_eq, Bool.not_eq_true'] at hcheck
  obtain ⟨⟨⟨⟨⟨⟨⟨⟨hfa, hfb⟩, hfc⟩, hfd⟩, hfirst⟩, hname⟩, hmem⟩, hmajor⟩, hminor⟩ := hcheck
  have hdest (v : ℤ) := operandExp_file hfb v
  have hsrc (v : ℤ) := operandExp_file hfc v
  have hk : operandKinds r = [r.opFb, r.opFc, .immu6] := by
    simp [operandKinds, hfa, hfd, (hdest 0).2.2.2.1, (hdest 0).2.2.2.2, (hsrc 0).2.2.2.1, (hsrc 0).2.2.2.2]
  obtain ⟨b, c, n, rfl, hb, hc, hn⟩ := exists_three hk (by
    intro k hkind v hin
    simp only [List.mem_cons, List.not_mem_nil, or_false] at hkind
    rcases hkind with rfl | rfl | rfl
    · exact (hdest v).2.2.1 hin
    · exact (hsrc v).2.2.1 hin
    · exact (operandExp_immu6 v).2.2 hin) hv
  rw [operands, hk] at hexp
  have h0 : (exp 0).xAddNumber = 64 * fileNo dest + b := by rw [hexp 0 _ rfl, (hdest b).1]
  have h1 : (exp 1).xAddNumber = 64 * fileNo src + c := by rw [hexp 1 _ rfl, (hsrc c).1]
  have h2 : (exp 2).xAddNumber = n := by rw [hexp 2 _ rfl, (operandExp_immu6 n).1]
  have hfields : Fields w 0x10 r.minorOpcode.toNat b c n := by
    rw [hw, encode_three hfa hk (hdest 0).2.1 (hsrc 0).2.1 rfl hb hc hn, hmajor]
    exact fields_quad _ (by omega) hminor hb hc hn
  rw [hfields.hd] at hcount
  rw [hfirst] at hlimit ⊢
  have hsum : b + n ≤ 64 ∧ c + n ≤ 64 := by
    simp only [overLimit, hname, hmem, Bool.true_and, Bool.false_and, Bool.false_or, Bool.or_eq_false_iff,
      decide_eq_false_iff_not] at hlimit
    rw [h0, h1, h2, Int.tmod_eq_emod_of_nonneg (by omega), Int.tmod_eq_emod_of_nonneg (by omega)] at hlimit
    omega
  refine ⟨by rw [hfields.hb, hfields.hd]; exact hsum.1, by rw [hfields.hc, hfields.hd]; exact hsum.2,
    hfields.opcode, ?_⟩
  rw [assembleFound_true hlimit, if_neg (by simp [hmem]),
    multipleMove_eq hmajor hminor hfb hfc h0 h1 h2 (by omega) hsum.1 hsum.2, hfields.ha, hfields.hb, hfields.hc,
    hfields.hd]
  by_cases hjunk : 0 < (exp 3).xAddNumber
  · rw [if_pos ⟨hname, hjunk⟩, if_pos hjunk]
  · rw [if_neg fun h => hjunk h.2, if_neg hjunk]

/-- One instruction has its own result. -/
lemma sameResult_self {src dest : RegFile} (hmulti : multiOf w = some (.r2r src dest)) (hpos : fieldHd w ≠ 0)
    (hhb : fieldHb w + fieldHd w ≤ 64) (hhc : fieldHc w + fieldHd w ≤ 64) : SameResult w [w] := by
  have hacts := Qemu.acts_r2r hmulti hpos hhb hhc
  have hperf := Qemu.performs_of_acts hacts fun s => Qemu.State.fill_pc ..
  refine (Qemu.sameResult_iff hacts hperf).mpr fun s _ => ?_
  rw [Qemu.State.next, Qemu.State.set_set]

/-- Loads. -/
lemma loads_keep {dest : RegFile} {op : Tcg.MemOp} (hmulti : multiOf w = some (.ldm dest op))
    (hheader : multiOf (headerWord r) = some (.ldm dest op)) (hcheck : kindCheck r (.ldm dest op) = true)
    (hv : List.Forall₂ InRange (operandKinds r) vals) (hexp : HasOperands exp (operands r vals))
    (hlimit : overLimit (firstRow r) exp = false) (hw : w = BitVec.ofNat 32 (encode r vals))
    (hcount : 1 < fieldHd w) :
    (∃ ws, assembleFound true (firstRow r) exp (some (.normal, w)) = some ws ∧ SameResult w ws) ↔
      KeepsMeaning r (exp 3).xAddNumber w (.ldm dest op) := by
  have hpred : fieldHd w = fieldHd w - 1 + 1 := by omega
  rw [kindCheck, Bool.and_eq_true] at hcheck
  obtain ⟨hmem, hfirst⟩ := hcheck
  obtain ⟨hsum, hwords⟩ := assembleFound_mem hmem hv hexp hlimit hw hcount
  obtain ⟨-, hmajor, -, -, hsize, hsingle⟩ := mem_first hmem
  have hfile : ∃ file, multiOf (headerWord (firstRow r)) = some (.ldm file op) ∧ (file = .rd ∨ file = dest) ∧
      file ≠ .rb ∧ (file = dest ↔ firstRow r = r) := by
    by_cases heq : firstRow r = r
    · rw [if_pos (beq_iff_eq.mpr heq), bne_iff_ne] at hfirst
      exact ⟨dest, by rw [heq, hheader], .inr rfl, hfirst, iff_of_true rfl heq⟩
    · rw [if_neg fun h => heq (beq_iff_eq.mp h), Bool.and_eq_true, beq_iff_eq, bne_iff_ne] at hfirst
      exact ⟨.rd, hfirst.1, .inl rfl, by decide, iff_of_false (Ne.symm hfirst.2) heq⟩
  obtain ⟨file, hfile, hcases, hrb, hiff⟩ := hfile
  have hsame := Qemu.sameResult_loads_iff hmulti hmajor (fun v hv => by rw [hsingle v hv, hfile]) hcases hrb hsize
    (show 1 ≤ fieldHd w - 1 by omega) hpred (by omega)
  rw [hiff, ← hpred] at hsame
  rw [hwords, KeepsMeaning, ← hsame]
  simp only [Option.some.injEq, exists_eq_left']

/-- Stores. -/
lemma stores_keep {src : RegFile} {op : Tcg.MemOp} (hmulti : multiOf w = some (.stm src op))
    (hcheck : kindCheck r (.stm src op) = true)
    (hv : List.Forall₂ InRange (operandKinds r) vals) (hexp : HasOperands exp (operands r vals))
    (hlimit : overLimit (firstRow r) exp = false) (hw : w = BitVec.ofNat 32 (encode r vals))
    (hcount : 1 < fieldHd w) :
    (∃ ws, assembleFound true (firstRow r) exp (some (.normal, w)) = some ws ∧ SameResult w ws) ↔
      KeepsMeaning r (exp 3).xAddNumber w (.stm src op) := by
  have hpred : fieldHd w = fieldHd w - 1 + 1 := by omega
  rw [kindCheck, Bool.and_eq_true, Bool.and_eq_true, beq_iff_eq, beq_iff_eq] at hcheck
  obtain ⟨⟨hmem, hfirst⟩, hfile⟩ := hcheck
  obtain ⟨hsum, hwords⟩ := assembleFound_mem hmem hv hexp hlimit hw hcount
  obtain ⟨-, hmajor, -, -, hsize, hsingle⟩ := mem_first hmem
  have hiff : src = .rd ↔ firstRow r = r := by
    rw [Bool.eq_iff_iff, beq_iff_eq, beq_iff_eq] at hfirst
    exact hfirst.symm
  have hsame := Qemu.sameResult_stores_iff hmulti hmajor (fun v hv => by rw [hsingle v hv, hfile]) hsize
    (show 1 ≤ fieldHd w - 1 by omega) hpred (by omega)
  rw [hiff, ← hpred] at hsame
  rw [hwords, KeepsMeaning, ← hsame]
  simp only [Option.some.injEq, exists_eq_left']

/-- Moves. -/
lemma moves_keep {src dest : RegFile} (hmulti : multiOf w = some (.r2r src dest))
    (hcheck : kindCheck r (.r2r src dest) = true)
    (hv : List.Forall₂ InRange (operandKinds r) vals) (hexp : HasOperands exp (operands r vals))
    (hlimit : overLimit (firstRow r) exp = false) (hw : w = BitVec.ofNat 32 (encode r vals))
    (hcount : 1 < fieldHd w) :
    (∃ ws, assembleFound true (firstRow r) exp (some (.normal, w)) = some ws ∧ SameResult w ws) ↔
      KeepsMeaning r (exp 3).xAddNumber w (.r2r src dest) := by
  obtain ⟨hhb, hhc, hopcode, hwords⟩ := assembleFound_move hcheck hv hexp hlimit hw hcount
  rw [hwords, KeepsMeaning]
  simp only [Option.some.injEq, exists_eq_left']
  by_cases hjunk : 0 < (exp 3).xAddNumber
  · have hsingle (v : BitVec 32) (hv : (v >>> 24).toNat = 0x10) (ha : fieldHa v = fieldHa w) :
        multiOf v = some (.r2r src dest) := by
      rw [← hmulti]
      exact multiOf_congr (hv.trans hopcode.symm) fun _ => ha
    rw [if_pos hjunk, Qemu.sameResult_moves_iff hmulti hsingle (by omega) hhb hhc]
    exact ⟨fun h _ => h, fun h => h hjunk⟩
  · rw [if_neg hjunk]
    exact iff_of_true (sameResult_self hmulti (by omega) hhb hhc) fun h => absurd h hjunk

/-- **Replacing an instruction on several registers by instructions on one register each.** For every load,
store or move of several registers that is accepted with a number above one, whatever the file, the registers
and the number, and whatever is left in the fourth place of the operands: the emitted words have the result
of the instruction, the same registers and memory from every state, if and only if the condition holds. -/
theorem multiple_to_single_iff (g : ℕ → ExpressionS) {r : DadaoOpcode} (hr : r ∈ opcTable) {vals : List ℤ}
    (hv : List.Forall₂ InRange (operandKinds r) vals) {exp : ℕ → ExpressionS}
    (hexp : HasOperands exp (operands r vals)) {w : BitVec 32}
    (haccept : mdAssembleWords false g r.name exp vals.length = some [w]) {mu : Multi}
    (hmulti : multiOf w = some mu) (hblock : IsBlock mu) (hcount : 1 < fieldHd w) :
    (∃ ws, mdAssembleWords true g r.name exp vals.length = some ws ∧ SameResult w ws) ↔
      KeepsMeaning r (exp 3).xAddNumber w mu := by
  have hrows : r ∈ opcRows := opcTable_eq ▸ hr
  obtain ⟨-, hcheck⟩ := check_of_mem hrows
  rw [mdAssembleWords_eq _ _ hrows] at haccept
  obtain ⟨hlimit, hcode⟩ := accepted haccept
  have hw : w = BitVec.ofNat 32 (encode r vals) := by
    rw [mdAssembleCode_eq hv hexp hr] at hcode
    split_ifs at hcode
    simpa using hcode.symm
  have hheader : multiOf (headerWord r) = some mu := by rw [← multiOf_encode hrows hv, ← hw, hmulti]
  rw [hheader, Option.all_some] at hcheck
  rw [mdAssembleWords_eq _ _ hrows, hcode]
  cases mu with
  | ldm dest op => exact loads_keep hmulti hheader hcheck hv hexp hlimit hw hcount
  | stm src op => exact stores_keep hmulti hcheck hv hexp hlimit hw hcount
  | r2r src dest => exact moves_keep hmulti hcheck hv hexp hlimit hw hcount
  | fcvt fn src dest => exact hblock.elim

end Rows

/-- The operands and zeros behind them. -/
def justOperands (r : DadaoOpcode) (vals : List ℤ) : ℕ → ExpressionS :=
  fun i => (operands r vals).getD i (.const 0)

lemma hasOperands_just (r : DadaoOpcode) (vals : List ℤ) :
    HasOperands (justOperands r vals) (operands r vals) := by
  intro i e he
  rw [justOperands, List.getD_eq_getElem?_getD, he, Option.getD_some]

/-- `ldmo` of `rd` registers. -/
def ldmoRd : DadaoOpcode := ⟨"ldmo", 4, 55, 0, .rd, .rb, .rd, .immu6, .dref⟩

/-- `ldmo` of `rb` registers. -/
def ldmoRb : DadaoOpcode := ⟨"ldmo", 4, 71, 0, .rb, .rb, .rd, .immu6, .dref⟩

/-- What is assembled without the option. -/
lemma assembled_ldmo {r : DadaoOpcode} (hr : r = ldmoRd ∨ r = ldmoRb) (g : ℕ → ExpressionS) :
    mdAssembleWords false g r.name (justOperands r [8, 1, 2, 3]) 4 =
      some [BitVec.ofNat 32 (encode r [8, 1, 2, 3])] := by
  have hrow : r ∈ opcRows := by rcases hr with rfl | rfl <;> decide
  have hv : List.Forall₂ InRange (operandKinds r) [8, 1, 2, 3] := by rcases hr with rfl | rfl <;> decide
  have hcode := mdAssembleCode_eq (g := g) hv (hasOperands_just r _) (opcTable_eq ▸ hrow)
  have hfirst : overLimit (firstRow r) (justOperands r [8, 1, 2, 3]) = false ∧ ¬ IsCallZero r [8, 1, 2, 3] := by
    rcases hr with rfl | rfl <;> decide +kernel
  rw [if_neg hfirst.2] at hcode
  rw [mdAssembleWords_eq _ _ hrow, show (4 : ℕ) = ([8, 1, 2, 3] : List ℤ).length from rfl, hcode, assembleFound,
    if_neg (by simp [hfirst.1]), if_neg (by simp), if_neg (by simp)]

/-- `ldmo rd8, rb1, rd2, 3` keeps its meaning. -/
theorem multiple_to_single_iff_ldmo :
    ∃ ws, mdAssembleWords true (fun _ => .const 0) "ldmo" (justOperands ldmoRd [8, 1, 2, 3]) 4 = some ws ∧
      SameResult 0x37201083#32 ws := by
  have hrow : ldmoRd ∈ opcTable := opcTable_eq ▸ (show ldmoRd ∈ opcRows by decide)
  have hv : List.Forall₂ InRange (operandKinds ldmoRd) [8, 1, 2, 3] := by decide
  have hmulti : multiOf 0x37201083#32 = some (.ldm .rd Qemu.moTeuq) := rfl
  exact (multiple_to_single_iff (fun _ => .const 0) hrow hv (hasOperands_just _ _) (assembled_ldmo (.inl rfl) _)
    hmulti trivial (by decide)).mpr ⟨by decide +kernel, by decide, by decide⟩

/-- **`ldmo rb8, rb1, rd2, 3` does not**: what is emitted loads `rd8` to `rd10`. -/
theorem multiple_to_single_ldmo_rb : ¬ ∀ (g : ℕ → ExpressionS) r, r ∈ opcTable →
    ∀ vals, List.Forall₂ InRange (operandKinds r) vals → ∀ exp, HasOperands exp (operands r vals) →
    ∀ w, mdAssembleWords false g r.name exp vals.length = some [w] → ∀ mu, multiOf w = some mu → IsBlock mu →
    1 < fieldHd w → ∃ ws, mdAssembleWords true g r.name exp vals.length = some ws ∧ SameResult w ws := by
  intro h
  have hrow : ldmoRb ∈ opcRows := by decide
  have hv : List.Forall₂ InRange (operandKinds ldmoRb) [8, 1, 2, 3] := by decide
  have haccept := assembled_ldmo (.inr rfl : ldmoRb = ldmoRd ∨ ldmoRb = ldmoRb) fun _ => .const 0
  have hmulti : multiOf (BitVec.ofNat 32 (encode ldmoRb [8, 1, 2, 3])) = some (.ldm .rb Qemu.moTeuq) := rfl
  obtain ⟨ws, hws, hsame⟩ := h (fun _ => .const 0) ldmoRb (opcTable_eq ▸ hrow) _ hv _ (hasOperands_just _ _) _
    haccept _ hmulti trivial (by decide)
  rw [mdAssembleWords_eq _ _ hrow] at haccept hws
  obtain ⟨hlimit, hcode⟩ := accepted haccept
  have hfound : assembleFound true (firstRow ldmoRb) (justOperands ldmoRb [8, 1, 2, 3])
      (some (.normal, BitVec.ofNat 32 (encode ldmoRb [8, 1, 2, 3]))) = some ws := by
    rw [← hcode]
    exact hws
  have hcheck : kindCheck ldmoRb (.ldm .rb Qemu.moTeuq) = true := by decide +kernel
  have hkeep := (loads_keep hmulti rfl hcheck hv (hasOperands_just _ _) hlimit rfl
    (by decide)).mp ⟨ws, hfound, hsame⟩
  exact absurd hkeep.1 (by decide +kernel)

end Dadao.Gas
