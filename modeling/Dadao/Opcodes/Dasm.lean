import Dadao.Opcodes.ParseOpcodes
import Mathlib.Data.Int.Bitwise
import Mathlib.Tactic.Ring

set_option relaxedAutoImplicit false
set_option autoImplicit false

/-!
# The disassembler `output_dasm`

A model of `trans_dict` and `output_dasm` in `DADAO-opcodes/parse-opcodes.py`, the disassembler that works
on the binary digits of a word. What it prints is kept as data: the mnemonic and the pieces between the
commas.

## Main definitions

* `Dadao.Opcodes.transDict` — the descriptions by their opcode bits.
* `Dadao.Opcodes.outputDasm` — the printed line of a word.

## Main results

* `Dadao.Opcodes.binValue_bitSlice` — a slice of digits is a field of the word.
* `Dadao.Opcodes.dasmSigned_binDigits` — the conversion of signed fields, which loses the sign of the
  most negative value.
-/

namespace Dadao.Opcodes

/-! ## Binary digits -/

/-- `bin(v)[2:].zfill(n)` for a number of `n` bits: its digits, the most significant first. -/
def binDigits : ℕ → ℕ → List Char
  | 0, _ => []
  | n + 1, v => (if v / 2 ^ n % 2 = 1 then '1' else '0') :: binDigits n v

/-- `int(data, 2)` of a string of binary digits. -/
def binValue (data : List Char) : ℕ :=
  data.foldl (fun acc c => 2 * acc + if c = '1' then 1 else 0) 0

/-- The slice `s[i:j]`. -/
def bitSlice (s : List Char) (i j : ℕ) : List Char := (s.take j).drop i

attribute [local simp] binDigits

/-! ## The dictionary and the fields -/

/-- An entry of the dictionary `trans_dict` builds. -/
structure DasmEntry where
  instName : String
  fields : List String
  regfile : List (String × String)
  resources : List String
  deriving DecidableEq, Repr

/-- The entry of an instruction. -/
def dasmEntry (d : Inst) : DasmEntry :=
  { instName := mnemonic d.name, fields := shownFields d, regfile := d.regfile, resources := d.resources }

/-- `trans_dict`: the entries by their opcode bits. -/
def transDict (insts : List Inst) : List (String × DasmEntry) :=
  insts.foldl (fun dasm d => dictSet dasm d.opcode (dasmEntry d)) []

/-- What the name of a field says of it: a register between two digits, a wyde position, an immediate of
some width, or none of these. -/
inductive DasmField where
  | reg (i j : ℕ)
  | ww
  | immu (n : ℕ)
  | imms (n : ℕ)
  | other
  deriving DecidableEq, Repr

/-- The cases on the name of a field; `none` for a width that is no number. -/
def dasmField (operand : String) : Option DasmField :=
  if operand == "ha" then some (.reg 8 14)
  else if operand == "hb" then some (.reg 14 20)
  else if operand == "hc" then some (.reg 20 26)
  else if operand == "hd" then some (.reg 26 32)
  else if operand == "ww" then some .ww
  else if slice operand 4 == "immu" then (pyInt 10 (sliceFrom operand 4)).map .immu
  else if slice operand 4 == "imms" then (pyInt 10 (sliceFrom operand 4)).map .imms
  else some .other

/-! ## Printing -/

/-- A printed operand: a register, a wyde position, a number in hexadecimal or decimal, or a displacement
from the address of the instruction. -/
inductive Shown where
  | reg (file : String) (n : ℕ)
  | wyde (n : ℕ)
  | hex (v : ℕ)
  | dec (v : ℤ)
  | offset (v : ℤ)
  deriving DecidableEq, Repr

/-- The value of a signed field; `none` where an empty string is converted. -/
def dasmSigned (data : List Char) : Option ℤ :=
  match data with
  | [] => none
  | c :: rest =>
    if c = '0' then some (binValue data)
    else if rest = [] then none
    else
      let dec : ℤ := (binValue rest : ℤ) - 1
      some (-(Int.land (Int.lnot dec) (binValue (List.replicate rest.length '1'))))

/-- What is printed for an operand; nothing for a field without a case. -/
def dasmOperand (instruction : List Char) (e : DasmEntry) (operand : String) : Option (List Shown) := do
  match ← dasmField operand with
  | .reg i j =>
    let file ← e.regfile.lookup operand
    return [.reg file (binValue (bitSlice instruction i j))]
  | .ww => return [.wyde (binValue (bitSlice instruction 14 16))]
  | .immu n => return [.hex (binValue (bitSlice instruction (32 - n) 32))]
  | .imms n =>
    let imm ← dasmSigned (bitSlice instruction (32 - n) 32)
    if operand == "imms24" || e.resources.contains "bpd" then return [.offset (imm * 4)]
    else return [.dec imm]
  | .other => return []

/-- The loop over the fields of an entry. -/
def dasmOperands (instruction : List Char) (e : DasmEntry) : List String → Option (List Shown)
  | [] => some []
  | operand :: operands =>
    if operand == "op" then dasmOperands instruction e operands
    else if operand == "none" then some []
    else do
      let shown ← dasmOperand instruction e operand
      let rest ← dasmOperands instruction e operands
      return shown ++ rest

attribute [local simp] dasmSigned dasmOperands

/-- A printed line. -/
structure DasmLine where
  instName : String
  operands : List Shown
  deriving DecidableEq, Repr

/-- `output_dasm` on the digits of a word; `none` for an unknown word or an exception. -/
def outputDasm (dasm : List (String × DasmEntry)) (w : BitVec 32) : Option DasmLine := do
  let instruction := binDigits 32 w.toNat
  let key8 := bitSlice instruction 0 8
  let key := if (dasm.lookup (String.ofList key8)).isSome then key8 else key8 ++ bitSlice instruction 8 14
  let e ← dasm.lookup (String.ofList key)
  let operands ← dasmOperands instruction e e.fields
  return ⟨e.instName, operands⟩

/-! ## Slices of digits -/

lemma length_binDigits (n v : ℕ) : (binDigits n v).length = n := by
  induction n with
  | zero => rfl
  | succ n ih => rw [binDigits, List.length_cons, ih]

/-- The digits from some place on. -/
lemma drop_binDigits {i n : ℕ} (hi : i ≤ n) (v : ℕ) : (binDigits n v).drop i = binDigits (n - i) v := by
  induction n generalizing i with
  | zero =>
    obtain rfl : i = 0 := by omega
    rfl
  | succ n ih =>
    cases i with
    | zero => rfl
    | succ i =>
      rw [binDigits, List.drop_succ_cons, ih (by omega)]
      congr 1
      omega

/-- The first digits. -/
lemma take_binDigits {j n : ℕ} (hj : j ≤ n) (v : ℕ) :
    (binDigits n v).take j = binDigits j (v / 2 ^ (n - j)) := by
  induction j generalizing n with
  | zero => rfl
  | succ j ih =>
    cases n with
    | zero => omega
    | succ n =>
      rw [binDigits, binDigits, List.take_succ_cons, ih (by omega), Nat.div_div_eq_div_mul, ← pow_add]
      have hexp : n + 1 - (j + 1) + j = n := by omega
      have hexp' : n + 1 - (j + 1) = n - j := by omega
      rw [hexp, hexp']

/-- **A slice of digits** is the digits of a field. -/
lemma bitSlice_binDigits {i j n : ℕ} (hi : i ≤ j) (hj : j ≤ n) (v : ℕ) :
    bitSlice (binDigits n v) i j = binDigits (j - i) (v / 2 ^ (n - j)) := by
  rw [bitSlice, take_binDigits hj, drop_binDigits hi]

/-- A digit is put at the end of a number. -/
lemma foldl_binDigits (n v acc : ℕ) :
    (binDigits n v).foldl (fun acc c => 2 * acc + if c = '1' then 1 else 0) acc =
      acc * 2 ^ n + v % 2 ^ n := by
  induction n generalizing acc with
  | zero => simp [binDigits, Nat.mod_one]
  | succ n ih =>
    have hdigit : (if (if v / 2 ^ n % 2 = 1 then '1' else '0') = '1' then 1 else 0) = v / 2 ^ n % 2 := by
      rcases Nat.mod_two_eq_zero_or_one (v / 2 ^ n) with h | h <;> rw [h] <;> decide
    rw [binDigits, List.foldl_cons, ih, hdigit, Nat.mod_pow_succ, pow_succ]
    ring

lemma binValue_binDigits (n v : ℕ) : binValue (binDigits n v) = v % 2 ^ n := by
  rw [binValue, foldl_binDigits]
  omega

/-- **The value of a slice** is that of the field. -/
lemma binValue_bitSlice {i j n : ℕ} (hi : i ≤ j) (hj : j ≤ n) (v : ℕ) :
    binValue (bitSlice (binDigits n v) i j) = v / 2 ^ (n - j) % 2 ^ (j - i) := by
  rw [bitSlice_binDigits hi hj, binValue_binDigits]

/-- A string of ones. -/
lemma binValue_replicate (n : ℕ) : binValue (List.replicate n '1') = 2 ^ n - 1 := by
  have hones : List.replicate n '1' = binDigits n (2 ^ n - 1) := by
    have hdigits : ∀ m, m ≤ n → List.replicate m '1' = binDigits m (2 ^ n - 1) := by
      intro m
      induction m with
      | zero => exact fun _ => rfl
      | succ m ih =>
        intro hm
        have hbit : (2 ^ n - 1) / 2 ^ m % 2 = 1 := by
          have htest := Nat.testBit_two_pow_sub_one n m
          rw [Nat.testBit_eq_decide_div_mod_eq] at htest
          simpa [show m < n by omega] using htest
        rw [List.replicate_succ, binDigits, if_pos hbit, ih (by omega)]
    exact hdigits n le_rfl
  rw [hones, binValue_binDigits, Nat.mod_eq_of_lt]
  have := Nat.two_pow_pos n
  omega

/-! ## The signed conversion -/

/-- The complement of a number below `2 ^ n`, masked. -/
lemma ldiff_two_pow_sub_one {n m : ℕ} (hm : m < 2 ^ n) : Nat.ldiff (2 ^ n - 1) m = 2 ^ n - (m + 1) := by
  apply Nat.eq_of_testBit_eq
  intro i
  rw [Nat.testBit_ldiff, Nat.testBit_two_pow_sub_one, Nat.testBit_two_pow_sub_succ hm]

/-- **What the conversion makes of a negative field**: zero of the most negative value, and otherwise the
value in two's complement. -/
lemma neg_land_lnot {n low : ℕ} (hlow : low < 2 ^ n) :
    -(Int.land (Int.lnot ((low : ℤ) - 1)) (2 ^ n - 1 : ℕ)) = if low = 0 then 0 else (low : ℤ) - 2 ^ n := by
  split_ifs with h
  · rw [h]
    have hzero : Int.lnot ((0 : ℕ) - 1 : ℤ) = ((0 : ℕ) : ℤ) := rfl
    rw [hzero]
    have hland : Int.land ((0 : ℕ) : ℤ) ((2 ^ n - 1 : ℕ) : ℤ) = ((0 &&& (2 ^ n - 1) : ℕ) : ℤ) := rfl
    rw [hland, Nat.zero_and]
    rfl
  · obtain ⟨m, rfl⟩ := Nat.exists_eq_succ_of_ne_zero h
    have hm : ((m.succ : ℕ) : ℤ) - 1 = (m : ℤ) := by
      push_cast
      omega
    have hland : Int.land (Int.lnot (m : ℤ)) ((2 ^ n - 1 : ℕ) : ℤ) = (Nat.ldiff (2 ^ n - 1) m : ℕ) := rfl
    rw [hm, hland, ldiff_two_pow_sub_one (by omega)]
    have hle : m + 1 ≤ 2 ^ n := by omega
    push_cast [hle]
    ring

/-- **The signed value of a field.** -/
lemma dasmSigned_binDigits {n : ℕ} (hn : n ≠ 0) (v : ℕ) :
    dasmSigned (binDigits (n + 1) v) =
      some (if v % 2 ^ (n + 1) = 2 ^ n then 0
        else if 2 ^ n ≤ v % 2 ^ (n + 1) then ((v % 2 ^ (n + 1) : ℕ) : ℤ) - 2 ^ (n + 1)
        else ((v % 2 ^ (n + 1) : ℕ) : ℤ)) := by
  have hvalue := binValue_binDigits (n + 1) v
  have hlow : v % 2 ^ n < 2 ^ n := Nat.mod_lt _ (Nat.two_pow_pos n)
  have hmod := Nat.mod_pow_succ (x := v) (b := 2) (k := n)
  have hpow : (2 : ℤ) ^ (n + 1) = 2 ^ n + 2 ^ n := by ring
  rw [binDigits] at hvalue ⊢
  rcases Nat.mod_two_eq_zero_or_one (v / 2 ^ n) with h | h
  · have hne : ¬ v / 2 ^ n % 2 = 1 := by omega
    rw [if_neg hne] at hvalue ⊢
    rw [dasmSigned, if_pos rfl, hvalue]
    rw [h, Nat.mul_zero, Nat.add_zero] at hmod
    rw [hmod, if_neg (by omega), if_neg (by omega)]
  · have hrest : binDigits n v ≠ [] := by
      intro hnil
      have := length_binDigits n v
      rw [hnil] at this
      exact hn this.symm
    rw [if_pos h, dasmSigned, if_neg (by decide), if_neg hrest, length_binDigits, binValue_replicate,
      binValue_binDigits]
    rw [h, Nat.mul_one] at hmod
    rw [hmod]
    refine congrArg some ((neg_land_lnot hlow).trans ?_)
    by_cases hz : v % 2 ^ n = 0
    · rw [if_pos hz, if_pos (by omega)]
    · rw [if_neg hz, if_neg (by omega), if_pos (by omega), hpow]
      push_cast
      omega

/-! ## The dictionary -/

/-- Looking up in a list with one value replaced. -/
lemma lookup_map_replace {α : Type} (k k' : String) (v : α) (l : List (String × α)) :
    (l.map fun p => if p.1 == k then (k, v) else p).lookup k' =
      if k' = k ∧ l.any (·.1 == k) = true then some v else l.lookup k' := by
  induction l with
  | nil => simp
  | cons p l ih =>
    obtain ⟨k₀, v₀⟩ := p
    rw [List.map_cons, List.any_cons]
    by_cases hk₀ : k₀ = k
    · subst hk₀
      by_cases hk' : k' = k₀
      · simp only [hk', beq_self_eq_true, if_true, List.lookup_cons, Bool.true_or, and_self]
      · have hne : (k' == k₀) = false := beq_eq_false_iff_ne.mpr hk'
        simp only [beq_self_eq_true, if_true, List.lookup_cons, hne, ih, hk', false_and, if_false]
    · have hne : (k₀ == k) = false := beq_eq_false_iff_ne.mpr hk₀
      by_cases hk' : k' = k₀
      · subst hk'
        simp only [hne, Bool.false_eq_true, if_false, List.lookup_cons, beq_self_eq_true, hk₀, false_and]
      · have hne' : (k' == k₀) = false := beq_eq_false_iff_ne.mpr hk'
        simp only [hne, Bool.false_eq_true, if_false, List.lookup_cons, hne', ih, Bool.false_or]

/-- Looking up after an assignment. -/
lemma lookup_dictSet {α : Type} (dict : List (String × α)) (k k' : String) (v : α) :
    (dictSet dict k v).lookup k' = if k' = k then some v else dict.lookup k' := by
  by_cases hany : dict.any (·.1 == k) = true
  · rw [dictSet, if_pos hany, lookup_map_replace]
    simp [hany]
  · have hnone : dict.lookup k = none := by
      rw [List.lookup_eq_none_iff]
      intro p hp
      simp only [List.any_eq_true, not_exists, not_and, beq_iff_eq] at hany
      exact bne_iff_ne.mpr fun h => hany p hp h.symm
    rw [dictSet, if_neg hany, List.lookup_append]
    by_cases hk' : k' = k
    · subst hk'
      simp only [hnone, List.lookup_cons, beq_self_eq_true, Option.none_or, if_true]
    · have hne : (k' == k) = false := beq_eq_false_iff_ne.mpr hk'
      simp only [hk', List.lookup_cons, hne, List.lookup_nil, Option.or_none, if_false]

/-- **A key whose instructions have one entry.** -/
lemma lookup_transDict {insts : List Inst} {k : String} {e : DasmEntry}
    (h : ∀ d ∈ insts, d.opcode = k → dasmEntry d = e) :
    (transDict insts).lookup k = if insts.any (·.opcode == k) = true then some e else none := by
  have hfold : ∀ (l : List Inst) (dict : List (String × DasmEntry)),
      (∀ d ∈ l, d.opcode = k → dasmEntry d = e) →
      (l.foldl (fun dasm d => dictSet dasm d.opcode (dasmEntry d)) dict).lookup k =
        if l.any (·.opcode == k) = true then some e else dict.lookup k := by
    intro l
    induction l with
    | nil => exact fun dict _ => rfl
    | cons d l ih =>
      intro dict hl
      rw [List.foldl_cons, ih _ fun d' hd' => hl d' (List.mem_cons_of_mem _ hd'), lookup_dictSet, List.any_cons]
      by_cases hk : d.opcode = k
      · simp only [hk, hl d List.mem_cons_self hk, beq_self_eq_true, Bool.true_or, if_true, ite_self]
      · have hne : (d.opcode == k) = false := beq_eq_false_iff_ne.mpr hk
        simp only [hne, Ne.symm hk, Bool.false_or, if_false]
  exact hfold insts [] h

end Dadao.Opcodes
