import Dadao.Gas.RoundTrip
import Dadao.Opcodes.Dasm

set_option relaxedAutoImplicit false
set_option autoImplicit false

/-!
# The two disassemblers

What `print_insn_dadao` and `output_dasm` print for a word of `simrisc.opcodes`. Both show the fields of
the row the word belongs to; the conversion of signed fields in `output_dasm` makes zero of the most
negative value.

## Main definitions

* `Dadao.Gas.Printed.shown` — the operands `print_insn_dadao` prints.
* `Dadao.Gas.SameReport` — the two disassemblers report the same.
* `Dadao.Gas.MostNegative` — a signed field with the most negative value.

## Main results

* `Dadao.Gas.printed_shown_eq`, `Dadao.Gas.outputDasm_eq` — what the two print.
* `Dadao.Gas.sameReport_iff` — when they report the same.
* `Dadao.Gas.not_sameReport_call` — a call whose offset is the most negative one.
-/

namespace Dadao.Gas

open Dadao.Opcodes Dadao.Bits

/-! ## The operands printed by `print_insn_dadao` -/

/-- The operand a printed conversion shows; for a branch this is the byte displacement. -/
def Conversion.shown (offset : Option ℤ) (v : BitVec 32) : Conversion → Shown
  | .offset => .offset (offset.getD 0)
  | .hex => .hex v.toNat
  | .dec => .dec v.toInt
  | .wyde => .wyde v.toNat
  | .reg file => .reg file v.toNat

/-- The operands of the printed line. -/
def Printed.shown (p : Printed) : List Shown :=
  (p.row.format.conversions.zip p.ops).map fun c => Conversion.shown p.offset c.2 c.1

/-- The operand shown for a field. -/
def shownOf (br : Bool) (k : OperandType) (n : ℕ) : Shown :=
  match disConversion br k with
  | .offset => .offset (4 * valueOf k n)
  | .hex => .hex n
  | .dec => .dec (valueOf k n)
  | .wyde => .wyde n
  | .reg file => .reg file n

/-- A byte displacement is a number of words. -/
lemma four_dvd_calOffset (width : ℕ) (w : BitVec 32) : 4 ∣ calOffset width w := by
  have hfield : ∀ (field sign : BitVec 32) (wrap : ℤ), 4 ∣ wrap → field.toNat < 2 ^ 30 →
      4 ∣ fieldOffset field sign wrap w := by
    intro field sign wrap hwrap hlt
    have hle : (w &&& field).toNat ≤ field.toNat := by
      rw [BitVec.toNat_and]
      exact Nat.and_le_right
    have hoff : (((w &&& field) <<< 2).toNat : ℤ) = ((w &&& field).toNat : ℤ) * 4 := by
      rw [toNat_shiftLeft_of_lt (by omega)]
      push_cast
      rfl
    simp only [fieldOffset]
    split_ifs <;> omega
  unfold calOffset
  split_ifs
  · exact hfield _ _ _ (by decide) (by decide)
  · exact hfield _ _ _ (by decide) (by decide)
  · exact hfield _ _ _ (by decide) (by decide)

/-- The shown operand, from the operand value of the layout. -/
lemma shown_of_operand {br : Bool} {k : OperandType} {off : Option ℤ} {v : BitVec 32} {n : ℕ}
    (hoff : 4 ∣ off.getD 0)
    (h : Conversion.operand off v (disConversion br k) = operandExp k (valueOf k n)) :
    Conversion.shown off v (disConversion br k) = shownOf br k n := by
  have hunsigned : operandSigned k = false → valueOf k n = n := fun hk => by
    simp only [valueOf, hk, Bool.false_eq_true, false_and, if_false]
  cases hfile : regFile k with
  | some f =>
    obtain ⟨file, base⟩ := f
    have hconv : disConversion br k = .reg file := by simp only [disConversion, hfile]
    have hk : operandSigned k = false := by
      cases k <;> first | rfl | cases hfile
    simp only [hconv, Conversion.operand, operandExp, hfile, regBase_of_regFile hfile, Option.getD_some,
      hunsigned hk, ExpressionS.mk.injEq, true_and, and_true] at h
    simp only [hconv, Conversion.shown, shownOf, Shown.reg.injEq, true_and]
    omega
  | none =>
    by_cases hww : k = .ww
    · subst hww
      simp only [disConversion, hfile, if_true, Conversion.operand, operandExp, hunsigned rfl,
        ExpressionS.mk.injEq, true_and, and_true] at h
      simp only [disConversion, hfile, if_true, Conversion.shown, shownOf, Shown.wyde.injEq]
      omega
    · have hexp : operandExp k (valueOf k n) = .const (valueOf k n) := by
        simp only [operandExp, hfile, hww, if_false]
      rw [hexp] at h
      rcases hconv : disConversion br k with _ | _ | _ | _ | file
      · rw [hconv] at h
        simp only [Conversion.operand, ExpressionS.const, ExpressionS.mk.injEq, true_and, and_true] at h
        simp only [Conversion.shown, shownOf, hconv, Shown.offset.injEq]
        omega
      · have hk : operandSigned k = false := by
          cases hs : operandSigned k with
          | false => rfl
          | true =>
            simp only [disConversion, hfile, hww, hs, if_false, if_true, and_true] at hconv
            split_ifs at hconv
        rw [hconv] at h
        simp only [Conversion.operand, ExpressionS.const, ExpressionS.mk.injEq, true_and, and_true,
          hunsigned hk] at h
        simp only [Conversion.shown, shownOf, hconv, Shown.hex.injEq]
        omega
      · rw [hconv] at h
        simp only [Conversion.operand, ExpressionS.const, ExpressionS.mk.injEq, true_and, and_true] at h
        simp only [Conversion.shown, shownOf, hconv, Shown.dec.injEq]
        exact h
      · simp only [disConversion, hfile, hww, if_false] at hconv
        split_ifs at hconv
      · simp only [disConversion, hfile, hww, if_false] at hconv
        split_ifs at hconv

/-- The shown operands of a line. -/
lemma map_shown_of_operands {br : Bool} {off : Option ℤ} (hoff : 4 ∣ off.getD 0) {ks : List OperandType}
    {ops : List (BitVec 32)} {ns : List ℕ} (hlen : ns.length = ks.length)
    (h : ((ks.map (disConversion br)).zip ops).map (fun c => Conversion.operand off c.2 c.1) =
      List.zipWith operandExp ks (List.zipWith valueOf ks ns)) :
    ((ks.map (disConversion br)).zip ops).map (fun c => Conversion.shown off c.2 c.1) =
      List.zipWith (shownOf br) ks ns := by
  induction ks generalizing ops ns with
  | nil => rfl
  | cons k ks ih =>
    obtain _ | ⟨n, ns⟩ := ns
    · cases hlen
    · obtain _ | ⟨v, ops⟩ := ops
      · cases h
      · simp only [List.map_cons, List.zip_cons_cons, List.zipWith_cons_cons, List.cons.injEq] at h ⊢
        exact ⟨shown_of_operand hoff h.1, ih (by simpa using hlen) h.2⟩

/-- Every field of the layout is read. -/
lemma length_unpack (ws : List ℕ) (n : ℕ) : (unpack ws n).length = ws.length := by
  induction ws with
  | nil => rfl
  | cons w ws ih => rw [unpack, List.length_cons, List.length_cons, ih]

/-- **What `print_insn_dadao` prints** for a word of a row: the fields of the layout. -/
lemma printed_shown_eq {r : DadaoOpcode} (w : BitVec 32) (i : ℕ) (hr : wellShaped r = true) :
    (printEntry w i (expectedRow r)).shown =
      List.zipWith (shownOf (isBranch r)) (operandKinds r) (unpack (widths r) w.toNat) := by
  refine map_shown_of_operands ?_ ?_ (printed_operands_eq w i hr)
  · simp only [printEntry]
    cases ([(expectedRow r).op1, (expectedRow r).op2, (expectedRow r).op3, (expectedRow r).op4].map
        (analyzeOperand · w)).filterMap (·.2) |>.getLast? with
    | none => exact dvd_zero 4
    | some width => exact four_dvd_calOffset width w
  · rw [length_unpack, widths, List.length_map]

/-! ## The operands printed by `output_dasm` -/

/-- The value `output_dasm` gives a field: zero for the most negative value of a signed one. -/
def dasmValue (k : OperandType) (n : ℕ) : ℤ :=
  if operandSigned k ∧ n = 2 ^ (operandWidth k - 1) then 0 else valueOf k n

/-- The operand `output_dasm` shows for a field. -/
def dasmShown (br : Bool) (k : OperandType) (n : ℕ) : Shown :=
  match disConversion br k with
  | .offset => .offset (dasmValue k n * 4)
  | .hex => .hex n
  | .dec => .dec (dasmValue k n)
  | .wyde => .wyde n
  | .reg file => .reg file n

lemma unpack_eq_tailSums (ws : List ℕ) (n : ℕ) :
    unpack ws n = (tailSums ws).map fun p => n / 2 ^ p.1 % 2 ^ p.2 := by
  induction ws with
  | nil => rfl
  | cons w ws ih => rw [unpack, tailSums, List.map_cons, ih]

lemma length_tailSums (ws : List ℕ) : (tailSums ws).length = ws.length := by
  induction ws with
  | nil => rfl
  | cons w ws ih => rw [tailSums, List.length_cons, List.length_cons, ih]

/-- **One printed operand.** -/
lemma dasmOperand_eq {br : Bool} {e : DasmEntry} {operand : String} {k : OperandType} {field : DasmField}
    (hfield : dasmField operand = some field) (hcheck : operandCheck br e operand k = true) (w : ℕ) :
    dasmOperand (binDigits 32 w) e operand =
      some [dasmShown br k (w / 2 ^ (fieldPos field).1 % 2 ^ (fieldPos field).2)] := by
  rw [operandCheck, hfield] at hcheck
  rw [dasmOperand, hfield]
  cases field with
  | reg i j =>
    simp only [Bool.and_eq_true, decide_eq_true_eq, beq_iff_eq] at hcheck
    obtain ⟨⟨⟨hi, hj⟩, hsome⟩, hfile⟩ := hcheck
    obtain ⟨⟨file, base⟩, hreg⟩ := Option.isSome_iff_exists.mp hsome
    rw [hreg, Option.map_some] at hfile
    have hconv : disConversion br k = .reg file := by simp only [disConversion, hreg]
    simp only [Option.bind_eq_bind, Option.bind_some, hfile, binValue_bitSlice hi hj, dasmShown, hconv, fieldPos]
    rfl
  | ww =>
    obtain rfl : k = .ww := by simpa using hcheck
    have hslice := binValue_bitSlice (i := 14) (j := 16) (n := 32) (by decide) (by decide) w
    simp only [Option.bind_eq_bind, Option.bind_some, hslice, dasmShown, fieldPos]
    rfl
  | immu n =>
    simp only [Bool.and_eq_true, decide_eq_true_eq, beq_iff_eq] at hcheck
    have hslice := binValue_bitSlice (i := 32 - n) (j := 32) (n := 32) (by omega) le_rfl w
    have hwidth : 32 - (32 - n) = n := by omega
    rw [hwidth] at hslice
    simp only [Option.bind_eq_bind, Option.bind_some, hslice, dasmShown, hcheck.1, fieldPos]
    rfl
  | imms n =>
    simp only [Bool.and_eq_true, beq_iff_eq] at hcheck
    obtain ⟨⟨hsigned, rfl⟩, hconv⟩ := hcheck
    obtain ⟨m, hm, hm32, hwidth⟩ : ∃ m, m ≠ 0 ∧ m + 1 ≤ 32 ∧ operandWidth k = m + 1 := by
      cases k <;> first
        | exact Bool.noConfusion hsigned
        | exact ⟨_, by decide, by decide, rfl⟩
    have hslice := bitSlice_binDigits (i := 32 - (m + 1)) (j := 32) (n := 32) (by omega) le_rfl w
    have hlen : 32 - (32 - (m + 1)) = m + 1 := by omega
    rw [hlen, Nat.sub_self, pow_zero, Nat.div_one] at hslice
    have hvalue : dasmSigned (bitSlice (binDigits 32 w) (32 - operandWidth k) 32) =
        some (dasmValue k (w % 2 ^ operandWidth k)) := by
      rw [hwidth, hslice, dasmSigned_binDigits hm]
      simp only [dasmValue, valueOf, hsigned, hwidth, true_and, Nat.add_sub_cancel]
    simp only [Option.bind_eq_bind, Option.bind_some, hvalue, dasmShown, fieldPos, pow_zero, Nat.div_one]
    split_ifs at hconv ⊢ <;> rw [hconv] <;> rfl
  | other => exact Bool.noConfusion hcheck

/-- The loop passes over the opcode. -/
lemma dasmOperands_operandNames (instruction : List Char) (e : DasmEntry) (fields : List String) :
    dasmOperands instruction e fields = dasmOperands instruction e (operandNames fields) := by
  induction fields with
  | nil => rfl
  | cons x xs ih =>
    by_cases hx : x = "op"
    · subst hx
      exact ih
    · have hne : (x != "op") = true := bne_iff_ne.mpr hx
      have hbeq : (x == "op") = false := beq_eq_false_iff_ne.mpr hx
      have hnames : operandNames (x :: xs) = x :: operandNames xs := by
        simp only [operandNames, List.filter_cons, hne, if_true]
      simp only [hnames, dasmOperands, hbeq, Bool.false_eq_true, if_false, ih]

/-- **The printed operands.** -/
lemma dasmOperands_eq {br : Bool} {e : DasmEntry} (w : ℕ) {names : List String} {ks : List OperandType}
    {ps : List (ℕ × ℕ)} (hop : ∀ x ∈ names, x ≠ "op") (hnone : names.all (· != "none") = true)
    (hpos : names.map (fun x => (dasmField x).map fieldPos) = ps.map some)
    (hlen : ks.length = ps.length)
    (hcheck : ((names.zip ks).all fun p => operandCheck br e p.1 p.2) = true) :
    dasmOperands (binDigits 32 w) e names =
      some (List.zipWith (dasmShown br) ks (ps.map fun p => w / 2 ^ p.1 % 2 ^ p.2)) := by
  induction names generalizing ks ps with
  | nil =>
    obtain rfl : ps = [] := by simpa using hpos.symm
    obtain rfl : ks = [] := by simpa using hlen
    rfl
  | cons x xs ih =>
    obtain _ | ⟨p, ps⟩ := ps
    · cases hpos
    obtain _ | ⟨k, ks⟩ := ks
    · cases hlen
    simp only [List.map_cons, List.cons.injEq] at hpos
    simp only [List.zip_cons_cons, List.all_cons, Bool.and_eq_true, bne_iff_ne, ne_eq] at hcheck hnone
    obtain ⟨field, hfield, rfl⟩ := Option.map_eq_some_iff.mp hpos.1
    have hrest := ih (fun y hy => hop y (List.mem_cons_of_mem _ hy)) hnone.2 hpos.2 (by simpa using hlen) hcheck.2
    have hopx : (x == "op") = false := beq_eq_false_iff_ne.mpr (hop x List.mem_cons_self)
    have hnonex : (x == "none") = false := beq_eq_false_iff_ne.mpr hnone.1
    simp only [dasmOperands, hopx, hnonex, Bool.false_eq_true, if_false, dasmOperand_eq hfield hcheck.1,
      hrest, Option.bind_eq_bind, Option.bind_some]
    rfl

/-! ## The generated dictionary -/

/-- The row of an instruction. -/
lemma exists_row {d : Inst} (hd : d ∈ insts) : ∃ (i : ℕ) (r : DadaoOpcode), insts[i]? = some d ∧
    opcTable[i]? = some r ∧ dasmCheck d r = true := by
  obtain ⟨i, hi⟩ := List.mem_iff_getElem?.mp hd
  have hlt : i < insts.length := by
    rw [List.getElem?_eq_some_iff] at hi
    exact hi.1
  rw [dasmCheck_eq.1] at hlt
  obtain ⟨r, hr⟩ : ∃ r, opcTable[i]? = some r := ⟨_, List.getElem?_eq_getElem hlt⟩
  refine ⟨i, r, hi, hr, ?_⟩
  have hall := List.all_eq_true.mp dasmCheck_eq.2
  refine hall (d, r) (List.mem_iff_getElem?.mpr ⟨i, ?_⟩)
  rw [List.getElem?_zip_eq_some]
  exact ⟨hi, hr⟩

/-- A word belongs to one row. -/
lemma row_unique {w : BitVec 32} {i j : ℕ} {r r' : DadaoOpcode} (hi : opcTable[i]? = some r)
    (hj : opcTable[j]? = some r') (hr : w.toNat / 2 ^ (widths r).sum = header r)
    (hr' : w.toNat / 2 ^ (widths r').sum = header r') : i = j := by
  have hfind := printInsnDadao_eq hi hr
  rw [printInsnDadao_eq hj hr', Option.some.injEq] at hfind
  exact (congrArg Printed.entry hfind).symm

/-- Two strings of digits of one length are equal only if the numbers are. -/
lemma binDigits_inj {n v v' : ℕ} (hv : v < 2 ^ n) (hv' : v' < 2 ^ n) (h : binDigits n v = binDigits n v') :
    v = v' := by
  have hvalue := congrArg binValue h
  rwa [binValue_binDigits, binValue_binDigits, Nat.mod_eq_of_lt hv, Nat.mod_eq_of_lt hv'] at hvalue

/-- **A key of the dictionary that is the start of a word** is the opcode of its instruction. -/
lemma row_of_key {w : BitVec 32} {d : Inst} (hd : d ∈ insts) {n : ℕ} (hn : n ≤ 32)
    (hkey : d.opcode = String.ofList (bitSlice (binDigits 32 w.toNat) 0 n)) :
    ∃ (i : ℕ) (r : DadaoOpcode), insts[i]? = some d ∧ opcTable[i]? = some r ∧ dasmCheck d r = true ∧
      (if r.opFa = .op then 14 else 8) = n ∧ w.toNat / 2 ^ (widths r).sum = header r := by
  obtain ⟨i, r, hi, hr, hcheck⟩ := exists_row hd
  have hshape := wellShaped_of_mem (List.mem_of_getElem? hr)
  obtain ⟨hsum, hheader⟩ := widths_sum hshape
  have hdigits : opcodeDigits r = binDigits n (w.toNat / 2 ^ (32 - n)) := by
    have hopcode := hcheck
    simp only [dasmCheck, Bool.and_eq_true, beq_iff_eq] at hopcode
    rw [hopcode.1.1.2, bitSlice_binDigits (Nat.zero_le n) hn, Nat.sub_zero] at hkey
    exact String.ofList_injective hkey
  have hlen : (if r.opFa = .op then 14 else 8) = n := by
    have := congrArg List.length hdigits
    rwa [opcodeDigits, length_binDigits, length_binDigits] at this
  refine ⟨i, r, hi, hr, hcheck, hlen, ?_⟩
  rw [opcodeDigits, hlen] at hdigits
  have hwn : w.toNat / 2 ^ (32 - n) < 2 ^ n := by
    rw [Nat.div_lt_iff_lt_mul (Nat.two_pow_pos _), ← pow_add, Nat.add_sub_cancel' hn]
    exact w.isLt
  have hheader' : header r < 2 ^ n := by
    subst hlen
    split_ifs at hheader ⊢ <;> exact hheader
  have hexp : 32 - n = if r.opFa = .op then 18 else 24 := by
    rw [← hlen]
    split_ifs <;> rfl
  rw [binDigits_inj hheader' hwn hdigits, hsum, hexp]

/-- **The entry that is found** for the first digits of a word of a row. -/
lemma lookup_key {w : BitVec 32} {i : ℕ} {d : Inst} {r : DadaoOpcode} (hi : insts[i]? = some d)
    (hr : opcTable[i]? = some r) (hcheck : dasmCheck d r = true)
    (hw : w.toNat / 2 ^ (widths r).sum = header r) {n : ℕ} (hn : n ≤ 32) :
    (transDict insts).lookup (String.ofList (bitSlice (binDigits 32 w.toNat) 0 n)) =
      if (if r.opFa = .op then 14 else 8) = n then some (dasmEntry d) else none := by
  -- an instruction with this key has the word, and so it is the one at the position of the row
  have hunique : ∀ d' ∈ insts, d'.opcode = String.ofList (bitSlice (binDigits 32 w.toNat) 0 n) →
      d' = d ∧ (if r.opFa = .op then 14 else 8) = n := by
    intro d' hd' hkey
    obtain ⟨j, r', hj, hr', -, hlen, hw'⟩ := row_of_key hd' hn hkey
    obtain rfl := row_unique hr hr' hw hw'
    rw [hi, Option.some.injEq] at hj
    rw [hr, Option.some.injEq] at hr'
    exact ⟨hj.symm, hr' ▸ hlen⟩
  rw [lookup_transDict fun d' hd' hkey => congrArg dasmEntry (hunique d' hd' hkey).1]
  by_cases hlen : (if r.opFa = .op then 14 else 8) = n
  · have hopcode : d.opcode = String.ofList (bitSlice (binDigits 32 w.toNat) 0 n) := by
      simp only [dasmCheck, Bool.and_eq_true, beq_iff_eq] at hcheck
      have hexp : 32 - n = (widths r).sum := by
        rw [(widths_sum (wellShaped_of_mem (List.mem_of_getElem? hr))).1, ← hlen]
        split_ifs <;> rfl
      rw [hcheck.1.1.2, opcodeDigits, hlen, bitSlice_binDigits (Nat.zero_le n) hn, hexp, hw, Nat.sub_zero]
    have hany : insts.any (·.opcode == String.ofList (bitSlice (binDigits 32 w.toNat) 0 n)) = true :=
      List.any_eq_true.mpr ⟨d, List.mem_of_getElem? hi, beq_iff_eq.mpr hopcode⟩
    rw [if_pos hany, if_pos hlen]
  · have hany : ¬ insts.any (·.opcode == String.ofList (bitSlice (binDigits 32 w.toNat) 0 n)) = true := by
      rw [List.any_eq_true]
      rintro ⟨d', hd', hkey⟩
      exact hlen (hunique d' hd' (beq_iff_eq.mp hkey)).2
    rw [if_neg hany, if_neg hlen]

/-- **What `output_dasm` prints** for a word of a row. -/
lemma outputDasm_eq {w : BitVec 32} {i : ℕ} {d : Inst} {r : DadaoOpcode} (hi : insts[i]? = some d)
    (hr : opcTable[i]? = some r) (hcheck : dasmCheck d r = true)
    (hw : w.toNat / 2 ^ (widths r).sum = header r) :
    outputDasm (transDict insts) w = some ⟨r.name,
      List.zipWith (dasmShown (isBranch r)) (operandKinds r) (unpack (widths r) w.toNat)⟩ := by
  have hkey : bitSlice (binDigits 32 w.toNat) 0 8 ++ bitSlice (binDigits 32 w.toNat) 8 14 =
      bitSlice (binDigits 32 w.toNat) 0 14 := by
    have htake : ((binDigits 32 w.toNat).take 14).take 8 = (binDigits 32 w.toNat).take 8 := by
      rw [List.take_take]
      rfl
    simp only [bitSlice, List.drop_zero]
    rw [← htake, List.take_append_drop]
  have hentry : (transDict insts).lookup (String.ofList
      (if ((transDict insts).lookup (String.ofList (bitSlice (binDigits 32 w.toNat) 0 8))).isSome then
        bitSlice (binDigits 32 w.toNat) 0 8 else bitSlice (binDigits 32 w.toNat) 0 14)) =
      some (dasmEntry d) := by
    have h8 := lookup_key hi hr hcheck hw (n := 8) (by decide)
    have h14 := lookup_key hi hr hcheck hw (n := 14) (by decide)
    by_cases hop : r.opFa = .op
    · rw [if_pos hop, if_neg (by decide)] at h8
      rw [if_pos hop, if_pos rfl] at h14
      rw [h8]
      exact h14
    · rw [if_neg hop, if_pos rfl] at h8
      rw [h8]
      exact h8
  simp only [dasmCheck, Bool.and_eq_true, beq_iff_eq] at hcheck
  obtain ⟨⟨-, hname⟩, hfields⟩ := hcheck
  simp only [fieldsCheck, Bool.and_eq_true, beq_iff_eq] at hfields
  obtain ⟨⟨hpos, hnone⟩, hoperands⟩ := hfields
  have hop : ∀ x ∈ operandNames (dasmEntry d).fields, x ≠ "op" := by
    intro x hx
    exact bne_iff_ne.mp (List.mem_filter.mp hx).2
  have hlen : (operandKinds r).length = (tailSums (widths r)).length := by
    rw [length_tailSums, widths, List.length_map]
  have hops := dasmOperands_eq w.toNat hop hnone hpos hlen hoperands
  rw [← dasmOperands_operandNames, ← unpack_eq_tailSums] at hops
  simp only [outputDasm, hkey, hentry, Option.bind_eq_bind, Option.bind_some, hops]
  rw [← hname]
  rfl

/-! ## The agreement -/

/-- The two disassemblers show one value for a field, unless it is the most negative one. -/
lemma dasmValue_eq_iff {k : OperandType} (hk : operandSigned k = true) (n : ℕ) :
    valueOf k n = dasmValue k n ↔ n ≠ 2 ^ (operandWidth k - 1) := by
  by_cases h : n = 2 ^ (operandWidth k - 1)
  · refine iff_of_false ?_ (not_not.mpr h)
    subst h
    cases k <;> first
      | exact Bool.noConfusion hk
      | decide
  · refine iff_of_true ?_ h
    rw [dasmValue, if_neg fun hmost => h hmost.2]

/-- One operand is shown alike unless its field is signed and most negative. -/
lemma shown_eq_iff {br : Bool} {e : DasmEntry} {operand : String} {k : OperandType} {field : DasmField}
    (hfield : dasmField operand = some field) (hcheck : operandCheck br e operand k = true) (w : ℕ) :
    shownOf br k (w / 2 ^ (fieldPos field).1 % 2 ^ (fieldPos field).2) =
      dasmShown br k (w / 2 ^ (fieldPos field).1 % 2 ^ (fieldPos field).2) ↔
    ¬ ∃ n, dasmField operand = some (.imms n) ∧ w % 2 ^ n = 2 ^ (n - 1) := by
  have hother : (∀ n, field ≠ .imms n) → ¬ ∃ n, dasmField operand = some (.imms n) ∧ w % 2 ^ n = 2 ^ (n - 1) := by
    rintro hne ⟨n, hn, -⟩
    rw [hfield, Option.some.injEq] at hn
    exact hne n hn
  rw [operandCheck, hfield] at hcheck
  cases field with
  | reg i j =>
    simp only [Bool.and_eq_true] at hcheck
    obtain ⟨⟨file, base⟩, hreg⟩ := Option.isSome_iff_exists.mp hcheck.1.2
    have hconv : disConversion br k = .reg file := by simp only [disConversion, hreg]
    refine iff_of_true ?_ (hother fun n h => by cases h)
    simp only [shownOf, dasmShown, hconv]
  | ww =>
    obtain rfl : k = .ww := by simpa using hcheck
    exact iff_of_true rfl (hother fun n h => by cases h)
  | immu n =>
    simp only [Bool.and_eq_true, beq_iff_eq] at hcheck
    refine iff_of_true ?_ (hother fun n h => by cases h)
    simp only [shownOf, dasmShown, hcheck.1]
  | imms n =>
    simp only [Bool.and_eq_true, beq_iff_eq] at hcheck
    obtain ⟨⟨hsigned, rfl⟩, hconv⟩ := hcheck
    have hmost : (∃ m, dasmField operand = some (.imms m) ∧ w % 2 ^ m = 2 ^ (m - 1)) ↔
        w % 2 ^ operandWidth k = 2 ^ (operandWidth k - 1) := by
      constructor
      · rintro ⟨m, hm, hw⟩
        rw [hfield, Option.some.injEq, DasmField.imms.injEq] at hm
        rwa [hm]
      · exact fun hw => ⟨_, hfield, hw⟩
    rw [hmost, ← ne_eq, ← dasmValue_eq_iff hsigned]
    simp only [shownOf, dasmShown, hconv, fieldPos, pow_zero, Nat.div_one]
    split_ifs
    · rw [Shown.offset.injEq]
      omega
    · rw [Shown.dec.injEq]
  | other => exact Bool.noConfusion hcheck

/-- The operands are shown alike unless a field is signed and most negative. -/
lemma map_shown_eq_iff {br : Bool} {e : DasmEntry} (w : ℕ) {names : List String} {ks : List OperandType}
    {ps : List (ℕ × ℕ)} (hpos : names.map (fun x => (dasmField x).map fieldPos) = ps.map some)
    (hlen : ks.length = ps.length)
    (hcheck : ((names.zip ks).all fun p => operandCheck br e p.1 p.2) = true) :
    List.zipWith (shownOf br) ks (ps.map fun p => w / 2 ^ p.1 % 2 ^ p.2) =
      List.zipWith (dasmShown br) ks (ps.map fun p => w / 2 ^ p.1 % 2 ^ p.2) ↔
    ¬ ∃ operand ∈ names, ∃ n, dasmField operand = some (.imms n) ∧ w % 2 ^ n = 2 ^ (n - 1) := by
  induction names generalizing ks ps with
  | nil =>
    obtain rfl : ps = [] := by simpa using hpos.symm
    obtain rfl : ks = [] := by simpa using hlen
    refine iff_of_true rfl ?_
    rintro ⟨x, hx, -⟩
    cases hx
  | cons x xs ih =>
    obtain _ | ⟨p, ps⟩ := ps
    · cases hpos
    obtain _ | ⟨k, ks⟩ := ks
    · cases hlen
    simp only [List.map_cons, List.cons.injEq] at hpos
    simp only [List.zip_cons_cons, List.all_cons, Bool.and_eq_true] at hcheck
    obtain ⟨field, hfield, rfl⟩ := Option.map_eq_some_iff.mp hpos.1
    have hhead := shown_eq_iff hfield hcheck.1 w
    have htail := ih hpos.2 (by simpa using hlen) hcheck.2
    rw [List.map_cons, List.zipWith_cons_cons, List.zipWith_cons_cons, List.cons.injEq, hhead, htail, ← not_or]
    simp only [List.mem_cons, exists_eq_or_imp]

/-- **The two disassemblers report the same** for a word: the mnemonic, and for each operand the register,
the wyde position, the number or the displacement. -/
def SameReport (w : BitVec 32) : Prop :=
  ∃ p line, printInsnDadao disassembleTable (mdNumberToChars w) = some p ∧
    outputDasm (transDict insts) w = some line ∧
    p.row.format.mnemonic = line.instName ∧ p.shown = line.operands

/-- The instruction has a signed field with the most negative value. -/
def MostNegative (d : Inst) (w : BitVec 32) : Prop :=
  ∃ operand ∈ shownFields d, ∃ n, dasmField operand = some (.imms n) ∧ w.toNat % 2 ^ n = 2 ^ (n - 1)

/-- The table assigns a word to an instruction. -/
def Selects (d : Inst) (w : BitVec 32) : Prop := w.toNat &&& d.maskInt = d.matchInt

/-- The row of an instruction selects the same words. -/
lemma selects_iff {d : Inst} {r : DadaoOpcode} (hshape : wellShaped r = true) (hcheck : dasmCheck d r = true)
    (w : BitVec 32) : Selects d w ↔ w.toNat / 2 ^ (widths r).sum = header r := by
  simp only [dasmCheck, Bool.and_eq_true, beq_iff_eq] at hcheck
  rw [← matches_iff hshape, ← BitVec.toNat_inj, BitVec.toNat_and, ← hcheck.1.1.1.1, ← hcheck.1.1.1.2, Selects]

/-- The reports for a word of a row, field by field. -/
lemma sameReport_row {w : BitVec 32} {i : ℕ} {d : Inst} {r : DadaoOpcode} (hi : insts[i]? = some d)
    (hr : opcTable[i]? = some r) (hcheck : dasmCheck d r = true)
    (hw : w.toNat / 2 ^ (widths r).sum = header r) :
    SameReport w ↔
      List.zipWith (shownOf (isBranch r)) (operandKinds r) (unpack (widths r) w.toNat) =
        List.zipWith (dasmShown (isBranch r)) (operandKinds r) (unpack (widths r) w.toNat) := by
  have hprinted := printInsnDadao_eq hr hw
  have hline := outputDasm_eq hi hr hcheck hw
  rw [← printed_shown_eq w i (wellShaped_of_mem (List.mem_of_getElem? hr))]
  constructor
  · rintro ⟨p, line, hp, hl, -, hsame⟩
    rw [hprinted, Option.some.injEq] at hp
    rw [hline, Option.some.injEq] at hl
    rw [hp, hsame, ← hl]
  · exact fun hsame => ⟨_, _, hprinted, hline, rfl, hsame⟩

/-- **Agreement of the disassemblers.** For a word that the table assigns to an instruction the two
disassemblers report the same exactly if no signed field of the instruction has its most negative value.

**Proof sketch.** Both find the one row the word belongs to and show its fields; the conversion of a
negative field in `output_dasm` is two's complement except for a field of a one and zeros. -/
theorem sameReport_iff {d : Inst} (hd : d ∈ insts) {w : BitVec 32} (hw : Selects d w) :
    SameReport w ↔ ¬ MostNegative d w := by
  obtain ⟨i, r, hi, hr, hcheck⟩ := exists_row hd
  rw [selects_iff (wellShaped_of_mem (List.mem_of_getElem? hr)) hcheck] at hw
  have hfields := hcheck
  simp only [dasmCheck, fieldsCheck, Bool.and_eq_true, beq_iff_eq] at hfields
  obtain ⟨-, ⟨hpos, -⟩, hoperands⟩ := hfields
  have hlen : (operandKinds r).length = (tailSums (widths r)).length := by
    rw [length_tailSums, widths, List.length_map]
  rw [sameReport_row hi hr hcheck hw, unpack_eq_tailSums, map_shown_eq_iff w.toNat hpos hlen hoperands,
    not_iff_not]
  -- the opcode is a field without a value
  constructor
  · rintro ⟨x, hx, hmost⟩
    exact ⟨x, (List.mem_filter.mp hx).1, hmost⟩
  · rintro ⟨x, hx, n, hn, hmost⟩
    refine ⟨x, List.mem_filter.mpr ⟨hx, bne_iff_ne.mpr ?_⟩, n, hn, hmost⟩
    rintro rfl
    have hop : dasmField "op" = some .other := by decide +kernel
    rw [hop] at hn
    cases hn

/-- The call through registers, and the words of its row. -/
lemma exists_callInst : ∃ d ∈ insts, ∃ i : ℕ, insts[i]? = some d ∧ opcTable[i]? = some callRow ∧
    dasmCheck d callRow = true := by
  obtain ⟨i, hi⟩ := List.mem_iff_getElem?.mp callRow_mem
  have hlt : i < opcTable.length := (List.getElem?_eq_some_iff.mp hi).1
  rw [← dasmCheck_eq.1] at hlt
  obtain ⟨d, hd⟩ : ∃ d, insts[i]? = some d := ⟨_, List.getElem?_eq_getElem hlt⟩
  refine ⟨d, List.mem_of_getElem? hd, i, hd, hi, ?_⟩
  have hall := List.all_eq_true.mp dasmCheck_eq.2
  exact hall (d, callRow) (List.mem_iff_getElem?.mpr ⟨i, List.getElem?_zip_eq_some.mpr ⟨hd, hi⟩⟩)

/-- `call rb1, rd0, 1` is reported alike. -/
theorem sameReport_call : ∃ d ∈ insts, Selects d 0x6D040001#32 ∧
    (SameReport 0x6D040001#32 ↔ ¬ MostNegative d 0x6D040001#32) := by
  obtain ⟨d, hd, i, -, -, hcheck⟩ := exists_callInst
  have hw : Selects d 0x6D040001#32 :=
    (selects_iff (wellShaped_of_mem callRow_mem) hcheck _).mpr (by decide)
  exact ⟨d, hd, hw, sameReport_iff hd hw⟩

/-- **The failing word**: `call rb1, rd0, -2048` is printed with an offset of zero by `output_dasm`. -/
theorem not_sameReport_call : ¬ ∀ d ∈ insts, ∀ w, Selects d w → SameReport w := by
  intro h
  obtain ⟨d, hd, i, hi, hr, hcheck⟩ := exists_callInst
  have hw : (0x6D040800#32).toNat / 2 ^ (widths callRow).sum = header callRow := by decide
  have hsame := h d hd _ ((selects_iff (wellShaped_of_mem callRow_mem) hcheck _).mpr hw)
  rw [sameReport_row hi hr hcheck hw] at hsame
  revert hsame
  decide

end Dadao.Gas
