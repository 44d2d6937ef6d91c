import Dadao.Llvm.CodeEmitter
import Mathlib.Algebra.GroupWithZero.Nat

set_option relaxedAutoImplicit false
set_option autoImplicit false

/-!
# The disassembler

A model of `DadaoDisassembler.cpp`: the decoders of the operand classes, and the generated search of the
record of a word. The disassembler runs without a symbolizer. Whether the generated decoder adds an operand
for one without bits in the word is a parameter.

## Main definitions

* `Dadao.Llvm.decodeOperand` — the decoders of the operand classes.
* `Dadao.Llvm.decodeInstruction` — the `MCInst` of a word.

## Main results

* `Dadao.Llvm.encode_decode_iff` — when encoding what was decoded gives the word back.
-/

namespace Dadao.Llvm

open Fields

/-! ## Decoding -/

/-- `DecodeGPRDRegisterClass` and `DecodeGPRBRegisterClass`. -/
def decodeRegister (c : RegClass) (regNo : BitVec 32) : Option (List MCOperand) :=
  if 63 < regNo.toNat then none
  else match c with
    | .gprd => some [.reg (.rd (regNo.setWidth 6))]
    | .gprb => some [.reg (.rb (regNo.setWidth 6))]

/-- `decodeRRIIMemoryValue`. -/
def decodeRRIIMemoryValue (insn : BitVec 32) : List MCOperand :=
  [.reg (.rb ((insn >>> 12).setWidth 6)), .imm ((insn.setWidth 12).signExtend 64)]

/-- `decodeRRRIMemoryValue`: two of the three operands. -/
def decodeRRRIMemoryValue (insn : BitVec 32) : List MCOperand :=
  [.reg (.rb ((insn >>> 12).setWidth 6)), .reg (.rd ((insn >>> 6).setWidth 6))]

/-- `decodeBranch`. -/
def decodeBranch (insn : BitVec 32) : List MCOperand := [.imm (insn.setWidth 64)]

/-- `decodeWPosOperand`. -/
def decodeWPosOperand (wpos : BitVec 32) : Option (List MCOperand) :=
  if 4 ≤ wpos.toNat then none else some [.imm (wpos.setWidth 64)]

/-- The decoder of an operand class. -/
def decodeOperand (v : BitVec 32) : OperandClass → Option (List MCOperand)
  | .reg c => decodeRegister c v
  | .brTarget | .callTarget => some (decodeBranch v)
  | .memRRII => some (decodeRRIIMemoryValue v)
  | .memRRRI => some (decodeRRRIMemoryValue v)
  | .wposPred _ => decodeWPosOperand v
  | .imm _ | .bareSymbol => some [.imm (v.setWidth 64)]

/-- The field an operand is read from: its own, or that of the operand it is tied to. -/
def Record.fieldOf (r : Record) (name : FieldName) : FieldName :=
  match r.tied with
  | some (a, b) => if name = a then b else name
  | none => name

/-- An operand of a word. -/
def decodeField (addsUnencoded : Bool) (r : Record) (w : BitVec 32) (op : Operand) : Option (List MCOperand) :=
  if shows r.word (r.fieldOf op.name) then decodeOperand (extract r.word (r.fieldOf op.name) w) op.cls
  else if addsUnencoded then decodeOperand 0 op.cls
  else some []

/-- The operands of a word, in the order of the record. -/
def decodeOperands (addsUnencoded : Bool) (r : Record) (w : BitVec 32) : List Operand → Option (List MCOperand)
  | [] => some []
  | op :: ops => do
    let decoded ← decodeField addsUnencoded r w op
    let rest ← decodeOperands addsUnencoded r w ops
    return decoded ++ rest

/-- `decodeInstruction`, as it is generated from the records. -/
def decodeInstruction (addsUnencoded : Bool) (w : BitVec 32) : Option MCInst := do
  let opcode ← Opcode.all.find? fun o => !o.record.isPseudo && agrees o.record.word w
  return ⟨opcode, ← decodeOperands addsUnencoded opcode.record w opcode.record.operands⟩

/-! ## One operand -/

/-- The number of bits of the value of an operand. -/
def OperandClass.width : OperandClass → ℕ
  | .reg _ => 6
  | .memRRII => 18
  | _ => 32

/-- The classes whose decoder gives all operands the encoder reads. -/
def OperandClass.complete : OperandClass → Bool
  | .memRRRI => false
  | _ => true

/-- The operands a decoder gives. -/
lemma length_decodeOperand {cls : OperandClass} {v : BitVec 32} {l : List MCOperand}
    (h : decodeOperand v cls = some l) (hcls : cls.complete = true) : l.length = cls.numOperands := by
  cases cls with
  | memRRRI => exact absurd hcls (by decide)
  | reg c =>
    simp only [decodeOperand, decodeRegister] at h
    split_ifs at h
    cases c <;> cases h <;> rfl
  | wposPred k =>
    simp only [decodeOperand, decodeWPosOperand] at h
    split_ifs at h
    cases h
    rfl
  | _ =>
    cases h
    rfl

/-- The operands are registers and numbers. -/
lemma notExpr_decodeOperand {cls : OperandClass} {v : BitVec 32} {l : List MCOperand}
    (h : decodeOperand v cls = some l) (e : MCExpr) : .expr e ∉ l := by
  cases cls with
  | reg c =>
    simp only [decodeOperand, decodeRegister] at h
    split_ifs at h
    cases c <;> cases h <;> simp
  | wposPred k =>
    simp only [decodeOperand, decodeWPosOperand] at h
    split_ifs at h
    cases h
    simp
  | _ =>
    cases h
    simp [decodeBranch, decodeRRIIMemoryValue, decodeRRRIMemoryValue]

/-- A register of six bits keeps its number. -/
lemma ofNat_setWidth_six {v : BitVec 32} (h : v.toNat < 64) : BitVec.ofNat 32 (v.setWidth 6).toNat = v := by
  apply BitVec.eq_of_toNat_eq
  rw [BitVec.toNat_ofNat, BitVec.toNat_setWidth]
  omega

/-- **A memory operand** of a register and a signed offset. -/
lemma getRRIIMemoryOpValue_decoded {v : BitVec 32} (hv : v.toNat < 2 ^ 18) (pre post : List MCOperand) :
    getRRIIMemoryOpValue (pre ++ decodeRRIIMemoryValue v ++ post) pre.length = some (v, []) := by
  have hone : (pre ++ decodeRRIIMemoryValue v ++ post)[pre.length + 0]? =
      some (.reg (.rb ((v >>> 12).setWidth 6))) := by
    simp [decodeRRIIMemoryValue]
  have htwo : (pre ++ decodeRRIIMemoryValue v ++ post)[pre.length + 1]? =
      some (.imm ((v.setWidth 12).signExtend 64)) := by
    simp [decodeRRIIMemoryValue]
  have hint : ((v.setWidth 12).signExtend 64).toInt = (v.setWidth 12).toInt :=
    BitVec.toInt_signExtend_of_le (by decide)
  have hlow := BitVec.le_toInt (v.setWidth 12)
  have hhigh := BitVec.toInt_lt (x := v.setWidth 12)
  have hrange : -2048 ≤ ((v.setWidth 12).signExtend 64).toInt ∧ ((v.setWidth 12).signExtend 64).toInt < 2048 := by
    rw [hint]
    exact ⟨hlow, hhigh⟩
  have hword : BitVec.ofNat 32 ((v >>> 12).setWidth 6).toNat <<< 12 |||
      (((v.setWidth 12).signExtend 64).setWidth 32 &&& 0xfff) = v := by
    have hregister : (v >>> 12).toNat < 64 := by
      rw [BitVec.toNat_ushiftRight, Nat.shiftRight_eq_div_pow]
      omega
    have hmask : ∀ i, i < 32 → (0xfff : BitVec 32).getLsbD i = decide (i < 12) := by decide
    rw [ofNat_setWidth_six hregister]
    apply BitVec.eq_of_getLsbD_eq
    intro i hi
    simp only [BitVec.getLsbD_or, BitVec.getLsbD_and, BitVec.getLsbD_shiftLeft, BitVec.getLsbD_setWidth,
      BitVec.getLsbD_signExtend, BitVec.getLsbD_ushiftRight, hmask i hi]
    by_cases hlow : i < 12
    · have hi' : i < 64 := by omega
      simp [hi, hi', hlow]
    · have hsum : 12 + (i - 12) = i := by omega
      simp [hi, hlow, hsum]
  rw [getRRIIMemoryOpValue, hone, htwo]
  simp only [Option.bind_eq_bind, Option.bind_some, if_pos hrange, getDadaoRegisterNumbering, hword]

/-- **Encoding what was decoded**, for one operand. -/
lemma encodeOperand_decoded (opcode : Opcode) {cls : OperandClass} {v : BitVec 32} {l : List MCOperand}
    (h : decodeOperand v cls = some l) (hcls : cls.complete = true) (hv : v.toNat < 2 ^ cls.width)
    (pre post : List MCOperand) :
    encodeOperand opcode (pre ++ l ++ post) pre.length cls = some (v, []) := by
  have himm : (v.setWidth 64).setWidth 32 = v := by
    rw [BitVec.setWidth_setWidth_of_le v (by decide), BitVec.setWidth_eq]
  have hfirst : ∀ op : MCOperand, (pre ++ [op] ++ post)[pre.length]? = some op := by
    intro op
    simp
  cases cls with
  | memRRRI => exact absurd hcls (by decide)
  | memRRII =>
    cases h
    exact getRRIIMemoryOpValue_decoded hv pre post
  | reg c =>
    have hnumber := ofNat_setWidth_six hv
    simp only [decodeOperand, decodeRegister] at h
    split_ifs at h
    cases c <;> cases h
    · simp only [encodeOperand, hfirst, Option.bind_eq_bind, Option.bind_some, getMachineOpValue,
        getDadaoRegisterNumbering, hnumber]
    · simp only [encodeOperand, hfirst, Option.bind_eq_bind, Option.bind_some, getMachineOpValue,
        getDadaoRegisterNumbering, hnumber]
  | wposPred k =>
    simp only [decodeOperand, decodeWPosOperand] at h
    split_ifs at h
    cases h
    simp only [encodeOperand, hfirst, Option.bind_eq_bind, Option.bind_some, getMachineOpValue, himm]
  | brTarget =>
    cases h
    simp only [encodeOperand, getBranchTargetOpValue, decodeBranch, hfirst, Option.bind_eq_bind, Option.bind_some,
      getMachineOpValue, himm]
  | callTarget =>
    cases h
    simp only [encodeOperand, getBranchTargetOpValue, decodeBranch, hfirst, Option.bind_eq_bind, Option.bind_some,
      getMachineOpValue, himm]
  | imm c =>
    cases h
    simp only [encodeOperand, hfirst, Option.bind_eq_bind, Option.bind_some, getMachineOpValue, himm]
  | bareSymbol =>
    cases h
    simp only [encodeOperand, hfirst, Option.bind_eq_bind, Option.bind_some, getMachineOpValue, himm]

/-! ## All operands -/

/-- The bits of a field are below a bound. -/
def fieldBelow (word : Format FieldName) (name : FieldName) (k : ℕ) : Bool :=
  (vars word).all fun v => v.1 != name || v.2 < k

/-- **An operand that keeps its place**: the decoder gives what the encoder counts, and the value of a field
is no wider than its class. -/
def placed (addsUnencoded : Bool) (r : Record) (op : Operand) : Bool :=
  op.cls.complete && if shows r.word op.name then
      r.fieldOf op.name == op.name && fieldBelow r.word op.name op.cls.width
    else shows r.word (r.fieldOf op.name) || addsUnencoded

/-- The operands of an `MCInst` before those of later operands. -/
def numOperands (ops : List Operand) : ℕ := (ops.map fun op => op.cls.numOperands).sum

lemma mem_vars {word : Format FieldName} {a : FieldName} {i : ℕ} (h : .var a i ∈ word) : (a, i) ∈ vars word :=
  List.mem_filterMap.mpr ⟨_, h, rfl⟩

/-- The value of a field with a bound. -/
lemma extract_lt_of_fieldBelow {word : Format FieldName} {name : FieldName} {k : ℕ}
    (h : fieldBelow word name k = true) (w : BitVec 32) : (extract word name w).toNat < 2 ^ k := by
  refine extract_lt (fun i hi => ?_) w
  have hall := List.all_eq_true.mp h _ (mem_vars hi)
  simpa using hall

/-- The operands of two lists are decoded one after the other. -/
lemma decodeOperands_append {adds : Bool} {r : Record} {w : BitVec 32} {ops ops' : List Operand}
    {l : List MCOperand} (h : decodeOperands adds r w (ops ++ ops') = some l) :
    ∃ l₁ l₂, decodeOperands adds r w ops = some l₁ ∧ decodeOperands adds r w ops' = some l₂ ∧ l = l₁ ++ l₂ := by
  induction ops generalizing l with
  | nil => exact ⟨[], l, rfl, h, rfl⟩
  | cons op ops ih =>
    simp only [List.cons_append, decodeOperands, Option.bind_eq_bind, Option.bind_eq_some_iff, Option.pure_def,
      Option.some.injEq] at h
    obtain ⟨decoded, hop, rest, hrest, rfl⟩ := h
    obtain ⟨l₁, l₂, h₁, h₂, rfl⟩ := ih hrest
    refine ⟨decoded ++ l₁, l₂, ?_, h₂, (List.append_assoc _ _ _).symm⟩
    simp only [decodeOperands, hop, h₁, Option.bind_eq_bind, Option.bind_some, Option.pure_def]

/-- An operand that cannot be encoded spoils those before it. -/
lemma encodeOperands_append_none {opcode : Opcode} {word : Format FieldName} {operands : List MCOperand}
    {ops ops' : List Operand} {k : ℕ}
    (h : encodeOperands opcode word operands ops' (k + numOperands ops) = none) :
    encodeOperands opcode word operands (ops ++ ops') k = none := by
  induction ops generalizing k with
  | nil => exact h
  | cons op ops ih =>
    have hsum : k + numOperands (op :: ops) = k + op.cls.numOperands + numOperands ops := by
      rw [numOperands, numOperands, List.map_cons, List.sum_cons]
      omega
    have htail := ih (hsum ▸ h)
    rw [List.cons_append, encodeOperands]
    split_ifs
    · cases encodeOperand opcode operands k op.cls <;> simp [htail]
    · exact htail

/-- The values of the fields of a word. -/
def fieldValues (r : Record) (w : BitVec 32) (ops : List Operand) : List (FieldName × BitVec 32) :=
  (ops.filter fun op => shows r.word op.name).map fun op => (op.name, extract r.word op.name w)

/-- **Encoding what was decoded**, for operands that keep their places. -/
lemma encodeOperands_decoded (opcode : Opcode) {adds : Bool} {r : Record} {w : BitVec 32} {ops : List Operand}
    {l : List MCOperand} (h : decodeOperands adds r w ops = some l) (hops : ∀ op ∈ ops, placed adds r op = true)
    (pre post : List MCOperand) :
    l.length = numOperands ops ∧
      encodeOperands opcode r.word (pre ++ l ++ post) ops pre.length = some (fieldValues r w ops, []) := by
  induction ops generalizing l pre with
  | nil =>
    cases h
    exact ⟨rfl, rfl⟩
  | cons op ops ih =>
    simp only [decodeOperands, Option.bind_eq_bind, Option.bind_eq_some_iff, Option.pure_def,
      Option.some.injEq] at h
    obtain ⟨decoded, hop, rest, hrest, rfl⟩ := h
    have hplaced := hops op List.mem_cons_self
    rw [placed, Bool.and_eq_true] at hplaced
    obtain ⟨hcls, hplaced⟩ := hplaced
    have htail := fun pre' => ih hrest (fun op' hop' => hops op' (List.mem_cons_of_mem _ hop')) pre'
    have hlist : pre ++ (decoded ++ rest) ++ post = pre ++ decoded ++ (rest ++ post) := by
      simp only [List.append_assoc]
    by_cases hshown : shows r.word op.name = true
    · rw [if_pos hshown, Bool.and_eq_true, beq_iff_eq] at hplaced
      obtain ⟨hfield, hbelow⟩ := hplaced
      rw [decodeField, hfield, if_pos hshown] at hop
      have hlen := length_decodeOperand hop hcls
      obtain ⟨hrestlen, henc⟩ := htail (pre ++ decoded)
      refine ⟨by rw [List.length_append, hlen, hrestlen, numOperands, numOperands, List.map_cons, List.sum_cons], ?_⟩
      have hone := encodeOperand_decoded opcode hop hcls (extract_lt_of_fieldBelow hbelow w) pre (rest ++ post)
      rw [List.length_append, hlen, List.append_assoc _ rest post] at henc
      rw [encodeOperands, if_pos hshown, hlist, hone]
      simp only [Option.bind_eq_bind, Option.bind_some, henc, Option.pure_def, List.append_nil, fieldValues,
        List.filter_cons, hshown, if_true, List.map_cons]
    · rw [if_neg hshown, Bool.or_eq_true] at hplaced
      obtain ⟨v, hdecoded⟩ : ∃ v, decodeOperand v op.cls = some decoded := by
        rw [decodeField] at hop
        split_ifs at hop with h₁ h₂
        · exact ⟨_, hop⟩
        · exact ⟨_, hop⟩
        · exact absurd hplaced (by rintro (h | h); exacts [h₁ h, h₂ h])
      have hlen := length_decodeOperand hdecoded hcls
      obtain ⟨hrestlen, henc⟩ := htail (pre ++ decoded)
      refine ⟨by rw [List.length_append, hlen, hrestlen, numOperands, numOperands, List.map_cons, List.sum_cons], ?_⟩
      rw [List.length_append, hlen, List.append_assoc _ rest post] at henc
      rw [encodeOperands, if_neg hshown, hlist, henc]
      simp only [fieldValues, List.filter_cons, hshown, Bool.false_eq_true, if_false]

/-- The value of a field, among all of them. -/
lemma lookup_fieldValues {r : Record} {w : BitVec 32} {ops : List Operand} {a : FieldName}
    (ha : ∃ op ∈ ops, op.name = a) (hshown : shows r.word a = true) :
    (fieldValues r w ops).lookup a = some (extract r.word a w) := by
  induction ops with
  | nil =>
    obtain ⟨op, hop, -⟩ := ha
    exact absurd hop List.not_mem_nil
  | cons op ops ih =>
    rw [fieldValues] at ih
    rw [fieldValues, List.filter_cons]
    by_cases hname : op.name = a
    · subst hname
      simp only [hshown, if_true, List.map_cons, List.lookup_cons, beq_self_eq_true]
    · have htail : ∃ op ∈ ops, op.name = a := by
        obtain ⟨op', hop', rfl⟩ := ha
        rcases List.mem_cons.mp hop' with rfl | hop'
        · exact absurd rfl hname
        · exact ⟨op', hop', rfl⟩
      have hne : (a == op.name) = false := beq_eq_false_iff_ne.mpr fun h => hname h.symm
      split_ifs
      · rw [List.map_cons, List.lookup_cons, hne]
        exact ih htail
      · exact ih htail

/-! ## The records -/

/-- A multiple load or store: the memory operand has three parts. -/
def Record.isMultiple (r : Record) : Bool := r.operands.any fun op => op.cls == .memRRRI

/-- A record with a wyde position among its operands. -/
def Record.isWyde (r : Record) : Bool := r.operands.any fun op => match op.cls with
  | .wposPred _ => true
  | _ => false

/-- **What holds of a record**: its format is proper, and its operands keep their places; of a multiple load
or store all but the last, of a wyde instruction all but the last two. -/
def recordCheck (r : Record) : Bool :=
  r.word.length == 32 && decide (vars r.word).Nodup &&
    (vars r.word).all (fun v => v.2 < 32 && r.operands.any (·.name == v.1)) &&
    if r.isMultiple then
      r.operands.dropLast.all (placed false r) &&
        r.operands.getLast?.any fun op => op.cls == .memRRRI && shows r.word op.name && r.fieldOf op.name == op.name
    else if r.isWyde then
      r.operands.all (placed true r) && r.operands.dropLast.dropLast.all (placed false r) &&
        r.operands.dropLast.getLast?.any (fun op => !shows r.word (r.fieldOf op.name) && !shows r.word op.name &&
          op.cls.numOperands == 1) &&
        r.operands.getLast?.any (fun op => placed false r op && shows r.word op.name && op.cls.numOperands == 1)
    else r.operands.all (placed false r)

/-- The number of a bit of a field. -/
def bitKey (v : FieldName × ℕ) : ℕ := v.2 * 32 + v.1.ctorIdx

lemma bitKey_injective : Function.Injective bitKey := by
  rintro ⟨a, i⟩ ⟨b, j⟩ h
  have hlt : ∀ c : FieldName, c.ctorIdx < 32 := by
    intro c
    cases c <;> decide
  have ha := hlt a
  have hb := hlt b
  simp only [bitKey] at h
  have hname : a.ctorIdx = b.ctorIdx := by omega
  have hbit : i = j := by omega
  rw [hbit, ← FieldName.ofNat_ctorIdx a, hname, FieldName.ofNat_ctorIdx]

/-- All records are so. -/
lemma recordCheck_all : Opcode.all.all (fun o => o.record.isPseudo || recordCheck o.record) = true := by
  simp only [recordCheck, decide_nodup_eq bitKey_injective]
  decide +kernel

/-- Out of range there is no operand to encode. -/
lemma encodeOperand_of_length_le (opcode : Opcode) {operands : List MCOperand} {k : ℕ} (cls : OperandClass)
    (h : operands.length ≤ k) : encodeOperand opcode operands k cls = none := by
  have hnone : operands[k]? = none := List.getElem?_eq_none h
  cases cls <;> simp [encodeOperand, getBranchTargetOpValue, getRRIIMemoryOpValue, getRRRIMemoryOpValue, hnone]

/-- Two operands do for no multiple load or store. -/
lemma getRRRIMemoryOpValue_of_length_le {operands : List MCOperand} {k : ℕ} (h : operands.length ≤ k + 2) :
    getRRRIMemoryOpValue operands k = none := by
  have hnone : operands[k + 2]? = none := List.getElem?_eq_none h
  rw [getRRRIMemoryOpValue, hnone]
  cases operands[k + 0]? <;> cases operands[k + 1]? <;> rfl

/-- A list with its last element. -/
lemma eq_dropLast_append {l : List Operand} {p : Operand → Bool} (h : l.getLast?.any p = true) :
    ∃ op, l = l.dropLast ++ [op] ∧ p op = true := by
  cases hop : l.getLast? with
  | none =>
    rw [hop] at h
    exact absurd h Bool.false_ne_true
  | some op =>
    rw [hop] at h
    exact ⟨op, (List.dropLast_append_getLast? op hop).symm, h⟩

/-- An operand with bits in the word keeps its place in any case. -/
lemma placed_of_false {r : Record} {op : Operand} (h : placed false r op = true) (adds : Bool) :
    placed adds r op = true := by
  simp only [placed, Bool.and_eq_true] at h ⊢
  refine ⟨h.1, ?_⟩
  by_cases hshown : shows r.word op.name = true
  · simpa only [if_pos hshown] using h.2
  · simp only [if_neg hshown, Bool.or_false] at h ⊢
    rw [h.2, Bool.true_or]

/-- **The operands of a word can be encoded** unless it is a multiple load or store, or a wyde instruction
without its position. -/
lemma encodeOperands_eq (opcode : Opcode) {adds : Bool} {r : Record} {w : BitVec 32} {l : List MCOperand}
    (hr : recordCheck r = true) (h : decodeOperands adds r w r.operands = some l) :
    encodeOperands opcode r.word l r.operands 0 =
      if r.isMultiple = false ∧ (r.isWyde = true → adds = true) then some (fieldValues r w r.operands, [])
      else none := by
  simp only [recordCheck, Bool.and_eq_true] at hr
  have hplaces := hr.2
  have hgood : r.operands.all (placed adds r) = true →
      encodeOperands opcode r.word l r.operands 0 = some (fieldValues r w r.operands, []) := by
    intro hall
    have henc := (encodeOperands_decoded opcode h (List.all_eq_true.mp hall) [] []).2
    rwa [List.nil_append, List.append_nil, List.length_nil] at henc
  by_cases hmultiple : r.isMultiple = true
  · rw [if_pos hmultiple, Bool.and_eq_true] at hplaces
    obtain ⟨op, hsplit, hop⟩ := eq_dropLast_append hplaces.2
    simp only [Bool.and_eq_true, beq_iff_eq] at hop
    obtain ⟨⟨hcls, hshown⟩, hfield⟩ := hop
    rw [hsplit] at h
    obtain ⟨l₁, l₂, h₁, h₂, rfl⟩ := decodeOperands_append h
    have hlen := (encodeOperands_decoded opcode h₁
      (fun op hop => placed_of_false (List.all_eq_true.mp hplaces.1 op hop) adds) [] []).1
    have hlen₂ : l₂.length = 2 := by
      simp only [decodeOperands, decodeField, hfield, hshown, if_true, hcls, decodeOperand, decodeRRRIMemoryValue,
        Option.bind_eq_bind, Option.bind_some, Option.pure_def, Option.some.injEq] at h₂
      rw [← h₂]
      rfl
    -- the third part of the memory operand is not there
    have hnone : getRRRIMemoryOpValue (l₁ ++ l₂) (0 + numOperands r.operands.dropLast) = none :=
      getRRRIMemoryOpValue_of_length_le (by rw [List.length_append, hlen, hlen₂]; omega)
    rw [if_neg (fun hcond => Bool.false_ne_true (hcond.1.symm.trans hmultiple)), hsplit]
    apply encodeOperands_append_none
    simp only [encodeOperands, hshown, if_true, hcls, encodeOperand, hnone, Option.bind_eq_bind, Option.bind_none]
  · rw [if_neg hmultiple] at hplaces
    have hmultiple' : r.isMultiple = false := Bool.eq_false_iff.mpr hmultiple
    by_cases hwyde : r.isWyde = true
    · simp only [if_pos hwyde, Bool.and_eq_true] at hplaces
      obtain ⟨⟨⟨hall, hfront⟩, hposition⟩, hlast⟩ := hplaces
      cases adds with
      | true => rw [if_pos ⟨hmultiple', fun _ => rfl⟩, hgood hall]
      | false =>
        obtain ⟨op', hsplit', hop'⟩ := eq_dropLast_append hlast
        obtain ⟨op, hsplit, hop⟩ := eq_dropLast_append hposition
        simp only [Bool.and_eq_true, Bool.not_eq_true', beq_iff_eq] at hop hop'
        obtain ⟨⟨hfield, hshown⟩, hnum⟩ := hop
        obtain ⟨⟨hplaced, hshown'⟩, hnum'⟩ := hop'
        rw [hsplit', hsplit, List.append_assoc] at h
        obtain ⟨l₁, l', h₁, hback, rfl⟩ := decodeOperands_append h
        obtain ⟨l₂, l₃, h₂, h₃, rfl⟩ := decodeOperands_append hback
        have hlen₁ := (encodeOperands_decoded opcode h₁ (List.all_eq_true.mp hfront) [] []).1
        have hlen₂ : l₂.length = 0 := by
          simp only [decodeOperands, decodeField, hfield, Bool.false_eq_true, if_false, Option.bind_eq_bind,
            Option.bind_some, Option.pure_def, Option.some.injEq] at h₂
          rw [← h₂]
          rfl
        have hlen₃ : l₃.length = 1 := by
          have hsingle : ∀ o ∈ [op'], placed false r o = true := by
            intro o ho
            rwa [List.mem_singleton.mp ho]
          rw [(encodeOperands_decoded opcode h₃ hsingle [] []).1, numOperands, List.map_singleton,
            List.sum_singleton, hnum']
        -- the immediate is looked for behind the position
        have hnone : encodeOperand opcode (l₁ ++ (l₂ ++ l₃))
            (0 + numOperands r.operands.dropLast.dropLast + op.cls.numOperands) op'.cls = none :=
          encodeOperand_of_length_le opcode _ (by
            rw [List.length_append, List.length_append, hlen₁, hlen₂, hlen₃, hnum]
            omega)
        rw [if_neg (fun hcond => absurd (hcond.2 hwyde) Bool.false_ne_true), hsplit', hsplit, List.append_assoc]
        apply encodeOperands_append_none
        simp only [List.singleton_append, encodeOperands, hshown, Bool.false_eq_true, if_false, hshown', if_true,
          hnone, Option.bind_eq_bind, Option.bind_none]
    · rw [if_neg hwyde] at hplaces
      rw [if_pos ⟨hmultiple', fun hw => absurd hw hwyde⟩, hgood]
      exact List.all_eq_true.mpr fun op hop => placed_of_false (List.all_eq_true.mp hplaces op hop) adds

/-! ## The round trip -/

/-- Decoded operands are no expressions. -/
lemma notExpr_decodeOperands {adds : Bool} {r : Record} {w : BitVec 32} {ops : List Operand}
    {l : List MCOperand} (h : decodeOperands adds r w ops = some l) (e : MCExpr) : .expr e ∉ l := by
  induction ops generalizing l with
  | nil =>
    cases h
    exact List.not_mem_nil
  | cons op ops ih =>
    simp only [decodeOperands, Option.bind_eq_bind, Option.bind_eq_some_iff, Option.pure_def,
      Option.some.injEq] at h
    obtain ⟨decoded, hop, rest, hrest, rfl⟩ := h
    have hdecoded : .expr e ∉ decoded := by
      rw [decodeField] at hop
      split_ifs at hop
      · exact notExpr_decodeOperand hop e
      · exact notExpr_decodeOperand hop e
      · cases hop
        exact List.not_mem_nil
    rw [List.mem_append]
    exact not_or.mpr ⟨hdecoded, ih hrest⟩

/-- The format of a record is proper, and its fields belong to operands. -/
lemma proper_of_recordCheck {r : Record} (h : recordCheck r = true) :
    Proper r.word 32 ∧ ∀ a i, .var a i ∈ r.word → ∃ op ∈ r.operands, op.name = a := by
  simp only [recordCheck, Bool.and_eq_true, beq_iff_eq, decide_eq_true_eq] at h
  obtain ⟨⟨⟨hlen, hnodup⟩, hvars⟩, -⟩ := h
  have hvar : ∀ v ∈ vars r.word, v.2 < 32 ∧ ∃ op ∈ r.operands, op.name = v.1 := by
    intro v hv
    have hall := List.all_eq_true.mp hvars v hv
    simpa only [Bool.and_eq_true, decide_eq_true_eq, List.any_eq_true, beq_iff_eq] using hall
  exact ⟨proper_of_check hlen hnodup fun v hv => (hvar v hv).1, fun a i hi => (hvar (a, i) (mem_vars hi)).2⟩

/-- A field with a bit in the format is shown. -/
lemma shows_of_mem {word : Format FieldName} {a : FieldName} {i : ℕ} (h : .var a i ∈ word) :
    shows word a = true :=
  List.any_eq_true.mpr ⟨_, h, beq_self_eq_true a⟩

/-- **Encoding what was decoded** gives the word back, exactly for the instructions that are no multiple loads
or stores and, when the generated decoder adds no operand for one without bits, no wyde instructions. -/
theorem encode_decode_iff {addsUnencoded : Bool} {w : BitVec 32} {inst : MCInst}
    (h : decodeInstruction addsUnencoded w = some inst) :
    encodeInstruction inst = some ([w], []) ↔
      inst.opcode.record.isMultiple = false ∧ (inst.opcode.record.isWyde = true → addsUnencoded = true) := by
  simp only [decodeInstruction, Option.bind_eq_bind, Option.bind_eq_some_iff, Option.pure_def,
    Option.some.injEq] at h
  obtain ⟨opcode, hfind, l, hl, rfl⟩ := h
  have hfound := List.find?_some hfind
  simp only [Bool.and_eq_true, Bool.not_eq_true'] at hfound
  obtain ⟨hpseudo, hagrees⟩ := hfound
  have hcheck : recordCheck opcode.record = true := by
    have hall := List.all_eq_true.mp recordCheck_all opcode (List.mem_of_find?_eq_some hfind)
    rwa [hpseudo, Bool.false_or] at hall
  have hload : isSymbolLoad ⟨opcode, l⟩ = false := by
    have hne : opcode ≠ .pseudoSETRD := by
      rintro rfl
      exact Bool.false_ne_true hpseudo.symm
    cases hop : l[1]? with
    | none => simp [isSymbolLoad, MCInst.getOperand, hne, hop]
    | some op =>
      cases op with
      | expr e => exact absurd (List.mem_of_getElem? hop) (notExpr_decodeOperands hl e)
      | reg r => simp [isSymbolLoad, MCInst.getOperand, hne, hop]
      | imm v => simp [isSymbolLoad, MCInst.getOperand, hne, hop]
  have henc := encodeOperands_eq opcode hcheck hl
  rw [encodeInstruction, hload]
  simp only [Bool.false_eq_true, if_false, getBinaryCodeForInstr, hpseudo, henc]
  by_cases hgood : opcode.record.isMultiple = false ∧ (opcode.record.isWyde = true → addsUnencoded = true)
  · have hword : Fields.insert opcode.record.word
        (fun name => ((fieldValues opcode.record w opcode.record.operands).lookup name).getD 0) = w := by
      obtain ⟨hproper, hnames⟩ := proper_of_recordCheck hcheck
      refine insert_extract hproper hagrees fun a i hi => ?_
      rw [lookup_fieldValues (hnames a i hi) (shows_of_mem hi)]
      rfl
    refine iff_of_true ?_ hgood
    simp only [if_pos hgood, Option.bind_eq_bind, Option.bind_some, Option.pure_def, hword]
  · refine iff_of_false ?_ hgood
    simp only [if_neg hgood, Option.bind_eq_bind, Option.bind_none]
    exact fun h => nomatch h

/-- The round trip of `add rd1, rd2, rd4, rd4`. -/
theorem encode_decode_add : ∃ inst, decodeInstruction false 0x1A042104#32 = some inst ∧
    (encodeInstruction inst = some ([0x1A042104#32], []) ↔
      inst.opcode.record.isMultiple = false ∧ (inst.opcode.record.isWyde = true → false = true)) := by
  have hinst : decodeInstruction false 0x1A042104#32 =
      some ⟨.addRrrr, [.reg (.rd 1), .reg (.rd 2), .reg (.rd 4), .reg (.rd 4)]⟩ := by
    decide +kernel
  exact ⟨_, hinst, encode_decode_iff hinst⟩

/-- **A multiple load is decoded to two of its three operands**, in either way the decoder is generated. -/
theorem not_encode_decode : ¬ ∀ (addsUnencoded : Bool) (w : BitVec 32) (inst : MCInst),
    decodeInstruction addsUnencoded w = some inst → encodeInstruction inst = some ([w], []) := by
  intro h
  have hinst : decodeInstruction true 0x34041080#32 =
      some ⟨.ldmbsRrri, [.reg (.rd 1), .reg (.rb 1), .reg (.rd 2)]⟩ := by
    decide +kernel
  have henc : encodeInstruction ⟨.ldmbsRrri, [.reg (.rd 1), .reg (.rb 1), .reg (.rd 2)]⟩ = none := by
    decide +kernel
  have hround := h true 0x34041080#32 _ hinst
  rw [henc] at hround
  exact nomatch hround

end Dadao.Llvm
