import Dadao.Bfd.FinalLink
import Dadao.Llvm.CodeEmitter

set_option relaxedAutoImplicit false
set_option autoImplicit false

/-!
# Linking LLVM objects

The fixups of the LLVM code emitter, the relocations `DadaoELFObjectWriter.cpp` makes of them, and what the
linker of binutils makes of these. A reference to a symbol is known by what refers to it: an operand of an
instruction, the instruction for the address of a symbol, or data.

The relocation of an operand other than the target of a jump or call has no number, has the number of an
8-bit or 16-bit relocation of data, or expands to four instructions where there is one.

## Main definitions

* `Dadao.Llvm.getRelocType` — the number of the relocation for a fixup.
* `Dadao.Llvm.references` — the fixups of an instruction with what refers to the symbol.
* `Dadao.Llvm.Reference.Created` — the references there are.
* `Dadao.Llvm.LinksRight` — what a reference is for.

## Main results

* `Dadao.Llvm.map_snd_references` — these are the fixups the code emitter creates.
* `Dadao.Llvm.linksRight_iff` — which references are linked right.
-/

namespace Dadao.Llvm

open Fields Bfd

/-! ## Relocations -/

/-- `getRelocType`, with the numbers of `ELFRelocs/Dadao.def`. `none` is `llvm_unreachable`. -/
def getRelocType (kind : FixupKind) (_isPCRel : Bool) : Option ℕ :=
  match kind with
  | .dadao21 => some 1
  | .dadao21F => some 2
  | .dadao25 => some 16
  | .dadao32 | .data4 => some 4
  | .data8 => some 5
  | .hi16 => some 7
  | .lo16 => some 6
  | .abs => some 13
  | .none => some 0
  | .dadao18 | .dadao12 | .data1 | .data2 => none

/-- The offset `recordRelocation` records: the linker patches the word before it for `R_DADAO_25` and
`R_DADAO_ABS`. -/
def recordedOffset (type : ℕ) (fixupOffset : BitVec 64) : BitVec 64 :=
  if type = 16 ∨ type = 13 then fixupOffset + 4 else fixupOffset

/-! ## References -/

/-- What refers to a symbol. -/
inductive Referent where
  | operand (opcode : Opcode) (op : Operand)
  | address (rd : Register)
  | data (size : ℕ) (pcRel : Bool)
  deriving DecidableEq, Repr

/-- A reference: the words it is in, its fixup, and what refers to the symbol. -/
structure Reference where
  words : List (BitVec 32)
  fixup : MCFixup
  referent : Referent
  deriving DecidableEq, Repr

/-- The fixups of the operands. -/
def operandReferences (opcode : Opcode) (word : Format FieldName) (operands : List MCOperand) :
    List Operand → ℕ → List (Operand × MCFixup)
  | [], _ => []
  | op :: ops, opNo =>
    let own := if shows word op.name then
        ((encodeOperand opcode operands opNo op.cls).map Prod.snd).getD []
      else []
    own.map (op, ·) ++ operandReferences opcode word operands ops (opNo + op.cls.numOperands)

/-- **The fixups of an instruction** with what refers to the symbol. -/
def references (inst : MCInst) : List (Referent × MCFixup) :=
  if isSymbolLoad inst then
    match inst.getOperand 0, inst.getOperand 1 with
    | some (.reg rd), some (.expr e) => [(.address rd, ⟨0, e, .abs⟩)]
    | _, _ => []
  else
    (operandReferences inst.opcode inst.opcode.record.word inst.operands inst.opcode.record.operands 0).map
      fun p => (.operand inst.opcode p.1, p.2)

/-- The numbers of the operands of a register class. -/
def registerOperands : List Operand → ℕ → List ℕ
  | [], _ => []
  | op :: ops, opNo =>
    let rest := registerOperands ops (opNo + op.cls.numOperands)
    match op.cls with
    | .reg _ => opNo :: rest
    | _ => rest

/-- The operands of a register class are registers, but for the symbol whose address is loaded. -/
def MCInst.Typed (inst : MCInst) : Prop :=
  ∀ i ∈ registerOperands inst.opcode.record.operands 0,
    (∃ r, inst.getOperand i = some (.reg r)) ∨ isSymbolLoad inst = true ∧ i = 1

/-- The fixup kind of data by its size. -/
def dataFixupKind : ℕ → Option FixupKind
  | 1 => some .data1
  | 2 => some .data2
  | 4 => some .data4
  | 8 => some .data8
  | _ => none

/-- **The references there are**: those of an instruction, and data. -/
def Reference.Created (r : Reference) : Prop :=
  match r.referent with
  | .data size _ => r.words = [] ∧ r.fixup.offset = 0 ∧ dataFixupKind size = some r.fixup.kind
  | _ => ∃ inst fixups, inst.Typed ∧ encodeInstruction inst = some (r.words, fixups) ∧
      (r.referent, r.fixup) ∈ references inst

/-! ## Linking -/

/-- A section with a reference: where the section goes, its contents with the words of the reference at an
offset, the addend and the symbol. -/
structure Site (ws : List (BitVec 32)) where
  place : Placement
  contents : Memory
  off : BitVec 64
  rAddend : BitVec 64
  symbol : BitVec 64
  holds : Holds contents off ws

namespace Site

variable {ws : List (BitVec 32)} (c : Site ws)

/-- The address referred to. -/
def addr : BitVec 64 := c.symbol + c.rAddend

/-- The address of the reference. -/
def pc : BitVec 64 := c.place.vma + c.place.outputOffset + c.off

/-- The distance from the reference to the address. -/
def distance : BitVec 64 := c.addr - c.pc

end Site

/-- The class is that of a target. -/
def OperandClass.isTarget : OperandClass → Bool
  | .brTarget | .callTarget => true
  | _ => false

/-- The width of the field of a target. -/
def targetBits : FieldName → ℕ
  | .imm24 => 24
  | .imm18 => 18
  | _ => 12

/-- The number of low bits of an operand that an expression stands for: the offset of a memory operand. -/
def OperandClass.exprBits : OperandClass → ℕ
  | .memRRII => 12
  | _ => 32

/-- The value an operand stands for. -/
def operandValue {ws : List (BitVec 32)} (op : Operand) (kind : FixupKind) (c : Site ws) : BitVec 64 :=
  if op.cls.isTarget then c.distance >>> 2
  else if kind = .hi16 then c.addr >>> 16
  else c.addr

/-- The word with the field of an operand set. -/
def patchField (word : Format FieldName) (op : Operand) (v : BitVec 64) (w : BitVec 32) : BitVec 32 :=
  ofBits 32 fun p => match word[p]? with
    | some (.var name i) =>
      if name = op.name ∧ i < op.cls.exprBits then v.getLsbD i else w.getLsbD p
    | _ => w.getLsbD p

/-- The contents of a section after the reference has been filled in: the field of the instruction, the words
for the address, or the bytes of the data, and nothing else. -/
def Reference.Filled (r : Reference) (c : Site r.words) (m : Memory) : Prop :=
  match r.referent with
  | .operand opcode op => ∃ w, r.words = [w] ∧
      Patched c.contents m c.off [patchField opcode.record.word op (operandValue op r.fixup.kind c) w]
  | .address rd => Patched c.contents m c.off (addressWords (getDadaoRegisterNumbering rd) c.addr)
  | .data size pcRel => PatchedBytes c.contents m c.off size (if pcRel then c.distance else c.addr)

/-- The target of a branch is out of reach: such a reference cannot be filled in. -/
def Reference.OutOfReach (r : Reference) (c : Site r.words) : Prop :=
  match r.referent with
  | .operand _ op => op.cls.isTarget = true ∧ ¬ (c.distance.toNat % 4 = 0 ∧
      -2 ^ (targetBits op.name + 1) ≤ c.distance.toInt ∧ c.distance.toInt < 2 ^ (targetBits op.name + 1))
  | _ => False

/-- The section after the link, with the status. -/
def Reference.link (env : LinkEnv) (r : Reference) (c : Site r.words) : Option (LinkStatus × Memory) := do
  let isPCRel := match r.referent with
    | .operand _ op => op.cls.isTarget
    | .address _ => false
    | .data _ pcRel => pcRel
  let type ← getRelocType r.fixup.kind isPCRel
  let off := recordedOffset type (c.off + BitVec.ofNat 64 r.fixup.offset)
  finalLinkRelocate env type c.place c.contents off c.rAddend c.symbol

/-- **What a reference is for**: there is a relocation for it and the linker fills in the reference, or leaves
the section alone and says so where the target is out of reach. -/
def LinksRight (env : LinkEnv) (r : Reference) (c : Site r.words) : Prop :=
  ∃ status m, r.link env c = some (status, m) ∧
    (r.Filled c m ∨ status ≠ .ok ∧ m = c.contents ∧ r.OutOfReach c)

/-- The reference is the address of a symbol. -/
def Reference.isAddress (r : Reference) : Bool :=
  match r.referent with
  | .address _ => true
  | _ => false

/-- **The references that are linked right**: targets of jumps and calls, addresses of symbols, and absolute data
of four or eight bytes. -/
def Reference.Linkable (r : Reference) : Prop :=
  match r.referent with
  | .operand _ _ => r.fixup.kind = .dadao25
  | .address _ => True
  | .data size pcRel => (size = 4 ∨ size = 8) ∧ pcRel = false

/-! ## The fixups of the code emitter -/

/-- **The references of the operands** are the fixups of the operands. -/
lemma map_snd_operandReferences {opcode : Opcode} {word : Format FieldName} {operands : List MCOperand}
    {ops : List Operand} {opNo : ℕ} {vs : List (FieldName × BitVec 32)} {fixups : List MCFixup}
    (h : encodeOperands opcode word operands ops opNo = some (vs, fixups)) :
    (operandReferences opcode word operands ops opNo).map Prod.snd = fixups := by
  induction ops generalizing opNo vs fixups with
  | nil =>
    cases h
    rfl
  | cons op ops ih =>
    rw [encodeOperands] at h
    rw [operandReferences, List.map_append, List.map_map]
    by_cases hshows : shows word op.name = true
    · rw [if_pos hshows] at h ⊢
      simp only [Option.bind_eq_bind, Option.bind_eq_some_iff, Prod.exists] at h
      obtain ⟨v, own, hown, vs', rest, hrest, heq⟩ := h
      cases heq
      rw [ih hrest, hown]
      congr 1
      exact List.map_id own
    · rw [if_neg hshows] at h ⊢
      rw [ih h]
      rfl

/-- The fixups of an operand. -/
lemma mem_operandReferences {opcode : Opcode} {word : Format FieldName} {operands : List MCOperand}
    {ops : List Operand} {opNo : ℕ} {op : Operand} {f : MCFixup}
    (h : (op, f) ∈ operandReferences opcode word operands ops opNo) :
    op ∈ ops ∧ shows word op.name = true ∧
      ∃ opNo' v fixups, encodeOperand opcode operands opNo' op.cls = some (v, fixups) ∧ f ∈ fixups := by
  induction ops generalizing opNo with
  | nil => exact absurd h List.not_mem_nil
  | cons op' ops ih =>
    rw [operandReferences] at h
    rcases List.mem_append.mp h with h | h
    · obtain ⟨f', hf', heq⟩ := List.mem_map.mp h
      cases heq
      split_ifs at hf' with hshows
      · cases hv : encodeOperand opcode operands opNo op.cls with
        | none =>
          rw [hv] at hf'
          exact absurd hf' List.not_mem_nil
        | some res =>
          rw [hv] at hf'
          exact ⟨List.mem_cons_self, hshows, opNo, res.1, res.2, hv, hf'⟩
      · exact absurd hf' List.not_mem_nil
    · obtain ⟨hmem, hrest⟩ := ih h
      exact ⟨List.mem_cons_of_mem _ hmem, hrest⟩

/-- The fixup of an expression. -/
lemma mem_getMachineOpValue {op : MCOperand} {v : BitVec 32} {fixups : List MCFixup} {f : MCFixup}
    (h : getMachineOpValue op = some (v, fixups)) (hf : f ∈ fixups) :
    f.offset = 0 ∧ (f.kind = .abs ∨ f.kind = .hi16 ∨ f.kind = .lo16) := by
  cases op with
  | reg r =>
    cases h
    exact absurd hf List.not_mem_nil
  | imm v =>
    cases h
    exact absurd hf List.not_mem_nil
  | expr e =>
    rw [getMachineOpValue] at h
    split at h
    · rename_i name heq
      cases h
      rw [List.mem_singleton.mp hf, heq]
      exact ⟨rfl, .inl rfl⟩
    · rename_i kind sub heq
      cases h
      rw [List.mem_singleton.mp hf, heq]
      refine ⟨rfl, ?_⟩
      cases kind
      · exact .inl rfl
      · exact .inr (.inl rfl)
      · exact .inr (.inr rfl)
    · exact absurd h (by simp)

/-- **The fixups of an operand**: of the kind of the instruction for a target, else `ABS`, `HI16` or `LO16`. -/
lemma mem_encodeOperand {opcode : Opcode} {operands : List MCOperand} {opNo : ℕ} {cls : OperandClass}
    {v : BitVec 32} {fixups : List MCFixup} {f : MCFixup}
    (h : encodeOperand opcode operands opNo cls = some (v, fixups)) (hf : f ∈ fixups) :
    f.offset = 0 ∧ (cls.isTarget = true → f.kind = branchFixup opcode ∧ v = 0) ∧
      (cls.isTarget = false → f.kind = .abs ∨ f.kind = .hi16 ∨ f.kind = .lo16) := by
  have hplain : ∀ {i : ℕ}, (operands[i]?.bind fun op => getMachineOpValue op) = some (v, fixups) →
      f.offset = 0 ∧ (f.kind = .abs ∨ f.kind = .hi16 ∨ f.kind = .lo16) := by
    intro i h
    obtain ⟨op, -, h⟩ := Option.bind_eq_some_iff.mp h
    exact mem_getMachineOpValue h hf
  have htarget : getBranchTargetOpValue opcode operands opNo = some (v, fixups) →
      f.offset = 0 ∧ f.kind = branchFixup opcode ∧ v = 0 := by
    intro h
    rw [getBranchTargetOpValue, Option.bind_eq_bind, Option.bind_eq_some_iff] at h
    obtain ⟨op, -, h⟩ := h
    cases op with
    | expr e =>
      cases h
      rw [List.mem_singleton.mp hf]
      exact ⟨rfl, rfl, rfl⟩
    | reg r =>
      cases h
      exact absurd hf List.not_mem_nil
    | imm v =>
      cases h
      exact absurd hf List.not_mem_nil
  cases cls with
  | brTarget => exact ⟨(htarget h).1, fun _ => (htarget h).2, by simp [OperandClass.isTarget]⟩
  | callTarget => exact ⟨(htarget h).1, fun _ => (htarget h).2, by simp [OperandClass.isTarget]⟩
  | memRRII =>
    simp only [encodeOperand, getRRIIMemoryOpValue, Option.bind_eq_bind, Option.bind_eq_some_iff] at h
    obtain ⟨op1, -, op2, -, h⟩ := h
    split at h
    · split_ifs at h
      cases h
      exact absurd hf List.not_mem_nil
    · obtain ⟨⟨v', fixups'⟩, hv, heq⟩ := Option.bind_eq_some_iff.mp h
      cases heq
      obtain ⟨hoff, hkind⟩ := mem_getMachineOpValue hv hf
      exact ⟨hoff, by simp [OperandClass.isTarget], fun _ => hkind⟩
    · exact absurd h (by simp)
  | memRRRI =>
    simp only [encodeOperand, getRRRIMemoryOpValue, Option.bind_eq_bind, Option.bind_eq_some_iff] at h
    obtain ⟨op1, -, op2, -, op3, -, h⟩ := h
    split at h
    · cases h
      exact absurd hf List.not_mem_nil
    · exact absurd h (by simp)
  | reg c => exact ⟨(hplain h).1, by simp [OperandClass.isTarget], fun _ => (hplain h).2⟩
  | imm c => exact ⟨(hplain h).1, by simp [OperandClass.isTarget], fun _ => (hplain h).2⟩
  | wposPred k => exact ⟨(hplain h).1, by simp [OperandClass.isTarget], fun _ => (hplain h).2⟩
  | bareSymbol => exact ⟨(hplain h).1, by simp [OperandClass.isTarget], fun _ => (hplain h).2⟩

/-- The words of an instruction that does not stand for an address. -/
lemma encodeInstruction_of_not_isSymbolLoad {inst : MCInst} {ws : List (BitVec 32)} {fixups : List MCFixup}
    (h : encodeInstruction inst = some (ws, fixups)) (hload : isSymbolLoad inst = false) :
    ∃ w, ws = [w] ∧ getBinaryCodeForInstr inst = some (w, fixups) := by
  rw [encodeInstruction, if_neg (by rw [hload]; decide), Option.bind_eq_bind, Option.bind_eq_some_iff] at h
  obtain ⟨⟨w, fixups'⟩, hw, heq⟩ := h
  cases heq
  exact ⟨w, rfl, hw⟩

/-- The operands whose values are encoded. -/
lemma getBinaryCodeForInstr_eq_some {inst : MCInst} {w : BitVec 32} {fixups : List MCFixup}
    (h : getBinaryCodeForInstr inst = some (w, fixups)) : ∃ vs,
      encodeOperands inst.opcode inst.opcode.record.word inst.operands inst.opcode.record.operands 0 =
        some (vs, fixups) ∧
      w = Fields.insert inst.opcode.record.word fun name => (vs.lookup name).getD 0 := by
  rw [getBinaryCodeForInstr] at h
  simp only at h
  split_ifs at h
  rw [Option.bind_eq_bind, Option.bind_eq_some_iff] at h
  obtain ⟨⟨vs, fixups'⟩, hvs, heq⟩ := h
  cases heq
  exact ⟨vs, hvs, rfl⟩

/-- The destination of a symbol load is its first operand. -/
lemma mem_registerOperands_of_isSymbolLoad {inst : MCInst} (h : isSymbolLoad inst = true) :
    0 ∈ registerOperands inst.opcode.record.operands 0 := by
  rw [isSymbolLoad, Bool.or_eq_true, Bool.and_eq_true] at h
  rcases h with h | ⟨h, -⟩
  · rw [eq_of_beq h]
    decide
  · rw [eq_of_beq h]
    decide

lemma getDadaoRegisterNumbering_lt (r : Register) : getDadaoRegisterNumbering r < 64 := by
  cases r with
  | rd n => exact n.isLt
  | rb n => exact n.isLt
  | ra n => exact n.isLt
  | _ => decide

/-- The first word of a symbol load. -/
lemma getBinaryCodeForInstr_setzw (rd : Register) :
    getBinaryCodeForInstr ⟨.setzwRwiiW0, [.reg rd, .imm 0, .imm 0]⟩ =
      some (rwii 0x16 (getDadaoRegisterNumbering rd) 0 0, []) := by
  have hword : ∀ n < 64, Fields.insert (Opcode.setzwRwiiW0.record.word) (fun name =>
      (([(.rxHa, BitVec.ofNat 32 n), (.imm16, 0)] : List (FieldName × BitVec 32)).lookup name).getD 0) =
        rwii 0x16 n 0 0 := by
    decide +kernel
  rw [← hword _ (getDadaoRegisterNumbering_lt rd)]
  rfl

lemma getBinaryCodeForInstr_swym : getBinaryCodeForInstr ⟨.swymOiii, [.imm 0]⟩ = some (insnSwym, []) := by
  have hword : Fields.insert Opcode.swymOiii.record.word (fun name =>
      (([(.imm18, 0)] : List (FieldName × BitVec 32)).lookup name).getD 0) = insnSwym := by
    decide +kernel
  rw [← hword]
  rfl

/-- **The code for the address of a symbol.** -/
lemma encodeInstruction_of_isSymbolLoad {inst : MCInst} {ws : List (BitVec 32)} {fixups : List MCFixup}
    (htyped : inst.Typed) (h : encodeInstruction inst = some (ws, fixups)) (hload : isSymbolLoad inst = true) :
    ∃ rd e, references inst = [(.address rd, ⟨0, e, .abs⟩)] ∧ fixups = [⟨0, e, .abs⟩] ∧
      ws = [rwii 0x16 (getDadaoRegisterNumbering rd) 0 0, insnSwym, insnSwym, insnSwym] := by
  obtain ⟨rd, hrd⟩ : ∃ rd, inst.getOperand 0 = some (.reg rd) := by
    rcases htyped 0 (mem_registerOperands_of_isSymbolLoad hload) with h | ⟨-, h⟩
    · exact h
    · exact absurd h (by omega)
  rw [encodeInstruction, if_pos hload, hrd] at h
  cases hsrc : inst.getOperand 1 with
  | none =>
    rw [hsrc] at h
    exact absurd h (by simp)
  | some op =>
    rw [hsrc] at h
    cases op with
    | expr e =>
      simp only [getBinaryCodeForInstr_setzw, getBinaryCodeForInstr_swym, Option.bind_eq_bind,
        Option.bind_some, Option.pure_def, Option.some.injEq, Prod.mk.injEq] at h
      refine ⟨rd, e, ?_, h.2.symm, h.1.symm⟩
      simp only [references, hload, if_true, hrd, hsrc]
    | reg r => exact absurd h (by simp)
    | imm v => exact absurd h (by simp)

/-- **The references of an instruction** are the fixups the code emitter creates. -/
theorem map_snd_references {inst : MCInst} {ws : List (BitVec 32)} {fixups : List MCFixup}
    (htyped : inst.Typed) (h : encodeInstruction inst = some (ws, fixups)) :
    (references inst).map Prod.snd = fixups := by
  cases hload : isSymbolLoad inst with
  | true =>
    obtain ⟨rd, e, href, hfixups, -⟩ := encodeInstruction_of_isSymbolLoad htyped h hload
    rw [href, hfixups]
    rfl
  | false =>
    obtain ⟨w, -, hw⟩ := encodeInstruction_of_not_isSymbolLoad h hload
    obtain ⟨vs, hvs, -⟩ := getBinaryCodeForInstr_eq_some hw
    rw [references, if_neg (by rw [hload]; decide), List.map_map, ← map_snd_operandReferences hvs]
    rfl

/-! ## Operands -/

/-- The instructions whose target takes `R_DADAO_25`. -/
lemma branchFixup_eq_dadao25 {opcode : Opcode} {op : Operand} (hop : op ∈ opcode.record.operands)
    (htarget : op.cls.isTarget = true) (hkind : branchFixup opcode = .dadao25) :
    (opcode = .jumpIiii ∧ op = ⟨.imm24, .brTarget⟩) ∨ (opcode = .callIiii ∧ op = ⟨.imm24, .callTarget⟩) := by
  have hnone : ∀ o : Opcode, o ≠ .jumpIiii → o ≠ .callIiii → branchFixup o = .dadao25 →
      (o.record.operands.any fun op => op.cls.isTarget) = false := by
    intro o
    cases o <;> decide
  by_cases hjump : opcode = .jumpIiii
  · subst hjump
    exact .inl ⟨rfl, List.mem_singleton.mp hop⟩
  by_cases hcall : opcode = .callIiii
  · subst hcall
    exact .inr ⟨rfl, List.mem_singleton.mp hop⟩
  have hany := hnone opcode hjump hcall hkind
  rw [List.any_eq_false] at hany
  exact absurd htarget (hany op hop)

/-- What is known of the reference of an operand. -/
structure OperandReference (r : Reference) (opcode : Opcode) (op : Operand) (w : BitVec 32) : Prop where
  words : r.words = [w]
  offset : r.fixup.offset = 0
  mem : op ∈ opcode.record.operands
  ofTarget : op.cls.isTarget = true → r.fixup.kind = branchFixup opcode
  ofNotTarget : op.cls.isTarget = false → r.fixup.kind = .abs ∨ r.fixup.kind = .hi16 ∨ r.fixup.kind = .lo16
  word : r.fixup.kind = .dadao25 → w = Fields.insert opcode.record.word fun _ => 0

lemma operandReference_of_created {r : Reference} (hr : r.Created) {opcode : Opcode} {op : Operand}
    (href : r.referent = .operand opcode op) : ∃ w, OperandReference r opcode op w := by
  rw [Reference.Created, href] at hr
  obtain ⟨inst, fixups, htyped, henc, hmem⟩ := hr
  cases hload : isSymbolLoad inst with
  | true =>
    obtain ⟨rd, e, hrefs, -, -⟩ := encodeInstruction_of_isSymbolLoad htyped henc hload
    rw [hrefs, List.mem_singleton] at hmem
    exact absurd (Prod.mk.inj hmem).1 (by simp)
  | false =>
    obtain ⟨w, hwords, hw⟩ := encodeInstruction_of_not_isSymbolLoad henc hload
    obtain ⟨vs, hvs, hword⟩ := getBinaryCodeForInstr_eq_some hw
    rw [references, if_neg (by rw [hload]; decide)] at hmem
    obtain ⟨⟨op', f⟩, hop, heq⟩ := List.mem_map.mp hmem
    obtain ⟨href', hf⟩ := Prod.mk.inj heq
    obtain ⟨hopcode, hop'⟩ := Referent.operand.inj href'
    subst hopcode hop' hf
    obtain ⟨hops, hshows, opNo, v, fs, hop, hf⟩ := mem_operandReferences hop
    obtain ⟨hoff, htarget, hplain⟩ := mem_encodeOperand hop hf
    refine ⟨w, hwords, hoff, hops, fun h => (htarget h).1, hplain, fun hkind => ?_⟩
    have hcls : op'.cls.isTarget = true := by
      by_contra hne
      rw [Bool.not_eq_true] at hne
      rcases hplain hne with h | h | h <;> rw [h] at hkind <;> exact absurd hkind (by decide)
    -- the target is the only operand
    have hsingle : inst.opcode.record.operands = [op'] ∧ shows inst.opcode.record.word op'.name = true := by
      rcases branchFixup_eq_dadao25 hops hcls ((htarget hcls).1.symm.trans hkind) with ⟨h, hop'⟩ | ⟨h, hop'⟩
      · rw [h, hop']
        exact ⟨rfl, rfl⟩
      · rw [h, hop']
        exact ⟨rfl, rfl⟩
    have hfixups := map_snd_references htyped henc
    rw [references, if_neg (by rw [hload]; decide)] at hfixups
    have hmemf : r.fixup ∈ fixups := by
      rw [← hfixups]
      exact List.mem_map.mpr ⟨_, hmem, rfl⟩
    rw [hsingle.1, encodeOperands, if_pos hsingle.2] at hvs
    simp only [encodeOperands, Option.bind_eq_bind, Option.bind_some, Option.pure_def, Option.bind_eq_some_iff,
      Prod.exists, List.append_nil, Option.some.injEq, Prod.mk.injEq] at hvs
    obtain ⟨v', own, hown, hvs', rfl⟩ := hvs
    have hzero := ((mem_encodeOperand hown hmemf).2.1 hcls).2
    rw [hword, ← hvs', hzero]
    congr 1
    funext name
    rw [List.lookup_cons]
    cases name == op'.name <;> rfl

/-! ## References that are linked right -/

/-- The format of jumps and calls. -/
lemma getElem?_instIIII {majorop p : ℕ} (hp : p < 32) : (instIIII majorop)[p]? =
    if p < 24 then some (.var .imm24 p) else some (.const (majorop.testBit (p - 24))) := by
  have hlow : (instIIII majorop)[p]? = (varBits .imm24 0 24 ++ constBits 8 majorop : Format FieldName)[p]? :=
    rfl
  rw [hlow]
  by_cases h24 : p < 24
  · rw [if_pos h24, List.getElem?_append_left (by simpa [varBits] using h24)]
    simp [varBits, h24]
  · rw [if_neg h24, List.getElem?_append_right (by simpa [varBits] using h24)]
    have hlt : p - 24 < 8 := by omega
    simp [varBits, constBits, hlt]

/-- The patch of a jump or call sets its field. -/
lemma patchField_instIIII {majorop : ℕ} {cls : OperandClass} (hcls : cls.isTarget = true) (v : BitVec 64) :
    let w : BitVec 32 := Fields.insert (instIIII majorop) fun _ => 0
    (w.setWidth 64 ||| v &&& 0xffffff#64).setWidth 32 = patchField (instIIII majorop) ⟨.imm24, cls⟩ v w := by
  intro w
  have hbits : cls.exprBits = 32 := by
    cases cls <;> first | rfl | exact absurd hcls (by decide)
  apply BitVec.eq_of_getLsbD_eq
  intro p hp
  have hmask : (0xffffff#64).getLsbD p = decide (p < 24) := by
    rw [show (0xffffff#64) = BitVec.ofNat 64 (2 ^ 24 - 1) from rfl, BitVec.getLsbD_ofNat, Nat.testBit_two_pow_sub_one]
    simp
    omega
  have hzero : p < 24 → w.getLsbD p = false := by
    intro h24
    simp only [w, Fields.insert, getLsbD_ofBits, getElem?_instIIII hp, h24, if_true]
    simp
  simp only [patchField, getLsbD_ofBits, getElem?_instIIII hp, hbits, BitVec.getLsbD_setWidth, BitVec.getLsbD_or,
    BitVec.getLsbD_and, hmask, hp, decide_true, Bool.true_and]
  by_cases h24 : p < 24
  · simp only [h24, hzero h24, hp, decide_true, if_true, Bool.and_false, Bool.false_or, Bool.and_true, and_self]
  · have h64 : p < 64 := by omega
    simp only [h24, h64, decide_true, decide_false, if_false, Bool.and_false, Bool.or_false, Bool.true_and]

section Right

variable (env : LinkEnv) {r : Reference} (c : Site r.words)

/-- **Jumps and calls** are linked right. -/
lemma linksRight_target {opcode : Opcode} {op : Operand} {w : BitVec 32}
    (href : r.referent = .operand opcode op) (hop : OperandReference r opcode op w)
    (hkind : r.fixup.kind = .dadao25) : LinksRight env r c := by
  have hcls : op.cls.isTarget = true := by
    by_contra hne
    rw [Bool.not_eq_true] at hne
    rcases hop.ofNotTarget hne with h | h | h <;> rw [h] at hkind <;> exact absurd hkind (by decide)
  obtain ⟨majorop, cls, hword, hopeq⟩ : ∃ majorop cls, opcode.record.word = instIIII majorop ∧
      op = ⟨.imm24, cls⟩ := by
    rcases branchFixup_eq_dadao25 hop.mem hcls ((hop.ofTarget hcls).symm.trans hkind) with ⟨h, h'⟩ | ⟨h, h'⟩
    · exact ⟨_, _, by rw [h]; rfl, h'⟩
    · exact ⟨_, _, by rw [h]; rfl, h'⟩
  have hwAt : wordAt c.contents c.off = w := holds_singleton.mp (hop.words ▸ c.holds)
  have hzero : BitVec.ofNat 64 0 = 0 := rfl
  have hoff : c.off + BitVec.ofNat 64 r.fixup.offset + 4 - 4 = c.off := by
    rw [hop.offset, hzero]
    ring
  have hvalue : c.symbol + c.rAddend - (c.place.vma + c.place.outputOffset +
      (c.off + BitVec.ofNat 64 r.fixup.offset + 4)) + 4 = c.distance := by
    rw [hop.offset, Site.distance, Site.addr, Site.pc, hzero]
    ring
  have hlink : r.link env c = some ((patchPcRelative env.ov 26
      (fun insn => insn ||| c.distance >>> 2 &&& 0xffffff#64) c.contents c.off c.distance).1.toLinkStatus,
      (patchPcRelative env.ov 26
      (fun insn => insn ||| c.distance >>> 2 &&& 0xffffff#64) c.contents c.off c.distance).2) := by
    rw [Reference.link, href, hkind]
    simp only [getRelocType, recordedOffset, finalLinkRelocate, elfDadaoHowtoTable, List.getElem?_cons_succ,
      List.getElem?_cons_zero, Option.map_some, Option.bind_eq_bind, Option.bind_some, true_or, if_true,
      dadaoFinalLinkRelocate, dadaoElfPerformRelocation, hoff, hvalue]
    rfl
  refine ⟨_, _, hlink, ?_⟩
  have hreach : ¬ (c.distance.toNat % 4 = 0 ∧ -2 ^ 25 ≤ c.distance.toInt ∧ c.distance.toInt < 2 ^ 25) →
      r.OutOfReach c := by
    intro hout
    rw [Reference.OutOfReach, href]
    refine ⟨hcls, ?_⟩
    rw [hopeq]
    exact hout
  rw [patchPcRelative]
  by_cases halign : c.distance &&& 3 ≠ 0
  · rw [if_pos halign]
    refine .inr ⟨by simp [RelocStatus.toLinkStatus], rfl, hreach ?_⟩
    rintro ⟨hmod, -⟩
    refine halign (BitVec.eq_of_toNat_eq ?_)
    rw [Bits.toNat_and_mask _ _ 2 rfl]
    exact hmod
  · rw [if_neg halign]
    by_cases hok : env.ov.ok 26 c.distance = true
    · rw [if_pos hok]
      refine .inl ?_
      rw [Reference.Filled, href]
      refine ⟨w, hop.words, ?_⟩
      constructor
      · rw [holds_singleton, wordAt_bfdPut32, bfdGet32_eq, hwAt, operandValue, if_pos hcls, hopeq, hword,
          hop.word hkind, hword]
        rw [hopeq] at hcls
        exact patchField_instIIII hcls _
      · intro a ha
        rw [← wordOff_zero c.off] at ha ⊢
        exact bfdPut32_apply (by omega) (by rwa [wordOff_zero] at ha)
    · rw [if_neg hok]
      refine .inr ⟨by simp [RelocStatus.toLinkStatus], rfl, hreach ?_⟩
      rintro ⟨-, hlow, hhigh⟩
      exact hok ((env.ov.ok_iff 26 _ (by omega)).mpr (by omega))

/-- What is known of the address of a symbol. -/
lemma words_of_address {r : Reference} (hr : r.Created) {rd : Register} (href : r.referent = .address rd) :
    r.fixup.offset = 0 ∧ r.fixup.kind = .abs ∧ getDadaoRegisterNumbering rd < 0x40 ∧
      r.words = [rwii 0x16 (getDadaoRegisterNumbering rd) 0 0, insnSwym, insnSwym, insnSwym] := by
  rw [Reference.Created, href] at hr
  obtain ⟨inst, fixups, htyped, henc, hmem⟩ := hr
  cases hload : isSymbolLoad inst with
  | true =>
    obtain ⟨rd', e, hrefs, -, hwords⟩ := encodeInstruction_of_isSymbolLoad htyped henc hload
    rw [hrefs, List.mem_singleton] at hmem
    obtain ⟨hrd, hfixup⟩ := Prod.mk.inj hmem
    rw [Referent.address.inj hrd, hfixup]
    exact ⟨rfl, rfl, getDadaoRegisterNumbering_lt rd', hwords⟩
  | false =>
    rw [references, if_neg (by rw [hload]; decide)] at hmem
    obtain ⟨p, -, heq⟩ := List.mem_map.mp hmem
    exact absurd (Prod.mk.inj heq).1 (by simp)

/-- The link of the address of a symbol. -/
lemma link_address {rd : Register} (hr : r.Created) (href : r.referent = .address rd) : r.link env c =
    some (.ok, (symbolCode c.place c.contents c.off c.rAddend c.symbol
      (getDadaoRegisterNumbering rd)).linked env.ov env.junk) := by
  obtain ⟨hoff, hkind, hlt, hwords⟩ := words_of_address hr href
  have hzero : c.off + BitVec.ofNat 64 0 = c.off := BitVec.add_zero _
  rw [← finalLinkRelocate_abs c.place hlt (hwords ▸ c.holds), Reference.link, href, hkind, hoff, hzero]
  rfl

/-- **The address of a symbol** is linked right but for the last 64 KiB. -/
lemma linksRight_address {rd : Register} (hr : r.Created) (href : r.referent = .address rd) :
    LinksRight env r c ↔ c.addr.toNat < 2 ^ 64 - 2 ^ 16 := by
  obtain ⟨-, -, hlt, hwords⟩ := words_of_address hr href
  have hfilled : ∀ m, r.Filled c m ↔
      Patched c.contents m c.off (addressWords (getDadaoRegisterNumbering rd) c.addr) := by
    intro m
    rw [Reference.Filled, href]
  constructor
  · rintro ⟨status, m, hlink, hright⟩
    rw [link_address env c hr href] at hlink
    obtain ⟨rfl, rfl⟩ := Prod.mk.inj (Option.some.inj hlink)
    by_contra hge
    rcases hright with hright | ⟨hne, -⟩
    · exact not_patched_abs c.place hlt (by rwa [Nat.not_lt] at hge) ((hfilled _).mp hright)
    · exact hne rfl
  · intro haddr
    exact ⟨_, _, link_address env c hr href,
      .inl ((hfilled _).mpr (patched_abs c.place hlt (hwords ▸ c.holds) haddr))⟩

/-- The link of data of a size with a relocation. -/
lemma link_data {size : ℕ} {pcRel : Bool} (hr : r.Created) (href : r.referent = .data size pcRel)
    (hsize : size = 4 ∨ size = 8) : ∃ status m, r.link env c = some (status, m) ∧
      PatchedBytes c.contents m c.off size c.addr := by
  rw [Reference.Created, href] at hr
  obtain ⟨-, hoff, hkind⟩ := hr
  have hzero : c.off + BitVec.ofNat 64 0 = c.off := BitVec.add_zero _
  have hsub : ∀ v : BitVec 64, v - 0 - 0 = v := fun v => by simp
  rw [Reference.link, href, hoff, hzero]
  rcases hsize with rfl | rfl
  · have hpatched := env.generic.patchedBytes (h := ⟨4, false, 0, 0xffffffff, false⟩) (by decide) rfl
      (by decide) c.place c.contents c.off c.rAddend c.symbol
    rw [← Option.some.inj hkind]
    refine ⟨_, _, rfl, ?_⟩
    simp only [Howto.relocation, Bool.false_and, Bool.false_eq_true, if_false, hsub] at hpatched
    exact hpatched
  · have hpatched := env.generic.patchedBytes (h := ⟨8, false, 0, BitVec.allOnes 64, false⟩) (by decide) rfl
      (by decide) c.place c.contents c.off c.rAddend c.symbol
    rw [← Option.some.inj hkind]
    refine ⟨_, _, rfl, ?_⟩
    simp only [Howto.relocation, Bool.false_and, Bool.false_eq_true, if_false, hsub] at hpatched
    exact hpatched

end Right

/-! ## References that are not -/

/-- A site for a word in an empty section. -/
def Site.ofWord {ws : List (BitVec 32)} {w : BitVec 32} (h : ws = [w]) (off symbol : BitVec 64) : Site ws where
  place := ⟨0, 0⟩
  contents := bfdPut32 (fun _ => 0) off (w.setWidth 64)
  off := off
  rAddend := 0
  symbol := symbol
  holds := by
    rw [h, holds_singleton, wordAt_bfdPut32]
    simp

/-- The word behind it is zero. -/
lemma Site.wordAt_next_ofWord {ws : List (BitVec 32)} {w : BitVec 32} (h : ws = [w]) (off symbol : BitVec 64) :
    wordAt (Site.ofWord h off symbol).contents (wordOff off 1) = 0 := by
  have hput := wordAt_bfdPut32_wordOff (fun _ => 0) off (w.setWidth 64) (show 0 < 4 by omega) (show 1 < 4 by omega)
  rw [wordOff_zero, if_neg (by omega)] at hput
  refine hput.trans ?_
  simp [wordAt, bfdGet32, Memory.load]

/-- A site for data. -/
def Site.ofData {ws : List (BitVec 32)} (h : ws = []) : Site ws where
  place := ⟨1, 0⟩
  contents := fun _ => 0
  off := 0
  rAddend := 0
  symbol := 0
  holds := by
    rw [h]
    intro k w hk
    simp at hk

section Wrong

variable (env : LinkEnv) {r : Reference}

/-- **A fixup without a number** is not linked. -/
lemma not_linksRight_of_none (h : ∀ isPCRel, getRelocType r.fixup.kind isPCRel = none) (c : Site r.words) :
    ¬ LinksRight env r c := by
  rintro ⟨status, m, hlink, -⟩
  rw [Reference.link, h] at hlink
  exact absurd hlink (by simp)

/-- **Relative data** gets the address itself. -/
lemma not_linksRight_pcRel {size : ℕ} (hr : r.Created) (href : r.referent = .data size true)
    (hsize : size = 4 ∨ size = 8) : ∃ c, ¬ LinksRight env r c := by
  have hwords : r.words = [] := by
    rw [Reference.Created, href] at hr
    exact hr.1
  refine ⟨Site.ofData hwords, ?_⟩
  rintro ⟨status, m, hlink, hright⟩
  obtain ⟨status', m', hlink', haddr⟩ := link_data env (Site.ofData hwords) hr href hsize
  rw [hlink'] at hlink
  obtain ⟨rfl, rfl⟩ := Prod.mk.inj (Option.some.inj hlink)
  rcases hright with hfilled | ⟨-, -, hout⟩
  · rw [Reference.Filled, href] at hfilled
    have heq := haddr.1.symm.trans hfilled.1
    have hzero : (Site.ofData hwords).addr = 0 := rfl
    have hdistance : (Site.ofData hwords).distance = -1 := rfl
    rw [if_pos rfl, hzero, hdistance] at heq
    rcases hsize with rfl | rfl <;> exact absurd heq (by decide)
  · rw [Reference.OutOfReach, href] at hout
    exact hout

variable {opcode : Opcode} {op : Operand} {w : BitVec 32}

/-- What has been filled in for an operand that is no target. -/
lemma filled_of_not_isTarget (href : r.referent = .operand opcode op) (hop : OperandReference r opcode op w)
    (hcls : op.cls.isTarget = false) {c : Site r.words} (h : LinksRight env r c) :
    ∃ status m, r.link env c = some (status, m) ∧ Patched c.contents m c.off
      [patchField opcode.record.word op (operandValue op r.fixup.kind c) w] := by
  obtain ⟨status, m, hlink, hright⟩ := h
  refine ⟨status, m, hlink, ?_⟩
  rcases hright with hfilled | ⟨-, -, hout⟩
  · rw [Reference.Filled, href] at hfilled
    obtain ⟨w', hw', hpatched⟩ := hfilled
    rw [hop.words, List.singleton_inj] at hw'
    rw [hw']
    exact hpatched
  · rw [Reference.OutOfReach, href] at hout
    obtain ⟨htarget, -⟩ := hout
    rw [hcls] at htarget
    exact absurd htarget (by decide)

/-- The link of `HI16` and `LO16`. -/
lemma link_half (href : r.referent = .operand opcode op) (hoff : r.fixup.offset = 0)
    (hkind : r.fixup.kind = .hi16 ∨ r.fixup.kind = .lo16) (c : Site r.words) :
    ∃ n status m, (n = 1 ∨ n = 2) ∧ r.link env c = some (status, m) ∧
      PatchedBytes c.contents m c.off n
        (c.symbol + c.rAddend - (c.place.vma + c.place.outputOffset) - c.off) := by
  have hzero : c.off + BitVec.ofNat 64 0 = c.off := BitVec.add_zero _
  rw [Reference.link, href, hoff, hzero]
  rcases hkind with hkind | hkind
  · rw [hkind]
    exact ⟨2, _, _, .inr rfl, rfl, env.generic.patchedBytes (h := ⟨2, true, 0, 0xffff, true⟩) (by decide) rfl
      (by decide) c.place c.contents c.off c.rAddend c.symbol⟩
  · rw [hkind]
    exact ⟨1, _, _, .inl rfl, rfl, env.generic.patchedBytes (h := ⟨1, true, 0, 0xff, true⟩) (by decide) rfl
      (by decide) c.place c.contents c.off c.rAddend c.symbol⟩

/-- **`HI16` and `LO16`** have the numbers of relative relocations of data: what they put down depends on where
the instruction is. -/
lemma not_linksRight_half (href : r.referent = .operand opcode op) (hop : OperandReference r opcode op w)
    (hcls : op.cls.isTarget = false) (hkind : r.fixup.kind = .hi16 ∨ r.fixup.kind = .lo16) :
    ∃ c, ¬ LinksRight env r c := by
  by_contra hall
  simp only [not_exists, not_not] at hall
  -- the low byte of the patched word, by the offset of the instruction
  have hbyte : ∀ off : BitVec 64,
      (patchField opcode.record.word op 0 w).toNat % 2 ^ 8 = (0 + 0 - (0 + 0) - off).toNat % 2 ^ 8 := by
    intro off
    obtain ⟨status, m, hlink, hpatched⟩ :=
      filled_of_not_isTarget env href hop hcls (hall (Site.ofWord hop.words off 0))
    obtain ⟨n, status', m', hn, hlink', hbytes⟩ := link_half env href hop.offset hkind (Site.ofWord hop.words off 0)
    rw [hlink] at hlink'
    obtain ⟨-, rfl⟩ := Prod.mk.inj (Option.some.inj hlink')
    have hvalue : operandValue op r.fixup.kind (Site.ofWord hop.words off 0) = 0 := by
      rw [operandValue, hcls]
      simp [Site.addr, Site.ofWord]
    rw [hvalue] at hpatched
    have hword : wordAt m off = _ := holds_singleton.mp hpatched.1
    have hload := hbytes.1
    change (m.load off n).toNat = (0 + 0 - (0 + 0) - off).toNat % 2 ^ (8 * n) at hload
    rw [toNat_load_of_le _ _ (by omega), hword] at hload
    rcases hn with rfl | rfl <;> omega
  exact absurd ((hbyte 4).symm.trans (hbyte 8)) (by decide)

/-- The link of `ABS` for an address that does not fit a wyde. -/
lemma link_abs (href : r.referent = .operand opcode op) (hoff : r.fixup.offset = 0) (hkind : r.fixup.kind = .abs)
    (c : Site r.words) (hok : ¬ env.ov.ok 16 (c.symbol + c.rAddend) = true) :
    ∃ f : FillAbs, f.addr = c.symbol + c.rAddend ∧ f.datap = c.off ∧
      r.link env c = some (.ok, (ddFillAbs f c.contents).1) := by
  have hzero : BitVec.ofNat 64 0 = 0 := rfl
  have hdatap : c.off + BitVec.ofNat 64 r.fixup.offset + 4 - 4 = c.off := by
    rw [hoff, hzero]
    ring
  refine ⟨⟨(bfdGet32 c.contents c.off &&& 0xff000000#64).setWidth 32,
    (bfdGet32 c.contents c.off &&& 0x00fc0000#64).setWidth 32, c.symbol + c.rAddend, c.off, env.junk⟩,
    rfl, rfl, ?_⟩
  rw [Reference.link, href, hkind]
  simp only [getRelocType, recordedOffset, finalLinkRelocate, elfDadaoHowtoTable, List.getElem?_cons_succ,
    List.getElem?_cons_zero, Option.map_some, Option.bind_eq_bind, Option.bind_some, or_true, if_true,
    dadaoFinalLinkRelocate, dadaoElfPerformRelocation, hdatap, RelocType.bitsize, hok, Bool.false_eq_true,
    if_false]
  rfl

/-- The site that shows `ABS` to be too long: the word behind the instruction is zero and the address takes two
instructions. -/
lemma not_linksRight_abs (href : r.referent = .operand opcode op) (hop : OperandReference r opcode op w)
    (hcls : op.cls.isTarget = false) (hkind : r.fixup.kind = .abs) : ∃ c, ¬ LinksRight env r c := by
  refine ⟨Site.ofWord hop.words 0 0x10001, fun h => ?_⟩
  obtain ⟨status, m, hlink, hpatched⟩ := filled_of_not_isTarget env href hop hcls h
  have hok : ¬ env.ov.ok 16 0x10001 = true := by
    intro hok
    exact absurd ((env.ov.ok_iff 16 _ (by omega)).mp hok).2 (by decide)
  obtain ⟨f, haddr, hdatap, hlink'⟩ := link_abs env href hop.offset hkind (Site.ofWord hop.words 0 0x10001) hok
  rw [hlink'] at hlink
  obtain ⟨-, rfl⟩ := Prod.mk.inj (Option.some.inj hlink)
  have hsum : f.addr = 0x10001 := haddr
  have hstart : f.datap = 0 := hdatap
  have hwydes : wydeOf f.addr 0 = 1 ∧ wydeOf f.addr 1 = 1 ∧ wydeOf f.addr 2 = 0 ∧ wydeOf f.addr 3 = 0 := by
    rw [hsum]
    decide
  have hemitted : f.emitted 4 = [f.word 0 0, f.word 4 1] := by
    simp [FillAbs.emitted, hwydes]
  have hfill := (f.fill_spec (Site.ofWord hop.words 0 0x10001).contents (le_refl 4)).2 1 (by omega)
  rw [← FillAbs.ddFillAbs_eq _ _ (by rw [hemitted]; simp), hstart, hemitted] at hfill
  have hword : f.word 4 1 = 0 :=
    hfill.symm.trans (hpatched.wordAt_next.trans (Site.wordAt_next_ofWord hop.words 0 0x10001))
  have hbit : (f.word 4 1).getLsbD 0 = true := by
    rw [FillAbs.word, BitVec.getLsbD_or, hwydes.2.1]
    simp
  rw [hword] at hbit
  exact absurd hbit (by decide)

end Wrong

/-! ## Which references are linked right -/

/-- **Linking LLVM objects**: a reference is linked right at every site, but for addresses of symbols in the last
64 KiB, if and only if it is the target of a jump or call, the address of a symbol, or absolute data of four or
eight bytes. An address in the last 64 KiB is never loaded. -/
theorem linksRight_iff (env : LinkEnv) {r : Reference} (hr : r.Created) :
    ((∀ c : Site r.words, (r.isAddress = true → c.addr.toNat < 2 ^ 64 - 2 ^ 16) → LinksRight env r c) ↔
      r.Linkable) ∧
    (r.isAddress = true → ∀ c : Site r.words, 2 ^ 64 - 2 ^ 16 ≤ c.addr.toNat → ¬ LinksRight env r c) := by
  cases href : r.referent with
  | operand opcode op =>
    obtain ⟨w, hop⟩ := operandReference_of_created hr href
    have hno : r.isAddress = false := by rw [Reference.isAddress, href]
    have hlinkable : r.Linkable ↔ r.fixup.kind = .dadao25 := by rw [Reference.Linkable, href]
    rw [hno, hlinkable]
    refine ⟨⟨fun hall => ?_, fun hkind c _ => linksRight_target env c href hop hkind⟩, by simp⟩
    by_contra hne
    obtain ⟨c, hc⟩ : ∃ c, ¬ LinksRight env r c := by
      cases hcls : op.cls.isTarget with
      | true =>
        have hkind := hop.ofTarget hcls
        refine ⟨Site.ofWord hop.words 0 0, not_linksRight_of_none env (fun _ => ?_) _⟩
        rw [hkind] at hne ⊢
        unfold branchFixup at hne ⊢
        split at hne <;> first | rfl | exact absurd rfl hne
      | false =>
        rcases hop.ofNotTarget hcls with hkind | hkind
        · exact not_linksRight_abs env href hop hcls hkind
        · exact not_linksRight_half env href hop hcls hkind
    exact hc (hall c (by simp))
  | address rd =>
    have hyes : r.isAddress = true := by rw [Reference.isAddress, href]
    have hlinkable : r.Linkable ↔ True := by rw [Reference.Linkable, href]
    rw [hyes, hlinkable]
    refine ⟨⟨fun _ => trivial, fun _ c haddr => (linksRight_address env c hr href).mpr (haddr rfl)⟩, ?_⟩
    intro _ c haddr h
    have := (linksRight_address env c hr href).mp h
    omega
  | data size pcRel =>
    have hno : r.isAddress = false := by rw [Reference.isAddress, href]
    have hlinkable : r.Linkable ↔ (size = 4 ∨ size = 8) ∧ pcRel = false := by rw [Reference.Linkable, href]
    rw [hno, hlinkable]
    refine ⟨⟨fun hall => ?_, fun hgood c _ => ?_⟩, by simp⟩
    · have hcreated := hr
      rw [Reference.Created, href] at hcreated
      obtain ⟨hwords, -, hkind⟩ := hcreated
      by_cases hsize : size = 4 ∨ size = 8
      · refine ⟨hsize, ?_⟩
        cases hpc : pcRel with
        | false => rfl
        | true =>
          obtain ⟨c, hc⟩ := not_linksRight_pcRel env hr (hpc ▸ href) hsize
          exact absurd (hall c (by simp)) hc
      · refine absurd (hall (Site.ofData hwords) (by simp)) (not_linksRight_of_none env (fun _ => ?_) _)
        unfold dataFixupKind at hkind
        split at hkind
        · rw [← Option.some.inj hkind]
          rfl
        · rw [← Option.some.inj hkind]
          rfl
        · exact absurd (.inl rfl) hsize
        · exact absurd (.inr rfl) hsize
        · exact absurd hkind (by simp)
    · obtain ⟨status, m, hlink, hbytes⟩ := link_data env c hr href hgood.1
      refine ⟨status, m, hlink, .inl ?_⟩
      rw [Reference.Filled, href, hgood.2]
      exact hbytes

/-- The linker with its generic code by its documented effect. -/
def documentedEnv : LinkEnv where
  generic := .documented fun _ _ => true
  ov := .documented
  junk := 0

/-- `call f`. -/
def callReference : Reference where
  words := [0x6c000000]
  fixup := ⟨0, .symbolRef "f", .dadao25⟩
  referent := .operand .callIiii ⟨.imm24, .callTarget⟩

/-- `brz rd1, f`. -/
def brzReference : Reference where
  words := [0x2a040000]
  fixup := ⟨0, .symbolRef "f", .dadao18⟩
  referent := .operand .brzRiii ⟨.imm18, .brTarget⟩

lemma created_callReference : callReference.Created := by
  refine ⟨⟨.callIiii, [.expr (.symbolRef "f")]⟩, [⟨0, .symbolRef "f", .dadao25⟩], ?_, by decide +kernel,
    by decide +kernel⟩
  intro i hi
  exact absurd hi List.not_mem_nil

lemma created_brzReference : brzReference.Created := by
  refine ⟨⟨.brzRiii, [.expr (.symbolRef "f"), .reg (.rd 1)]⟩, [⟨0, .symbolRef "f", .dadao18⟩], ?_,
    by decide +kernel, by decide +kernel⟩
  intro i hi
  rw [List.mem_singleton.mp hi]
  exact .inl ⟨_, rfl⟩

/-- `call f` is linked right. -/
theorem linksRight_callReference : callReference.Created ∧ callReference.Linkable ∧
    ∀ c : Site callReference.words, LinksRight documentedEnv callReference c :=
  ⟨created_callReference, rfl, fun c =>
    (linksRight_iff documentedEnv created_callReference).1.mpr rfl c fun h => absurd h (by decide)⟩

/-- There is no relocation for the target of a branch. -/
theorem not_linksRight_all : ¬ ∀ r : Reference, r.Created → ∀ c : Site r.words, LinksRight documentedEnv r c :=
  fun h => not_linksRight_of_none documentedEnv (fun _ => rfl) _
    (h brzReference created_brzReference (Site.ofWord rfl 0 0))

end Dadao.Llvm
