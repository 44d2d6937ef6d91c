import Dadao.Opcodes.ParseOpcodes
import Mathlib.Tactic.Lemma

set_option relaxedAutoImplicit false
set_option autoImplicit false

/-!
# Names as numbers

A string is told from another by a number made of its bytes. The reader of an opcodes file compares each new
name with all names before it; where the kernel runs the reader it compares the numbers.

## Main definitions

* `Dadao.Opcodes.nameKey` — the number of a name.

## Main results

* `Dadao.Opcodes.beq_nameKey` — names are equal when their numbers are.
* `Dadao.Opcodes.readOpcodes_eq_key` — the reader, with the numbers of the names.
-/

namespace Dadao.Opcodes

/-- The number with the given digits, each of them raised by one, so that no digit is zero. -/
def bytesKey : List UInt8 → ℕ
  | [] => 0
  | b :: bs => 256 * bytesKey bs + (b.toNat + 1)

/-- The number of a name. -/
def nameKey (s : String) : ℕ := bytesKey s.toByteArray.data.toList

lemma bytesKey_inj {bs bs' : List UInt8} (h : bytesKey bs = bytesKey bs') : bs = bs' := by
  induction bs generalizing bs' with
  | nil =>
    cases bs' with
    | nil => rfl
    | cons b' bs' =>
      simp only [bytesKey] at h
      omega
  | cons b bs ih =>
    cases bs' with
    | nil =>
      simp only [bytesKey] at h
      omega
    | cons b' bs' =>
      simp only [bytesKey] at h
      have hb := b.toNat_lt
      have hb' := b'.toNat_lt
      have hhead : b = b' := UInt8.toNat_inj.mp (by omega)
      have htail : bs = bs' := ih (by omega)
      rw [hhead, htail]

lemma nameKey_inj {s s' : String} (h : nameKey s = nameKey s') : s = s' := by
  refine String.toByteArray_inj.mp (ByteArray.ext ?_)
  exact Array.toList_inj.mp (bytesKey_inj h)

/-- **Names are equal** when their numbers are. -/
lemma beq_nameKey (s s' : String) : (s == s') = (nameKey s).beq (nameKey s') := by
  rw [Bool.eq_iff_iff, beq_iff_eq, Nat.beq_eq]
  exact ⟨fun h => h ▸ rfl, nameKey_inj⟩

/-! ## The reader -/

/-- `freshName` with the numbers of the names. -/
def freshNameKey (insts : List Inst) (name : String) : Option String :=
  let used := fun n : String => insts.any fun d => (nameKey d.name).beq (nameKey n)
  if !used name then some name
  else if !used ("_1" ++ name) then some ("_1" ++ name)
  else if !used ("_2" ++ name) then some ("_2" ++ name)
  else if !used ("_3" ++ name) then some ("_3" ++ name)
  else none

lemma freshName_eq_key : freshName = freshNameKey := by
  funext insts name
  simp only [freshName, freshNameKey, beq_nameKey]

/-- `readStep` with another choice of the names. -/
def readStepWith (fresh : List Inst → String → Option String) (s : ReadState) : Line → Option ReadState
  | .instType optype fields => some { s with nowType := some (optype, fields) }
  | .restrictionType r => some { s with nowRestrictions := some r }
  | .inst name opcode r => do
    let (optype, fields) ← s.nowType
    let now ← s.nowRestrictions
    let resources := r.resources ++ now.resources
    let regfile := mergeRegfile r.regfile now.regfile
    let conds := r.conds ++ now.conds
    let name' ← fresh s.insts name
    let (mask, matchBits) := getMaskMatch fields opcode conds
    let maskInt ← pyInt 2 mask
    let matchInt ← pyInt 2 matchBits
    return { s with insts := s.insts ++ [{
      name := name', optype, fields, opcode, resources, regfile, conds,
      insnType := insnTypeOf resources regfile, mask, matchBits, maskInt, matchInt }] }

/-- `readOpcodes` with another choice of the names. -/
def readOpcodesWith (fresh : List Inst → String → Option String) (lines : List String) : Option (List Inst) := do
  let s ← lines.foldlM (fun s line => do
    match ← parseLine line with
    | none => return s
    | some l => readStepWith fresh s l) (⟨none, none, []⟩ : ReadState)
  return s.insts

lemma readOpcodes_eq_with : readOpcodes = readOpcodesWith freshName := rfl

/-- **The reader** may compare the numbers of the names. -/
lemma readOpcodes_eq_key : readOpcodes = readOpcodesWith freshNameKey := by
  rw [readOpcodes_eq_with, freshName_eq_key]

end Dadao.Opcodes
