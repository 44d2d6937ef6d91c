import Dadao.Lib.Memory
import Dadao.Llvm.CodeEmitter
import Mathlib.Algebra.Group.Int.Defs

set_option relaxedAutoImplicit false
set_option autoImplicit false

/-!
# Applying fixups

`DadaoAsmBackend::applyFixup`, which puts a resolved value into the bytes of a fragment: the low bits of
the little endian bytes at the fixup are or'ed with the value.

The adjusted value is an `unsigned`, so that the upper half of eight bytes of data is lost, and no range
is checked.

## Main definitions

* `Dadao.Llvm.adjustFixupValue`, `Dadao.Llvm.applyFixup` — the two functions.
* `Dadao.Llvm.FixupKind.Reads` — the value a field is read as.
* `Dadao.Llvm.AppliesRight` — what applying a fixup is for.

## Main results

* `Dadao.Llvm.FixupKind.reads_iff` — the values a field can be read as.
* `Dadao.Llvm.appliesRight_iff` — when a fixup is applied right.
-/

namespace Dadao.Llvm

/-! ## The functions -/

/-- `TargetSize`, from `getFixupKindInfo` and its generic kinds. -/
def FixupKind.targetSize : FixupKind → ℕ
  | .none => 32
  | .dadao21 => 16
  | .dadao21F => 16
  | .dadao25 => 24
  | .dadao18 => 18
  | .dadao12 => 12
  | .dadao32 => 32
  | .hi16 => 16
  | .lo16 => 16
  | .abs => 16
  | .data1 => 8
  | .data2 => 16
  | .data4 => 32
  | .data8 => 64

/-- The fixups of branches. -/
def FixupKind.isBranch : FixupKind → Bool
  | .dadao25 | .dadao18 | .dadao12 => true
  | _ => false

/-- The fixups of data. -/
def FixupKind.isData : FixupKind → Bool
  | .dadao32 | .data1 | .data2 | .data4 | .data8 => true
  | _ => false

/-- `adjustFixupValue`, an `unsigned`; `none` is `llvm_unreachable`. -/
def adjustFixupValue (kind : FixupKind) (value : BitVec 64) : Option (BitVec 32) :=
  if kind = .none then none
  else if kind.isBranch then some ((value >>> 2).setWidth 32)
  else some (value.setWidth 32)

/-- `NumBytes`. -/
def FixupKind.numBytes (kind : FixupKind) : ℕ := (kind.targetSize + 7) / 8

/-- `Mask`. -/
def FixupKind.mask (kind : FixupKind) : BitVec 64 := (-1 : BitVec 64) >>> (64 - kind.targetSize)

/-- `applyFixup` on the bytes of a fragment. -/
def applyFixup (kind : FixupKind) (data : Memory) (offset value : BitVec 64) : Option Memory :=
  (adjustFixupValue kind value).map fun adjusted =>
    let value := adjusted.setWidth 64
    if value = 0 then data
    else
      let curVal := data.load offset kind.numBytes ||| value &&& kind.mask
      data.store offset kind.numBytes curVal

/-! ## What it is for -/

namespace FixupKind

variable (kind : FixupKind)

/-- The field of a fixup: the low bits of its bytes. -/
def field (data : Memory) (offset : BitVec 64) : BitVec kind.targetSize :=
  (data.load offset kind.numBytes).setWidth kind.targetSize

/-- **What a field is read as**: a signed displacement in words, data of either sign, or a wyde. -/
def Reads (x : BitVec kind.targetSize) (value : BitVec 64) : Prop :=
  if kind.isBranch then x.signExtend 64 * 4 = value
  else if kind.isData then x.setWidth 64 = value ∨ x.signExtend 64 = value
  else x.setWidth 64 = value

/-- The bits of a value that belong into the field. -/
def payload (value : BitVec 64) : BitVec kind.targetSize :=
  if kind.isBranch then (value >>> 2).setWidth kind.targetSize else value.setWidth kind.targetSize

/-- The values a field can hold. -/
def Fits (value : BitVec 64) : Prop :=
  if kind.isBranch then
    value.toNat % 4 = 0 ∧ -2 ^ (kind.targetSize + 1) ≤ value.toInt ∧ value.toInt < 2 ^ (kind.targetSize + 1)
  else if kind.isData then
    -2 ^ (kind.targetSize - 1) ≤ value.toInt ∧ value.toInt < 2 ^ kind.targetSize
  else value.toNat < 2 ^ kind.targetSize

end FixupKind

/-- **A fixup is applied right**: with an error, or the field is read as the value and the other bits are
as they were. -/
def AppliesRight (kind : FixupKind) (data : Memory) (offset value : BitVec 64) : Prop :=
  ∀ data' ∈ applyFixup kind data offset value,
    kind.Reads (kind.field data' offset) value ∧
    data'.load offset kind.numBytes >>> kind.targetSize = data.load offset kind.numBytes >>> kind.targetSize ∧
    ∀ a, kind.numBytes ≤ Memory.offsetFrom offset a → data' a = data a

/-! ## The values of a field -/

section Field

variable {v : BitVec 64}

/-- A signed displacement in words. -/
lemma signExtend_mul_four_iff {n : ℕ} (hn : n ∈ [24, 18, 12]) (x : BitVec n) : x.signExtend 64 * 4 = v ↔
    x = (v >>> 2).setWidth n ∧ v.toNat % 4 = 0 ∧ -2 ^ (n + 1) ≤ v.toInt ∧ v.toInt < 2 ^ (n + 1) := by
  have hv := v.isLt
  have hx := x.isLt
  have hmul : (x.signExtend 64 * 4).toNat = (x.signExtend 64).toNat * 4 % 2 ^ 64 := BitVec.toNat_mul ..
  rw [BitVec.toNat_eq, BitVec.toNat_eq, hmul, BitVec.toNat_signExtend, BitVec.toNat_setWidth,
    BitVec.toNat_setWidth, BitVec.toNat_ushiftRight, Nat.shiftRight_eq_div_pow, BitVec.toInt_eq_toNat_cond,
    BitVec.msb_eq_decide]
  simp only [decide_eq_true_eq]
  simp only [List.mem_cons, List.not_mem_nil, or_false] at hn
  rcases hn with rfl | rfl | rfl <;> split_ifs <;> omega

/-- Data of either sign. -/
lemma setWidth_or_signExtend_iff {n : ℕ} (hn : n ∈ [8, 16, 32, 64]) (x : BitVec n) :
    x.setWidth 64 = v ∨ x.signExtend 64 = v ↔
      x = v.setWidth n ∧ -2 ^ (n - 1) ≤ v.toInt ∧ v.toInt < 2 ^ n := by
  have hv := v.isLt
  have hx := x.isLt
  rw [BitVec.toNat_eq, BitVec.toNat_eq, BitVec.toNat_eq, BitVec.toNat_signExtend, BitVec.toNat_setWidth,
    BitVec.toNat_setWidth, BitVec.toInt_eq_toNat_cond, BitVec.msb_eq_decide]
  simp only [decide_eq_true_eq]
  simp only [List.mem_cons, List.not_mem_nil, or_false] at hn
  rcases hn with rfl | rfl | rfl | rfl <;> split_ifs <;> omega

/-- A wyde. -/
lemma setWidth_eq_iff_wyde (x : BitVec 16) : x.setWidth 64 = v ↔ x = v.setWidth 16 ∧ v.toNat < 2 ^ 16 := by
  have hx := x.isLt
  rw [BitVec.toNat_eq, BitVec.toNat_eq, BitVec.toNat_setWidth, BitVec.toNat_setWidth]
  omega

/-- **The values a field can be read as.** -/
lemma FixupKind.reads_iff {kind : FixupKind} (h : kind ≠ .none) (x : BitVec kind.targetSize) :
    kind.Reads x v ↔ x = kind.payload v ∧ kind.Fits v := by
  cases kind
  case none => exact absurd rfl h
  case dadao25 | dadao18 | dadao12 => exact signExtend_mul_four_iff (by decide) x
  case dadao32 | data1 | data2 | data4 | data8 => exact setWidth_or_signExtend_iff (by decide) x
  all_goals exact setWidth_eq_iff_wyde x

/-- Or'ing the low half of a field in. -/
lemma or_low_eq_iff {n : ℕ} (x p : BitVec n) :
    x ||| (p.setWidth 32).setWidth n = p ↔ x &&& ~~~p = 0 ∧ x >>> 32 = p >>> 32 := by
  constructor
  · intro heq
    constructor
    · apply BitVec.eq_of_getLsbD_eq
      intro i hi
      have hbit := congrArg (fun y => y.getLsbD i) heq
      simp only [BitVec.getLsbD_or, BitVec.getLsbD_setWidth] at hbit
      rw [BitVec.getLsbD_and, BitVec.getLsbD_not, ← hbit]
      cases x.getLsbD i <;> simp
    · apply BitVec.eq_of_getLsbD_eq
      intro i hi
      have hbit := congrArg (fun y => y.getLsbD (32 + i)) heq
      simp only [BitVec.getLsbD_or, BitVec.getLsbD_setWidth] at hbit
      rw [BitVec.getLsbD_ushiftRight, BitVec.getLsbD_ushiftRight, ← hbit]
      simp [show ¬ 32 + i < 32 by omega]
  · rintro ⟨hsub, hhigh⟩
    apply BitVec.eq_of_getLsbD_eq
    intro i hi
    rw [BitVec.getLsbD_or, BitVec.getLsbD_setWidth, BitVec.getLsbD_setWidth]
    by_cases hlow : i < 32
    · have hbit := congrArg (fun y => y.getLsbD i) hsub
      simp only [BitVec.getLsbD_and, BitVec.getLsbD_not] at hbit
      cases hp : p.getLsbD i <;> simp_all
    · have hbit := congrArg (fun y => y.getLsbD (i - 32)) hhigh
      simp only [BitVec.getLsbD_ushiftRight, show 32 + (i - 32) = i by omega] at hbit
      simp [hlow, hbit]

end Field

/-! ## The bytes -/

section Bytes

variable (kind : FixupKind) (data : Memory) (offset : BitVec 64)

lemma FixupKind.targetSize_le : kind.targetSize ≤ 8 * kind.numBytes ∧ kind.numBytes ≤ 8 := by
  cases kind <;> decide

/-- The mask of a field. -/
lemma FixupKind.getLsbD_mask (i : ℕ) : kind.mask.getLsbD i = decide (i < kind.targetSize) := by
  have hsize : kind.targetSize ≤ 64 := by cases kind <;> decide
  have hones : (-1 : BitVec 64) = BitVec.allOnes 64 := rfl
  rw [FixupKind.mask, hones, BitVec.getLsbD_ushiftRight, BitVec.getLsbD_allOnes]
  congr 1
  apply propext
  omega

/-- **The bytes after a fixup.** -/
lemma load_applyFixup (w : BitVec 64) :
    (data.store offset kind.numBytes (data.load offset kind.numBytes ||| w &&& kind.mask)).load offset
      kind.numBytes = data.load offset kind.numBytes ||| w &&& kind.mask := by
  obtain ⟨hsize, hbytes⟩ := kind.targetSize_le
  apply BitVec.eq_of_toNat_eq
  rw [Memory.toNat_load_store _ _ _ hbytes]
  refine Nat.mod_eq_of_lt ?_
  rw [BitVec.toNat_or]
  refine Nat.or_lt_two_pow (Memory.load_lt _ _ _ hbytes) ?_
  rw [BitVec.toNat_and]
  refine Nat.lt_of_le_of_lt Nat.and_le_right ?_
  cases kind <;> decide

/-- The field and the bits above it. -/
lemma setWidth_or_mask (x w : BitVec 64) :
    (x ||| w &&& kind.mask).setWidth kind.targetSize =
      x.setWidth kind.targetSize ||| w.setWidth kind.targetSize ∧
    (x ||| w &&& kind.mask) >>> kind.targetSize = x >>> kind.targetSize := by
  constructor
  · apply BitVec.eq_of_getLsbD_eq
    intro i hi
    simp only [BitVec.getLsbD_setWidth, BitVec.getLsbD_or, BitVec.getLsbD_and, kind.getLsbD_mask]
    simp [hi]
  · apply BitVec.eq_of_getLsbD_eq
    intro i hi
    simp only [BitVec.getLsbD_ushiftRight, BitVec.getLsbD_or, BitVec.getLsbD_and, kind.getLsbD_mask]
    simp [show ¬ kind.targetSize + i < kind.targetSize by omega]

lemma setWidth_low (n : ℕ) (y : BitVec 64) :
    ((y.setWidth 32).setWidth 64).setWidth n = ((y.setWidth n).setWidth 32).setWidth n := by
  apply BitVec.eq_of_getLsbD_eq
  intro i hi
  simp only [BitVec.getLsbD_setWidth]
  by_cases hlow : i < 32
  · simp [hi, hlow, show i < 64 by omega]
  · simp [hlow]

/-- **The bytes of an applied fixup**: the field with the low half of the value or'ed in. -/
lemma applyFixup_spec (h : kind ≠ .none) (value : BitVec 64) :
    ∃ data', applyFixup kind data offset value = some data' ∧
      kind.field data' offset = kind.field data offset |||
        ((kind.payload value).setWidth 32).setWidth kind.targetSize ∧
      data'.load offset kind.numBytes >>> kind.targetSize =
        data.load offset kind.numBytes >>> kind.targetSize ∧
      ∀ a, kind.numBytes ≤ Memory.offsetFrom offset a → data' a = data a := by
  obtain ⟨adjusted, hadjust, hpayload⟩ : ∃ adjusted, adjustFixupValue kind value = some adjusted ∧
      (adjusted.setWidth 64).setWidth kind.targetSize =
        ((kind.payload value).setWidth 32).setWidth kind.targetSize := by
    rw [adjustFixupValue, if_neg h, FixupKind.payload]
    by_cases hbranch : kind.isBranch = true
    · rw [if_pos hbranch, if_pos hbranch]
      exact ⟨_, rfl, setWidth_low _ _⟩
    · rw [if_neg hbranch, if_neg hbranch]
      exact ⟨_, rfl, setWidth_low _ _⟩
  rw [applyFixup, hadjust, Option.map_some, ← hpayload]
  by_cases hzero : adjusted.setWidth 64 = 0
  · refine ⟨data, by simp only [hzero, ↓reduceIte], ?_, rfl, fun a _ => rfl⟩
    rw [hzero]
    simp
  · obtain ⟨hfield, habove⟩ := setWidth_or_mask kind (data.load offset kind.numBytes) (adjusted.setWidth 64)
    refine ⟨_, by simp only [hzero, ↓reduceIte]; rfl, ?_, ?_, fun a ha => ?_⟩
    · rw [FixupKind.field, load_applyFixup, hfield]
      rfl
    · rw [load_applyFixup, habove]
    · exact if_neg (Nat.not_lt.mpr ha)

end Bytes

/-- **When a fixup is applied right**: there is none of the kind, or the value fits the field, every bit
set in the field is a bit of the value, and the upper half of eight bytes is there already. -/
theorem appliesRight_iff (kind : FixupKind) (data : Memory) (offset value : BitVec 64) :
    AppliesRight kind data offset value ↔ kind = .none ∨
      kind.Fits value ∧ kind.field data offset &&& ~~~kind.payload value = 0 ∧
        kind.field data offset >>> 32 = kind.payload value >>> 32 := by
  by_cases hnone : kind = .none
  · subst hnone
    exact ⟨fun _ => Or.inl rfl, fun _ data' hdata' => by cases hdata'⟩
  obtain ⟨data', happly, hfield, habove, hrest⟩ := applyFixup_spec kind data offset hnone value
  have hright : AppliesRight kind data offset value ↔ kind.Reads (kind.field data' offset) value := by
    constructor
    · exact fun h => (h data' happly).1
    · intro h data'' hdata''
      obtain rfl : data' = data'' := Option.some.inj (happly.symm.trans hdata'')
      exact ⟨h, habove, hrest⟩
  rw [hright, FixupKind.reads_iff hnone, hfield, or_low_eq_iff]
  exact ⟨fun h => Or.inr ⟨h.2, h.1⟩, fun h => ((h.resolve_left hnone).symm)⟩

/-- **Eight bytes of data** lose the upper half of their value. -/
theorem data8_upper_half_lost : ¬ AppliesRight .data8 (fun _ => 0) 0 0x100000000 := by
  intro h
  have hreads := (FixupKind.reads_iff (by decide) _).mp (h _ rfl).1
  exact absurd hreads.1 (by decide)

end Dadao.Llvm
