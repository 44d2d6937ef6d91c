import Dadao.Bfd.Reloc
import Dadao.Lib.Bits
import Dadao.Qemu.Translate

set_option relaxedAutoImplicit false
set_option autoImplicit false

/-!
# What relocated branches and address pairs reach

The relocations of branches, calls and jumps and of the pair of an `adrp` and a 12-bit offset, taken
together with what the simulator makes of the patched words.

The overflow check of a branch admits twice the range of its signed field, and the patch keeps the
opcode of a branch only. The page of an `adrp` is rounded down while the offset is signed.

## Main definitions

* `Dadao.Bfd.takenTarget` — where the simulator goes.
* `Dadao.Bfd.BranchReloc.Sound` — what the relocation of a branch is for.
* `Dadao.Bfd.PagePair.Addresses` — what the pair is for.

## Main results

* `Dadao.Bfd.BranchReloc.toNat_patch` — the word after the relocation of a branch.
* `Dadao.Bfd.BranchReloc.sound_iff` — when the relocation of a branch is sound.
* `Dadao.Bfd.PagePair.addresses_iff` — when a pair addresses its symbol.
-/

namespace Dadao.Bfd

open Qemu

/-! ## Words of a section -/

/-- A word is read back from where it was put. -/
lemma wordAt_bfdPut32 (contents : Memory) (off val : BitVec 64) :
    wordAt (bfdPut32 contents off val) off = val.setWidth 32 := by
  apply BitVec.eq_of_toNat_eq
  rw [wordAt, bfdGet32, bfdPut32, BitVec.toNat_setWidth, BitVec.toNat_setWidth,
    Memory.toNat_load_store _ _ _ (by omega)]
  omega

/-- A word has 32 bits. -/
lemma toNat_bfdGet32 (contents : Memory) (off : BitVec 64) :
    (bfdGet32 contents off).toNat = (wordAt contents off).toNat := by
  rw [wordAt, BitVec.toNat_setWidth, bfdGet32]
  exact (Nat.mod_eq_of_lt (Memory.load_lt contents off 4 (by omega))).symm

/-! ## Branches, calls and jumps -/

/-- The opcodes of the instructions a relocation is for. -/
def RelocType.opcodes : RelocType → List ℕ
  | .brcc => [0x28, 0x29, 0x2a, 0x2b, 0x2c, 0x2d]
  | .brcc12 => [0x2e, 0x2f]
  | .call => [0x6c]
  | .jump => [0x64]
  | _ => []

/-- The width of their displacement field. -/
def RelocType.fieldBits : RelocType → ℕ
  | .brcc => 18
  | .brcc12 => 12
  | _ => 24

/-- A branch, call or jump word with a zero displacement field. -/
def IsBranchWord (type : RelocType) (w : BitVec 32) : Prop :=
  (w >>> 24).toNat ∈ type.opcodes ∧ w.toNat % 2 ^ type.fieldBits = 0

instance (type : RelocType) (w : BitVec 32) : Decidable (IsBranchWord type w) :=
  inferInstanceAs (Decidable (_ ∧ _))

/-- Where a branch goes when it is taken, and a call or jump always: the constants that
`translate.c` computes. -/
def takenTarget (pc : BitVec 64) (w : BitVec 32) : Option (BitVec 64) :=
  match disasDadao pc w with
  | some (some ⟨[.movcond _ _ _ _ (.const target) _], .jump, _⟩) => some target
  | some (some ⟨_, .jump, jmpPcImm⟩) => some jmpPcImm
  | _ => none

/-- The simulator adds the signed field, in words, to the address of the instruction. -/
lemma takenTarget_eq {type : RelocType} {w : BitVec 32} (h : (w >>> 24).toNat ∈ type.opcodes)
    (pc : BitVec 64) : takenTarget pc w = some (pc + fieldImms type.fieldBits w * 4) := by
  cases type <;> simp only [RelocType.opcodes, List.mem_cons, List.not_mem_nil, or_false] at h
  case brcc =>
    rcases h with h | h | h | h | h | h <;> rw [takenTarget, disasDadao, h] <;> rfl
  case brcc12 =>
    rcases h with h | h <;> rw [takenTarget, disasDadao, h] <;> rfl
  case call => rw [takenTarget, disasDadao, h]; rfl
  case jump => rw [takenTarget, disasDadao, h]; rfl

/-- A relocation of a branch, call or jump: its type, where the section goes, the contents, and the
fields of the relocation with the value of the symbol. -/
structure BranchReloc where
  type : RelocType
  place : Placement
  contents : Memory
  rOffset : BitVec 64
  rAddend : BitVec 64
  symbol : BitVec 64

namespace BranchReloc

variable (r : BranchReloc)

/-- The word that is patched. -/
def insn : BitVec 32 := wordAt r.contents (r.rOffset - 4)

/-- The address of the instruction. -/
def pc : BitVec 64 := r.place.insnAddr r.rOffset

/-- The address the instruction is for. -/
def target : BitVec 64 := r.symbol + r.rAddend

/-- The distance from the instruction to the target. -/
def distance : BitVec 64 := r.target - r.pc

/-- The relocation as the linker performs it. -/
def link (ov : CheckOverflow) (junk : BitVec 32) : RelocStatus × Memory :=
  dadaoFinalLinkRelocate ov junk r.type r.place r.contents r.rOffset r.rAddend r.symbol

/-- **What a relocation is for**: if it is done, the opcode and the register fields are the ones
before and the simulator goes to the target; else the contents are unchanged. -/
def Sound (ov : CheckOverflow) (junk : BitVec 32) : Prop :=
  if (r.link ov junk).1 = .ok then
    let w := wordAt (r.link ov junk).2 (r.rOffset - 4)
    w >>> 24 = r.insn >>> 24 ∧
    (r.type = .brcc ∨ r.type = .brcc12 → fieldHa w = fieldHa r.insn) ∧
    (r.type = .brcc12 → fieldHb w = fieldHb r.insn) ∧
    takenTarget r.pc w = some r.target
  else (r.link ov junk).2 = r.contents

/-- The status is `ok`: the distance is a multiple of four in the range of the overflow check. -/
def Accepted : Prop :=
  r.distance.toNat % 4 = 0 ∧
    -2 ^ r.type.bitsize ≤ r.distance.toInt ∧ r.distance.toInt < 2 ^ r.type.bitsize

/-- The distance is in the range of the signed field. -/
def InReach : Prop :=
  -2 ^ (r.type.fieldBits + 1) ≤ r.distance.toInt ∧ r.distance.toInt < 2 ^ (r.type.fieldBits + 1)

/-- The register fields that the relocation of a branch does not keep are zero. -/
def NoRegisters : Prop :=
  (r.type = .brcc ∨ r.type = .brcc12 → fieldHa r.insn = 0) ∧
    (r.type = .brcc12 → fieldHb r.insn = 0)

instance : Decidable r.Accepted := inferInstanceAs (Decidable (_ ∧ _))

instance : Decidable r.InReach := inferInstanceAs (Decidable (_ ∧ _))

instance : Decidable r.NoRegisters := inferInstanceAs (Decidable (_ ∧ _))

/-- The word the backend makes of an instruction. -/
def patch (insn : BitVec 64) : BitVec 64 :=
  match r.type with
  | .brcc => insn &&& 0xff000000#64 ||| r.distance >>> 2 &&& 0x3ffff#64
  | .brcc12 => insn &&& 0xff000000#64 ||| r.distance >>> 2 &&& 0xfff#64
  | _ => insn ||| r.distance >>> 2 &&& 0xffffff#64

/-- The distance as the linker computes it. -/
lemma distance_eq :
    r.symbol + r.rAddend - (r.place.vma + r.place.outputOffset + r.rOffset) + 4 = r.distance := by
  rw [distance, target, pc, Placement.insnAddr]
  ring

variable {r}

/-- The relocation is the check and the patch. -/
lemma link_eq (hw : IsBranchWord r.type r.insn) (ov : CheckOverflow) (junk : BitVec 32) :
    r.link ov junk =
      patchPcRelative ov r.type.bitsize r.patch r.contents (r.rOffset - 4) r.distance := by
  obtain ⟨hop, -⟩ := hw
  rw [link, dadaoFinalLinkRelocate, distance_eq]
  unfold patch
  cases htype : r.type <;> first
    | rfl
    | simp [htype, RelocType.opcodes] at hop

/-- The displacement field of a patch. -/
lemma toNat_field (v m : BitVec 64) (n : ℕ) (hm : m.toNat = 2 ^ n - 1) (hn : n ≤ 24) :
    ((v >>> 2 &&& m).setWidth 32).toNat = v.toNat / 4 % 2 ^ n := by
  have hlt : v.toNat / 4 % 2 ^ n < 2 ^ n := Nat.mod_lt _ (Nat.two_pow_pos n)
  have hpow : 2 ^ n ≤ 2 ^ 24 := Nat.pow_le_pow_right (by omega) hn
  rw [BitVec.toNat_setWidth, Bits.toNat_and_mask _ m n hm, BitVec.toNat_ushiftRight,
    Nat.shiftRight_eq_div_pow]
  exact Nat.mod_eq_of_lt (by omega)

/-- A field below the opcode. -/
lemma toNat_opcode_or (w f : BitVec 32) (hf : f.toNat < 2 ^ 24) :
    (w &&& 0xff000000#32 ||| f).toNat = w.toNat / 2 ^ 24 * 2 ^ 24 + f.toNat := by
  have hhigh := Bits.toNat_and_high w 0xff000000#32 24 rfl (by omega)
  rw [Bits.toNat_or_eq_add 24 (by rw [hhigh]; omega) hf, hhigh]

/-- The word after the patch: the opcode and the displacement, with nothing between. -/
lemma toNat_patch (hw : IsBranchWord r.type r.insn) :
    ((r.patch (bfdGet32 r.contents (r.rOffset - 4))).setWidth 32).toNat =
      r.insn.toNat / 2 ^ 24 * 2 ^ 24 + r.distance.toNat / 4 % 2 ^ r.type.fieldBits := by
  obtain ⟨hop, hzero⟩ := hw
  have hinsn : (bfdGet32 r.contents (r.rOffset - 4)).setWidth 32 = r.insn := rfl
  have hmask : (0xff000000#64).setWidth 32 = 0xff000000#32 := rfl
  have hlt : ∀ n, r.distance.toNat / 4 % 2 ^ n < 2 ^ n := fun n => Nat.mod_lt _ (Nat.two_pow_pos n)
  unfold patch
  cases htype : r.type <;> simp only [htype, RelocType.fieldBits] at hzero ⊢
  case brcc =>
    have hfield := toNat_field r.distance 0x3ffff#64 18 rfl (by omega)
    have hlt18 := hlt 18
    rw [BitVec.setWidth_or, BitVec.setWidth_and, hinsn, hmask, toNat_opcode_or, hfield]
    omega
  case brcc12 =>
    have hfield := toNat_field r.distance 0xfff#64 12 rfl (by omega)
    have hlt12 := hlt 12
    rw [BitVec.setWidth_or, BitVec.setWidth_and, hinsn, hmask, toNat_opcode_or, hfield]
    omega
  all_goals
    -- a call or jump keeps the whole word, whose field is zero
    have hfield := toNat_field r.distance 0xffffff#64 24 rfl (by omega)
    have hlt24 := hlt 24
    rw [BitVec.setWidth_or, hinsn, Bits.toNat_or_eq_add 24 hzero (by omega), hfield]
    omega

/-- The status and the contents, by the distance. -/
lemma link_of_accepted (hw : IsBranchWord r.type r.insn) (ov : CheckOverflow) (junk : BitVec 32)
    (h : r.Accepted) : r.link ov junk = (.ok, bfdPut32 r.contents (r.rOffset - 4)
      (r.patch (bfdGet32 r.contents (r.rOffset - 4)))) := by
  obtain ⟨halign, hrange⟩ := h
  have hand : r.distance &&& 3 = 0 := by
    apply BitVec.eq_of_toNat_eq
    rw [Bits.toNat_and_mask _ 3 2 rfl]
    exact halign
  have hok : ov.ok r.type.bitsize r.distance = true :=
    (ov.ok_iff _ _ (by cases r.type <;> decide)).mpr hrange
  rw [link_eq hw, patchPcRelative, if_neg (not_not.mpr hand), if_pos hok]

lemma link_of_not_accepted (hw : IsBranchWord r.type r.insn) (ov : CheckOverflow)
    (junk : BitVec 32) (h : ¬ r.Accepted) : r.link ov junk = (.notsupported, r.contents) := by
  rw [link_eq hw, patchPcRelative]
  by_cases hand : r.distance &&& 3 = 0
  · rw [if_neg (not_not.mpr hand), if_neg]
    intro hok
    have hrange := (ov.ok_iff _ _ (by cases r.type <;> decide)).mp hok
    refine h ⟨?_, hrange⟩
    have htoNat := congrArg BitVec.toNat hand
    rwa [Bits.toNat_and_mask _ 3 2 rfl] at htoNat
  · rw [if_pos hand]

/-- The fields of a word that is an opcode and a displacement. -/
lemma fields_of_toNat {w w' : BitVec 32} {f : ℕ} (hf : f < 2 ^ 24)
    (hw' : w'.toNat = w.toNat / 2 ^ 24 * 2 ^ 24 + f) :
    w' >>> 24 = w >>> 24 ∧ fieldHa w' = f / 2 ^ 18 ∧ fieldHb w' = f / 2 ^ 12 % 2 ^ 6 := by
  refine ⟨?_, ?_, ?_⟩
  · apply BitVec.eq_of_toNat_eq
    rw [BitVec.toNat_ushiftRight, BitVec.toNat_ushiftRight, Nat.shiftRight_eq_div_pow,
      Nat.shiftRight_eq_div_pow, hw']
    omega
  · rw [fieldHa, Bits.toNat_and_mask _ _ 6 rfl, BitVec.toNat_ushiftRight,
      Nat.shiftRight_eq_div_pow, hw']
    omega
  · rw [fieldHb, Bits.toNat_and_mask _ _ 6 rfl, BitVec.toNat_ushiftRight,
      Nat.shiftRight_eq_div_pow, hw']
    omega

/-- The low bits of a quotient by four, whether the shift is signed or not. -/
lemma ofNat_div_four {v : BitVec 64} {n : ℕ} (hn : n ≤ 62) :
    BitVec.ofNat n (v.toNat / 4) = BitVec.ofInt n (v.toInt / 4) := by
  have hdvd : (2 : ℤ) ^ n ∣ 2 ^ 62 := pow_dvd_pow 2 hn
  have hcast : ((v.toNat / 4 : ℕ) : ℤ) = v.toInt / 4 ∨
      ((v.toNat / 4 : ℕ) : ℤ) = v.toInt / 4 + 2 ^ 62 := by
    rw [BitVec.toInt_eq_toNat_cond]
    split_ifs <;> omega
  rw [← BitVec.ofInt_natCast]
  apply BitVec.eq_of_toInt_eq
  rw [BitVec.toInt_ofInt, BitVec.toInt_ofInt]
  rcases hcast with h | h
  · rw [h]
  · obtain ⟨k, hk⟩ := hdvd
    rw [h, hk, mul_comm]
    exact_mod_cast Int.add_mul_bmod_self_right _ _ _

/-- A displacement field reaches its target exactly when the distance is in range. -/
lemma fieldImms_mul_four_iff {w : BitVec 32} {v : BitVec 64} {n : ℕ} (hn : n ≤ 23)
    (halign : v.toNat % 4 = 0) (hw : w.toNat % 2 ^ (n + 1) = v.toNat / 4 % 2 ^ (n + 1)) :
    fieldImms (n + 1) w * 4 = v ↔ -2 ^ (n + 2) ≤ v.toInt ∧ v.toInt < 2 ^ (n + 2) := by
  have hfield : w.setWidth (n + 1) = BitVec.ofInt (n + 1) (v.toInt / 4) := by
    rw [← ofNat_div_four (by omega)]
    apply BitVec.eq_of_toNat_eq
    rw [BitVec.toNat_setWidth, BitVec.toNat_ofNat, hw]
  obtain ⟨q, hq⟩ : ∃ q : ℤ, v.toInt = 4 * q := by
    refine ⟨v.toInt / 4, ?_⟩
    rw [BitVec.toInt_eq_toNat_cond]
    split_ifs <;> omega
  have hv : v = BitVec.ofInt 64 (4 * q) := by rw [← hq, BitVec.ofInt_toInt]
  have hrange : -2 ^ 61 ≤ q ∧ q < 2 ^ 61 := by
    have := Bits.toInt_mem (n := 63) v
    omega
  rw [fieldImms, hfield, hq, show 4 * q / 4 = q by omega, hv,
    Bits.signExtend_ofInt_mul_four_iff (by omega) hrange, pow_succ, pow_succ]
  omega

/-- The patched word goes to the target exactly when the distance is in reach. -/
lemma takenTarget_patch_iff {w : BitVec 32} (hw : IsBranchWord r.type r.insn)
    (halign : r.distance.toNat % 4 = 0) (hop : w >>> 24 = r.insn >>> 24)
    (hfield : w.toNat % 2 ^ r.type.fieldBits = r.distance.toNat / 4 % 2 ^ r.type.fieldBits) :
    takenTarget r.pc w = some r.target ↔ r.InReach := by
  have hreach : fieldImms r.type.fieldBits w * 4 = r.distance ↔ r.InReach := by
    rw [InReach]
    cases htype : r.type <;> rw [htype] at hfield <;>
      exact fieldImms_mul_four_iff (by omega) halign hfield
  rw [takenTarget_eq (hop ▸ hw.1), Option.some_inj, ← hreach, distance]
  exact eq_sub_iff_add_eq'.symm

/-- **A relocation is sound** unless it is accepted with a distance the signed field cannot hold
or with a register in a branch. -/
theorem sound_iff (hw : IsBranchWord r.type r.insn) (ov : CheckOverflow) (junk : BitVec 32) :
    r.Sound ov junk ↔ (r.Accepted → r.InReach ∧ r.NoRegisters) := by
  by_cases h : r.Accepted
  · have hpatch := toNat_patch hw
    have hflt : r.distance.toNat / 4 % 2 ^ r.type.fieldBits < 2 ^ r.type.fieldBits :=
      Nat.mod_lt _ (Nat.two_pow_pos _)
    have hbits : 2 ^ r.type.fieldBits ≤ 2 ^ 24 :=
      Nat.pow_le_pow_right (by omega) (by cases r.type <;> decide)
    obtain ⟨hop, hha, hhb⟩ := fields_of_toNat (by omega) hpatch
    have hfield : ((r.patch (bfdGet32 r.contents (r.rOffset - 4))).setWidth 32).toNat %
        2 ^ r.type.fieldBits = r.distance.toNat / 4 % 2 ^ r.type.fieldBits := by
      obtain ⟨k, hk⟩ : 2 ^ r.type.fieldBits ∣ 2 ^ 24 :=
        pow_dvd_pow 2 (by cases r.type <;> decide)
      rw [hpatch, hk, ← mul_assoc, mul_comm _ k, ← mul_assoc, Nat.mul_add_mod', Nat.mod_mod]
    rw [Sound, link_of_accepted hw ov junk h, if_pos rfl, wordAt_bfdPut32]
    simp only [h, true_imp_iff, hop, true_and, takenTarget_patch_iff hw h.1 hop hfield, hha, hhb]
    have hha0 : r.type = .brcc ∨ r.type = .brcc12 →
        r.distance.toNat / 4 % 2 ^ r.type.fieldBits / 2 ^ 18 = 0 := by
      rintro (htype | htype) <;> simp only [htype, RelocType.fieldBits] at hflt ⊢ <;> omega
    have hhb0 : r.type = .brcc12 →
        r.distance.toNat / 4 % 2 ^ r.type.fieldBits / 2 ^ 12 % 2 ^ 6 = 0 := by
      intro htype
      simp only [htype, RelocType.fieldBits] at hflt ⊢
      omega
    rw [NoRegisters, ← and_assoc, and_comm]
    refine and_congr_right fun _ => and_congr ?_ ?_
    · refine forall_congr' fun htype => ?_
      rw [hha0 htype]
      exact eq_comm
    · refine forall_congr' fun htype => ?_
      rw [hhb0 htype]
      exact eq_comm
  · rw [Sound, link_of_not_accepted hw ov junk h]
    simp [h]

/-- `brnz` on a register at `0x1000`. -/
def brnzReloc (ha : ℕ) (symbol : BitVec 64) : BranchReloc where
  type := .brcc
  place := ⟨0x1000, 0⟩
  contents := bfdPut32 (fun _ => 0) 0 (0x2b000000 + BitVec.ofNat 64 ha <<< 18)
  rOffset := 4
  rAddend := 0
  symbol

/-- A branch on `rd0` in reach. -/
theorem sound_iff_brnz_rd0 :
    IsBranchWord (brnzReloc 0 0x1010).type (brnzReloc 0 0x1010).insn ∧
      (brnzReloc 0 0x1010).Accepted ∧ (brnzReloc 0 0x1010).Sound .documented 0 := by
  have hw : IsBranchWord (brnzReloc 0 0x1010).type (brnzReloc 0 0x1010).insn := by
    decide +kernel
  refine ⟨hw, by decide +kernel, (sound_iff hw .documented 0).mpr fun _ => ?_⟩
  decide +kernel

/-- **The register of a branch is lost**: `brnz rd8` is linked to `brnz rd0`. -/
theorem brnz_rd8_not_sound :
    IsBranchWord (brnzReloc 8 0x1010).type (brnzReloc 8 0x1010).insn ∧
      ¬ (brnzReloc 8 0x1010).Sound .documented 0 := by
  refine ⟨by decide +kernel, fun h => ?_⟩
  rw [Sound, if_pos (by decide +kernel)] at h
  obtain ⟨-, hha, -⟩ := h
  exact absurd (hha (.inl rfl)) (by decide +kernel)

end BranchReloc

/-! ## A page and an offset -/

/-- An instruction with a relocation: the placement and contents of its section and `r_offset`. -/
structure InsnReloc where
  place : Placement
  contents : Memory
  rOffset : BitVec 64

namespace InsnReloc

variable (i : InsnReloc)

/-- The word that is patched. -/
def insn : BitVec 32 := wordAt i.contents (i.rOffset - 4)

/-- The address of the instruction. -/
def pc : BitVec 64 := i.place.insnAddr i.rOffset

/-- The word after the relocation. -/
def linked (ov : CheckOverflow) (junk : BitVec 32) (type : RelocType) (rAddend symbol : BitVec 64) :
    BitVec 32 :=
  wordAt (dadaoFinalLinkRelocate ov junk type i.place i.contents i.rOffset rAddend symbol).2
    (i.rOffset - 4)

end InsnReloc

/-- An `adrp` and a load, store or add with a 12-bit offset, and the symbol they are for. -/
structure PagePair where
  adrp : InsnReloc
  low : InsnReloc
  rAddend : BitVec 64
  symbol : BitVec 64

namespace PagePair

variable (p : PagePair)

/-- The address of the symbol. -/
def target : BitVec 64 := p.symbol + p.rAddend

/-- An `adrp` to a register other than `rb0` and a word with a 12-bit offset, both fields zero. -/
def WellFormed : Prop :=
  (p.adrp.insn >>> 24).toNat = 0x48 ∧ fieldHa p.adrp.insn ≠ 0 ∧
    p.adrp.insn.toNat % 2 ^ 18 = 0 ∧ p.low.insn.toNat % 2 ^ 12 = 0

instance : Decidable p.WellFormed := inferInstanceAs (Decidable (_ ∧ _))

/-- The pages from the instruction to the symbol. -/
def pages : ℤ := (p.target.toNat / 2 ^ 12 : ℕ) - (p.adrp.pc.toNat / 2 ^ 12 : ℕ)

/-- The symbol is in the 18-bit page range of the instruction. -/
def InRange : Prop := -2 ^ 17 ≤ p.pages ∧ p.pages < 2 ^ 17

instance : Decidable p.InRange := inferInstanceAs (Decidable (_ ∧ _))

/-- **What the pair is for**: the register the `adrp` sets and the offset give the address of the
symbol. -/
def Addresses (ov : CheckOverflow) (junk : BitVec 32) : Prop :=
  ∀ s, ∃ s', execInsn p.adrp.pc (p.adrp.linked ov junk .hi18 p.rAddend p.symbol) s =
      some (.done s') ∧
    s'.env.globals (.rb (fieldHa p.adrp.insn)) +
      fieldImms 12 (p.low.linked ov junk .lo12 p.rAddend p.symbol) = p.target

/-- A field below the zero bits of a word. -/
lemma toNat_wordAt_or {c : Memory} {off f : BitVec 64} {n : ℕ}
    (hzero : (wordAt c off).toNat % 2 ^ n = 0) (hf : f.toNat < 2 ^ n) (hn : n ≤ 32) :
    (wordAt (bfdPut32 c off (bfdGet32 c off ||| f)) off).toNat =
      (wordAt c off).toNat + f.toNat := by
  have hpow : 2 ^ n ≤ 2 ^ 32 := Nat.pow_le_pow_right (by omega) hn
  have hfield : (f.setWidth 32).toNat = f.toNat := by
    rw [BitVec.toNat_setWidth, Nat.mod_eq_of_lt (by omega)]
  have hinsn : (bfdGet32 c off).setWidth 32 = wordAt c off := rfl
  rw [wordAt_bfdPut32, BitVec.setWidth_or, hinsn,
    Bits.toNat_or_eq_add n hzero (by rwa [hfield]), hfield]

variable {p}

/-- The `adrp` after its relocation. -/
lemma toNat_linked_adrp (hwf : p.WellFormed) (ov : CheckOverflow) (junk : BitVec 32) :
    (p.adrp.linked ov junk .hi18 p.rAddend p.symbol).toNat =
      p.adrp.insn.toNat + (p.target >>> 12 - p.adrp.pc >>> 12).toNat % 2 ^ 18 := by
  have hpc : p.target - (p.target - (p.adrp.place.vma + p.adrp.place.outputOffset +
      p.adrp.rOffset) + 4) = p.adrp.pc := by
    rw [InsnReloc.pc, Placement.insnAddr]
    ring
  have hfield : (ddX (p.target >>> 12 - p.adrp.pc >>> 12) 0 18).toNat =
      (p.target >>> 12 - p.adrp.pc >>> 12).toNat % 2 ^ 18 := by
    rw [ddX, Bits.toNat_and_mask _ _ 18 rfl]
    rfl
  rw [← hfield, ← hpc]
  refine toNat_wordAt_or hwf.2.2.1 ?_ (by omega)
  rw [ddX, Bits.toNat_and_mask _ _ 18 rfl]
  exact Nat.mod_lt _ (by omega)

/-- The other instruction after its relocation. -/
lemma toNat_linked_low (hwf : p.WellFormed) (ov : CheckOverflow) (junk : BitVec 32) :
    (p.low.linked ov junk .lo12 p.rAddend p.symbol).toNat =
      p.low.insn.toNat + p.target.toNat % 2 ^ 12 := by
  have hfield : (encodeItypeImm p.target >>> 18).toNat = p.target.toNat % 2 ^ 12 := by
    have hmask : (ddX p.target 0 12).toNat = p.target.toNat % 2 ^ 12 := by
      rw [ddX, Bits.toNat_and_mask _ _ 12 rfl]
      rfl
    rw [encodeItypeImm, BitVec.toNat_ushiftRight, Bits.toNat_shiftLeft_of_lt (by omega), hmask,
      Nat.shiftRight_eq_div_pow]
    omega
  have hlt : (encodeItypeImm p.target >>> 18).toNat < 2 ^ 12 := by
    rw [hfield]
    exact Nat.mod_lt _ (by omega)
  rw [← hfield]
  exact toNat_wordAt_or hwf.2.2.2 (by exact hlt) (by omega)

/-- The simulator's `adrp`. -/
lemma execInsn_adrp {w : BitVec 32} (hop : (w >>> 24).toNat = 0x48) (hha : fieldHa w ≠ 0)
    (pc : BitVec 64) (s : Tcg.Machine Global) :
    ∃ s', execInsn pc w s = some (.done s') ∧
      s'.env.globals (.rb (fieldHa w)) = (pc &&& ~~~ 0xfff#64) + fieldImms 18 w <<< 12 := by
  have hdisas : disasDadao pc w = some (some (transADRP pc w)) := by
    rw [disasDadao, hop]
    rfl
  have hops : (insnOps pc (some (transADRP pc w))).all Tcg.Op.isStraight = true := by
    simp [insnOps, transADRP, hha, insnPrologue, Emitted.next, tbStop, movi, Tcg.Op.isStraight]
  refine ⟨Tcg.runStraight (insnOps pc (some (transADRP pc w))) s, ?_, ?_⟩
  · rw [execInsn, hdisas, Option.map_some, Tcg.exec_straight hops]
  · simp [insnOps, transADRP, hha, insnPrologue, Emitted.next, tbStop, movi, Tcg.runStraight,
      Tcg.stepOp, Tcg.BinOp.eval]

/-- The page the `adrp` computes is the one of the symbol. -/
lemma page_eq {S pc : BitVec 64} {w : BitVec 32}
    (hrange : -2 ^ 17 ≤ ((S.toNat / 2 ^ 12 : ℕ) : ℤ) - (pc.toNat / 2 ^ 12 : ℕ) ∧
      ((S.toNat / 2 ^ 12 : ℕ) : ℤ) - (pc.toNat / 2 ^ 12 : ℕ) < 2 ^ 17)
    (hw : w.toNat % 2 ^ 18 = (S >>> 12 - pc >>> 12).toNat % 2 ^ 18) :
    (pc &&& ~~~ 0xfff#64) + fieldImms 18 w <<< 12 =
      BitVec.ofNat 64 (S.toNat / 2 ^ 12 * 2 ^ 12) := by
  have hfield : fieldImms 18 w =
      BitVec.ofInt 64 ((S.toNat / 2 ^ 12 : ℕ) - (pc.toNat / 2 ^ 12 : ℕ)) := by
    rw [fieldImms, BitVec.signExtend]
    congr 1
    rw [BitVec.toInt_eq_toNat_cond, BitVec.toNat_setWidth, hw, BitVec.toNat_sub,
      BitVec.toNat_ushiftRight, BitVec.toNat_ushiftRight, Nat.shiftRight_eq_div_pow,
      Nat.shiftRight_eq_div_pow]
    have hS := S.isLt
    have hpc := pc.isLt
    clear hw
    split_ifs <;> omega
  have hpage : pc &&& ~~~ 0xfff#64 = BitVec.ofInt 64 ((pc.toNat / 2 ^ 12 * 2 ^ 12 : ℕ) : ℤ) := by
    apply BitVec.eq_of_toNat_eq
    have := pc.isLt
    rw [Bits.toNat_and_high pc (~~~ 0xfff#64) 12 rfl (by omega), BitVec.ofInt_natCast,
      BitVec.toNat_ofNat, Nat.mod_eq_of_lt (by omega)]
  have htwo : BitVec.twoPow 64 12 = BitVec.ofInt 64 (2 ^ 12) := rfl
  rw [hpage, hfield, BitVec.shiftLeft_eq_mul_twoPow, htwo, ← BitVec.ofInt_mul, ← BitVec.ofInt_add,
    ← BitVec.ofInt_natCast]
  congr 1
  push_cast
  ring

/-- An address is its page and a signed offset exactly when bit 11 is clear. -/
lemma page_add_offset_iff {S : BitVec 64} {w : BitVec 32}
    (hw : w.toNat % 2 ^ 12 = S.toNat % 2 ^ 12) :
    BitVec.ofNat 64 (S.toNat / 2 ^ 12 * 2 ^ 12) + fieldImms 12 w = S ↔
      S.toNat / 2 ^ 11 % 2 = 0 := by
  have hS := S.isLt
  have hoffset : (w.setWidth 12).toInt =
      if 2 * (S.toNat % 2 ^ 12) < 2 ^ 12 then ((S.toNat % 2 ^ 12 : ℕ) : ℤ)
      else ((S.toNat % 2 ^ 12 : ℕ) : ℤ) - (2 ^ 12 : ℕ) := by
    rw [BitVec.toInt_eq_toNat_cond, BitVec.toNat_setWidth, hw]
  rw [fieldImms, BitVec.signExtend, hoffset, ← BitVec.ofInt_natCast, ← BitVec.ofInt_add,
    ← BitVec.toNat_inj, BitVec.toNat_ofInt]
  clear hoffset hw
  split_ifs <;> omega

/-- What the pair is for comes down to the page of the symbol and the signed offset. -/
lemma addresses_iff_offset (hwf : p.WellFormed) (hrange : p.InRange) (ov : CheckOverflow)
    (junk : BitVec 32) : p.Addresses ov junk ↔
      BitVec.ofNat 64 (p.target.toNat / 2 ^ 12 * 2 ^ 12) +
        fieldImms 12 (p.low.linked ov junk .lo12 p.rAddend p.symbol) = p.target := by
  have hadrp := toNat_linked_adrp hwf ov junk
  obtain ⟨hop, hha, hzero, -⟩ := hwf
  have hlt : (p.target >>> 12 - p.adrp.pc >>> 12).toNat % 2 ^ 18 < 2 ^ 18 :=
    Nat.mod_lt _ (by omega)
  have hop' : (p.adrp.linked ov junk .hi18 p.rAddend p.symbol >>> 24).toNat = 0x48 := by
    rw [BitVec.toNat_ushiftRight, Nat.shiftRight_eq_div_pow] at hop ⊢
    omega
  have hha' : fieldHa (p.adrp.linked ov junk .hi18 p.rAddend p.symbol) = fieldHa p.adrp.insn := by
    rw [fieldHa, fieldHa, Bits.toNat_and_mask _ _ 6 rfl, Bits.toNat_and_mask _ _ 6 rfl,
      BitVec.toNat_ushiftRight, BitVec.toNat_ushiftRight, Nat.shiftRight_eq_div_pow,
      Nat.shiftRight_eq_div_pow, hadrp]
    omega
  rw [← page_eq (w := p.adrp.linked ov junk .hi18 p.rAddend p.symbol) hrange (by omega)]
  have hexec := execInsn_adrp hop' (by rwa [hha']) p.adrp.pc
  rw [hha'] at hexec
  constructor
  · intro h
    obtain ⟨s₁, hs₁, haddr⟩ := h ⟨⟨fun _ => 0, fun _ => 0⟩, fun _ => 0⟩
    obtain ⟨s₂, hs₂, hrb⟩ := hexec ⟨⟨fun _ => 0, fun _ => 0⟩, fun _ => 0⟩
    have heq : s₁ = s₂ := Tcg.Outcome.done.inj (Option.some.inj (hs₁.symm.trans hs₂))
    rw [← hrb, ← heq]
    exact haddr
  · intro h s
    obtain ⟨s', hs', hrb⟩ := hexec s
    refine ⟨s', hs', ?_⟩
    rw [hrb]
    exact h

/-- **The pair addresses its symbol** exactly when bit 11 of the address is clear. -/
theorem addresses_iff (hwf : p.WellFormed) (hrange : p.InRange) (ov : CheckOverflow)
    (junk : BitVec 32) : p.Addresses ov junk ↔ p.target.toNat / 2 ^ 11 % 2 = 0 := by
  have hlow := toNat_linked_low hwf ov junk
  have hzero := hwf.2.2.2
  rw [addresses_iff_offset hwf hrange]
  exact page_add_offset_iff (by omega)

/-- `adrp rb1` at `0x1000` and `ldbu rd1, rb1` behind it. -/
def adrpPair (symbol : BitVec 64) : PagePair where
  adrp := ⟨⟨0x1000, 0⟩, bfdPut32 (fun _ => 0) 0 0x48040000, 4⟩
  low := ⟨⟨0x1000, 0⟩, bfdPut32 (fun _ => 0) 4 0x40041000, 8⟩
  rAddend := 0
  symbol

/-- A symbol in the lower half of its page. -/
theorem addresses_iff_lower_half :
    (adrpPair 0x5432).WellFormed ∧ (adrpPair 0x5432).InRange ∧
      (adrpPair 0x5432).Addresses .documented 0 := by
  have hwf : (adrpPair 0x5432).WellFormed := by decide +kernel
  have hrange : (adrpPair 0x5432).InRange := by decide +kernel
  exact ⟨hwf, hrange, (addresses_iff hwf hrange .documented 0).mpr (by decide +kernel)⟩

/-- **A symbol in the upper half of its page is missed**, by a page. -/
theorem adrp_upper_half_missed :
    (adrpPair 0x5800).WellFormed ∧ (adrpPair 0x5800).InRange ∧
      ¬ (adrpPair 0x5800).Addresses .documented 0 := by
  have hwf : (adrpPair 0x5800).WellFormed := by decide +kernel
  have hrange : (adrpPair 0x5800).InRange := by decide +kernel
  refine ⟨hwf, hrange, ?_⟩
  rw [addresses_iff_offset hwf hrange]
  decide +kernel

end PagePair

end Dadao.Bfd
