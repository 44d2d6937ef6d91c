import Dadao.Bfd.DeleteBytes
import Dadao.Bfd.SetSymbol
import Mathlib.Data.Nat.Find

set_option relaxedAutoImplicit false
set_option autoImplicit false

/-!
# Linker relaxation

`dadao_elf_relax_section` of `bfd/elf64-dadao.c`: it looks at every relocation of a code section
against a defined global symbol, and deletes bytes after the instruction when the next word is taken
for a filler.

The test for a filler is that the next word is zero. The assembler fills with `swym`, whose word is not
zero, so its fillers stay; a zero word is never a filler, and it is deleted with what follows.

## Main definitions

* `Dadao.Bfd.relaxReloc` — the body of the loop over the relocations.
* `Dadao.Bfd.relaxUpTo`, `Dadao.Bfd.dadaoElfRelaxSection` — the loop and the pass.
* `Dadao.Bfd.KeepsProgram`, `Dadao.Bfd.PreservesProgram` — what a step of the loop and a run should do.
* `Dadao.Bfd.Triggers` — the relocations that are relaxed.

## Main results

* `Dadao.Bfd.not_triggers_of_swym` — a filler of the assembler is not recognized.
* `Dadao.Bfd.preservesProgram_iff` — when relaxation preserves the program.
-/

namespace Dadao.Bfd

open Qemu

/-! ## The pass -/

/-- The number of a relocation type in `include/elf/dadao.h`. -/
def RelocType.number : RelocType → ℕ
  | .abs => 13
  | .brcc => 14
  | .brcc12 => 15
  | .call => 16
  | .jump => 17
  | .hi18 => 18
  | .lo12 => 19

/-- `DADAO_INSN_CALL_IIII`. -/
def insnCallIiii : BitVec 32 := 0x6c000000

/-- `DADAO_INSN_JUMP_IIII`. -/
def insnJumpIiii : BitVec 32 := 0x64000000

/-- `MATCH`. -/
def matchInsn (opcode insn : BitVec 32) : Bool := opcode &&& 0xff000000 = insn

/-- The instructions whose `R_DADAO_ABS` is relaxed. -/
def matchAbs (opcode : BitVec 32) : Bool :=
  matchInsn opcode insnSetzwRd || matchInsn opcode insnSetowRd || matchInsn opcode insnSetzwRb

/-- `symval`: the address of a global symbol that is defined; the loop goes on to the next relocation
for any other symbol. -/
def symval (place : ℕ → Placement) (s : ElfSection) (irel : Rela) : Option (BitVec 64) :=
  if irel.rSym < s.locals.length then none
  else
    (s.symHashes[irel.rSym - s.locals.length]?).bind fun i =>
      let h := s.hashes i
      if h.type = .defined ∨ h.type = .defweak then
        some (h.value + (place h.sec).vma + (place h.sec).outputOffset)
      else none

/-- The instruction of a relocation. -/
def ElfSection.opcode (s : ElfSection) (irel : Rela) : BitVec 32 := wordAt s.contents (irel.rOffset - 4)

/-- The word after it. -/
def ElfSection.nextopc (s : ElfSection) (irel : Rela) : BitVec 32 := wordAt s.contents irel.rOffset

/-- The arguments of `dd_fill_abs`; the opcode is one of those it knows. -/
def relaxFillAbs (s : ElfSection) (irel : Rela) (symval : BitVec 64) : FillAbs where
  opcode := s.opcode irel &&& 0xff000000
  reg := s.opcode irel &&& 0x00fc0000
  addr := symval
  datap := irel.rOffset - 4
  junk := 0

/-- `delcnt`, with the contents, which `dd_fill_abs` changes. -/
def delcnt (s : ElfSection) (irel : Rela) (symval : BitVec 64) : Memory × ℕ :=
  let opcode := s.opcode irel
  let number := (opcode >>> 24).toNat
  if s.nextopc irel ≠ 0 then (s.contents, 0)
  else if irel.rType = RelocType.call.number ∧ matchInsn opcode insnCallIiii then (s.contents, 16)
  else if irel.rType = RelocType.brcc.number ∧ 0x28 ≤ number ∧ number ≤ 0x2d then (s.contents, 20)
  else if irel.rType = RelocType.brcc12.number ∧ number = 0x2e ∧ number = 0x2f then (s.contents, 14)
  else if irel.rType = RelocType.jump.number ∧ matchInsn opcode insnJumpIiii then (s.contents, 16)
  else if irel.rType = RelocType.abs.number ∧ matchAbs opcode then
    ((ddFillAbs (relaxFillAbs s irel symval) s.contents).1,
      16 - (ddFillAbs (relaxFillAbs s irel symval) s.contents).2)
  else (s.contents, 0)

/-- The body of the loop, with the bytes it deletes. -/
def relaxReloc (place : ℕ → Placement) (s : ElfSection) (irel : Rela) : ElfSection × Option Cut :=
  match symval place s irel with
  | none => (s, none)
  | some v =>
    let s' := { s with contents := (delcnt s irel v).1 }
    if (delcnt s irel v).2 ≠ 0 then
      (dadaoElfRelaxDeleteBytes s' irel.rOffset (delcnt s irel v).2,
        some ⟨irel.rOffset.toNat, (delcnt s irel v).2⟩)
    else (s', none)

/-- The body for relocation `n`; the relocations are adjusted where they are. -/
def relaxNth (place : ℕ → Placement) (s : ElfSection) (n : ℕ) : ElfSection × Option Cut :=
  match s.relocs[n]? with
  | none => (s, none)
  | some irel => relaxReloc place s irel

/-- The section after the first `n` rounds of the loop. -/
def relaxUpTo (place : ℕ → Placement) (s : ElfSection) : ℕ → ElfSection
  | 0 => s
  | n + 1 => (relaxNth place (relaxUpTo place s n) n).1

/-- The kind of link and the flags of the section. -/
structure RelaxLink where
  relocatable : Bool
  secReloc : Bool
  secCode : Bool
  deriving DecidableEq, Repr

/-- The section is not looked at. -/
def RelaxLink.Skips (link : RelaxLink) : Prop :=
  link.relocatable = true ∨ link.secReloc = false ∨ link.secCode = false

instance (link : RelaxLink) : Decidable link.Skips := inferInstanceAs (Decidable (_ ∨ _))

/-- `dadao_elf_relax_section`, the section after it. -/
def dadaoElfRelaxSection (link : RelaxLink) (place : ℕ → Placement) (s : ElfSection) : ElfSection :=
  if link.Skips then s else relaxUpTo place s s.relocs.length

/-! ## What it is for -/

/-- A deletion of fillers: whole words of `swym`, with every reference kept, and every branch that is
resolved already and stays in the section reaches the same instruction. -/
structure DeletesFiller (c : Cut) (s s' : ElfSection) : Prop where
  inBounds : c.addr + c.count ≤ s.size.toNat
  words : 4 ∣ c.count
  filler : ∀ k, 4 * k < c.count → wordAt s.contents (BitVec.ofNat 64 (c.addr + 4 * k)) = insnSwym
  references : KeepsReferences c s s'
  branches : ∀ p q t : BitVec 64, (∀ irel ∈ s.relocs, irel.rOffset - 4 ≠ p) →
    p < s.size → ¬ c.Deleted p.toNat → c.Moves p.toNat q.toNat →
    takenTarget p (wordAt s.contents p) = some t → t < s.size →
      ∃ t', takenTarget q (wordAt s'.contents q) = some t' ∧ c.Moves t.toNat t'.toNat

/-- A step of the loop keeps the program: it deletes fillers or does nothing. -/
def KeepsProgram (s : ElfSection) : ElfSection × Option Cut → Prop
  | (s', none) => s' = s
  | (s', some c) => DeletesFiller c s s'

/-- The sections at the start of a pass; where the sections are placed may change in between. -/
inductive Reached (link : RelaxLink) (s : ElfSection) : ElfSection → Prop where
  | start : Reached link s s
  | pass {t : ElfSection} (place : ℕ → Placement) (h : Reached link s t) :
      Reached link s (dadaoElfRelaxSection link place t)

/-- **Relaxation preserves the program**: so does every step of every pass of every run. -/
def PreservesProgram (link : RelaxLink) (s : ElfSection) : Prop :=
  ¬ link.Skips → ∀ t, Reached link s t → ∀ place n,
    KeepsProgram (relaxUpTo place t n) (relaxNth place (relaxUpTo place t n) n)

/-- The relocation is against a global symbol that is defined. -/
def ElfSection.GlobalDefined (s : ElfSection) (irel : Rela) : Prop :=
  s.locals.length ≤ irel.rSym ∧ ∃ h ∈ s.symHashes[irel.rSym - s.locals.length]?,
    (s.hashes h).type = .defined ∨ (s.hashes h).type = .defweak

/-- The type of the relocation is one of those that are relaxed, with its instructions. -/
def ElfSection.Relaxable (s : ElfSection) (irel : Rela) : Prop :=
  irel.rType = RelocType.call.number ∧ matchInsn (s.opcode irel) insnCallIiii = true ∨
    irel.rType = RelocType.brcc.number ∧
      0x28 ≤ (s.opcode irel >>> 24).toNat ∧ (s.opcode irel >>> 24).toNat ≤ 0x2d ∨
    irel.rType = RelocType.jump.number ∧ matchInsn (s.opcode irel) insnJumpIiii = true ∨
    irel.rType = RelocType.abs.number ∧ matchAbs (s.opcode irel) = true

/-- The relocations that are relaxed. -/
def Triggers (s : ElfSection) (irel : Rela) : Prop :=
  s.GlobalDefined irel ∧ s.nextopc irel = 0 ∧ s.Relaxable irel

/-- **A filler of the assembler is not recognized.** -/
theorem not_triggers_of_swym {s : ElfSection} {irel : Rela} (h : s.nextopc irel = insnSwym) :
    ¬ Triggers s irel := by
  rintro ⟨-, hzero, -⟩
  rw [h] at hzero
  exact absurd hzero (by decide)

/-! ## Four words of `dd_fill_abs` -/

namespace FillAbs

variable (f : FillAbs)

/-- An instruction for every wyde. -/
lemma emitted_full {k : ℕ} (h : (f.emitted k).length = k) {i : ℕ} (hi : i < k) :
    (f.emitted k)[i]? = some (f.word (4 * i) i) ∧ wydeOf f.addr i ≠ 0 := by
  induction k with
  | zero => omega
  | succ k ih =>
    have hle := f.length_emitted_le k
    rw [emitted] at h ⊢
    by_cases hwyde : wydeOf f.addr k ≠ 0
    · rw [if_pos hwyde, List.length_append, List.length_singleton] at h
      rw [if_pos hwyde]
      rcases Nat.lt_or_ge i k with hik | hik
      · rw [List.getElem?_append_left (by omega)]
        exact ih (by omega) hik
      · obtain rfl : i = k := by omega
        rw [List.getElem?_append_right (by omega), show i - (f.emitted i).length = 0 by omega,
          show (f.emitted i).length = i by omega]
        exact ⟨rfl, hwyde⟩
    · rw [if_neg hwyde] at h
      omega

/-- **When four words are filled in**, the second of them is not zero. -/
lemma second_word_ne_zero {m : Memory} (h : 16 ≤ (ddFillAbs f m).2) :
    wordAt (ddFillAbs f m).1 (wordOff f.datap 1) ≠ 0 := by
  have hne : f.emitted 4 ≠ [] := by
    intro hnil
    have hzero : (f.fill m 4).2 = 0 := by rw [(f.fill_spec m (le_refl 4)).1, hnil]; rfl
    have hshort : (ddFillAbs f m).2 = 4 := by
      rw [ddFillAbs]
      exact congrArg Prod.snd (if_pos hzero)
    omega
  obtain ⟨hlen, hwords⟩ := f.fill_spec m (le_refl 4)
  have hle := f.length_emitted_le 4
  rw [f.ddFillAbs_eq m hne] at h ⊢
  obtain ⟨hword, hwyde⟩ := f.emitted_full (k := 4) (by omega) (i := 1) (by omega)
  rw [hwords 1 (by omega), hword, Option.getD_some, word]
  intro hzero
  exact hwyde (BitVec.or_eq_zero_iff.mp hzero).2

end FillAbs

/-! ## One round of the loop -/

section Round

variable {place : ℕ → Placement} {s : ElfSection} {irel : Rela}

lemma symval_isSome_iff : (symval place s irel).isSome = true ↔ s.GlobalDefined irel := by
  unfold symval ElfSection.GlobalDefined
  by_cases hlocal : irel.rSym < s.locals.length
  · rw [if_pos hlocal]
    exact ⟨fun h => (by cases h), fun h => absurd h.1 (by omega)⟩
  · rw [if_neg hlocal]
    cases s.symHashes[irel.rSym - s.locals.length]? with
    | none => simp
    | some h =>
      simp only [Option.bind_some, Option.mem_def, Option.some.injEq, exists_eq_left']
      by_cases hdef : (s.hashes h).type = .defined ∨ (s.hashes h).type = .defweak
      · rw [if_pos hdef]
        exact ⟨fun _ => ⟨by omega, hdef⟩, fun _ => rfl⟩
      · rw [if_neg hdef]
        exact ⟨fun h => (by cases h), fun h => absurd h.2 hdef⟩

lemma delcnt_of_not (h : ¬ (s.nextopc irel = 0 ∧ s.Relaxable irel)) (v : BitVec 64) :
    delcnt s irel v = (s.contents, 0) := by
  unfold delcnt
  by_cases hzero : s.nextopc irel = 0
  · have hnot : ¬ s.Relaxable irel := fun hr => h ⟨hzero, hr⟩
    simp only [ElfSection.Relaxable, not_or] at hnot
    have hbrcc12 : ¬ (irel.rType = RelocType.brcc12.number ∧ (s.opcode irel >>> 24).toNat = 0x2e ∧
        (s.opcode irel >>> 24).toNat = 0x2f) := by omega
    rw [if_neg (not_not.mpr hzero), if_neg hnot.1, if_neg hnot.2.1, if_neg hbrcc12,
      if_neg hnot.2.2.1, if_neg hnot.2.2.2]
  · rw [if_pos hzero]

/-- **A relocation that is relaxed** deletes bytes or overwrites the next word. -/
lemma delcnt_of_relaxable (hzero : s.nextopc irel = 0) (h : s.Relaxable irel) (v : BitVec 64) :
    (delcnt s irel v).2 ≠ 0 ∨ wordAt (delcnt s irel v).1 irel.rOffset ≠ 0 := by
  unfold delcnt
  rw [if_neg (not_not.mpr hzero)]
  rcases h with ⟨htype, hop⟩ | ⟨htype, hop⟩ | ⟨htype, hop⟩ | ⟨htype, hop⟩
  · exact Or.inl (by simp [htype, hop])
  · have hcall : ¬ (irel.rType = RelocType.call.number ∧ matchInsn (s.opcode irel) insnCallIiii = true) := by
      simp [htype, RelocType.number]
    rw [if_neg hcall, if_pos ⟨htype, hop⟩]
    exact Or.inl (by simp)
  · exact Or.inl (by simp [htype, hop, RelocType.number])
  · have hoff : wordOff (relaxFillAbs s irel v).datap 1 = irel.rOffset :=
      BitVec.sub_add_cancel irel.rOffset 4
    have hnext := (relaxFillAbs s irel v).second_word_ne_zero (m := s.contents)
    rw [hoff] at hnext
    simp only [htype, hop, RelocType.number, Nat.reduceEqDiff, false_and, and_self, ↓reduceIte]
    by_cases hfull : 16 ≤ (ddFillAbs (relaxFillAbs s irel v) s.contents).2
    · exact Or.inr (hnext hfull)
    · exact Or.inl (by omega)

/-- **A relocation that is not relaxed** changes nothing. -/
lemma relaxReloc_of_not_triggers (h : ¬ Triggers s irel) : relaxReloc place s irel = (s, none) := by
  unfold relaxReloc
  cases hval : symval place s irel with
  | none => rfl
  | some v =>
    have hdef : s.GlobalDefined irel := symval_isSome_iff.mp (by rw [hval]; rfl)
    have hcnt := delcnt_of_not (fun hrelax => h ⟨hdef, hrelax⟩) v
    simp only [hcnt, ne_eq, not_true_eq_false, ↓reduceIte]

/-- **A relocation that is relaxed** does not keep the program. -/
lemma not_keepsProgram_of_triggers (h : Triggers s irel) :
    ¬ KeepsProgram s (relaxReloc place s irel) := by
  obtain ⟨hdef, hzero, hrelax⟩ := h
  obtain ⟨v, hval⟩ := Option.isSome_iff_exists.mp (symval_isSome_iff.mpr hdef : (symval place s irel).isSome = true)
  have hcnt := delcnt_of_relaxable hzero hrelax v
  unfold relaxReloc
  rw [hval]
  by_cases hdel : (delcnt s irel v).2 = 0
  · simp only [hdel, ne_eq, not_true_eq_false, ↓reduceIte]
    intro hsame
    have hcontents : (delcnt s irel v).1 = s.contents := congrArg ElfSection.contents hsame
    rw [hcontents] at hcnt
    exact (hcnt.resolve_left (not_not.mpr hdel)) hzero
  · simp only [hdel, ne_eq, not_false_eq_true, ↓reduceIte]
    intro hkeep
    -- The first of the deleted words is the one that was tested.
    have hfiller := hkeep.filler 0 (Nat.pos_of_ne_zero hdel)
    rw [Nat.mul_zero, Nat.add_zero, BitVec.ofNat_toNat, BitVec.setWidth_eq] at hfiller
    exact not_triggers_of_swym hfiller ⟨hdef, hzero, hrelax⟩

end Round

/-! ## The pass and the runs -/

section Run

variable {link : RelaxLink} {s : ElfSection}

/-- The first rounds change nothing as long as no relocation is relaxed. -/
lemma relaxUpTo_eq {place : ℕ → Placement} {n : ℕ}
    (h : ∀ i < n, ∀ irel ∈ s.relocs[i]?, ¬ Triggers s irel) : relaxUpTo place s n = s := by
  induction n with
  | zero => rfl
  | succ n ih =>
    rw [relaxUpTo, ih fun i hi => h i (by omega), relaxNth]
    cases hget : s.relocs[n]? with
    | none => rfl
    | some irel =>
      simp only []
      rw [relaxReloc_of_not_triggers (h n (by omega) irel hget)]

/-- **A pass over relocations none of which is relaxed** changes nothing. -/
lemma reached_eq (h : link.Skips ∨ ∀ irel ∈ s.relocs, ¬ Triggers s irel) {t : ElfSection}
    (hreached : Reached link s t) : t = s := by
  induction hreached with
  | start => rfl
  | pass place _ ih =>
    subst ih
    unfold dadaoElfRelaxSection
    by_cases hskip : link.Skips
    · exact if_pos hskip
    · rw [if_neg hskip]
      exact relaxUpTo_eq fun i _ irel hget => (h.resolve_left hskip) irel (List.mem_of_getElem? hget)

/-- **When relaxation preserves the program**: the section is not looked at, or none of its relocations
is relaxed. -/
theorem preservesProgram_iff (link : RelaxLink) (s : ElfSection) : PreservesProgram link s ↔
    link.Skips ∨ ∀ irel ∈ s.relocs, ¬ Triggers s irel := by
  by_cases hskip : link.Skips
  · exact ⟨fun _ => Or.inl hskip, fun _ h => absurd hskip h⟩
  constructor
  · intro hkeep
    by_contra hsome
    obtain ⟨hsome, irel, hmem, htrigger⟩ : ¬ link.Skips ∧ ∃ irel ∈ s.relocs, Triggers s irel := by
      simpa using hsome
    -- The first relocation that is relaxed finds the section as it was.
    have hexists : ∃ n : ℕ, ∃ irel ∈ s.relocs[n]?, Triggers s irel := by
      obtain ⟨n, hget⟩ := List.getElem?_of_mem hmem
      exact ⟨n, irel, hget, htrigger⟩
    classical
    obtain ⟨irel, hget, htrigger⟩ := Nat.find_spec hexists
    let place : ℕ → Placement := fun _ => ⟨0, 0⟩
    have hfirst : relaxUpTo place s (Nat.find hexists) = s :=
      relaxUpTo_eq fun i hi irel hget htrigger => Nat.find_min hexists hi ⟨irel, hget, htrigger⟩
    have hstep := hkeep hskip s .start place (Nat.find hexists)
    rw [hfirst, relaxNth, Option.mem_def.mp hget] at hstep
    exact not_keepsProgram_of_triggers htrigger hstep
  · rintro hnone - t hreached place n
    obtain rfl := reached_eq hnone hreached
    have hall (i : ℕ) (irel : Rela) (hget : irel ∈ t.relocs[i]?) : ¬ Triggers t irel :=
      (hnone.resolve_left hskip) irel (List.mem_of_getElem? hget)
    rw [relaxUpTo_eq fun i _ => hall i, relaxNth]
    cases hget : t.relocs[n]? with
    | none => rfl
    | some irel =>
      simp only []
      rw [relaxReloc_of_not_triggers (hall n irel hget)]
      rfl

end Run

/-- A call of a symbol at 20, and zero words after it. -/
def zerosAfterCall : ElfSection where
  sec := 1
  shndx := 1
  size := 24
  contents := fun a => if a = 3 then 0x6c else 0
  relocs := [⟨4, 0, 16, 0⟩]
  locals := []
  symHashes := [0]
  hashes := fun _ => ⟨.defined, 1, 20⟩
  symcount_lt := by decide

/-- **The zero words are deleted**, and they are no fillers. -/
theorem zerosAfterCall_deleted : ¬ PreservesProgram ⟨false, true, true⟩ zerosAfterCall := by
  intro hkeep
  have htrigger : Triggers zerosAfterCall ⟨4, 0, 16, 0⟩ := by
    refine ⟨⟨by decide, 0, rfl, by decide⟩, by decide, Or.inl ⟨rfl, by decide⟩⟩
  let place : ℕ → Placement := fun _ => ⟨0, 0⟩
  have hfirst : zerosAfterCall.relocs[0]? = some ⟨4, 0, 16, 0⟩ := rfl
  have hstep := hkeep (by decide) zerosAfterCall .start place 0
  rw [relaxUpTo, relaxNth, hfirst] at hstep
  exact not_keepsProgram_of_triggers htrigger hstep

end Dadao.Bfd
