import Dadao.Bfd.Reloc
import Dadao.Lib.Cut
import Mathlib.Data.List.Forall2

set_option relaxedAutoImplicit false
set_option autoImplicit false

/-!
# Deleting bytes of a section

`dadao_elf_relax_delete_bytes` of `bfd/elf64-dadao.c`, by which linker relaxation shortens a section:
the bytes after the deleted ones move down, and the relocations and symbols after them with the
bytes.

The offset of a relocation and the value of a symbol move when they are greater than the address of
the deletion, and addends never do. The word a relocation patches is the one before its offset. A
global symbol moves once for every entry of `sym_hashes` that points to it.

## Main definitions

* `Dadao.Bfd.ElfSection` — a section with the relocations and symbols of its file.
* `Dadao.Bfd.dadaoElfRelaxDeleteBytes` — `dadao_elf_relax_delete_bytes`.
* `Dadao.Bfd.Deletion` — a deletion of bytes that nothing patches and no symbol is between.
* `Dadao.Bfd.KeepsReferences` — what the adjustments are for.

## Main results

* `Dadao.Bfd.Deletion.keepsReferences_iff` — when every reference is kept.
-/

namespace Dadao.Bfd

/-! ## The section and its symbols -/

/-- `Elf_Internal_Rela`; the number of the symbol and the type are the parts of `r_info`. -/
structure Rela where
  rOffset : BitVec 64
  rSym : ℕ
  rType : ℕ
  rAddend : BitVec 64
  deriving DecidableEq, Repr

/-- `Elf_Internal_Sym`, a local symbol. -/
structure ElfSym where
  stShndx : ℕ
  stValue : BitVec 64
  deriving DecidableEq, Repr

/-- `enum bfd_link_hash_type`. -/
inductive LinkHashType where
  | new | undefined | undefweak | defined | defweak | common | indirect | warning
  deriving DecidableEq, Repr

/-- An entry of the linker's hash table, with `u.def.section` and `u.def.value`. -/
structure LinkHashEntry where
  type : LinkHashType
  sec : ℕ
  value : BitVec 64
  deriving DecidableEq, Repr

/-- The symbol is defined in the section. -/
def LinkHashEntry.DefinedIn (h : LinkHashEntry) (sec : ℕ) : Prop :=
  (h.type = .defined ∨ h.type = .defweak) ∧ h.sec = sec

instance (h : LinkHashEntry) (sec : ℕ) : Decidable (h.DefinedIn sec) :=
  inferInstanceAs (Decidable (_ ∧ _))

/-- A section, with the local symbols of its file and the entries of the hash table that the file's
global symbols point to. The number of those is an `unsigned int`. -/
structure ElfSection where
  sec : ℕ
  shndx : ℕ
  size : BitVec 64
  contents : Memory
  relocs : List Rela
  locals : List ElfSym
  symHashes : List ℕ
  hashes : ℕ → LinkHashEntry
  symcount_lt : symHashes.length < 2 ^ 32

namespace ElfSection

/-- The value of a symbol of the file that is defined in the section. -/
def symbolValue (s : ElfSection) (i : ℕ) : Option (BitVec 64) :=
  if i < s.locals.length then
    (s.locals[i]?).bind fun isym => if isym.stShndx = s.shndx then some isym.stValue else none
  else
    (s.symHashes[i - s.locals.length]?).bind fun h =>
      if (s.hashes h).DefinedIn s.sec then some (s.hashes h).value else none

/-- What a relocation refers to in the section: the value of its symbol plus the addend. -/
def target (s : ElfSection) (irel : Rela) : Option (BitVec 64) :=
  (s.symbolValue irel.rSym).map (· + irel.rAddend)

end ElfSection

/-! ## The function -/

/-- `memmove`: the `n` bytes at `src` come to `dst`. -/
def memmove (m : Memory) (dst src : BitVec 64) (n : ℕ) : Memory := fun a =>
  if Memory.offsetFrom dst a < n then m (src + (a - dst)) else m a

/-- The adjustment of an offset or a value. -/
def adjust (addr : BitVec 64) (count : ℕ) (value : BitVec 64) : BitVec 64 :=
  if addr < value then value - BitVec.ofNat 64 count else value

/-- The adjustment of a relocation. -/
def Rela.adjust (addr : BitVec 64) (count : ℕ) (irel : Rela) : Rela :=
  { irel with rOffset := Bfd.adjust addr count irel.rOffset }

/-- The adjustment of a local symbol. -/
def ElfSym.adjust (shndx : ℕ) (addr : BitVec 64) (count : ℕ) (isym : ElfSym) : ElfSym :=
  if isym.stShndx = shndx then { isym with stValue := Bfd.adjust addr count isym.stValue } else isym

/-- The adjustment of a global symbol. -/
def LinkHashEntry.adjust (sec : ℕ) (addr : BitVec 64) (count : ℕ) (h : LinkHashEntry) :
    LinkHashEntry :=
  if h.DefinedIn sec then { h with value := Bfd.adjust addr count h.value } else h

/-- `dadao_elf_relax_delete_bytes`. -/
def dadaoElfRelaxDeleteBytes (s : ElfSection) (addr : BitVec 64) (count : ℕ) : ElfSection :=
  { s with
    contents := memmove s.contents addr (addr + BitVec.ofNat 64 count)
      (s.size - addr - BitVec.ofNat 64 count).toNat
    size := s.size - BitVec.ofNat 64 count
    relocs := s.relocs.map (Rela.adjust addr count)
    locals := s.locals.map (ElfSym.adjust s.shndx addr count)
    hashes := visit (LinkHashEntry.adjust s.sec addr count) s.symHashes s.hashes }

/-! ## What it is for -/

/-- A deletion in the section: no relocation patches a deleted byte and no symbol of the section is
strictly inside the deleted bytes. The number of bytes is an `int`. -/
structure Deletion (s : ElfSection) where
  addr : BitVec 64
  count : ℕ
  count_lt : count < 2 ^ 31
  inBounds : addr.toNat + count ≤ s.size.toNat
  noPatch : ∀ irel ∈ s.relocs, 4 ≤ irel.rOffset.toNat → ∀ i < 4,
    ¬ (Cut.mk addr.toNat count).Deleted (irel.rOffset.toNat - 4 + i)
  noLocal : ∀ isym ∈ s.locals, isym.stShndx = s.shndx →
    ¬ (Cut.mk addr.toNat count).Inside isym.stValue.toNat
  noGlobal : ∀ h ∈ s.symHashes, (s.hashes h).DefinedIn s.sec →
    ¬ (Cut.mk addr.toNat count).Inside (s.hashes h).value.toNat

/-- The references of the section `s'`, which is `s` after the cut `c`, are those of `s`: the bytes
that remain move down, every relocation patches the same word, and every symbol and every target in
the section denotes the same byte. -/
structure KeepsReferences (c : Cut) (s s' : ElfSection) : Prop where
  bytes : ∀ p q : BitVec 64, p < s.size → ¬ c.Deleted p.toNat → c.Moves p.toNat q.toNat →
    s'.contents q = s.contents p
  patches : List.Forall₂ (fun irel irel' => 4 ≤ irel.rOffset.toNat → irel.rOffset ≤ s.size →
      c.Moves (irel.rOffset - 4).toNat (irel'.rOffset - 4).toNat ∧
        wordAt s'.contents (irel'.rOffset - 4) = wordAt s.contents (irel.rOffset - 4))
    s.relocs s'.relocs
  locals : List.Forall₂ (fun isym isym' => isym.stShndx = s.shndx →
      isym'.stShndx = s'.shndx ∧ c.Moves isym.stValue.toNat isym'.stValue.toNat) s.locals s'.locals
  globals : ∀ h ∈ s.symHashes, (s.hashes h).DefinedIn s.sec →
    (s'.hashes h).DefinedIn s'.sec ∧ c.Moves (s.hashes h).value.toNat (s'.hashes h).value.toNat
  targets : List.Forall₂ (fun irel irel' => ∀ t ∈ s.target irel, t ≤ s.size →
      ∃ t' ∈ s'.target irel', c.Moves t.toNat t'.toNat) s.relocs s'.relocs

/-! ## The adjustments -/

section Adjust

variable {addr v : BitVec 64} {count : ℕ}

lemma adjust_of_le (h : v.toNat ≤ addr.toNat) : adjust addr count v = v :=
  if_neg (by rw [BitVec.lt_def]; omega)

lemma adjust_of_lt (h : addr.toNat < v.toNat) : adjust addr count v = v - BitVec.ofNat 64 count :=
  if_pos (BitVec.lt_def.mpr h)

lemma adjust_zero : adjust addr 0 v = v := by simp [adjust]

/-- A value moved down without wrapping around. -/
lemma toNat_sub_count (h : count ≤ v.toNat) : (v - BitVec.ofNat 64 count).toNat = v.toNat - count := by
  have hv := v.isLt
  have hcount : (BitVec.ofNat 64 count).toNat = count := by
    rw [BitVec.toNat_ofNat, Nat.mod_eq_of_lt (by omega)]
  rw [BitVec.toNat_sub, hcount]
  omega

/-- **One adjustment is right** for every mark that is not strictly inside the deleted bytes. -/
lemma moves_adjust (h : ¬ (Cut.mk addr.toNat count).Inside v.toNat) :
    (Cut.mk addr.toNat count).Moves v.toNat (adjust addr count v).toNat := by
  by_cases hle : v.toNat ≤ addr.toNat
  · rw [adjust_of_le hle]
    exact Or.inl ⟨hle, rfl⟩
  · have hafter : addr.toNat + count ≤ v.toNat := by
      by_contra hin
      exact h ⟨Nat.lt_of_not_le hle, Nat.lt_of_not_le hin⟩
    rw [adjust_of_lt (by omega), toNat_sub_count (by omega)]
    exact Or.inr ⟨hafter, by simp only []; omega⟩

/-- Several adjustments subtract the count several times, at least once from a value after the
address. -/
lemma exists_adjust_iterate (n : ℕ) : ∃ k ≤ n, (0 < n → addr.toNat < v.toNat → 0 < k) ∧
    (adjust addr count)^[n] v = v - BitVec.ofNat 64 (k * count) := by
  induction n generalizing v with
  | zero => exact ⟨0, Nat.le_refl 0, fun h => absurd h (Nat.lt_irrefl 0), by simp⟩
  | succ n ih =>
    obtain ⟨k, hk, -, heq⟩ := ih (v := adjust addr count v)
    rw [Function.iterate_succ_apply, heq]
    by_cases hlt : addr.toNat < v.toNat
    · refine ⟨k + 1, by omega, fun _ _ => k.succ_pos, ?_⟩
      have hsplit (x y z : BitVec 64) : x - y - z = x - (z + y) := by
        apply BitVec.eq_of_toNat_eq
        simp only [BitVec.toNat_sub, BitVec.toNat_add]
        omega
      rw [adjust_of_lt hlt, hsplit, Nat.add_mul, Nat.one_mul, BitVec.ofNat_add]
    · exact ⟨k, by omega, fun _ h => absurd h hlt, by rw [adjust_of_le (by omega)]⟩

/-- **Two adjustments are one too many** for a mark well after the deleted bytes. -/
lemma adjust_iterate_eq_iff {n : ℕ} (hpos : 0 < n) (hn : n < 2 ^ 32) (hcount : 0 < count)
    (hlt : count < 2 ^ 31) (h : addr.toNat + count < v.toNat) :
    (adjust addr count)^[n] v = v - BitVec.ofNat 64 count ↔ n = 1 := by
  obtain ⟨n, rfl⟩ : ∃ m, n = m + 1 := ⟨n - 1, by omega⟩
  rw [Function.iterate_succ_apply, adjust_of_lt (by omega)]
  obtain ⟨k, hk, hkpos, heq⟩ := @exists_adjust_iterate addr (v - BitVec.ofNat 64 count) count n
  rw [heq]
  refine ⟨fun hsame => ?_, fun hone => ?_⟩
  · by_contra hn0
    have hk0 : 0 < k := hkpos (by omega) (by rw [toNat_sub_count (by omega)]; omega)
    have hbound : k * count < 2 ^ 32 * 2 ^ 31 := Nat.mul_lt_mul'' (by omega) hlt
    have hk1 : 0 < k * count := Nat.mul_pos hk0 hcount
    have hnat := congrArg BitVec.toNat hsame
    generalize v - BitVec.ofNat 64 count = x at hnat
    rw [BitVec.toNat_sub, BitVec.toNat_ofNat, Nat.mod_eq_of_lt (by omega)] at hnat
    have hx := x.isLt
    omega
  · obtain rfl : k = 0 := by omega
    simp

/-- What the iterated adjustment of an entry does to its value. -/
lemma LinkHashEntry.adjust_iterate (sec n : ℕ) {h : LinkHashEntry} (hdef : h.DefinedIn sec) :
    (LinkHashEntry.adjust sec addr count)^[n] h = { h with value := (Bfd.adjust addr count)^[n] h.value } := by
  induction n generalizing h with
  | zero => rfl
  | succ n ih =>
    have hstep : LinkHashEntry.adjust sec addr count h = { h with value := Bfd.adjust addr count h.value } :=
      if_pos hdef
    have hrest : (LinkHashEntry.adjust sec addr count)^[n] { h with value := Bfd.adjust addr count h.value } = _ :=
      ih hdef
    rw [Function.iterate_succ_apply, hstep, hrest, Function.iterate_succ_apply]

end Adjust

namespace Deletion

variable {s : ElfSection} (d : Deletion s)

/-- The positions that are deleted. -/
def cut : Cut := ⟨d.addr.toNat, d.count⟩

/-- The section after the deletion. -/
def result : ElfSection := dadaoElfRelaxDeleteBytes s d.addr d.count

/-- Every global symbol after the deleted bytes is listed once. -/
def ListedOnce : Prop := ∀ h ∈ s.symHashes, (s.hashes h).DefinedIn s.sec →
  d.addr.toNat + d.count < (s.hashes h).value.toNat → s.symHashes.count h = 1

/-- Every target in the section is on the same side of the deleted bytes as its symbol. -/
def SameSide : Prop := ∀ irel ∈ s.relocs, ∀ v ∈ s.symbolValue irel.rSym, v + irel.rAddend ≤ s.size →
  v ≤ d.addr ∧ v + irel.rAddend ≤ d.addr ∨
    d.addr < v ∧ d.addr.toNat + d.count ≤ (v + irel.rAddend).toNat

/-! ### Bytes and patched words -/

/-- The number of bytes that move down. -/
lemma toNat_tail : (s.size - d.addr - BitVec.ofNat 64 d.count).toNat =
    s.size.toNat - d.addr.toNat - d.count := by
  have hin := d.inBounds
  have haddr : (s.size - d.addr).toNat = s.size.toNat - d.addr.toNat := by
    rw [BitVec.toNat_sub]
    have hs := s.size.isLt
    omega
  rw [toNat_sub_count (by omega), haddr]

lemma contents_of_lt {q : BitVec 64} (h : q.toNat < d.addr.toNat) :
    d.result.contents q = s.contents q := by
  have hin := d.inBounds
  have hs := s.size.isLt
  refine if_neg ?_
  rw [toNat_tail, Memory.offsetFrom_lt_iff (by omega)]
  omega

lemma contents_of_le {q : BitVec 64} (h : d.addr.toNat ≤ q.toNat)
    (hq : q.toNat + d.count < s.size.toNat) :
    d.result.contents q = s.contents (q + BitVec.ofNat 64 d.count) := by
  have hin := d.inBounds
  have hs := s.size.isLt
  have hmoved : Memory.offsetFrom d.addr q < (s.size - d.addr - BitVec.ofNat 64 d.count).toNat := by
    rw [toNat_tail, Memory.offsetFrom_lt_iff (by omega)]
    omega
  have hresult : d.result.contents q = s.contents (d.addr + BitVec.ofNat 64 d.count + (q - d.addr)) :=
    if_pos hmoved
  rw [hresult]
  congr 1
  apply BitVec.eq_of_toNat_eq
  simp only [BitVec.toNat_add, BitVec.toNat_sub]
  omega

/-- **The bytes that remain** go where their positions go. -/
lemma contents_moves {p q : BitVec 64} (hp : p < s.size) (hdel : ¬ d.cut.Deleted p.toNat)
    (hmoves : d.cut.Moves p.toNat q.toNat) : d.result.contents q = s.contents p := by
  have hlt : p.toNat < s.size.toNat := BitVec.lt_def.mp hp
  simp only [cut, Cut.Deleted, Cut.Moves] at hdel hmoves
  by_cases hbefore : p.toNat < d.addr.toNat
  · obtain rfl : q = p := BitVec.eq_of_toNat_eq (by omega)
    exact d.contents_of_lt hbefore
  · have hpq : q + BitVec.ofNat 64 d.count = p := by
      apply BitVec.eq_of_toNat_eq
      rw [BitVec.toNat_add, BitVec.toNat_ofNat]
      have := p.isLt
      omega
    rw [d.contents_of_le (by omega) (by omega), hpq]

/-- **A word that remains** goes where its address goes. -/
lemma wordAt_moves {p q : BitVec 64} (hp : p.toNat + 4 ≤ s.size.toNat)
    (hdel : ∀ i < 4, ¬ d.cut.Deleted (p.toNat + i))
    (hmoves : ∀ i < 4, d.cut.Moves (p.toNat + i) (q.toNat + i)) :
    wordAt d.result.contents q = wordAt s.contents p := by
  have hs := s.size.isLt
  have htop : q.toNat + 4 < 2 ^ 64 := by
    have := hmoves 0 (by omega)
    simp only [Cut.Moves] at this
    omega
  have hload : d.result.contents.load q 4 = s.contents.load p 4 := by
    refine Memory.load_congr_shift fun i hi => ?_
    have hpi : (p + BitVec.ofNat 64 i).toNat = p.toNat + i := by
      rw [BitVec.toNat_add, BitVec.toNat_ofNat]
      omega
    have hqi : (q + BitVec.ofNat 64 i).toNat = q.toNat + i := by
      rw [BitVec.toNat_add, BitVec.toNat_ofNat]
      omega
    refine d.contents_moves ?_ ?_ ?_
    · rw [BitVec.lt_def, hpi]
      omega
    · rw [hpi]
      exact hdel i hi
    · rw [hpi, hqi]
      exact hmoves i hi
  rw [wordAt, wordAt, bfdGet32, bfdGet32, hload]

/-- The offset of a relocation is before or well after the deleted bytes. -/
lemma rOffset_cases {irel : Rela} (hmem : irel ∈ s.relocs) (hoff : 4 ≤ irel.rOffset.toNat) :
    d.count = 0 ∨ irel.rOffset.toNat ≤ d.addr.toNat ∨
      d.addr.toNat + d.count + 4 ≤ irel.rOffset.toNat := by
  have hpatch := d.noPatch irel hmem hoff
  simp only [Cut.Deleted] at hpatch
  by_contra hcross
  by_cases hnear : irel.rOffset.toNat ≤ d.addr.toNat + 4
  · exact hpatch (d.addr.toNat + 4 - irel.rOffset.toNat) (by omega) (by omega)
  · exact hpatch 0 (by omega) (by omega)

/-- **Every relocation patches the same word.** -/
lemma patches_adjust {irel : Rela} (hmem : irel ∈ s.relocs) (hoff : 4 ≤ irel.rOffset.toNat)
    (hsize : irel.rOffset ≤ s.size) :
    d.cut.Moves (irel.rOffset - 4).toNat ((irel.adjust d.addr d.count).rOffset - 4).toNat ∧
      wordAt d.result.contents ((irel.adjust d.addr d.count).rOffset - 4) =
        wordAt s.contents (irel.rOffset - 4) := by
  have hpatch := d.noPatch irel hmem hoff
  have hcases := d.rOffset_cases hmem hoff
  have hin := d.inBounds
  have hs := s.size.isLt
  have hle : irel.rOffset.toNat ≤ s.size.toNat := BitVec.le_def.mp hsize
  have hp : (irel.rOffset - 4).toNat = irel.rOffset.toNat - 4 := @toNat_sub_count _ 4 hoff
  obtain ⟨q, hq, hshift⟩ : ∃ q : BitVec 64, (irel.adjust d.addr d.count).rOffset = q ∧
      (q.toNat = irel.rOffset.toNat ∧ (d.count = 0 ∨ irel.rOffset.toNat ≤ d.addr.toNat) ∨
        q.toNat = irel.rOffset.toNat - d.count ∧ d.addr.toNat + d.count + 4 ≤ irel.rOffset.toNat) := by
    refine ⟨_, rfl, ?_⟩
    rcases hcases with hzero | hbefore | hafter
    · rw [Rela.adjust, hzero, adjust_zero]
      exact Or.inl ⟨rfl, Or.inl rfl⟩
    · rw [Rela.adjust, adjust_of_le hbefore]
      exact Or.inl ⟨rfl, Or.inr hbefore⟩
    · rw [Rela.adjust, adjust_of_lt (by omega), toNat_sub_count (by omega)]
      exact Or.inr ⟨rfl, hafter⟩
  have hq4 : (q - 4).toNat = q.toNat - 4 := @toNat_sub_count _ 4 (by omega)
  have hmoves : ∀ i < 4, d.cut.Moves ((irel.rOffset - 4).toNat + i) ((q - 4).toNat + i) := by
    intro i hi
    rw [hp, hq4]
    simp only [cut, Cut.Moves]
    omega
  rw [hq]
  refine ⟨hmoves 0 (by omega), d.wordAt_moves (by omega) (fun i hi => ?_) hmoves⟩
  rw [hp]
  exact hpatch i hi

/-! ### Symbols and targets -/

/-- An entry after the deletion. -/
lemma hashes_result (h : ℕ) : d.result.hashes h =
    (LinkHashEntry.adjust s.sec d.addr d.count)^[s.symHashes.count h] (s.hashes h) :=
  visit_apply _ _ _ _

lemma definedIn_result {h : ℕ} (hdef : (s.hashes h).DefinedIn s.sec) :
    (d.result.hashes h).DefinedIn s.sec := by
  rw [hashes_result, LinkHashEntry.adjust_iterate _ _ hdef]
  exact hdef

lemma value_result {h : ℕ} (hdef : (s.hashes h).DefinedIn s.sec) : (d.result.hashes h).value =
    (adjust d.addr d.count)^[s.symHashes.count h] (s.hashes h).value := by
  rw [hashes_result, LinkHashEntry.adjust_iterate _ _ hdef]

/-- **Global symbols move once** when those after the deleted bytes are listed once. -/
lemma value_result_of_listedOnce (hlisted : d.count = 0 ∨ d.ListedOnce) {h : ℕ} (hmem : h ∈ s.symHashes)
    (hdef : (s.hashes h).DefinedIn s.sec) :
    (d.result.hashes h).value = adjust d.addr d.count (s.hashes h).value := by
  have hpos : 0 < s.symHashes.count h := List.count_pos_iff.mpr hmem
  have hinside := d.noGlobal h hmem hdef
  rw [value_result d hdef]
  generalize hn : s.symHashes.count h = n at hpos
  generalize hv : (s.hashes h).value = v at hinside
  obtain ⟨m, rfl⟩ : ∃ m, n = m + 1 := ⟨n - 1, by omega⟩
  rw [Function.iterate_succ_apply]
  by_cases hzero : d.count = 0
  · rw [hzero, adjust_zero]
    exact Function.iterate_fixed adjust_zero m
  by_cases hfar : d.addr.toNat + d.count < v.toNat
  · have hone := (hlisted.resolve_left hzero) h hmem hdef (by rw [hv]; exact hfar)
    obtain rfl : m = 0 := by omega
    rfl
  · refine Function.iterate_fixed (adjust_of_le ?_) m
    simp only [Cut.Inside] at hinside
    by_cases hle : v.toNat ≤ d.addr.toNat
    · rw [adjust_of_le hle]
      exact hle
    · rw [adjust_of_lt (by omega), toNat_sub_count (by omega)]
      omega

/-- **The global symbols are right** exactly when those after the deleted bytes are listed once. -/
lemma globals_iff : (∀ h ∈ s.symHashes, (s.hashes h).DefinedIn s.sec →
      (d.result.hashes h).DefinedIn d.result.sec ∧
        d.cut.Moves (s.hashes h).value.toNat (d.result.hashes h).value.toNat) ↔
    d.count = 0 ∨ d.ListedOnce := by
  constructor
  · intro hglobal
    by_cases hzero : d.count = 0
    · exact Or.inl hzero
    refine Or.inr fun h hmem hdef hfar => ?_
    have hmoves := (hglobal h hmem hdef).2
    have hcount := List.count_le_length (l := s.symHashes) (a := h)
    have hsymcount := s.symcount_lt
    rw [value_result d hdef] at hmoves
    refine (adjust_iterate_eq_iff (List.count_pos_iff.mpr hmem) (by omega) (by omega) d.count_lt hfar).mp ?_
    apply BitVec.eq_of_toNat_eq
    rw [toNat_sub_count (by omega)]
    simp only [cut, Cut.Moves] at hmoves
    omega
  · intro hlisted h hmem hdef
    refine ⟨d.definedIn_result hdef, ?_⟩
    rw [d.value_result_of_listedOnce hlisted hmem hdef]
    exact moves_adjust (d.noGlobal h hmem hdef)

/-- **The value of a symbol after the deletion.** -/
lemma symbolValue_result (hlisted : d.count = 0 ∨ d.ListedOnce) (i : ℕ) :
    d.result.symbolValue i = (s.symbolValue i).map (adjust d.addr d.count) := by
  have hlength : d.result.locals.length = s.locals.length := List.length_map _
  unfold ElfSection.symbolValue
  rw [hlength]
  by_cases hi : i < s.locals.length
  · have hlocal : d.result.locals[i]? = (s.locals[i]?).map (ElfSym.adjust s.shndx d.addr d.count) :=
      List.getElem?_map ..
    rw [if_pos hi, if_pos hi, hlocal, List.getElem?_eq_getElem hi]
    simp only [Option.map_some, Option.bind_some]
    generalize s.locals[i] = isym
    by_cases hsec : isym.stShndx = s.shndx
    · have hadjusted : ElfSym.adjust s.shndx d.addr d.count isym =
          { isym with stValue := adjust d.addr d.count isym.stValue } := if_pos hsec
      rw [hadjusted, if_pos hsec]
      exact if_pos hsec
    · have hkept : ElfSym.adjust s.shndx d.addr d.count isym = isym := if_neg hsec
      rw [hkept, if_neg hsec]
      exact if_neg hsec
  · have hlist : d.result.symHashes[i - s.locals.length]? = s.symHashes[i - s.locals.length]? := rfl
    rw [if_neg hi, if_neg hi, hlist]
    cases hget : s.symHashes[i - s.locals.length]? with
    | none => rfl
    | some h =>
      have hmem : h ∈ s.symHashes := List.mem_of_getElem? hget
      simp only [Option.bind_some]
      by_cases hdef : (s.hashes h).DefinedIn s.sec
      · have hdef' : (d.result.hashes h).DefinedIn d.result.sec := d.definedIn_result hdef
        rw [if_pos hdef, if_pos hdef', d.value_result_of_listedOnce hlisted hmem hdef, Option.map_some]
      · have hkept : d.result.hashes h = s.hashes h := by
          have hfixed : LinkHashEntry.adjust s.sec d.addr d.count (s.hashes h) = s.hashes h := if_neg hdef
          rw [hashes_result]
          exact Function.iterate_fixed hfixed _
        rw [hkept, if_neg hdef]
        exact if_neg hdef

/-- **One target**: it moves like its symbol, which is right when it is on the same side. -/
lemma target_moves_iff {v a : BitVec 64} (hsize : v + a ≤ s.size) :
    d.cut.Moves (v + a).toNat (adjust d.addr d.count v + a).toNat ↔
      d.count = 0 ∨ v ≤ d.addr ∧ v + a ≤ d.addr ∨
        d.addr < v ∧ d.addr.toNat + d.count ≤ (v + a).toNat := by
  have hin := d.inBounds
  have hs := s.size.isLt
  have ht : (v + a).toNat ≤ s.size.toNat := BitVec.le_def.mp hsize
  by_cases hle : v.toNat ≤ d.addr.toNat
  · rw [adjust_of_le hle, Cut.moves_self_iff, BitVec.le_def, BitVec.le_def, BitVec.lt_def]
    simp only [cut]
    omega
  · have hcomm : v - BitVec.ofNat 64 d.count + a = v + a - BitVec.ofNat 64 d.count :=
      BitVec.sub_add_comm
    rw [adjust_of_lt (by omega), hcomm, BitVec.le_def, BitVec.le_def, BitVec.lt_def]
    by_cases hafter : d.count ≤ (v + a).toNat
    · have hiff := d.cut.moves_sub_iff (q := (v + a).toNat - d.count) (Nat.sub_add_cancel hafter)
      rw [toNat_sub_count hafter, hiff]
      simp only [cut]
      omega
    · -- The target moves to an address before the section.
      have hcount : (BitVec.ofNat 64 d.count).toNat = d.count := by
        rw [BitVec.toNat_ofNat, Nat.mod_eq_of_lt (by omega)]
      simp only [cut, Cut.Moves]
      rw [BitVec.toNat_sub (v + a), hcount]
      omega

/-- **The targets are right** exactly when they are on the same side as their symbols. -/
lemma targets_iff (hlisted : d.count = 0 ∨ d.ListedOnce) :
    List.Forall₂ (fun irel irel' => ∀ t ∈ s.target irel, t ≤ s.size →
      ∃ t' ∈ d.result.target irel', d.cut.Moves t.toNat t'.toNat) s.relocs d.result.relocs ↔
    d.count = 0 ∨ d.SameSide := by
  have hrelocs : d.result.relocs = s.relocs.map (Rela.adjust d.addr d.count) := rfl
  have htarget (irel : Rela) : d.result.target (irel.adjust d.addr d.count) =
      (s.symbolValue irel.rSym).map fun v => adjust d.addr d.count v + irel.rAddend := by
    have hsym : (irel.adjust d.addr d.count).rSym = irel.rSym := rfl
    have hadd : (irel.adjust d.addr d.count).rAddend = irel.rAddend := rfl
    rw [ElfSection.target, hsym, hadd, d.symbolValue_result hlisted, Option.map_map]
    rfl
  rw [hrelocs, List.forall₂_map_right_iff, List.forall₂_same]
  constructor
  · intro hkeep
    by_cases hzero : d.count = 0
    · exact Or.inl hzero
    refine Or.inr fun irel hmem v hv hsize => ?_
    obtain ⟨t', ht', hmoves⟩ := hkeep irel hmem (v + irel.rAddend)
      (by rw [Option.mem_def, ElfSection.target, Option.mem_def.mp hv]; rfl) hsize
    rw [htarget, Option.mem_def.mp hv, Option.mem_def, Option.map_some] at ht'
    rw [← Option.some.inj ht', d.target_moves_iff hsize] at hmoves
    exact hmoves.resolve_left hzero
  · intro hside irel hmem t ht hsize
    obtain ⟨v, hv, rfl⟩ := Option.map_eq_some_iff.mp (Option.mem_def.mp ht)
    refine ⟨_, by rw [htarget, hv]; rfl, ?_⟩
    rw [d.target_moves_iff hsize]
    exact hside.imp_right fun h => h irel hmem v hv hsize

/-- **When every reference is kept**: nothing is deleted, or every global symbol after the deleted
bytes is listed once and every target is on the same side of them as its symbol. -/
theorem keepsReferences_iff : KeepsReferences d.cut s d.result ↔
    d.count = 0 ∨ d.ListedOnce ∧ d.SameSide := by
  constructor
  · intro hkeep
    have hlisted := d.globals_iff.mp hkeep.globals
    have hside := (d.targets_iff hlisted).mp hkeep.targets
    rcases hlisted with hzero | honce
    · exact Or.inl hzero
    · exact hside.imp_right fun h => ⟨honce, h⟩
  · intro hcond
    have hlisted : d.count = 0 ∨ d.ListedOnce := hcond.imp_right And.left
    refine ⟨fun _ _ => d.contents_moves, ?_, ?_, d.globals_iff.mpr hlisted,
      (d.targets_iff hlisted).mpr (hcond.imp_right And.right)⟩
    · exact List.forall₂_map_right_iff.mpr
        (List.forall₂_same.mpr fun irel hmem => d.patches_adjust hmem)
    · refine List.forall₂_map_right_iff.mpr (List.forall₂_same.mpr fun isym hmem hsec => ?_)
      have hadjusted : ElfSym.adjust s.shndx d.addr d.count isym =
          { isym with stValue := adjust d.addr d.count isym.stValue } := if_pos hsec
      rw [hadjusted]
      exact ⟨hsec, moves_adjust (d.noLocal isym hmem hsec)⟩

end Deletion

/-- A section of ten words whose first is a call of the section symbol plus 32; the others are
filler. -/
def callForward : ElfSection where
  sec := 1
  shndx := 1
  size := 40
  contents := fun a => if a = 3 then 0x6c else if a.toNat % 4 = 3 then 0x10 else 0
  relocs := [⟨4, 0, 16, 32⟩]
  locals := [⟨1, 0⟩]
  symHashes := []
  hashes := fun _ => ⟨.new, 0, 0⟩
  symcount_lt := by decide

/-- The filler is deleted. -/
def deleteFiller : Deletion callForward where
  addr := 4
  count := 16
  count_lt := by decide
  inBounds := by decide
  noPatch := by decide
  noLocal := by decide
  noGlobal := by decide

/-- **The target of the call is not kept**: it stays at 32, and the instruction there is now
at 16. -/
theorem callForward_target_lost :
    ¬ KeepsReferences deleteFiller.cut callForward deleteFiller.result := by
  intro hkeep
  have htargets := hkeep.targets
  simp only [callForward, deleteFiller, Deletion.result, dadaoElfRelaxDeleteBytes, List.map_cons,
    List.map_nil, List.forall₂_cons] at htargets
  obtain ⟨t', ht', hmoves⟩ := htargets.1 32 rfl (by decide)
  obtain rfl : t' = 32 := (Option.some.inj (ht'.symm.trans (by decide)))
  exact absurd hmoves (by decide)

end Dadao.Bfd
