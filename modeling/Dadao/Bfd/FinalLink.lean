import Dadao.Bfd.SetSymbol

set_option relaxedAutoImplicit false
set_option autoImplicit false

/-!
# Relocations by number

The howto table of `bfd/elf64-dadao.c` as `dadao_final_link_relocate` uses it: the relocations up to
`R_DADAO_PC_64` are left to the generic code of BFD, which is a parameter that carries its documented
effect, and those from `R_DADAO_ABS` on are performed by the backend.

## Main definitions

* `Dadao.Bfd.elfDadaoHowtoTable` — the table.
* `Dadao.Bfd.finalLinkRelocate` — the relocation with a given number.
* `Dadao.Bfd.Holds`, `Dadao.Bfd.Patched` — words in a section, and the replacement of words.
* `Dadao.Bfd.addressWords` — the instructions that load an address.

## Main results

* `Dadao.Bfd.patched_abs` — what `R_DADAO_ABS` makes of a `setzw` with three fillers.
-/

namespace Dadao.Bfd

/-! ## The table -/

/-- The fields of an entry that the generic code uses. -/
structure Howto where
  /-- The size in bytes. -/
  size : ℕ
  pcRelative : Bool
  srcMask : BitVec 64
  dstMask : BitVec 64
  pcrelOffset : Bool
  deriving DecidableEq, Repr

/-- An entry of `elf_dadao_howto_table`. -/
inductive HowtoEntry where
  | generic (howto : Howto)
  | vtable
  | backend (type : RelocType)
  deriving DecidableEq, Repr

/-- An absolute relocation of whole bytes. -/
def absHowto (size : ℕ) (dstMask : BitVec 64) : HowtoEntry :=
  .generic { size, pcRelative := false, srcMask := 0, dstMask, pcrelOffset := false }

/-- A relocation relative to its place. -/
def pcHowto (size : ℕ) (dstMask : BitVec 64) : HowtoEntry :=
  .generic { size, pcRelative := true, srcMask := 0, dstMask, pcrelOffset := true }

/-- `elf_dadao_howto_table`, indexed by the numbers of `include/elf/dadao.h`. -/
def elfDadaoHowtoTable : List HowtoEntry :=
  [absHowto 0 0, absHowto 1 0xff, absHowto 2 0xffff,
    .generic ⟨4, false, ~~~0xffffff#64, 0xffffff, false⟩, absHowto 4 0xffffffff, absHowto 8 (BitVec.allOnes 64),
    pcHowto 1 0xff, pcHowto 2 0xffff,
    .generic ⟨4, true, ~~~0xffffff#64, 0xffffff, true⟩, pcHowto 4 0xffffffff, pcHowto 8 (BitVec.allOnes 64),
    .vtable, .vtable, .backend .abs, .backend .brcc, .backend .brcc12, .backend .call, .backend .jump,
    .backend .hi18, .backend .lo12]

/-! ## The relocation -/

/-- The statuses of a relocation by number. -/
inductive LinkStatus where
  | ok | overflow | notsupported
  deriving DecidableEq, Repr

def RelocStatus.toLinkStatus : RelocStatus → LinkStatus
  | .ok => .ok
  | .notsupported => .notsupported

/-- The value the generic code adds, which no entry shifts. -/
def Howto.relocation (h : Howto) (p : Placement) (rOffset rAddend symbol : BitVec 64) : BitVec 64 :=
  symbol + rAddend - (if h.pcRelative then p.vma + p.outputOffset else 0) -
    (if h.pcRelative && h.pcrelOffset then rOffset else 0)

/-- The bytes the generic code puts back. -/
def Howto.patch (h : Howto) (x value : BitVec 64) : BitVec 64 :=
  x &&& ~~~h.dstMask ||| ((x &&& h.srcMask) + value) &&& h.dstMask

/-- `_bfd_final_link_relocate`: whatever the status, it changes the bytes at `r_offset` to `patch`. -/
structure BfdFinalLinkRelocate where
  run : Howto → Placement → Memory → BitVec 64 → BitVec 64 → BitVec 64 → LinkStatus × Memory
  contents_eq : ∀ h p m rOffset rAddend symbol, (run h p m rOffset rAddend symbol).2 =
    m.store rOffset h.size (h.patch (m.load rOffset h.size) (h.relocation p rOffset rAddend symbol))

/-- The generic code by its documented effect, with a given overflow check. -/
def BfdFinalLinkRelocate.documented (ok : Howto → BitVec 64 → Bool) : BfdFinalLinkRelocate where
  run h p m rOffset rAddend symbol :=
    (if ok h (h.relocation p rOffset rAddend symbol) then .ok else .overflow,
      m.store rOffset h.size (h.patch (m.load rOffset h.size) (h.relocation p rOffset rAddend symbol)))
  contents_eq := fun _ _ _ _ _ _ => rfl

/-- The code that is not part of the backend, and the value of an uninitialised local of `dd_fill_abs`. -/
structure LinkEnv where
  generic : BfdFinalLinkRelocate
  ov : CheckOverflow
  junk : BitVec 32

/-- The relocation of a section by the entry with a given number, as `dadao_elf_relocate_section` performs
it; the numbers of the virtual tables are skipped. -/
def finalLinkRelocate (env : LinkEnv) (number : ℕ) (p : Placement) (m : Memory)
    (rOffset rAddend symbol : BitVec 64) : Option (LinkStatus × Memory) :=
  elfDadaoHowtoTable[number]?.map fun
    | .generic h => env.generic.run h p m rOffset rAddend symbol
    | .vtable => (.ok, m)
    | .backend type =>
      let (status, m') := dadaoFinalLinkRelocate env.ov env.junk type p m rOffset rAddend symbol
      (status.toLinkStatus, m')

/-! ## Words in a section -/

/-- The words are in the section, one after the other. -/
def Holds (m : Memory) (off : BitVec 64) (ws : List (BitVec 32)) : Prop :=
  ∀ k w, ws[k]? = some w → wordAt m (wordOff off k) = w

/-- The words have been put into the section, and no other byte has changed. -/
def Patched (m m' : Memory) (off : BitVec 64) (ws : List (BitVec 32)) : Prop :=
  Holds m' off ws ∧ ∀ a, 4 * ws.length ≤ Memory.offsetFrom off a → m' a = m a

/-- The bytes of a value have been put into the section, and no other byte has changed. -/
def PatchedBytes (m m' : Memory) (off : BitVec 64) (n : ℕ) (v : BitVec 64) : Prop :=
  (m'.load off n).toNat = v.toNat % 2 ^ (8 * n) ∧ ∀ a, n ≤ Memory.offsetFrom off a → m' a = m a

lemma holds_singleton {m : Memory} {off : BitVec 64} {w : BitVec 32} :
    Holds m off [w] ↔ wordAt m off = w := by
  constructor
  · intro h
    have h0 := h 0 w rfl
    rwa [wordOff_zero] at h0
  · intro h k w' hk
    rw [List.getElem?_singleton] at hk
    split_ifs at hk with h0
    rw [h0, wordOff_zero, h, Option.some.inj hk]

/-- Storing what is there changes nothing. -/
lemma store_of_load_eq {m : Memory} {off v : BitVec 64} {n : ℕ}
    (h : ∀ i < n, (v >>> (8 * i)).setWidth 8 = m (off + BitVec.ofNat 64 i)) : m.store off n v = m := by
  funext a
  rw [Memory.store]
  by_cases hlt : Memory.offsetFrom off a < n
  · rw [if_pos hlt, h _ hlt, Memory.add_offsetFrom]
  · rw [if_neg hlt]

/-- The bytes of a loaded value. -/
lemma byte_of_load {m : Memory} {off : BitVec 64} {n i : ℕ} (hn : n ≤ 8) (hi : i < n) :
    ((m.load off n) >>> (8 * i)).setWidth 8 = m (off + BitVec.ofNat 64 i) := by
  induction n generalizing off i with
  | zero => omega
  | succ n ih =>
    rw [Memory.load]
    cases i with
    | zero =>
      apply BitVec.eq_of_getLsbD_eq
      intro p hp
      simp [hp]
    | succ i =>
      rw [← Memory.add_one_add, ← ih (show n ≤ 8 by omega) (by omega)]
      apply BitVec.eq_of_getLsbD_eq
      intro p hp
      have hlow : ((m off).setWidth 64).getLsbD (8 * (i + 1) + p) = false := by
        rw [BitVec.getLsbD_setWidth, BitVec.getLsbD_of_ge _ _ (by omega), Bool.and_false]
      rw [BitVec.getLsbD_setWidth, BitVec.getLsbD_setWidth, BitVec.getLsbD_ushiftRight, BitVec.getLsbD_or, hlow,
        Bool.false_or, BitVec.getLsbD_shiftLeft, BitVec.getLsbD_ushiftRight]
      have hpos : 8 * (i + 1) + p - 8 = 8 * i + p := by omega
      have hge : ¬ 8 * (i + 1) + p < 8 := by omega
      have hlt : 8 * (i + 1) + p < 64 := by omega
      simp only [hpos, hge, hlt, decide_true, decide_false, Bool.not_false, Bool.true_and]

/-- The low bytes of a word. -/
lemma toNat_load_of_le (m : Memory) (off : BitVec 64) {n : ℕ} (hn : n ≤ 4) :
    (m.load off n).toNat = (wordAt m off).toNat % 2 ^ (8 * n) := by
  rw [← toNat_bfdGet32]
  exact Memory.load_eq_of_bytes (by omega) fun i hi => (byte_of_load (by omega) (by omega)).symm

/-- Putting a word where it is already. -/
lemma bfdPut32_of_wordAt {m : Memory} {off : BitVec 64} {w : BitVec 32} (h : wordAt m off = w) :
    bfdPut32 m off (w.setWidth 64) = m := by
  have hval : w.setWidth 64 = m.load off 4 := by
    rw [← h, ← bfdGet32_eq]
    rfl
  exact store_of_load_eq fun i hi => by rw [hval, byte_of_load (by omega) hi]

/-- A put changes its word only. -/
lemma bfdPut32_of_le (m : Memory) {off a : BitVec 64} (v : BitVec 64) (ha : 4 ≤ Memory.offsetFrom off a) :
    bfdPut32 m off v a = m a := by
  rw [bfdPut32, Memory.store, if_neg (by omega)]

/-- A put changes no byte behind its word. -/
lemma bfdPut32_apply {m : Memory} {off a v : BitVec 64} {k : ℕ} (hk : k < 4)
    (ha : 4 * (k + 1) ≤ Memory.offsetFrom off a) : bfdPut32 m (wordOff off k) v a = m a := by
  rw [bfdPut32, Memory.store, if_neg]
  rw [wordOff, Memory.offsetFrom, BitVec.toNat_sub, BitVec.toNat_add, BitVec.toNat_ofNat]
  rw [Memory.offsetFrom, BitVec.toNat_sub] at ha
  have hoff := off.isLt
  have hlt := a.isLt
  omega

/-- One patched word leaves the word behind it alone. -/
lemma Patched.wordAt_next {m m' : Memory} {off : BitVec 64} {w : BitVec 32} (h : Patched m m' off [w]) :
    wordAt m' (wordOff off 1) = wordAt m (wordOff off 1) := by
  have hload : m'.load (wordOff off 1) 4 = m.load (wordOff off 1) 4 := by
    refine Memory.load_congr fun i hi => h.2 _ ?_
    have hoff : wordOff off 1 + BitVec.ofNat 64 i = off + BitVec.ofNat 64 (4 + i) := by
      rw [wordOff, BitVec.ofNat_add 4 i, BitVec.add_assoc]
    rw [hoff, Memory.offsetFrom_add (by omega)]
    simp
  rw [wordAt, wordAt, bfdGet32, bfdGet32, hload]

/-- The fill changes no byte behind the four words. -/
lemma FillAbs.fill_apply (f : FillAbs) (m : Memory) {a : BitVec 64}
    (ha : 16 ≤ Memory.offsetFrom f.datap a) {k : ℕ} (hk : k ≤ 4) : (f.fill m k).1 a = m a := by
  induction k with
  | zero => rfl
  | succ k ih =>
    have hlen := (f.fill_spec m (k := k) (by omega)).1
    have hle := f.length_emitted_le k
    rw [FillAbs.fill, FillAbs.fillWyde]
    split_ifs
    · rw [hlen]
      change bfdPut32 _ (wordOff f.datap (f.emitted k).length) _ a = _
      rw [bfdPut32_apply (by omega) (by omega), ih (by omega)]
    · exact ih (by omega)

/-- The low bits of a patched value. -/
lemma Howto.toNat_patch {h : Howto} {k : ℕ} (hsrc : h.srcMask = 0)
    (hdst : ∀ i < k, h.dstMask.getLsbD i = true) (x v : BitVec 64) :
    (h.patch x v).toNat % 2 ^ k = v.toNat % 2 ^ k := by
  apply Nat.eq_of_testBit_eq
  intro i
  rw [Nat.testBit_mod_two_pow, Nat.testBit_mod_two_pow, BitVec.testBit_toNat, BitVec.testBit_toNat]
  by_cases hi : i < k
  · have hbit := hdst i hi
    have h64 : i < 64 := BitVec.lt_of_getLsbD hbit
    have hadd : (x &&& 0) + v = v := by simp
    rw [Howto.patch, hsrc, hadd, BitVec.getLsbD_or, BitVec.getLsbD_and,
      BitVec.getLsbD_and, BitVec.getLsbD_not, hbit]
    simp [h64]
  · simp [hi]

/-- **Relocations of whole bytes** put the value down and change no other byte. -/
lemma BfdFinalLinkRelocate.patchedBytes (g : BfdFinalLinkRelocate) {h : Howto} (hsize : h.size ≤ 8)
    (hsrc : h.srcMask = 0) (hdst : ∀ i < 8 * h.size, h.dstMask.getLsbD i = true) (p : Placement) (m : Memory)
    (rOffset rAddend symbol : BitVec 64) :
    PatchedBytes m (g.run h p m rOffset rAddend symbol).2 rOffset h.size
      (h.relocation p rOffset rAddend symbol) := by
  rw [g.contents_eq]
  constructor
  · rw [Memory.toNat_load_store _ _ _ hsize]
    exact Howto.toNat_patch hsrc hdst _ _
  · intro a ha
    rw [Memory.store, if_neg (by omega)]

/-- `dd_fill_abs` changes no byte behind the four words. -/
lemma ddFillAbs_apply (f : FillAbs) (m : Memory) {a : BitVec 64} (ha : 16 ≤ Memory.offsetFrom f.datap a) :
    (ddFillAbs f m).1 a = m a := by
  have hfill := f.fill_apply m ha (le_refl 4)
  by_cases hempty : (f.fill m 4).2 = 0
  · have heq : ddFillAbs f m = (bfdPut32 (f.fill m 4).1 f.datap ((f.word 0 0).setWidth 64), 4) := if_pos hempty
    rw [heq]
    exact (bfdPut32_of_le _ _ (by omega)).trans hfill
  · have heq : ddFillAbs f m = f.fill m 4 := if_neg hempty
    rw [heq]
    exact hfill

/-- A relocation of a branch changes its word only. -/
lemma patchPcRelative_apply (ov : CheckOverflow) (bitsize : ℕ) (patch : BitVec 64 → BitVec 64) (m : Memory)
    (datap value : BitVec 64) {a : BitVec 64} (ha : 4 ≤ Memory.offsetFrom datap a) :
    (patchPcRelative ov bitsize patch m datap value).2 a = m a := by
  rw [patchPcRelative]
  split_ifs
  · rfl
  · exact bfdPut32_of_le _ _ ha
  · rfl

/-- The bytes a relocation may change: the instruction, with its fillers for `R_DADAO_ABS`. -/
def patchedBytes : RelocType → ℕ
  | .abs => 16
  | _ => 4

/-- **A relocation changes the instruction only**, or its four words. -/
lemma dadaoElfPerformRelocation_apply (ov : CheckOverflow) (junk : BitVec 32) (type : RelocType) (m : Memory)
    (datap addr value : BitVec 64) {a : BitVec 64} (ha : patchedBytes type ≤ Memory.offsetFrom datap a) :
    (dadaoElfPerformRelocation ov junk type m datap addr value).2 a = m a := by
  cases type with
  | abs =>
    have h16 : 16 ≤ Memory.offsetFrom datap a := ha
    rw [dadaoElfPerformRelocation]
    simp only
    by_cases hok : ov.ok (RelocType.bitsize .abs) addr = true
    · rw [if_pos hok]
      exact bfdPut32_of_le _ _ (by omega)
    · rw [if_neg hok]
      exact ddFillAbs_apply _ _ h16
  | hi18 =>
    rw [dadaoElfPerformRelocation]
    exact bfdPut32_of_le _ _ ha
  | lo12 =>
    rw [dadaoElfPerformRelocation]
    exact bfdPut32_of_le _ _ ha
  | _ =>
    rw [dadaoElfPerformRelocation]
    exact patchPcRelative_apply _ _ _ _ _ _ ha

/-! ## Addresses -/

/-- The instruction that sets wyde `i` of an `rd` register to that of an address; the first one clears the
other wydes. -/
def wydeWord (rd : ℕ) (addr : BitVec 64) (isFirst : Bool) (i : ℕ) : BitVec 32 :=
  rwii (if isFirst then 0x16 else 0x14) rd i (wydeOf addr i).toNat

/-- The instructions for the wydes of an address that are not zero, below wyde `k`. -/
def wydeWords (rd : ℕ) (addr : BitVec 64) : ℕ → List (BitVec 32)
  | 0 => []
  | k + 1 =>
    if wydeOf addr k ≠ 0 then
      wydeWords rd addr k ++ [wydeWord rd addr (wydeWords rd addr k).isEmpty k]
    else wydeWords rd addr k

/-- **The instructions that load an address**: one for every wyde that is not zero, or a `setzw` of zero,
and fillers up to four. -/
def addressWords (rd : ℕ) (addr : BitVec 64) : List (BitVec 32) :=
  let ws := if addr = 0 then [rwii 0x16 rd 0 0] else wydeWords rd addr 4
  ws ++ List.replicate (4 - ws.length) insnSwym

lemma wydeOf_lt (addr : BitVec 64) (i : ℕ) : (wydeOf addr i).toNat < 2 ^ 16 := by
  rw [FillAbs.toNat_wydeOf]
  exact Nat.mod_lt _ (by omega)

namespace SetSymbol

variable {c : SetSymbol}

/-- The instructions `dd_fill_abs` puts down for an `rd` register. -/
lemma fillAbs_word_rd (hreg : c.reg < 0x40) (junk : BitVec 32) (tmp : ℕ) {i : ℕ} (hi : i < 4) :
    (c.fillAbs junk).word tmp i = wydeWord c.reg c.addr (tmp == 0) i := by
  have hha : setHa c.reg = c.reg := Nat.mod_eq_of_lt hreg
  have hop : setOpcode c.reg = 0x16 := if_pos hreg
  have htype : (c.fillAbs junk).insnType = BitVec.ofNat 32 (0x14 * 2 ^ 24) := by
    obtain ⟨-, hparts, -⟩ := ddPseudoSetSymbol_parts c.reg (by omega)
    rw [FillAbs.insnType, fillAbs, bfdGet32_eq, wordAt_assembled_zero, hparts, hop]
    rfl
  rw [fillAbs_word (by omega), htype, hha, hop, wydeWord]
  by_cases htmp : tmp = 0
  · rw [if_pos htmp, if_pos (beq_iff_eq.mpr htmp)]
    exact or_eq_rwii (by omega) hreg hi (wydeOf_lt _ i)
  · rw [if_neg htmp, if_neg (fun h => htmp (beq_iff_eq.mp h))]
    exact or_eq_rwii (by omega) hreg hi (wydeOf_lt _ i)

lemma emitted_rd (hreg : c.reg < 0x40) (junk : BitVec 32) {k : ℕ} (hk : k ≤ 4) :
    (c.fillAbs junk).emitted k = wydeWords c.reg c.addr k := by
  induction k with
  | zero => rfl
  | succ k ih =>
    have hempty : (4 * (wydeWords c.reg c.addr k).length == 0) = (wydeWords c.reg c.addr k).isEmpty := by
      cases wydeWords c.reg c.addr k <;> rfl
    rw [FillAbs.emitted, wydeWords, ih (by omega), fillAbs_word_rd hreg junk _ (by omega), hempty]
    rfl

end SetSymbol

/-- A small address takes one instruction. -/
lemma addressWords_of_lt {rd : ℕ} {addr : BitVec 64} (h : addr.toNat < 2 ^ 16) :
    addressWords rd addr = [rwii 0x16 rd 0 addr.toNat, insnSwym, insnSwym, insnSwym] := by
  have hhigh : ∀ i, 0 < i → i < 4 → wydeOf addr i = 0 := by
    intro i hpos hi
    apply BitVec.eq_of_toNat_eq
    have hpow : 2 ^ 16 ≤ 2 ^ (16 * i) := Nat.pow_le_pow_right (by omega) (by omega)
    rw [FillAbs.toNat_wydeOf, Nat.div_eq_of_lt (by omega)]
    rfl
  have hlow : (wydeOf addr 0).toNat = addr.toNat := by
    rw [FillAbs.toNat_wydeOf, Nat.mul_zero, Nat.pow_zero, Nat.div_one, Nat.mod_eq_of_lt h]
  by_cases hzero : addr = 0
  · rw [hzero]
    rfl
  · have hne : wydeOf addr 0 ≠ 0 := by
      intro h0
      rw [h0] at hlow
      exact hzero (BitVec.eq_of_toNat_eq hlow.symm)
    simp only [addressWords, hzero, wydeWords, hhigh 1 (by omega) (by omega), hhigh 2 (by omega) (by omega),
      hhigh 3 (by omega) (by omega), hne, ne_eq, not_true_eq_false, not_false_eq_true, if_true, if_false,
      List.isEmpty_nil, List.nil_append, wydeWord, hlow]
    rfl

section Abs

variable {env : LinkEnv} {m : Memory} {off rAddend symbol : BitVec 64} {rd : ℕ} (p : Placement)
variable (hrd : rd < 0x40) (hwords : Holds m off [rwii 0x16 rd 0 0, insnSwym, insnSwym, insnSwym])

/-- The code for the address of a symbol, as the assembler of binutils would leave it. -/
def symbolCode (p : Placement) (m : Memory) (off rAddend symbol : BitVec 64) (rd : ℕ) : SetSymbol :=
  { reg := rd, place := p, contents := m, off, rAddend, symbol }

include hrd hwords

variable (rAddend symbol) in
/-- The section holds that code already. -/
lemma assembled_symbolCode : (symbolCode p m off rAddend symbol rd).assembled = m := by
  have hset : ddPseudoSetSymbol rd = rwii 0x16 rd 0 0 := by
    rw [(ddPseudoSetSymbol_parts rd (by omega)).1, setOpcode, if_pos hrd, setHa, Nat.mod_eq_of_lt hrd]
  have hoff : ∀ k, off + 4 + BitVec.ofNat 64 (4 * k) = wordOff off (k + 1) := by
    intro k
    have h4 : BitVec.ofNat 64 (4 * 1) = 4 := rfl
    rw [wordOff, Nat.mul_add, BitVec.ofNat_add, h4]
    ring
  have h0 : wordAt m off = rwii 0x16 rd 0 0 := by
    have h := hwords 0 _ rfl
    rwa [wordOff_zero] at h
  simp only [SetSymbol.assembled, symbolCode, ddFillNops, hoff]
  rw [hset, bfdPut32_of_wordAt h0, bfdPut32_of_wordAt (hwords 1 _ rfl), bfdPut32_of_wordAt (hwords 2 _ rfl),
    bfdPut32_of_wordAt (hwords 3 _ rfl)]

/-- `R_DADAO_ABS` at the second word is the relocation of that code. -/
lemma finalLinkRelocate_abs : finalLinkRelocate env 13 p m (off + 4) rAddend symbol =
    some (.ok, (symbolCode p m off rAddend symbol rd).linked env.ov env.junk) := by
  have hstatus : (dadaoFinalLinkRelocate env.ov env.junk .abs p m (off + 4) rAddend symbol).1 = .ok := by
    rw [dadaoFinalLinkRelocate, dadaoElfPerformRelocation]
    simp only
    split_ifs <;> rfl
  rw [SetSymbol.linked, assembled_symbolCode rAddend symbol p hrd hwords]
  simp only [finalLinkRelocate, elfDadaoHowtoTable, List.getElem?_cons_succ, List.getElem?_cons_zero,
    Option.map_some, hstatus]
  rfl

/-- **The address of a symbol**: `R_DADAO_ABS` makes the four words those that load the address, unless it is in
the last 64 KiB. -/
lemma patched_abs (haddr : (symbol + rAddend).toNat < 2 ^ 64 - 2 ^ 16) :
    Patched m ((symbolCode p m off rAddend symbol rd).linked env.ov env.junk) off
      (addressWords rd (symbol + rAddend)) := by
  have hasm := assembled_symbolCode rAddend symbol p hrd hwords
  generalize hc : symbolCode p m off rAddend symbol rd = c at *
  have hreg : c.reg = rd := by rw [← hc]; rfl
  have hcoff : c.off = off := by rw [← hc]; rfl
  have hcaddr : c.addr = symbol + rAddend := by rw [← hc]; rfl
  rw [← hcaddr] at haddr
  by_cases hok : env.ov.ok 16 c.addr = true
  · have hsmall : c.addr.toNat < 2 ^ 16 := by
      have hrange := (env.ov.ok_iff 16 c.addr (by omega)).mp hok
      rw [BitVec.toInt_eq_toNat_cond] at hrange
      split_ifs at hrange <;> omega
    rw [← hcaddr, addressWords_of_lt hsmall]
    constructor
    · intro k w hk
      have hlt : k < 4 := (List.getElem?_eq_some_iff.mp hk).1
      have hword : wordAt (c.linked env.ov env.junk) (wordOff c.off k) = _ :=
        SetSymbol.wordAt_linked_short (by omega) hok hlt
      rw [hcoff, hreg, setOpcode, if_pos hrd, setHa, Nat.mod_eq_of_lt hrd,
        SetSymbol.rwii_or_addr (by omega) hrd hsmall] at hword
      rw [hword]
      obtain rfl | rfl | rfl | rfl : k = 0 ∨ k = 1 ∨ k = 2 ∨ k = 3 := by omega
      all_goals exact Option.some.inj hk
    · intro a ha
      rw [SetSymbol.linked_eq, if_pos hok, hasm, hcoff, ← wordOff_zero off]
      rw [← hcoff] at ha ⊢
      exact bfdPut32_apply (by omega) (by simp only [List.length_cons, List.length_nil] at ha; omega)
  · have hne := SetSymbol.emitted_ne_nil env.junk hok
    have hemitted := SetSymbol.emitted_rd (c := c) (by omega) env.junk (le_refl 4)
    have hzero : symbol + rAddend ≠ 0 := by
      intro h0
      refine hok ((env.ov.ok_iff 16 c.addr (by omega)).mpr ?_)
      rw [hcaddr, h0]
      decide
    have heq : addressWords rd (symbol + rAddend) = (c.fillAbs env.junk).emitted 4 ++
        List.replicate (4 - ((c.fillAbs env.junk).emitted 4).length) insnSwym := by
      rw [addressWords, if_neg hzero, hemitted, hreg, hcaddr]
    have hlen := (c.fillAbs env.junk).length_emitted_le 4
    rw [heq]
    constructor
    · intro k w hk
      have hlt := (List.getElem?_eq_some_iff.mp hk).1
      rw [List.length_append, List.length_replicate] at hlt
      rw [SetSymbol.wordAt_linked_fill hok hne (by omega), hcoff] at hk
      exact Option.some.inj hk
    · intro a ha
      rw [List.length_append, List.length_replicate] at ha
      rw [SetSymbol.linked_eq, if_neg hok, hasm, FillAbs.ddFillAbs_eq _ _ hne]
      refine FillAbs.fill_apply _ _ ?_ (le_refl 4)
      rw [← hcoff] at ha
      change 16 ≤ Memory.offsetFrom c.off a
      omega

end Abs

/-- The words that load an address are instructions. -/
lemma msb_of_mem_addressWords {rd : ℕ} (hrd : rd < 0x40) {addr : BitVec 64} {w : BitVec 32}
    (h : w ∈ addressWords rd addr) : w.msb = false := by
  have hrwii : ∀ {op i imm : ℕ}, op < 2 ^ 7 → i < 4 → imm < 2 ^ 16 → (rwii op rd i imm).msb = false := by
    intro op i imm hop hi himm
    rw [BitVec.msb_eq_decide, toNat_rwii (by omega) hrd hi himm]
    exact decide_eq_false (by omega)
  have hwydes : ∀ {k : ℕ}, k ≤ 4 → ∀ w ∈ wydeWords rd addr k, w.msb = false := by
    intro k hk
    induction k with
    | zero => simp [wydeWords]
    | succ k ih =>
      intro w hw
      rw [wydeWords] at hw
      split_ifs at hw
      · rcases List.mem_append.mp hw with hw | hw
        · exact ih (by omega) w hw
        · rw [List.mem_singleton.mp hw, wydeWord]
          exact hrwii (by split_ifs <;> omega) (by omega) (wydeOf_lt addr k)
      · exact ih (by omega) w hw
  rcases List.mem_append.mp h with h | h
  · split_ifs at h
    · rw [List.mem_singleton.mp h]
      exact hrwii (by omega) (by omega) (by omega)
    · exact hwydes (le_refl 4) w h
  · rw [List.eq_of_mem_replicate h]
    rfl

lemma length_addressWords (rd : ℕ) (addr : BitVec 64) : (addressWords rd addr).length = 4 := by
  have hle : ∀ k, (wydeWords rd addr k).length ≤ k := by
    intro k
    induction k with
    | zero => exact le_refl 0
    | succ k ih =>
      rw [wydeWords]
      split_ifs
      · rw [List.length_append, List.length_singleton]
        omega
      · omega
  have h4 := hle 4
  rw [addressWords, List.length_append, List.length_replicate]
  split_ifs
  · rfl
  · omega

/-- An address in the last 64 KiB overwrites the opcode. -/
lemma not_patched_abs {env : LinkEnv} {m : Memory} {off rAddend symbol : BitVec 64} {rd : ℕ} (p : Placement)
    (hrd : rd < 0x40) (haddr : 2 ^ 64 - 2 ^ 16 ≤ (symbol + rAddend).toNat) :
    ¬ Patched m ((symbolCode p m off rAddend symbol rd).linked env.ov env.junk) off
      (addressWords rd (symbol + rAddend)) := by
  intro h
  generalize hc : symbolCode p m off rAddend symbol rd = c at h
  have hreg : c.reg = rd := by rw [← hc]; rfl
  have hcoff : c.off = off := by rw [← hc]; rfl
  have hcaddr : c.addr = symbol + rAddend := by rw [← hc]; rfl
  rw [← hcaddr] at haddr h
  have hok : env.ov.ok 16 c.addr = true := by
    refine (env.ov.ok_iff 16 c.addr (by omega)).mpr ?_
    have := c.addr.isLt
    rw [BitVec.toInt_eq_toNat_cond, if_neg (by omega)]
    omega
  have hlow : (c.addr.setWidth 32).msb = true := by
    rw [BitVec.msb_eq_decide, decide_eq_true_iff, BitVec.toNat_setWidth]
    omega
  have hword : wordAt (c.linked env.ov env.junk) (wordOff c.off 0) = _ :=
    SetSymbol.wordAt_linked_short (by omega) hok (by omega)
  have hpos : 0 < (addressWords rd c.addr).length := by
    rw [length_addressWords]
    omega
  have hsome : (addressWords rd c.addr)[0]? = some (addressWords rd c.addr)[0] := List.getElem?_eq_getElem hpos
  have hfalse := msb_of_mem_addressWords hrd (List.mem_of_getElem? hsome)
  rw [← h.1 0 _ hsome, ← hcoff, hword, if_pos rfl, BitVec.msb_or, hlow, Bool.or_true] at hfalse
  exact absurd hfalse (by decide)

end Dadao.Bfd
