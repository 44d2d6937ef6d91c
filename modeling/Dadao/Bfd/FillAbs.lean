import Dadao.Bfd.PcRelative
import Dadao.Qemu.Sequence
import Mathlib.Tactic.Ring

set_option relaxedAutoImplicit false
set_option autoImplicit false

/-!
# Filling in an address

What `dd_fill_abs` leaves in the contents of a section and what the simulator makes of it: an
instruction for every wyde that is not zero, the first of which clears the rest of the register.

## Main definitions

* `Dadao.Bfd.rwii` — instruction words with a register, a wyde position and an immediate.
* `Dadao.Bfd.WydeFile` — the register files that can be filled wyde by wyde.
* `Dadao.Bfd.FillAbs.emitted` — the instructions `dd_fill_abs` puts down.

## Main results

* `Dadao.Bfd.FillAbs.fill_spec` — what `dd_fill_abs` leaves in the contents.
* `Dadao.Bfd.FillAbs.emitted_computes` — the instructions load the wydes one by one.
-/

namespace Dadao.Bfd

open Qemu

/-! ## Words of a sequence -/

/-- The offset of word `k`. -/
def wordOff (off : BitVec 64) (k : ℕ) : BitVec 64 := off + BitVec.ofNat 64 (4 * k)

lemma wordOff_zero (off : BitVec 64) : wordOff off 0 = off := by simp [wordOff]

/-- Different words share no byte. -/
lemma wordOff_apart (off : BitVec 64) {i j : ℕ} (hi : i < 4) (hj : j < 4) (hij : i ≠ j) :
    Memory.Apart (wordOff off i) 4 (wordOff off j) 4 := by
  intro k hk
  have hsub : wordOff off j + BitVec.ofNat 64 k - wordOff off i =
      BitVec.ofNat 64 (4 * j + k) - BitVec.ofNat 64 (4 * i) := by
    rw [wordOff, wordOff, BitVec.ofNat_add]
    ring
  rw [Memory.offsetFrom, hsub, BitVec.toNat_sub, BitVec.toNat_ofNat, BitVec.toNat_ofNat]
  omega

/-- A put changes its own word. -/
lemma wordAt_bfdPut32_wordOff (m : Memory) (off v : BitVec 64) {i j : ℕ} (hi : i < 4) (hj : j < 4) :
    wordAt (bfdPut32 m (wordOff off i) v) (wordOff off j) =
      if i = j then v.setWidth 32 else wordAt m (wordOff off j) := by
  by_cases hij : i = j
  · rw [if_pos hij, hij, wordAt_bfdPut32]
  · rw [if_neg hij, wordAt, bfdGet32, bfdPut32,
      Memory.load_store_of_apart _ _ (wordOff_apart off hi hj hij)]
    rfl

/-! ## Words of the form `rwii` -/

/-- An instruction word with an opcode, a register, a wyde position and a 16-bit immediate. -/
def rwii (op ha ww imm : ℕ) : BitVec 32 :=
  BitVec.ofNat 32 (op * 2 ^ 24 + ha * 2 ^ 18 + ww * 2 ^ 16 + imm)

section Rwii

variable {op ha ww imm : ℕ} (hop : op < 2 ^ 8) (hha : ha < 2 ^ 6) (hww : ww < 4)
variable (himm : imm < 2 ^ 16)

include hop hha hww himm

lemma toNat_rwii : (rwii op ha ww imm).toNat = op * 2 ^ 24 + ha * 2 ^ 18 + ww * 2 ^ 16 + imm := by
  rw [rwii, BitVec.toNat_ofNat]
  omega

lemma opcode_rwii : (rwii op ha ww imm >>> 24).toNat = op := by
  rw [BitVec.toNat_ushiftRight, Nat.shiftRight_eq_div_pow, toNat_rwii hop hha hww himm]
  omega

lemma fieldHa_rwii : fieldHa (rwii op ha ww imm) = ha := by
  rw [fieldHa, Bits.toNat_and_mask _ _ 6 rfl, BitVec.toNat_ushiftRight,
    Nat.shiftRight_eq_div_pow, toNat_rwii hop hha hww himm]
  omega

lemma fieldWw_rwii : fieldWw (rwii op ha ww imm) = ww := by
  rw [fieldWw, Bits.toNat_and_mask _ _ 2 rfl, BitVec.toNat_ushiftRight,
    Nat.shiftRight_eq_div_pow, toNat_rwii hop hha hww himm]
  omega

lemma wydeArg_rwii : wydeArg (rwii op ha ww imm) = BitVec.ofNat 64 imm <<< (ww * 16) := by
  have himmu : fieldImmu16 (rwii op ha ww imm) = BitVec.ofNat 64 imm := by
    apply BitVec.eq_of_toNat_eq
    rw [fieldImmu16, BitVec.toNat_setWidth, Bits.toNat_and_mask _ _ 16 rfl,
      toNat_rwii hop hha hww himm, BitVec.toNat_ofNat]
    omega
  rw [wydeArg, fieldWw_rwii hop hha hww himm, himmu]

end Rwii

/-- Assignment of a constant. -/
lemma computes_movi {dst : Global} {w : BitVec 32} {v : BitVec 64} (hpc : dst ≠ cpuPc)
    (hrd : dst ≠ .rd 0) (hrf : dst ≠ .rf 0)
    (hdisas : ∀ pc, disasDadao pc w = some (some (.next [movi dst v]))) :
    Computes dst [w] (fun _ => v) := by
  have hsettle : settle dst ∘ (fun _ : BitVec 64 => v) = fun _ => v :=
    funext fun _ => settle_of_ne hrd hrf
  rw [← hsettle]
  refine computes_of_next hpc hdisas rfl (fun s => ?_) (fun s g hg => ?_)
  · simp [Tcg.runStraight, Tcg.stepOp, movi]
  · simp [Tcg.runStraight, Tcg.stepOp, movi, hg]

/-- Bitwise or with a constant. -/
lemma computes_or {dst : Global} {w : BitVec 32} {v : BitVec 64} (hpc : dst ≠ cpuPc)
    (hrd : dst ≠ .rd 0) (hrf : dst ≠ .rf 0)
    (hdisas : ∀ pc, disasDadao pc w =
      some (some (.next [.bin .or (glob dst) (glob dst) (.const v)]))) :
    Computes dst [w] (fun old => old ||| v) := by
  have hsettle : settle dst ∘ (fun old => old ||| v) = fun old => old ||| v :=
    funext fun _ => settle_of_ne hrd hrf
  rw [← hsettle]
  refine computes_of_next hpc hdisas rfl (fun s => ?_) (fun s g hg => ?_)
  · simp [Tcg.runStraight, Tcg.stepOp, Tcg.BinOp.eval]
  · simp [Tcg.runStraight, Tcg.stepOp, hg]

/-- The filler. -/
lemma computes_swym {dst : Global} (hpc : dst ≠ cpuPc) : Computes dst [insnSwym] (settle dst) :=
  computes_of_next hpc (fun _ => rfl) rfl (fun _ => rfl) (fun _ _ _ => rfl)

/-- A register file whose wydes are set by one opcode and completed by another: `rd` and `rb`. -/
structure WydeFile where
  reg : ℕ → Global
  setOp : ℕ
  orOp : ℕ
  setOp_lt : setOp < 2 ^ 8
  orOp_lt : orOp < 2 ^ 8
  disas_set : ∀ (pc : BitVec 64) (w : BitVec 32), (w >>> 24).toNat = setOp →
    disasDadao pc w = some (some (insnSetzwRwii reg w))
  disas_or : ∀ (pc : BitVec 64) (w : BitVec 32), (w >>> 24).toNat = orOp →
    disasDadao pc w = some (some (insnOrwRwii reg w))
  reg_ne : ∀ ha ≠ 0, reg ha ≠ cpuPc ∧ reg ha ≠ .rd 0 ∧ reg ha ≠ .rf 0

/-- The `rd` registers. -/
def rdFile : WydeFile where
  reg := .rd
  setOp := 0x16
  orOp := 0x14
  setOp_lt := by omega
  orOp_lt := by omega
  disas_set := by
    intro pc w h
    rw [disasDadao, h]
    rfl
  disas_or := by
    intro pc w h
    rw [disasDadao, h]
    rfl
  reg_ne := by simp

/-- The `rb` registers. -/
def rbFile : WydeFile where
  reg := .rb
  setOp := 0x4e
  orOp := 0x4c
  setOp_lt := by omega
  orOp_lt := by omega
  disas_set := by
    intro pc w h
    rw [disasDadao, h]
    rfl
  disas_or := by
    intro pc w h
    rw [disasDadao, h]
    rfl
  reg_ne := by simp

section Wydes

variable (f : WydeFile) {ha ww imm : ℕ} (hha : ha < 2 ^ 6) (hpos : ha ≠ 0) (hww : ww < 4)
variable (himm : imm < 2 ^ 16)

include hha hpos hww himm

/-- The translation of the first instruction. -/
lemma WydeFile.disas_setWord (pc : BitVec 64) : disasDadao pc (rwii f.setOp ha ww imm) =
    some (some (.next [movi (f.reg ha) (BitVec.ofNat 64 imm <<< (ww * 16))])) := by
  rw [f.disas_set pc _ (opcode_rwii f.setOp_lt hha hww himm), insnSetzwRwii,
    fieldHa_rwii f.setOp_lt hha hww himm, wydeArg_rwii f.setOp_lt hha hww himm, if_neg hpos]

/-- The translation of the following ones. -/
lemma WydeFile.disas_orWord (pc : BitVec 64) : disasDadao pc (rwii f.orOp ha ww imm) =
    some (some (.next [.bin .or (glob (f.reg ha)) (glob (f.reg ha))
      (.const (BitVec.ofNat 64 imm <<< (ww * 16)))])) := by
  rw [f.disas_or pc _ (opcode_rwii f.orOp_lt hha hww himm), insnOrwRwii,
    fieldHa_rwii f.orOp_lt hha hww himm, wydeArg_rwii f.orOp_lt hha hww himm, if_neg hpos]

/-- The first instruction sets a wyde and clears the others. -/
lemma WydeFile.computes_set : Computes (f.reg ha) [rwii f.setOp ha ww imm]
    (fun _ => BitVec.ofNat 64 imm <<< (ww * 16)) := by
  obtain ⟨hpc, hrd, hrf⟩ := f.reg_ne ha hpos
  exact computes_movi hpc hrd hrf (f.disas_setWord hha hpos hww himm)

/-- The following ones fill in a wyde. -/
lemma WydeFile.computes_or : Computes (f.reg ha) [rwii f.orOp ha ww imm]
    (fun old => old ||| BitVec.ofNat 64 imm <<< (ww * 16)) := by
  obtain ⟨hpc, hrd, hrf⟩ := f.reg_ne ha hpos
  exact Bfd.computes_or hpc hrd hrf (f.disas_orWord hha hpos hww himm)

end Wydes

/-! ## `dd_fill_abs` -/

namespace FillAbs

/-- The instructions filled in for the first wydes. -/
def emitted (f : FillAbs) : ℕ → List (BitVec 32)
  | 0 => []
  | k + 1 =>
    if wydeOf f.addr k ≠ 0 then f.emitted k ++ [f.word (4 * (f.emitted k).length) k]
    else f.emitted k

/-- The contents and the number of bytes after the first wydes. -/
def fill (f : FillAbs) (m : Memory) : ℕ → Memory × ℕ
  | 0 => (m, 0)
  | k + 1 => f.fillWyde k (f.fill m k)

variable (f : FillAbs)

lemma length_emitted_le (k : ℕ) : (f.emitted k).length ≤ k := by
  induction k with
  | zero => simp [emitted]
  | succ k ih =>
    rw [emitted]
    split_ifs
    · rw [List.length_append, List.length_singleton]
      omega
    · omega

/-- **The fill puts down the instructions** from the start and leaves the words behind alone. -/
lemma fill_spec (m : Memory) {k : ℕ} (hk : k ≤ 4) :
    (f.fill m k).2 = 4 * (f.emitted k).length ∧
    ∀ j < 4, wordAt (f.fill m k).1 (wordOff f.datap j) =
      ((f.emitted k)[j]?).getD (wordAt m (wordOff f.datap j)) := by
  induction k with
  | zero => exact ⟨rfl, fun j _ => rfl⟩
  | succ k ih =>
    obtain ⟨hlen, hwords⟩ := ih (by omega)
    have hle := f.length_emitted_le k
    rw [fill, fillWyde, emitted]
    split_ifs with hwyde
    · refine ⟨by rw [hlen, List.length_append, List.length_singleton]; ring, fun j hj => ?_⟩
      rw [hlen]
      change wordAt (bfdPut32 _ (wordOff f.datap (f.emitted k).length) _) _ = _
      rw [wordAt_bfdPut32_wordOff _ _ _ (by omega) hj, hwords j hj]
      by_cases hj' : (f.emitted k).length = j
      · rw [if_pos hj', ← hj']
        simp
      · rw [if_neg hj', List.getElem?_append]
        split_ifs with hlt
        · rfl
        · rw [List.getElem?_eq_none (by omega), List.getElem?_eq_none (by simp; omega)]
    · exact ⟨hlen, hwords⟩

/-- `dd_fill_abs` when some wyde is not zero. -/
lemma ddFillAbs_eq (m : Memory) (h : f.emitted 4 ≠ []) : ddFillAbs f m = f.fill m 4 := by
  have hlen := (f.fill_spec m (le_refl 4)).1
  have hpos : (f.fill m 4).2 ≠ 0 := by
    have := List.length_pos_of_ne_nil h
    omega
  rw [ddFillAbs]
  exact if_neg hpos

/-- A wyde as a number. -/
lemma toNat_wydeOf (addr : BitVec 64) (i : ℕ) :
    (wydeOf addr i).toNat = addr.toNat / 2 ^ (16 * i) % 2 ^ 16 := by
  have hlt : addr.toNat / 2 ^ (16 * i) % 2 ^ 16 < 2 ^ 16 := Nat.mod_lt _ (by omega)
  rw [wydeOf, BitVec.toNat_setWidth, Bits.toNat_and_mask _ _ 16 rfl, BitVec.toNat_ushiftRight,
    Nat.shiftRight_eq_div_pow, Nat.mod_eq_of_lt (by omega)]

/-- One more wyde of a number. -/
lemma or_wyde (a : ℕ) {k : ℕ} (hk : k < 4) :
    BitVec.ofNat 64 (a % 2 ^ (16 * k)) |||
        BitVec.ofNat 64 (a / 2 ^ (16 * k) % 2 ^ 16) <<< (k * 16) =
      BitVec.ofNat 64 (a % 2 ^ (16 * (k + 1))) := by
  have hlow : a % 2 ^ (16 * k) < 2 ^ (16 * k) := Nat.mod_lt _ (Nat.two_pow_pos _)
  have hwyde : a / 2 ^ (16 * k) % 2 ^ 16 < 2 ^ 16 := Nat.mod_lt _ (by omega)
  have hpow : 2 ^ 16 * 2 ^ (16 * k) ≤ 2 ^ 64 := by
    rw [← pow_add]
    exact Nat.pow_le_pow_right (by omega) (by omega)
  have hlt : a / 2 ^ (16 * k) % 2 ^ 16 * 2 ^ (16 * k) < 2 ^ 64 :=
    lt_of_lt_of_le (Nat.mul_lt_mul_of_pos_right hwyde (Nat.two_pow_pos _)) hpow
  have hsum : a % 2 ^ (16 * (k + 1)) =
      a / 2 ^ (16 * k) % 2 ^ 16 * 2 ^ (16 * k) + a % 2 ^ (16 * k) := by
    rw [Nat.mul_add, pow_add, Nat.mod_mul, Nat.add_comm, Nat.mul_comm (2 ^ (16 * k))]
  have hlow64 : (BitVec.ofNat 64 (a % 2 ^ (16 * k))).toNat = a % 2 ^ (16 * k) := by
    rw [BitVec.toNat_ofNat, Nat.mod_eq_of_lt (by omega)]
  have hwyde64 : (BitVec.ofNat 64 (a / 2 ^ (16 * k) % 2 ^ 16)).toNat =
      a / 2 ^ (16 * k) % 2 ^ 16 := by
    rw [BitVec.toNat_ofNat, Nat.mod_eq_of_lt (by omega)]
  have hshift : (BitVec.ofNat 64 (a / 2 ^ (16 * k) % 2 ^ 16) <<< (k * 16)).toNat =
      a / 2 ^ (16 * k) % 2 ^ 16 * 2 ^ (16 * k) := by
    rw [Nat.mul_comm k, Bits.toNat_shiftLeft_of_lt (by rwa [hwyde64]), hwyde64]
  have hbound : a % 2 ^ (16 * (k + 1)) < 2 ^ 64 :=
    lt_of_lt_of_le (Nat.mod_lt _ (Nat.two_pow_pos _))
      (Nat.pow_le_pow_right (by omega) (by omega))
  apply BitVec.eq_of_toNat_eq
  rw [BitVec.or_comm, Bits.toNat_or_eq_add (16 * k) (by rw [hshift, Nat.mul_mod_left])
    (by rwa [hlow64]), hshift, hlow64, BitVec.toNat_ofNat, Nat.mod_eq_of_lt hbound, hsum]

/-- Nothing is filled in for zero wydes. -/
lemma mod_eq_zero_of_emitted {k : ℕ} (h : f.emitted k = []) :
    f.addr.toNat % 2 ^ (16 * k) = 0 := by
  induction k with
  | zero => simp [Nat.mod_one]
  | succ k ih =>
    rw [emitted] at h
    split_ifs at h with hwyde
    · simp at h
    · rw [not_not] at hwyde
      rw [Nat.mul_add, pow_add, Nat.mod_mul, ← toNat_wydeOf, hwyde, ih h]
      rfl

/-- **The instructions filled in load the wydes so far**, once there is one. -/
lemma emitted_computes {F : WydeFile} {ha : ℕ} (hha : ha < 2 ^ 6) (hpos : ha ≠ 0)
    (hword : ∀ tmp, ∀ i < 4, f.word tmp i =
      rwii (if tmp = 0 then F.setOp else F.orOp) ha i (wydeOf f.addr i).toNat)
    {k : ℕ} (hk : k ≤ 4) (hne : f.emitted k ≠ []) : Computes (F.reg ha) (f.emitted k)
      (fun _ => BitVec.ofNat 64 (f.addr.toNat % 2 ^ (16 * k))) := by
  induction k with
  | zero => exact absurd rfl hne
  | succ k ih =>
    have hwyde := toNat_wydeOf f.addr k
    have hlt : (wydeOf f.addr k).toNat < 2 ^ 16 := by
      rw [hwyde]
      exact Nat.mod_lt _ (by omega)
    have hor := or_wyde f.addr.toNat (k := k) (by omega)
    rw [emitted] at hne ⊢
    by_cases hzero : wydeOf f.addr k = 0
    · -- a zero wyde adds nothing
      have hsame : f.addr.toNat % 2 ^ (16 * (k + 1)) = f.addr.toNat % 2 ^ (16 * k) := by
        rw [Nat.mul_add, pow_add, Nat.mod_mul, ← hwyde, hzero]
        rfl
      rw [if_neg (not_not.mpr hzero)] at hne ⊢
      rw [hsame]
      exact ih (by omega) hne
    · rw [if_pos hzero, hword _ k (by omega)]
      by_cases hnil : f.emitted k = []
      · rw [f.mod_eq_zero_of_emitted hnil, ← hwyde] at hor
        have hset := F.computes_set hha hpos (by omega : k < 4) hlt
        rw [hnil, List.nil_append, if_pos (by simp), ← hor]
        simpa using hset
      · have hlen : 4 * (f.emitted k).length ≠ 0 := by
          have := List.length_pos_of_ne_nil hnil
          omega
        have hcomp := (ih (by omega) hnil).append (F.computes_or hha hpos (by omega : k < 4) hlt)
        rw [if_neg hlen, ← hor, ← hwyde]
        exact hcomp

/-- The first instruction filled in is for some wyde, and any more come from `insn_type`. -/
lemma emitted_shape {k : ℕ} (hk : k ≤ 4) (hne : f.emitted k ≠ []) :
    ∃ i < 4, ∃ rest, f.emitted k = f.word 0 i :: rest ∧
      ∀ w ∈ rest, ∃ tmp i, tmp ≠ 0 ∧ w = f.word tmp i := by
  induction k with
  | zero => exact absurd rfl hne
  | succ k ih =>
    rw [emitted] at hne ⊢
    by_cases hzero : wydeOf f.addr k = 0
    · rw [if_neg (not_not.mpr hzero)] at hne ⊢
      exact ih (by omega) hne
    · rw [if_pos hzero]
      by_cases hnil : f.emitted k = []
      · refine ⟨k, by omega, [], ?_, by simp⟩
        rw [hnil]
        rfl
      · obtain ⟨i, hi, rest, heq, hrest⟩ := ih (by omega) hnil
        refine ⟨i, hi, rest ++ [f.word (4 * (f.emitted k).length) k], ?_, ?_⟩
        · conv_lhs => rw [heq]
          rw [heq]
          rfl
        · intro w hw
          rcases List.mem_append.mp hw with hw | hw
          · exact hrest w hw
          · refine ⟨_, k, ?_, List.mem_singleton.mp hw⟩
            have := List.length_pos_of_ne_nil hnil
            omega

end FillAbs

end Dadao.Bfd
