import Dadao.Bfd.SetSymbol

set_option relaxedAutoImplicit false
set_option autoImplicit false

/-!
# Loading a constant

The code for `setrd`, `setrb` and `setrf` of a constant, from `dd_pseudo_set_imm`. An `rd` register is
filled from zero or from all ones, whichever leaves more wydes out, an `rb` register from zero; for an
`rf` register every wyde is replaced.

## Main definitions

* `Dadao.Gas.ddPseudoSetImm` — `dd_pseudo_set_imm`.
* `Dadao.Gas.upTo` — a register whose low wydes are loaded.

## Main results

* `Dadao.Gas.ddPseudoSetImm_spec` — the code loads the constant; `rf0` keeps its reserved bits.
-/

namespace Dadao.Gas

open Qemu Bfd

/-! ## The code of the assembler -/

/-- An instruction on one wyde of the destination: `opcode | (reg_dst << 18) | wyde | imm`. -/
def wydeInsn (opcode : BitVec 32) (regDst i : ℕ) (imm : BitVec 32) : BitVec 32 :=
  opcode ||| BitVec.ofNat 32 regDst <<< 18 ||| wydePos i ||| imm

/-- The instructions for the three upper wydes, of which those with the value `skip` are left out. -/
def upperWydes (opcode : BitVec 32) (regDst : ℕ) (srcImm : BitVec 64) (skip : BitVec 32)
    (arg : BitVec 32 → BitVec 32) : List (BitVec 32) :=
  [1, 2, 3].flatMap fun i =>
    if wydeOf srcImm i ≠ skip then [wydeInsn opcode regDst i (arg (wydeOf srcImm i))] else []

/-- The number of the three upper wydes with a value. -/
def countWydes (srcImm : BitVec 64) (v : BitVec 32) : ℕ :=
  ([3, 2, 1].filter fun i => wydeOf srcImm i = v).length

/-- `dd_pseudo_set_imm`, by the number of the destination register: `rd0` is 0, `rb0` is 64 and `rf0` is
128. -/
def ddPseudoSetImm (regDst : ℕ) (srcImm : BitVec 64) : List (BitVec 32) :=
  if regDst < 0x40 then
    if countWydes srcImm 0 < countWydes srcImm 0xFFFF then
      wydeInsn insnSetowRd regDst 0 (wydeOf srcImm 0) ::
        upperWydes insnAndnwRd regDst srcImm 0xFFFF fun imm => ~~~imm &&& 0xFFFF
    else
      wydeInsn insnSetzwRd regDst 0 (wydeOf srcImm 0) :: upperWydes insnOrwRd regDst srcImm 0 id
  else if regDst < 0x80 then
    wydeInsn insnSetzwRb (regDst - 0x40) 0 (wydeOf srcImm 0) ::
      upperWydes insnOrwRb (regDst - 0x40) srcImm 0 id
  else
    [0, 1, 2, 3].map fun i => wydeInsn insnSetw (regDst - 0x80) i (wydeOf srcImm i)

/-- The destination register. -/
def dstReg (regDst : ℕ) : Global :=
  if regDst < 0x40 then .rd regDst else if regDst < 0x80 then .rb (regDst - 0x40)
  else .rf (regDst - 0x80)

/-! ## Wydes -/

/-- The wydes of `v` below `k` over those of `old`. -/
def upTo (v old : BitVec 64) (k : ℕ) : BitVec 64 :=
  v &&& ~~~(BitVec.allOnes 64 <<< (k * 16)) ||| old &&& (BitVec.allOnes 64 <<< (k * 16))

section Wydes

variable {v old : BitVec 64} {k i : ℕ}

lemma getLsbD_upTo (hi : i < 64) :
    (upTo v old k).getLsbD i = if i < k * 16 then v.getLsbD i else old.getLsbD i := by
  have hmask : (BitVec.allOnes 64 <<< (k * 16)).getLsbD i = !decide (i < k * 16) := by
    have hsub : i - k * 16 < 64 := by omega
    rw [BitVec.getLsbD_shiftLeft, BitVec.getLsbD_allOnes]
    simp only [hi, hsub, decide_true, Bool.true_and, Bool.and_true]
  rw [upTo, BitVec.getLsbD_or, BitVec.getLsbD_and, BitVec.getLsbD_and, BitVec.getLsbD_not, hmask]
  by_cases hlt : i < k * 16 <;> simp [hi, hlt]

/-- The bits of wyde `k`. -/
def InWyde (k i : ℕ) : Prop := k * 16 ≤ i ∧ i < k * 16 + 16

instance : Decidable (InWyde k i) := inferInstanceAs (Decidable (_ ∧ _))

/-- The bits of one more wyde. -/
lemma getLsbD_upTo_succ (hi : i < 64) : (upTo v old (k + 1)).getLsbD i =
    if InWyde k i then v.getLsbD i else (upTo v old k).getLsbD i := by
  rw [getLsbD_upTo hi, getLsbD_upTo hi]
  by_cases h : InWyde k i
  · rw [if_pos h, if_pos (by unfold InWyde at h; omega)]
  · have hiff : i < (k + 1) * 16 ↔ i < k * 16 := by
      unfold InWyde at h
      omega
    rw [if_neg h, if_congr hiff rfl rfl]

/-- The bits that are not loaded yet. -/
lemma getLsbD_upTo_of_inWyde (hi : i < 64) (h : InWyde k i) :
    (upTo v old k).getLsbD i = old.getLsbD i := by
  rw [getLsbD_upTo hi, if_neg (Nat.not_lt.mpr h.1)]

lemma upTo_zero : upTo v old 0 = old := by
  apply BitVec.eq_of_getLsbD_eq
  intro i hi
  rw [getLsbD_upTo hi, if_neg (by omega)]

lemma upTo_four : upTo v old 4 = v := by
  apply BitVec.eq_of_getLsbD_eq
  intro i hi
  rw [getLsbD_upTo hi, if_pos (by omega)]

/-- An immediate of 16 bits in its place. -/
def wydeAt (w : BitVec 32) (k : ℕ) : BitVec 64 := BitVec.ofNat 64 w.toNat <<< (k * 16)

/-- The bits of an immediate in its place, from those of the immediate. -/
lemma getLsbD_wydeAt {w : BitVec 32} {b : ℕ → Bool}
    (hw : ∀ j, w.getLsbD j = (decide (j < 16) && b j)) (hi : i < 64) :
    (wydeAt w k).getLsbD i = (decide (InWyde k i) && b (i - k * 16)) := by
  have hsub : i - k * 16 < 64 := by omega
  have hin : decide (InWyde k i) = (!decide (i < k * 16) && decide (i - k * 16 < 16)) := by
    unfold InWyde
    by_cases hlt : i < k * 16
    · simp [hlt, Nat.not_le.mpr hlt]
    · have hiff : i < k * 16 + 16 ↔ i - k * 16 < 16 := by omega
      simp [hlt, Nat.not_lt.mp hlt, hiff]
  rw [wydeAt, BitVec.getLsbD_shiftLeft, BitVec.getLsbD_ofNat, BitVec.testBit_toNat, hw, hin]
  simp only [hi, hsub, decide_true, Bool.true_and, Bool.and_assoc]

lemma getLsbD_mask16 {n : ℕ} (hn : 16 ≤ n) (j : ℕ) :
    (BitVec.ofNat n 0xFFFF).getLsbD j = decide (j < 16) := by
  rw [show 0xFFFF = 2 ^ 16 - 1 from rfl, BitVec.getLsbD_ofNat, Nat.testBit_two_pow_sub_one]
  by_cases hlt : j < 16
  · simp [hlt, show j < n by omega]
  · simp [hlt]

lemma getLsbD_wydeOf (v : BitVec 64) (k j : ℕ) :
    (wydeOf v k).getLsbD j = (decide (j < 16) && v.getLsbD (16 * k + j)) := by
  have hmask : (0xffff#64).getLsbD j = decide (j < 16) := getLsbD_mask16 (by omega) j
  rw [wydeOf, BitVec.getLsbD_setWidth, BitVec.getLsbD_and, BitVec.getLsbD_ushiftRight, hmask]
  by_cases hlt : j < 16
  · simp [hlt, show j < 32 by omega]
  · simp [hlt]

lemma getLsbD_not_wydeOf (v : BitVec 64) (k j : ℕ) :
    (~~~wydeOf v k &&& 0xFFFF#32).getLsbD j = (decide (j < 16) && !v.getLsbD (16 * k + j)) := by
  rw [BitVec.getLsbD_and, BitVec.getLsbD_not, getLsbD_wydeOf, getLsbD_mask16 (by omega)]
  by_cases hlt : j < 16
  · simp [hlt, show j < 32 by omega]
  · simp [hlt]

lemma getLsbD_wydeAt_wydeOf (hi : i < 64) :
    (wydeAt (wydeOf v k) k).getLsbD i = (decide (InWyde k i) && v.getLsbD i) := by
  rw [getLsbD_wydeAt (getLsbD_wydeOf v k) hi]
  by_cases h : InWyde k i
  · rw [show 16 * k + (i - k * 16) = i by unfold InWyde at h; omega]
  · simp [h]

lemma getLsbD_wydeAt_not (hi : i < 64) :
    (wydeAt (~~~wydeOf v k &&& 0xFFFF#32) k).getLsbD i = (decide (InWyde k i) && !v.getLsbD i) := by
  rw [getLsbD_wydeAt (getLsbD_not_wydeOf v k) hi]
  by_cases h : InWyde k i
  · rw [show 16 * k + (i - k * 16) = i by unfold InWyde at h; omega]
  · simp [h]

/-- **A wyde of zeros** is replaced by setting bits. -/
lemma upTo_or : upTo v 0 k ||| wydeAt (wydeOf v k) k = upTo v 0 (k + 1) := by
  apply BitVec.eq_of_getLsbD_eq
  intro i hi
  rw [BitVec.getLsbD_or, getLsbD_wydeAt_wydeOf hi, getLsbD_upTo_succ hi]
  by_cases h : InWyde k i
  · rw [getLsbD_upTo_of_inWyde hi h]
    simp [h]
  · simp [h]

/-- The lowest wyde over zeros. -/
lemma upTo_zero_one : upTo v 0 1 = wydeAt (wydeOf v 0) 0 := by
  rw [← upTo_or, upTo_zero]
  exact BitVec.zero_or

/-- **A wyde of ones** is replaced by clearing bits. -/
lemma upTo_andn : upTo v (BitVec.allOnes 64) k &&& ~~~wydeAt (~~~wydeOf v k &&& 0xFFFF#32) k =
    upTo v (BitVec.allOnes 64) (k + 1) := by
  apply BitVec.eq_of_getLsbD_eq
  intro i hi
  rw [BitVec.getLsbD_and, BitVec.getLsbD_not, getLsbD_wydeAt_not hi, getLsbD_upTo_succ hi]
  by_cases h : InWyde k i
  · rw [getLsbD_upTo_of_inWyde hi h, BitVec.getLsbD_allOnes]
    simp [h, hi]
  · simp [h, hi]

/-- **Any wyde** is replaced by clearing and setting bits. -/
lemma upTo_set : upTo v old k &&& ~~~(0xffff#64 <<< (k * 16)) ||| wydeAt (wydeOf v k) k =
    upTo v old (k + 1) := by
  apply BitVec.eq_of_getLsbD_eq
  intro i hi
  have hmask : (0xffff#64 <<< (k * 16)).getLsbD i = decide (InWyde k i) := by
    have hones : ∀ j, (0xFFFF#32).getLsbD j = (decide (j < 16) && true) := fun j => by
      rw [getLsbD_mask16 (by omega), Bool.and_true]
    have hat := getLsbD_wydeAt (k := k) hones hi
    rwa [Bool.and_true] at hat
  rw [BitVec.getLsbD_or, BitVec.getLsbD_and, BitVec.getLsbD_not, getLsbD_wydeAt_wydeOf hi,
    getLsbD_upTo_succ hi, hmask]
  by_cases h : InWyde k i <;> simp [h, hi]

/-- A wyde of zeros needs no instruction. -/
lemma upTo_zero_skip (h : wydeOf v k = 0) : upTo v 0 k = upTo v 0 (k + 1) := by
  have hor := upTo_or (v := v) (k := k)
  rw [h] at hor
  rw [← hor, wydeAt]
  simp

/-- A wyde of ones needs no instruction. -/
lemma upTo_ones_skip (h : wydeOf v k = 0xFFFF) :
    upTo v (BitVec.allOnes 64) k = upTo v (BitVec.allOnes 64) (k + 1) := by
  have hnone : ~~~(0xFFFF : BitVec 32) &&& 0xFFFF#32 = 0 := by decide
  have handn := upTo_andn (v := v) (k := k)
  rw [h, hnone] at handn
  have hkeep : ~~~wydeAt 0 k = BitVec.allOnes 64 := by simp [wydeAt]
  rwa [hkeep, BitVec.and_allOnes] at handn

end Wydes

/-! ## The instructions -/

/-- The prologue may settle a register before or after a `setw`. -/
lemma settle_setw (ha : ℕ) (x m w : BitVec 64) :
    settle (.rf ha) (settle (.rf ha) x &&& m ||| w) = settle (.rf ha) (x &&& m ||| w) := by
  cases ha with
  | zero =>
    apply BitVec.eq_of_getLsbD_eq
    intro i hi
    simp only [settle, BitVec.getLsbD_or, BitVec.getLsbD_and]
    cases x.getLsbD i <;> cases m.getLsbD i <;> cases w.getLsbD i <;> cases fcsrMask.getLsbD i <;>
      cases fcsrDefault.getLsbD i <;> rfl
  | succ n => rfl

section Insns

variable {ha k : ℕ} {v : BitVec 64}

/-- The parts of an instruction on a wyde. -/
lemma wydeInsn_eq {op : ℕ} {imm : BitVec 32} (hop : op < 2 ^ 8) (hha : ha < 2 ^ 6) (hk : k < 4)
    (himm : imm.toNat < 2 ^ 16) :
    wydeInsn (BitVec.ofNat 32 (op * 2 ^ 24)) ha k imm = rwii op ha k imm.toNat := by
  have hshift : BitVec.ofNat 32 ha <<< 18 = BitVec.ofNat 32 (ha * 2 ^ 18) := by
    apply BitVec.eq_of_toNat_eq
    rw [BitVec.toNat_shiftLeft, BitVec.toNat_ofNat, BitVec.toNat_ofNat, Nat.shiftLeft_eq]
    omega
  rw [wydeInsn, hshift, or_eq_rwii hop hha hk himm]

lemma toNat_wydeOf_lt (v : BitVec 64) (k : ℕ) : (wydeOf v k).toNat < 2 ^ 16 := by
  rw [FillAbs.toNat_wydeOf]
  exact Nat.mod_lt _ (by omega)

lemma toNat_not_wydeOf_lt (v : BitVec 64) (k : ℕ) :
    (~~~wydeOf v k &&& 0xFFFF#32).toNat < 2 ^ 16 := by
  rw [Bits.toNat_and_mask _ _ 16 rfl]
  exact Nat.mod_lt _ (by omega)

/-- **The upper wydes** complete a register whose lowest wyde is loaded, for any notion of what words make
of a register that composes. -/
lemma upperWydes_fill {P : List (BitVec 32) → (BitVec 64 → BitVec 64) → Prop}
    (happend : ∀ {ws ws' f f'}, P ws f → P ws' f' → P (ws ++ ws') (f' ∘ f))
    {first opcode skip : BitVec 32} {fill : BitVec 64} {arg : BitVec 32 → BitVec 32}
    {f : ℕ → BitVec 64 → BitVec 64} (hfirst : P [first] fun _ => upTo v fill 1)
    (hinsn : ∀ k < 4, P [wydeInsn opcode ha k (arg (wydeOf v k))] (f k))
    (hf : ∀ k, f k (upTo v fill k) = upTo v fill (k + 1))
    (hskip : ∀ k, wydeOf v k = skip → upTo v fill k = upTo v fill (k + 1)) :
    P (first :: upperWydes opcode ha v skip arg) fun _ => v := by
  have hstep : ∀ ws k, k < 4 → P ws (fun _ => upTo v fill k) → P
      (ws ++ if wydeOf v k ≠ skip then [wydeInsn opcode ha k (arg (wydeOf v k))] else [])
      (fun _ => upTo v fill (k + 1)) := by
    intro ws k hk hws
    split_ifs with h
    · have happ := happend hws (hinsn k hk)
      rw [show f k ∘ (fun _ => upTo v fill k) = fun _ => upTo v fill (k + 1) from
        funext fun _ => hf k] at happ
      exact happ
    · rw [List.append_nil, ← hskip k (not_not.mp h)]
      exact hws
  have hall := hstep _ 3 (by omega) (hstep _ 2 (by omega) (hstep _ 1 (by omega) hfirst))
  rw [upTo_four] at hall
  simpa only [upperWydes, List.flatMap_cons, List.flatMap_nil, List.append_nil, List.append_assoc,
    List.singleton_append, List.cons_append, List.nil_append] using hall

/-- Bitwise and with a constant. -/
lemma computes_and {dst : Global} {w : BitVec 32} {c : BitVec 64} (hpc : dst ≠ cpuPc)
    (hrd : dst ≠ .rd 0) (hrf : dst ≠ .rf 0)
    (hdisas : ∀ pc, disasDadao pc w =
      some (some (.next [.bin .and (glob dst) (glob dst) (.const c)]))) :
    Computes dst [w] (fun old => old &&& c) := by
  have hsettle : settle dst ∘ (fun old => old &&& c) = fun old => old &&& c :=
    funext fun _ => settle_of_ne hrd hrf
  rw [← hsettle]
  refine computes_of_next hpc hdisas rfl (fun s => ?_) (fun s g hg => ?_)
  · simp [Tcg.runStraight, Tcg.stepOp, Tcg.BinOp.eval]
  · simp [Tcg.runStraight, Tcg.stepOp, hg]

variable (hha : ha < 2 ^ 6) (hpos : ha ≠ 0)

include hha hpos

/-- The translation of `setow` on the lowest wyde. -/
lemma disas_setow (v pc : BitVec 64) : disasDadao pc (wydeInsn insnSetowRd ha 0 (wydeOf v 0)) =
    some (some (.next [movi (.rd ha) (upTo v (BitVec.allOnes 64) 1)])) := by
  have himm := toNat_wydeOf_lt v 0
  have hopcode : insnSetowRd = BitVec.ofNat 32 (0x17 * 2 ^ 24) := rfl
  have hop : 0x17 < 2 ^ 8 := by omega
  have hval : BitVec.ofNat 64 (wydeOf v 0).toNat <<< (0 * 16) ||| ~~~(0xFFFF#64 <<< (0 * 16)) =
      upTo v (BitVec.allOnes 64) 1 := by
    rw [← upTo_set, upTo_zero, BitVec.allOnes_and, BitVec.or_comm]
    rfl
  have hdisas : disasDadao pc (rwii 0x17 ha 0 (wydeOf v 0).toNat) =
      some (some (transSETOW (rwii 0x17 ha 0 (wydeOf v 0).toNat))) := by
    rw [disasDadao, opcode_rwii hop hha (by omega) himm]
    rfl
  rw [hopcode, wydeInsn_eq hop hha (by omega) himm, hdisas, transSETOW,
    fieldHa_rwii hop hha (by omega) himm, fieldWw_rwii hop hha (by omega) himm,
    wydeArg_rwii hop hha (by omega) himm, if_neg hpos, hval]

/-- The translation of `andnw` on a wyde. -/
lemma disas_andnw (v pc : BitVec 64) (hk : k < 4) :
    disasDadao pc (wydeInsn insnAndnwRd ha k (~~~wydeOf v k &&& 0xFFFF#32)) =
      some (some (.next [.bin .and (glob (.rd ha)) (glob (.rd ha))
        (.const (~~~wydeAt (~~~wydeOf v k &&& 0xFFFF#32) k))])) := by
  have himm := toNat_not_wydeOf_lt v k
  generalize ~~~wydeOf v k &&& 0xFFFF#32 = imm at himm ⊢
  have hopcode : insnAndnwRd = BitVec.ofNat 32 (0x15 * 2 ^ 24) := rfl
  have hop : 0x15 < 2 ^ 8 := by omega
  have hdisas : disasDadao pc (rwii 0x15 ha k imm.toNat) =
      some (some (transANDNWrd (rwii 0x15 ha k imm.toNat))) := by
    rw [disasDadao, opcode_rwii hop hha hk himm]
    rfl
  rw [hopcode, wydeInsn_eq hop hha hk himm, hdisas, transANDNWrd, insnAndnwRwii,
    fieldHa_rwii hop hha hk himm, wydeArg_rwii hop hha hk himm, if_neg hpos, wydeAt]

/-- `setow` on the lowest wyde. -/
lemma computes_setow (v : BitVec 64) : Computes (.rd ha) [wydeInsn insnSetowRd ha 0 (wydeOf v 0)]
    fun _ => upTo v (BitVec.allOnes 64) 1 :=
  computes_movi (by simp) (by simpa using hpos) (by simp) (disas_setow hha hpos v)

/-- `andnw` on a wyde. -/
lemma computes_andnw (v : BitVec 64) (hk : k < 4) :
    Computes (.rd ha) [wydeInsn insnAndnwRd ha k (~~~wydeOf v k &&& 0xFFFF#32)]
      fun old => old &&& ~~~wydeAt (~~~wydeOf v k &&& 0xFFFF#32) k :=
  computes_and (by simp) (by simpa using hpos) (by simp) fun pc => disas_andnw hha hpos v pc hk

/-- Filling a register from zero. -/
lemma computes_setImm (f : WydeFile) (v : BitVec 64) :
    Computes (f.reg ha) (wydeInsn (BitVec.ofNat 32 (f.setOp * 2 ^ 24)) ha 0 (wydeOf v 0) ::
      upperWydes (BitVec.ofNat 32 (f.orOp * 2 ^ 24)) ha v 0 id) fun _ => v := by
  refine upperWydes_fill Computes.append (f := fun k old => old ||| wydeAt (wydeOf v k) k) ?_
    (fun k hk => ?_) (fun k => upTo_or) fun k => upTo_zero_skip
  · have hset := f.computes_set hha hpos (show 0 < 4 by omega) (toNat_wydeOf_lt v 0)
    rw [← wydeInsn_eq f.setOp_lt hha (by omega) (toNat_wydeOf_lt v 0)] at hset
    rw [upTo_zero_one]
    exact hset
  · have hor := f.computes_or hha hpos hk (toNat_wydeOf_lt v k)
    rw [← wydeInsn_eq f.orOp_lt hha hk (toNat_wydeOf_lt v k)] at hor
    exact hor

omit hpos in
/-- Filling an `rf` register, whose reserved bits are settled on the way. -/
lemma computes_setImm_rf (v : BitVec 64) : Computes (.rf ha)
    ([0, 1, 2, 3].map fun i => wydeInsn insnSetw ha i (wydeOf v i)) fun _ => settle (.rf ha) v := by
  have hopcode : insnSetw = BitVec.ofNat 32 (0x54 * 2 ^ 24) := rfl
  have hop : 0x54 < 2 ^ 8 := by omega
  have hstep : ∀ ws k, k < 4 → Computes (.rf ha) ws (fun old => settle (.rf ha) (upTo v old k)) →
      Computes (.rf ha) (ws ++ [wydeInsn insnSetw ha k (wydeOf v k)])
        (fun old => settle (.rf ha) (upTo v old (k + 1))) := by
    intro ws k hk hws
    have hsetw := SetSymbol.computes_setw hha hk (toNat_wydeOf_lt v k)
    rw [← wydeInsn_eq hop hha hk (toNat_wydeOf_lt v k), ← hopcode] at hsetw
    have happ := hws.append hsetw
    have hval : (settle (.rf ha) ∘ fun old => old &&& ~~~(0xffff#64 <<< (k * 16)) |||
        BitVec.ofNat 64 (wydeOf v k).toNat <<< (k * 16)) ∘
        (fun old => settle (.rf ha) (upTo v old k)) =
          fun old => settle (.rf ha) (upTo v old (k + 1)) := by
      funext old
      rw [← upTo_set]
      exact settle_setw _ _ _ _
    rwa [hval] at happ
  have hnil : Computes (.rf ha) [] fun old => settle (.rf ha) (upTo v old 0) := by
    intro s
    refine ⟨s, rfl, ?_, fun _ _ _ => rfl⟩
    simp only [upTo_zero, regs, settle_settle]
  have hall := hstep _ 3 (by omega) (hstep _ 2 (by omega) (hstep _ 1 (by omega)
    (hstep _ 0 (by omega) hnil)))
  have hend : (fun old => settle (.rf ha) (upTo v old (3 + 1))) = fun _ => settle (.rf ha) v :=
    funext fun _ => congrArg _ upTo_four
  rw [hend] at hall
  exact hall

end Insns

/-! ## The code -/

/-- What `setrd`, `setrb` and `setrf` of a constant are for. -/
def LoadsImm (regDst : ℕ) (v w : BitVec 64) : Prop :=
  ∀ s, ∃ s', Runs (ddPseudoSetImm regDst v) s s' ∧ regs s' (dstReg regDst) = w ∧
    ∀ g, g ≠ dstReg regDst → g ≠ cpuPc → regs s' g = regs s g

/-- The three upper wydes need at most three instructions. -/
lemma length_upperWydes_le (opcode : BitVec 32) (ha : ℕ) (v : BitVec 64) (skip : BitVec 32)
    (arg : BitVec 32 → BitVec 32) : (upperWydes opcode ha v skip arg).length ≤ 3 := by
  simp only [upperWydes, List.flatMap_cons, List.flatMap_nil, List.append_nil, List.length_append]
  split_ifs <;> simp

/-- The length of the code. -/
lemma length_ddPseudoSetImm_le (regDst : ℕ) (v : BitVec 64) :
    (ddPseudoSetImm regDst v).length ≤ 4 := by
  unfold ddPseudoSetImm
  split_ifs
  · exact Nat.succ_le_succ (length_upperWydes_le ..)
  · exact Nat.succ_le_succ (length_upperWydes_le ..)
  · exact Nat.succ_le_succ (length_upperWydes_le ..)
  · simp

/-- **Any constant is loaded** into a register of any file, up to the reserved bits of `rf0`. -/
lemma computes_ddPseudoSetImm {regDst : ℕ} (hreg : regDst < 0xc0) (hrd : regDst ≠ 0)
    (hrb : regDst ≠ 0x40) (v : BitVec 64) :
    Computes (dstReg regDst) (ddPseudoSetImm regDst v) fun _ => settle (dstReg regDst) v := by
  unfold ddPseudoSetImm dstReg
  split_ifs with hfile hflag hfile'
  · have hsettle : settle (.rd regDst) v = v := settle_of_ne (by simpa using hrd) (by simp)
    rw [hsettle]
    exact upperWydes_fill Computes.append (computes_setow (by omega) hrd v)
      (fun k hk => computes_andnw (by omega) hrd v hk) (fun k => upTo_andn) fun k => upTo_ones_skip
  · have hsettle : settle (.rd regDst) v = v := settle_of_ne (by simpa using hrd) (by simp)
    rw [hsettle]
    exact computes_setImm (by omega) hrd rdFile v
  · have hsettle : settle (.rb (regDst - 0x40)) v = v := settle_of_ne (by simp) (by simp)
    rw [hsettle]
    exact computes_setImm (by omega) (by omega) rbFile v
  · exact computes_setImm_rf (by omega) v

/-- **Constants**: the code leaves the constant in its destination, but for the reserved bits of `rf0`,
whatever was there before, changes no other register and has at most four instructions. -/
theorem ddPseudoSetImm_spec {regDst : ℕ} (hreg : regDst < 0xc0) (hrd : regDst ≠ 0)
    (hrb : regDst ≠ 0x40) (v : BitVec 64) :
    LoadsImm regDst v (if regDst = 0x80 then v &&& fcsrMask ||| fcsrDefault else v) ∧
      (ddPseudoSetImm regDst v).length ≤ 4 := by
  refine ⟨?_, length_ddPseudoSetImm_le regDst v⟩
  have hcomp := computes_ddPseudoSetImm hreg hrd hrb v
  have hsettle : settle (dstReg regDst) v =
      if regDst = 0x80 then v &&& fcsrMask ||| fcsrDefault else v := by
    split_ifs with h
    · rw [h]
      rfl
    · refine settle_of_ne ?_ ?_ <;> unfold dstReg <;> split_ifs <;> simp <;> omega
  rw [hsettle] at hcomp
  exact hcomp

/-- A negative constant in `rd16`. -/
theorem ddPseudoSetImm_rd16 : LoadsImm 16 0xffffffff00010000 0xffffffff00010000 ∧
    (ddPseudoSetImm 16 0xffffffff00010000).length ≤ 4 :=
  ddPseudoSetImm_spec (by decide) (by decide) (by decide) 0xffffffff00010000

/-- **`rf0` is not cleared**: it keeps its reserved bits. -/
theorem not_loadsImm_rf0 : ¬ ∀ (regDst : ℕ) (v : BitVec 64), regDst < 0xc0 → regDst ≠ 0 →
    regDst ≠ 0x40 → LoadsImm regDst v v ∧ (ddPseudoSetImm regDst v).length ≤ 4 := by
  intro hall
  obtain ⟨s, hs, hval, -⟩ := (hall 0x80 0 (by decide) (by decide) (by decide)).1
    ⟨⟨fun _ => 0, fun _ => 0⟩, fun _ => 0⟩
  have hbit := congrArg (fun x : BitVec 64 => x.getLsbD 22) hval
  have hdst : dstReg 0x80 = .rf 0 := rfl
  simp only [hdst, regs, settle, BitVec.getLsbD_or] at hbit
  rw [show fcsrDefault.getLsbD 22 = true by decide, Bool.or_true] at hbit
  exact absurd hbit (by decide)

end Dadao.Gas
