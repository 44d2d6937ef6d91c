import Dadao.Linux.PageTable

set_option relaxedAutoImplicit false
set_option autoImplicit false

/-!
# Page-table entries

The accessors of `pgtable.h` for the entries of the last level: a frame number and flags in one word. The
flags are below and above the address field.

What an entry should be is said bit by bit: every operation sets, clears or leaves a bit, and a flag is
what the last operation on it has made it. `pte_pfn` shifts the whole word, so the flags above the
address field become part of the frame number.

## Main definitions

* `Dadao.Linux.pfnPte`, `Dadao.Linux.ptePfn`, `Dadao.Linux.pteToPhys`, … — the accessors.
* `Dadao.Linux.PteOp`, `Dadao.Linux.runPte` — the operations on an entry.
* `Dadao.Linux.lastSet` — a flag after some operations.
* `Dadao.Linux.KeepsParts` — what the accessors are for.

## Main results

* `Dadao.Linux.getLsbD_runPte` — the bits of an entry after any operations.
* `Dadao.Linux.keepsParts_iff` — when the parts of an entry stay apart.
-/

namespace Dadao.Linux

/-! ## The flags -/

/-- `PTE_VALID`. -/
def pteValid : BitVec 64 := 1#64 <<< 0

/-- `PTE_TYPE_PAGE`. -/
def pteTypePage : BitVec 64 := 3#64 <<< 0

/-- `PTE_USER`. -/
def pteUser : BitVec 64 := 1#64 <<< 6

/-- `PTE_RDONLY`. -/
def pteRdonly : BitVec 64 := 1#64 <<< 7

/-- `PTE_SHARED`. -/
def pteShared : BitVec 64 := 3#64 <<< 8

/-- `PTE_AF`. -/
def pteAF : BitVec 64 := 1#64 <<< 10

/-- `PTE_NG`. -/
def pteNG : BitVec 64 := 1#64 <<< 11

/-- `PTE_WRITE`. -/
def pteWrite : BitVec 64 := 1#64 <<< 51

/-- `PTE_CONT`. -/
def pteCont : BitVec 64 := 1#64 <<< 52

/-- `PTE_PXN`. -/
def ptePXN : BitVec 64 := 1#64 <<< 53

/-- `PTE_UXN`. -/
def pteUXN : BitVec 64 := 1#64 <<< 54

/-- `PTE_DIRTY`. -/
def pteDirty : BitVec 64 := 1#64 <<< 55

/-- `PTE_SPECIAL`. -/
def pteSpecial : BitVec 64 := 1#64 <<< 56

/-- `PTE_PROT_NONE`. -/
def pteProtNone : BitVec 64 := 1#64 <<< 58

/-- All flags of an entry. -/
def pteFlags : BitVec 64 :=
  pteValid ||| pteTypePage ||| pteUser ||| pteRdonly ||| pteShared ||| pteAF ||| pteNG ||| pteWrite |||
    pteCont ||| ptePXN ||| pteUXN ||| pteDirty ||| pteSpecial ||| pteProtNone

/-- `pgprot_t`: a protection is built from the flags. -/
structure Pgprot where
  val : BitVec 64
  flags : val &&& ~~~pteFlags = 0

/-! ## The accessors -/

/-- `pfn_pte`. -/
def pfnPte (pfn : BitVec 64) (prot : Pgprot) : BitVec 64 := pfn <<< pageShift ||| prot.val

/-- `pte_pfn`. -/
def ptePfn (pte : BitVec 64) : BitVec 64 := pte >>> pageShift

/-- `__pte_to_phys`. -/
def pteToPhys (pte : BitVec 64) : BitVec 64 := pte &&& pteAddrMask

/-- `pte_present`. -/
def ptePresent (pte : BitVec 64) : Bool := pte &&& (pteValid ||| pteProtNone) != 0

/-- `pte_young`. -/
def pteYoung (pte : BitVec 64) : Bool := pte &&& pteAF != 0

/-- `pte_special`. -/
def isSpecial (pte : BitVec 64) : Bool := pte &&& pteSpecial != 0

/-- `pte_write`. -/
def isWrite (pte : BitVec 64) : Bool := pte &&& pteWrite != 0

/-- `pte_dirty`. -/
def isDirty (pte : BitVec 64) : Bool := pte &&& pteDirty != 0

/-- `pte_mkold`. -/
def pteMkold (pte : BitVec 64) : BitVec 64 := pte &&& ~~~pteAF

/-- `pte_mkyoung`. -/
def pteMkyoung (pte : BitVec 64) : BitVec 64 := pte ||| pteAF

/-- `pte_wrprotect`. -/
def pteWrprotect (pte : BitVec 64) : BitVec 64 := pte &&& ~~~pteWrite

/-- `pte_mkwrite`. -/
def pteMkwrite (pte : BitVec 64) : BitVec 64 := pte ||| pteWrite

/-- `pte_mkclean`. -/
def pteMkclean (pte : BitVec 64) : BitVec 64 := pte &&& ~~~pteDirty

/-- `pte_mkdirty`. -/
def pteMkdirty (pte : BitVec 64) : BitVec 64 := pte ||| pteDirty

/-- `pte_mkspecial`. -/
def pteMkspecial (pte : BitVec 64) : BitVec 64 := pte ||| pteSpecial

/-- The `mask` of `pte_modify`. -/
def modifyMask : BitVec 64 :=
  pteUser ||| ptePXN ||| pteUXN ||| pteRdonly ||| pteProtNone ||| pteValid ||| pteWrite

/-- `pte_modify`. -/
def pteModify (pte : BitVec 64) (newprot : Pgprot) : BitVec 64 :=
  pte &&& ~~~modifyMask ||| newprot.val &&& modifyMask

/-! ## Sequences of operations -/

/-- The operations on an entry. -/
inductive PteOp where
  | mkold | mkyoung | wrprotect | mkwrite | mkclean | mkdirty | mkspecial
  | modify (newprot : Pgprot)

/-- An operation. -/
def PteOp.apply (pte : BitVec 64) : PteOp → BitVec 64
  | .mkold => pteMkold pte
  | .mkyoung => pteMkyoung pte
  | .wrprotect => pteWrprotect pte
  | .mkwrite => pteMkwrite pte
  | .mkclean => pteMkclean pte
  | .mkdirty => pteMkdirty pte
  | .mkspecial => pteMkspecial pte
  | .modify newprot => pteModify pte newprot

/-- Operations one after the other. -/
def runPte (ops : List PteOp) (pte : BitVec 64) : BitVec 64 := ops.foldl PteOp.apply pte

/-! ## What they are for -/

/-- What an operation makes of bit `b`; `none` if it leaves it as it is. -/
def PteOp.effect (b : ℕ) : PteOp → Option Bool
  | .mkold => if b = 10 then some false else none
  | .mkyoung => if b = 10 then some true else none
  | .wrprotect => if b = 51 then some false else none
  | .mkwrite => if b = 51 then some true else none
  | .mkclean => if b = 55 then some false else none
  | .mkdirty => if b = 55 then some true else none
  | .mkspecial => if b = 56 then some true else none
  | .modify newprot =>
    if b ∈ [0, 6, 7, 51, 53, 54, 58] then some (newprot.val.getLsbD b) else none

/-- Bit `b` after some operations: what the last of them that sets or clears it has made it. -/
def lastSet (b : ℕ) (ops : List PteOp) (first : Bool) : Bool :=
  ops.foldl (fun v op => (op.effect b).getD v) first

/-- **The parts of an entry stay apart** through the operations: the frame, every flag, and all that the
next `pte_modify` does not change. -/
structure KeepsParts (pfn : BitVec 64) (prot : Pgprot) (ops : List PteOp) : Prop where
  pfn_eq : ptePfn (runPte ops (pfnPte pfn prot)) = pfn
  phys_eq : pteToPhys (runPte ops (pfnPte pfn prot)) = pfn <<< pageShift
  young : pteYoung (runPte ops (pfnPte pfn prot)) = lastSet 10 ops (prot.val.getLsbD 10)
  write : isWrite (runPte ops (pfnPte pfn prot)) = lastSet 51 ops (prot.val.getLsbD 51)
  dirty : isDirty (runPte ops (pfnPte pfn prot)) = lastSet 55 ops (prot.val.getLsbD 55)
  special : isSpecial (runPte ops (pfnPte pfn prot)) = lastSet 56 ops (prot.val.getLsbD 56)
  present : ptePresent (runPte ops (pfnPte pfn prot)) =
    (lastSet 0 ops (prot.val.getLsbD 0) || lastSet 58 ops (prot.val.getLsbD 58))
  modify : ∀ (newprot : Pgprot) (b : ℕ), (pteModify (runPte ops (pfnPte pfn prot)) newprot).getLsbD b =
    if b ∈ [0, 6, 7, 51, 53, 54, 58] then newprot.val.getLsbD b
    else (runPte ops (pfnPte pfn prot)).getLsbD b

/-! ## Bits -/

/-- A test with a mask of one bit. -/
lemma and_bit_ne_zero (x : BitVec 64) {k : ℕ} (hk : k < 64) : (x &&& 1#64 <<< k != 0) = x.getLsbD k := by
  have htwo : 1#64 <<< k = BitVec.twoPow 64 k := (BitVec.twoPow_eq 64 k).symm
  rw [htwo, BitVec.and_twoPow]
  cases x.getLsbD k with
  | false => simp
  | true =>
    have hne : BitVec.twoPow 64 k ≠ 0#64 := by
      intro hzero
      have hbit := congrArg (fun y => y.getLsbD k) hzero
      simp [hk] at hbit
    simpa using hne

/-- The bits of a flag. -/
lemma getLsbD_bit {k : ℕ} (hk : k < 64) (b : ℕ) : (1#64 <<< k).getLsbD b = decide (b = k) := by
  rw [BitVec.getLsbD_shiftLeft]
  by_cases hb : b = k
  · simp [hb, hk]
  · have hone : (1#64).getLsbD (b - k) = true ↔ b - k = 0 := by
      rw [BitVec.getLsbD_one]
      simp
    by_cases hlt : b < k
    · simp [hlt, hb]
    · simp [hb, show b - k ≠ 0 by omega]

lemma getLsbD_modifyMask (b : ℕ) : modifyMask.getLsbD b = decide (b ∈ [0, 6, 7, 51, 53, 54, 58]) := by
  rw [Bool.eq_iff_iff]
  simp only [modifyMask, pteUser, ptePXN, pteUXN, pteRdonly, pteProtNone, pteValid, pteWrite, BitVec.getLsbD_or,
    Bool.or_eq_true, getLsbD_bit (show 0 < 64 by omega), getLsbD_bit (show 6 < 64 by omega),
    getLsbD_bit (show 7 < 64 by omega), getLsbD_bit (show 51 < 64 by omega), getLsbD_bit (show 53 < 64 by omega),
    getLsbD_bit (show 54 < 64 by omega), getLsbD_bit (show 58 < 64 by omega), decide_eq_true_eq, List.mem_cons,
    List.not_mem_nil, or_false]
  omega

/-- `pte_modify` bit by bit. -/
lemma getLsbD_pteModify (pte : BitVec 64) (newprot : Pgprot) (b : ℕ) : (pteModify pte newprot).getLsbD b =
    if b ∈ [0, 6, 7, 51, 53, 54, 58] then newprot.val.getLsbD b else pte.getLsbD b := by
  rw [pteModify, BitVec.getLsbD_or, BitVec.getLsbD_and, BitVec.getLsbD_and, BitVec.getLsbD_not, getLsbD_modifyMask]
  by_cases hmask : b ∈ [0, 6, 7, 51, 53, 54, 58]
  · rw [if_pos hmask]
    simp [hmask]
  · rw [if_neg hmask]
    by_cases hb : b < 64
    · simp [hmask, hb]
    · simp [BitVec.getLsbD_of_ge pte b (by omega), BitVec.getLsbD_of_ge newprot.val b (by omega)]

lemma getLsbD_clear (pte : BitVec 64) {k b : ℕ} (hk : k < 64) (hb : b < 64) :
    (pte &&& ~~~(1#64 <<< k)).getLsbD b = if b = k then false else pte.getLsbD b := by
  rw [BitVec.getLsbD_and, BitVec.getLsbD_not, getLsbD_bit hk]
  by_cases h : b = k <;> simp [h, hb]

lemma getLsbD_set (pte : BitVec 64) {k : ℕ} (hk : k < 64) (b : ℕ) :
    (pte ||| 1#64 <<< k).getLsbD b = if b = k then true else pte.getLsbD b := by
  rw [BitVec.getLsbD_or, getLsbD_bit hk]
  by_cases h : b = k <;> simp [h]

/-- **One operation** has its effect on every bit. -/
lemma getLsbD_apply (op : PteOp) (pte : BitVec 64) {b : ℕ} (hb : b < 64) :
    (op.apply pte).getLsbD b = (op.effect b).getD (pte.getLsbD b) := by
  have hite (p : Prop) [Decidable p] (v : Bool) :
      (if p then some v else none).getD (pte.getLsbD b) = if p then v else pte.getLsbD b :=
    apply_ite (fun o : Option Bool => o.getD (pte.getLsbD b)) ..
  cases op with
  | mkold | wrprotect | mkclean =>
    rw [PteOp.effect, hite]
    exact getLsbD_clear pte (by omega) hb
  | mkyoung | mkwrite | mkdirty | mkspecial =>
    rw [PteOp.effect, hite]
    exact getLsbD_set pte (by omega) b
  | modify newprot =>
    rw [PteOp.effect, hite]
    exact getLsbD_pteModify pte newprot b

/-- **The bits of an entry after any operations** are what the last operation on them has made them. -/
theorem getLsbD_runPte (ops : List PteOp) (pte : BitVec 64) {b : ℕ} (hb : b < 64) :
    (runPte ops pte).getLsbD b = lastSet b ops (pte.getLsbD b) := by
  induction ops generalizing pte with
  | nil => rfl
  | cons op ops ih =>
    have hrun : runPte (op :: ops) pte = runPte ops (op.apply pte) := rfl
    have hlast : lastSet b (op :: ops) (pte.getLsbD b) = lastSet b ops ((op.effect b).getD (pte.getLsbD b)) := rfl
    rw [hrun, ih, getLsbD_apply op pte hb, hlast]

/-! ## The address field and the flags -/

/-- No operation changes the address field. -/
lemma lastSet_address {b : ℕ} (hlow : 12 ≤ b) (hhigh : b < 48) (ops : List PteOp) (first : Bool) :
    lastSet b ops first = first := by
  induction ops with
  | nil => rfl
  | cons op ops ih =>
    have hnone : op.effect b = none := by
      cases op <;> rw [PteOp.effect] <;> refine if_neg ?_
      case modify =>
        simp only [List.mem_cons, List.not_mem_nil, or_false]
        omega
      all_goals omega
    have hstep : lastSet b (op :: ops) first = lastSet b ops ((op.effect b).getD first) := rfl
    rw [hstep, hnone]
    exact ih

/-- A protection has no bit in the address field. -/
lemma Pgprot.getLsbD_address (prot : Pgprot) {b : ℕ} (hlow : 12 ≤ b) (hhigh : b < 48) :
    prot.val.getLsbD b = false := by
  have hmask : ∀ b < 48, 12 ≤ b → pteFlags.getLsbD b = false := by decide
  have hbit := congrArg (fun x => x.getLsbD b) prot.flags
  simp only [BitVec.getLsbD_and, BitVec.getLsbD_not, hmask b hhigh hlow] at hbit
  simpa [show b < 64 by omega] using hbit

section Parts

variable {pfn : BitVec 64} (hpfn : pfn.toNat < 2 ^ 36) (prot : Pgprot) (ops : List PteOp)

include hpfn in
lemma getLsbD_pfn {b : ℕ} (hb : 36 ≤ b) : pfn.getLsbD b = false := by
  rw [BitVec.getLsbD, Nat.testBit_eq_false_of_lt]
  exact lt_of_lt_of_le hpfn (Nat.pow_le_pow_right (by omega) hb)

include hpfn in
/-- A new entry outside its address field. -/
lemma getLsbD_pfnPte_flag {b : ℕ} (hb : b < 12 ∨ 48 ≤ b) :
    (pfnPte pfn prot).getLsbD b = prot.val.getLsbD b := by
  rw [pfnPte, BitVec.getLsbD_or, BitVec.getLsbD_shiftLeft, pageShift]
  rcases hb with hb | hb
  · simp [hb]
  · simp [getLsbD_pfn hpfn (show 36 ≤ b - 12 by omega)]

/-- A new entry in its address field. -/
lemma getLsbD_pfnPte_address (pfn : BitVec 64) (prot : Pgprot) {b : ℕ} (hlow : 12 ≤ b) (hhigh : b < 48) :
    (pfnPte pfn prot).getLsbD b = pfn.getLsbD (b - 12) := by
  rw [pfnPte, BitVec.getLsbD_or, BitVec.getLsbD_shiftLeft, pageShift, prot.getLsbD_address hlow hhigh]
  simp [show b < 64 by omega, show ¬ b < 12 by omega]

include hpfn in
/-- A flag of an entry. -/
lemma getLsbD_flag {b : ℕ} (hb : b < 12 ∨ 48 ≤ b) (hlt : b < 64) :
    (runPte ops (pfnPte pfn prot)).getLsbD b = lastSet b ops (prot.val.getLsbD b) := by
  rw [getLsbD_runPte _ _ hlt, getLsbD_pfnPte_flag hpfn prot hb]

/-- The address field of an entry. -/
lemma getLsbD_address (pfn : BitVec 64) (prot : Pgprot) (ops : List PteOp) {b : ℕ} (hlow : 12 ≤ b) (hhigh : b < 48) :
    (runPte ops (pfnPte pfn prot)).getLsbD b = pfn.getLsbD (b - 12) := by
  rw [getLsbD_runPte _ _ (by omega), lastSet_address hlow hhigh, getLsbD_pfnPte_address pfn prot hlow hhigh]

include hpfn in
/-- **The physical address is right.** -/
lemma pteToPhys_runPte : pteToPhys (runPte ops (pfnPte pfn prot)) = pfn <<< pageShift := by
  have hmask : ∀ b < 64, pteAddrMask.getLsbD b = decide (12 ≤ b ∧ b < 48) := by decide
  apply BitVec.eq_of_getLsbD_eq
  intro b hb
  rw [pteToPhys, BitVec.getLsbD_and, hmask b hb, BitVec.getLsbD_shiftLeft, pageShift]
  by_cases hin : 12 ≤ b ∧ b < 48
  · rw [getLsbD_address pfn prot ops hin.1 hin.2]
    simp [hin, hb, show ¬ b < 12 by omega]
  · by_cases hlow : b < 12
    · simp [hlow]
    · simp [hin, hlow, getLsbD_pfn hpfn (show 36 ≤ b - 12 by omega)]

include hpfn in
/-- **The frame number is right** exactly when no flag above the address field is set. -/
lemma ptePfn_runPte_iff : ptePfn (runPte ops (pfnPte pfn prot)) = pfn ↔
    ∀ b, 48 ≤ b → b < 64 → lastSet b ops (prot.val.getLsbD b) = false := by
  constructor
  · intro heq b hb hlt
    have hbit := congrArg (fun x => x.getLsbD (b - 12)) heq
    simp only [ptePfn, pageShift, BitVec.getLsbD_ushiftRight] at hbit
    rw [show 12 + (b - 12) = b by omega, getLsbD_flag hpfn prot ops (Or.inr hb) hlt,
      getLsbD_pfn hpfn (show 36 ≤ b - 12 by omega)] at hbit
    exact hbit
  · intro hclear
    apply BitVec.eq_of_getLsbD_eq
    intro b hb
    rw [ptePfn, pageShift, BitVec.getLsbD_ushiftRight]
    by_cases hin : b < 36
    · rw [getLsbD_address pfn prot ops (by omega) (by omega), show 12 + b - 12 = b by omega]
    · rw [getLsbD_pfn hpfn (show 36 ≤ b by omega)]
      by_cases hlt : 12 + b < 64
      · rw [getLsbD_flag hpfn prot ops (Or.inr (by omega)) hlt]
        exact hclear _ (by omega) hlt
      · exact BitVec.getLsbD_of_ge _ _ (by omega)

include hpfn in
/-- A flag test reports the flag. -/
lemma test_flag {k : ℕ} (hk : k < 12 ∨ 48 ≤ k) (hlt : k < 64) :
    (runPte ops (pfnPte pfn prot) &&& 1#64 <<< k != 0) = lastSet k ops (prot.val.getLsbD k) := by
  rw [and_bit_ne_zero _ hlt, getLsbD_flag hpfn prot ops hk hlt]

/-- The test of two flags. -/
lemma ptePresent_eq (pte : BitVec 64) : ptePresent pte = (pte.getLsbD 0 || pte.getLsbD 58) := by
  rw [← and_bit_ne_zero pte (show 0 < 64 by omega), ← and_bit_ne_zero pte (show 58 < 64 by omega), ptePresent,
    pteValid, pteProtNone, BitVec.and_or_distrib_left, Bool.eq_iff_iff]
  rw [Bool.or_eq_true, bne_iff_ne, bne_iff_ne, bne_iff_ne, ← not_and_or]
  exact not_congr BitVec.or_eq_zero_iff

end Parts

/-- **When the parts of an entry stay apart**: when every flag above the address field is clear in the
end. -/
theorem keepsParts_iff {pfn : BitVec 64} (hpfn : pfn.toNat < 2 ^ 36) (prot : Pgprot) (ops : List PteOp) :
    KeepsParts pfn prot ops ↔ ∀ b, 48 ≤ b → b < 64 → lastSet b ops (prot.val.getLsbD b) = false := by
  rw [← ptePfn_runPte_iff hpfn prot ops]
  refine ⟨fun h => h.pfn_eq, fun h => ⟨h, pteToPhys_runPte hpfn prot ops, ?_, ?_, ?_, ?_, ?_, ?_⟩⟩
  · exact test_flag hpfn prot ops (Or.inl (by omega)) (by omega)
  · exact test_flag hpfn prot ops (Or.inr (by omega)) (by omega)
  · exact test_flag hpfn prot ops (Or.inr (by omega)) (by omega)
  · exact test_flag hpfn prot ops (Or.inr (by omega)) (by omega)
  · rw [ptePresent_eq, getLsbD_flag hpfn prot ops (Or.inl (by omega)) (by omega),
      getLsbD_flag hpfn prot ops (Or.inr (by omega)) (by omega)]
  · exact fun newprot b => getLsbD_pteModify _ newprot b

/-- A valid entry that is made young and old. -/
theorem keepsParts_iff_valid : (5 : BitVec 64).toNat < 2 ^ 36 ∧
    (KeepsParts 5 ⟨pteValid, by decide⟩ [.mkyoung, .mkold] ↔
      ∀ b, 48 ≤ b → b < 64 → lastSet b [.mkyoung, .mkold] (pteValid.getLsbD b) = false) :=
  ⟨by decide, keepsParts_iff (by decide) ⟨pteValid, by decide⟩ [.mkyoung, .mkold]⟩

/-- `PAGE_READONLY`. -/
def pageReadonly : Pgprot where
  val := pteTypePage ||| pteAF ||| pteShared ||| pteUser ||| pteRdonly ||| pteNG ||| ptePXN ||| pteUXN
  flags := by decide

/-- **A read-only page of a user** has its execute-never flags in the frame number. -/
theorem pageReadonly_frame_wrong : ¬ KeepsParts 1 pageReadonly [] := by
  intro h
  exact absurd h.pfn_eq (by decide)

end Dadao.Linux
