import Dadao.Qemu.Multiple
import Mathlib.Tactic.Push
import Mathlib.Tactic.SplitIfs

set_option relaxedAutoImplicit false
set_option autoImplicit false

/-!
# Safe translation

Translating a word should end, name registers that exist and, for an instruction on several
registers, either raise the illegal-instruction exception or handle as many registers as the count
says. The loops of `Dadao.Qemu.Multi` do so for legal counts; for a count of zero they do not end,
and a walk beyond a register file goes on behind the end of a C array.

## Main definitions

* `Dadao.Qemu.SafeTranslation` — that a translation ends and stays inside the register files.
* `Dadao.Qemu.Multi.Legal` — a positive count, and walks that stay inside their files.

## Main results

* `Dadao.Qemu.disasDadao_inRange` — instructions without a loop name registers that exist.
* `Dadao.Qemu.safeTranslation_iff` — a translation is safe unless a count is illegal.
-/

namespace Dadao.Qemu

open Tcg

/-! ## What a safe translation is -/

namespace Multi

/-- The first registers of the walk. -/
def firsts (m : Multi) (w : BitVec 32) : List ℕ :=
  match m with
  | .ldm .. | .stm .. => [fieldHa w]
  | .r2r .. | .fcvt .. => [fieldHb w, fieldHc w]

/-- The count is positive and every walk stays inside its file. -/
def Legal (m : Multi) (w : BitVec 32) : Prop :=
  fieldHd w ≠ 0 ∧ ∀ first ∈ m.firsts w, first + fieldHd w ≤ 64

instance (m : Multi) (w : BitVec 32) : Decidable (m.Legal w) := inferInstanceAs (Decidable (_ ∧ _))

/-- What is emitted before the elements. -/
def setup (m : Multi) (w : BitVec 32) : List Emission :=
  match m with
  | .ldm .. | .stm .. => [.op (.bin .add (.temp 0) (rbOf fieldHb w) (rdOf fieldHc w))]
  | .r2r .. | .fcvt .. => []

/-- The operations for element `k`. Those of a register that is read only have no assignment. -/
def element (m : Multi) (w : BitVec 32) (k : ℕ) : List Emission :=
  match m with
  | .ldm dest op => ldmBody dest op (fieldHa w + k)
  | .stm src op => stmBody src op (fieldHa w + k)
  | .r2r src dest => r2rBody src dest (fieldHb w + k) (fieldHc w + k)
  | .fcvt fn src dest => fcvtBody fn src dest (fieldHb w + k) (fieldHc w + k)

end Multi

/-- An illegal-instruction exception, and no register or memory effect behind it. -/
def EndsIllegal (emitted : List Emission) : Prop :=
  ∃ before e after, emitted = before ++ e :: after ∧ e.isIllegal = true ∧
    ∀ x ∈ after, x.hasEffect = false

/-- **A safe translation**: it ends, it names registers that exist only, and for an instruction on
several registers it is the exception if the count is illegal, and the operations of exactly as many
elements as the count says, one register after the other, if it is legal. -/
def SafeTranslation (pc : BitVec 64) (w : BitVec 32) : Prop :=
  ∃ fuel t, translateInsn fuel pc w = some t ∧ (∀ e ∈ t.emitted, ∀ r ∈ e.elems, r.InRange) ∧
    ∀ m, multiOf w = some m →
      (¬ m.Legal w → EndsIllegal t.emitted) ∧
      (m.Legal w → ∃ order,
        (order = List.range (fieldHd w) ∨ order = (List.range (fieldHd w)).reverse) ∧
        t.emitted = insnPrologue.map .op ++ (m.setup w ++ order.flatMap (m.element w)) ++
          [.op (movi cpuPc (pc + 4))])

/-! ## The fields -/

section Fields

variable (w : BitVec 32)

/-- A field of six bits. -/
lemma toNat_and_lt (v : BitVec 32) : (v &&& 0x3f#32).toNat < 64 := by
  rw [BitVec.toNat_and]
  exact Nat.lt_of_le_of_lt Nat.and_le_right (by decide)

@[simp] lemma fieldHa_lt : fieldHa w < 64 := toNat_and_lt _

@[simp] lemma fieldHb_lt : fieldHb w < 64 := toNat_and_lt _

@[simp] lemma fieldHc_lt : fieldHc w < 64 := toNat_and_lt _

@[simp] lemma fieldHd_lt : fieldHd w < 64 := toNat_and_lt _

end Fields

/-! ## The loops -/

section Walks

lemma iterate_up (k : ℕ) (s : ℤ × ℤ) :
    (fun s : ℤ × ℤ => (s.1 + 1, s.2 - 1))^[k] s = (s.1 + k, s.2 - k) := by
  induction k generalizing s with
  | zero => simp
  | succ k ih =>
    rw [Function.iterate_succ_apply, ih]
    simp only [Prod.mk.injEq]
    omega

/-- **The walk over one register** ends for a positive count. -/
lemma walkUp_eq_some {body : ℤ → List Emission} {fuel : ℕ} {ha : ℤ} {count : ℕ} (hpos : count ≠ 0)
    (hfuel : count ≤ fuel) :
    walkUp body fuel ha count = some ((List.range count).flatMap fun k : ℕ => body (ha + k)) := by
  obtain ⟨n, rfl⟩ : ∃ n, count = n + 1 := ⟨count - 1, by omega⟩
  rw [walkUp, Loop.doWhile_eq_some (n := n) (by omega)]
  · simp only [iterate_up]
  · intro k hk
    simp only [iterate_up, ne_eq, decide_not, Bool.not_eq_true', decide_eq_false_iff_not]
    omega
  · simp [iterate_up]

/-- The walk over one register does not end for a count of zero. -/
lemma walkUp_zero {body : ℤ → List Emission} (fuel : ℕ) (ha : ℤ) : walkUp body fuel ha 0 = none := by
  refine Loop.doWhile_eq_none fuel fun k => ?_
  simp only [iterate_up, ne_eq, decide_not, Bool.not_eq_true', decide_eq_false_iff_not]
  omega

/-- One step of the walk over two registers. -/
def stepTwo (s : ℤ × ℤ × ℤ) : ℤ × ℤ × ℤ :=
  if s.1 > s.2.1 then (s.1 - 1, s.2.1 - 1, s.2.2 - 1) else (s.1 + 1, s.2.1 + 1, s.2.2 - 1)

lemma iterate_two (k : ℕ) (s : ℤ × ℤ × ℤ) : stepTwo^[k] s =
    if s.1 > s.2.1 then (s.1 - k, s.2.1 - k, s.2.2 - k) else (s.1 + k, s.2.1 + k, s.2.2 - k) := by
  induction k generalizing s with
  | zero => simp
  | succ k ih =>
    rw [Function.iterate_succ_apply, ih]
    unfold stepTwo
    by_cases h : s.1 > s.2.1
    · rw [if_pos h, if_pos h, if_pos (show s.1 - 1 > s.2.1 - 1 by omega)]
      simp only [Prod.mk.injEq]
      omega
    · rw [if_neg h, if_neg h, if_neg (show ¬ s.1 + 1 > s.2.1 + 1 by omega)]
      simp only [Prod.mk.injEq]
      omega

lemma iterate_two_count (k : ℕ) (s : ℤ × ℤ × ℤ) : (stepTwo^[k] s).2.2 = s.2.2 - k := by
  rw [iterate_two]
  split_ifs <;> rfl

/-- The start of the walk over two registers. -/
def startTwo (hb hc immu6 : ℤ) : ℤ × ℤ × ℤ :=
  if hb > hc then (hb + (immu6 - 1), hc + (immu6 - 1), immu6) else (hb, hc, immu6)

lemma startTwo_count (hb hc immu6 : ℤ) : (startTwo hb hc immu6).2.2 = immu6 := by
  unfold startTwo
  split_ifs <;> rfl

/-- The walk over two registers does not end for a count of zero. -/
lemma walkTwo_zero {body : ℤ → ℤ → List Emission} (fuel : ℕ) (hb hc : ℤ) :
    walkTwo body fuel hb hc 0 = none := by
  refine Loop.doWhile_eq_none fuel fun k => ?_
  have hcount : (stepTwo^[k + 1] (startTwo hb hc 0)).2.2 ≠ 0 := by
    rw [iterate_two_count, startTwo_count]
    omega
  exact decide_eq_true hcount

/-- The order in which the walk over two registers meets them: down if `hb > hc`. -/
def orderTwo (hb hc : ℤ) (count : ℕ) : List ℕ :=
  if hb > hc then (List.range count).reverse else List.range count

lemma orderTwo_cases (hb hc : ℤ) (count : ℕ) :
    orderTwo hb hc count = List.range count ∨ orderTwo hb hc count = (List.range count).reverse := by
  unfold orderTwo
  split_ifs
  · exact .inr rfl
  · exact .inl rfl

/-- **The walk over two registers** ends for a positive count. -/
lemma walkTwo_eq_some {body : ℤ → ℤ → List Emission} {fuel : ℕ} {hb hc : ℤ} {count : ℕ}
    (hpos : count ≠ 0) (hfuel : count ≤ fuel) : walkTwo body fuel hb hc count =
      some ((orderTwo hb hc count).flatMap fun k : ℕ => body (hb + k) (hc + k)) := by
  obtain ⟨n, rfl⟩ : ∃ n, count = n + 1 := ⟨count - 1, by omega⟩
  have hwalk : walkTwo body fuel hb hc (n + 1 : ℕ) = some ((List.range (n + 1)).flatMap fun k =>
      body (stepTwo^[k] (startTwo hb hc (n + 1 : ℕ))).1
        (stepTwo^[k] (startTwo hb hc (n + 1 : ℕ))).2.1) := by
    refine Loop.doWhile_eq_some (n := n) (by omega) ?_ ?_
    · intro k hk
      have hcount : (stepTwo^[k + 1] (startTwo hb hc (n + 1 : ℕ))).2.2 ≠ 0 := by
        rw [iterate_two_count, startTwo_count]
        omega
      exact decide_eq_true hcount
    · have hcount : (stepTwo^[n + 1] (startTwo hb hc (n + 1 : ℕ))).2.2 = 0 := by
        rw [iterate_two_count, startTwo_count]
        omega
      exact decide_eq_false (not_not.mpr hcount)
  by_cases h : hb > hc
  · have hreverse : (List.range (n + 1)).reverse = (List.range (n + 1)).map (n - ·) := by
      rw [List.range_eq_range', List.reverse_range', ← List.range_eq_range']
      simp
    rw [hwalk, orderTwo, if_pos h, hreverse, List.flatMap_map]
    refine congrArg some (List.flatMap_congr fun k hk => ?_)
    have hlt : k < n + 1 := List.mem_range.mp hk
    have hup : hb + ((n + 1 : ℕ) - 1) > hc + ((n + 1 : ℕ) - 1) := by omega
    simp only [iterate_two, startTwo, if_pos h, if_pos hup]
    congr 1 <;> omega
  · rw [hwalk, orderTwo, if_neg h]
    simp only [iterate_two, startTwo, if_neg h]

end Walks

/-! ## Legal counts -/

section Legal

variable {m : Multi} {w : BitVec 32} {pc : BitVec 64}

/-- Nothing is reported by a legal count. -/
lemma illegalWhen_of_not {p : Prop} [Decidable p] (h : ¬ p) : illegalWhen p pc = [] := if_neg h

/-- `INSN_LDM_RRRI` and `INSN_STM_RRRI` with a legal count. -/
lemma insnMemRrri_of_legal {body : ℤ → List Emission} (hpos : fieldHd w ≠ 0)
    (hha : fieldHa w + fieldHd w ≤ 64) : insnMemRrri body (fieldHd w) pc w =
      some ⟨[.op (.bin .add (.temp 0) (rbOf fieldHb w) (rdOf fieldHc w))] ++
        (List.range (fieldHd w)).flatMap fun k : ℕ => body (fieldHa w + k), .next, -1⟩ := by
  have hover : ¬ fieldHa w + fieldHd w > 64 := Nat.not_lt.mpr hha
  rw [insnMemRrri, walkUp_eq_some hpos le_rfl, Option.map_some, illegalWhen_of_not hpos,
    illegalWhen_of_not hover, Translation.unless, if_neg (by simp [hpos, hover])]
  rfl

/-- `INSN_R2R_ORRI` and `INSN_FCVT_ORRI` with a legal count. -/
lemma insnRegOrri_of_legal {body : ℤ → ℤ → List Emission} (hpos : fieldHd w ≠ 0)
    (hhb : fieldHb w + fieldHd w ≤ 64) (hhc : fieldHc w + fieldHd w ≤ 64) :
    insnRegOrri body (fieldHd w) pc w = some ⟨(orderTwo (fieldHb w) (fieldHc w) (fieldHd w)).flatMap
      fun k : ℕ => body (fieldHb w + k) (fieldHc w + k), .next, -1⟩ := by
  have hoverb : ¬ fieldHb w + fieldHd w > 64 := Nat.not_lt.mpr hhb
  have hoverc : ¬ fieldHc w + fieldHd w > 64 := Nat.not_lt.mpr hhc
  rw [insnRegOrri, walkTwo_eq_some hpos le_rfl, Option.map_some, illegalWhen_of_not hpos,
    illegalWhen_of_not hoverb, illegalWhen_of_not hoverc, Translation.unless,
    if_neg (by simp [hpos, hoverb, hoverc])]
  rfl

/-- **A legal count**: the elements one after the other. -/
lemma Multi.trans_of_legal (h : m.Legal w) : ∃ order,
    (order = List.range (fieldHd w) ∨ order = (List.range (fieldHd w)).reverse) ∧
    m.trans (fieldHd w) pc w = some ⟨m.setup w ++ order.flatMap (m.element w), .next, -1⟩ := by
  obtain ⟨hpos, hfirsts⟩ := h
  cases m with
  | ldm dest op =>
    exact ⟨_, .inl rfl, insnMemRrri_of_legal hpos (hfirsts _ (by simp [firsts]))⟩
  | stm src op =>
    exact ⟨_, .inl rfl, insnMemRrri_of_legal hpos (hfirsts _ (by simp [firsts]))⟩
  | r2r src dest =>
    exact ⟨_, orderTwo_cases .., insnRegOrri_of_legal hpos (hfirsts _ (by simp [firsts]))
      (hfirsts _ (by simp [firsts]))⟩
  | fcvt fn src dest =>
    exact ⟨_, orderTwo_cases .., insnRegOrri_of_legal hpos (hfirsts _ (by simp [firsts]))
      (hfirsts _ (by simp [firsts]))⟩

end Legal

/-! ## Illegal counts -/

section Illegal

variable {m : Multi} {w : BitVec 32} {pc : BitVec 64}

/-- A count of zero is not translated with any fuel. -/
lemma Multi.trans_zero (hzero : fieldHd w = 0) (fuel : ℕ) : m.trans fuel pc w = none := by
  have hmem : ∀ body, insnMemRrri body fuel pc w = none := by
    intro body
    rw [insnMemRrri, hzero]
    exact congrArg (Option.map _) (walkUp_zero fuel _)
  have hreg : ∀ body, insnRegOrri body fuel pc w = none := by
    intro body
    rw [insnRegOrri, hzero]
    exact congrArg (Option.map _) (walkTwo_zero fuel _ _)
  cases m with
  | ldm dest op => exact hmem _
  | stm src op => exact hmem _
  | r2r src dest => exact hreg _
  | fcvt fn src dest => exact hreg _

/-- A register beyond its file. -/
lemma not_inRange {file : RegFile} {i : ℤ} (h : 64 ≤ i) : ¬ (Elem.reg file i).InRange :=
  fun hin => absurd hin.2 (by omega)

/-- A walk beyond its file over one register. -/
lemma insnMemRrri_over {body : ℤ → List Emission}
    (hbody : ∀ i ≠ 0, ∃ e ∈ body i, ∃ file, .reg file i ∈ e.elems) (hpos : fieldHd w ≠ 0)
    (hover : 64 < fieldHa w + fieldHd w) {fuel : ℕ} {t : Translation}
    (ht : insnMemRrri body fuel pc w = some t) : ∃ e ∈ t.emitted, ∃ r ∈ e.elems, ¬ r.InRange := by
  obtain ⟨emitted, hwalk, rfl⟩ := Option.map_eq_some_iff.mp ht
  have hmore := Loop.doWhile_mono (Nat.le_add_left fuel (fieldHd w)) hwalk
  have hall : walkUp body (fieldHd w + fuel) (fieldHa w) (fieldHd w) = _ :=
    walkUp_eq_some hpos (Nat.le_add_right _ fuel)
  obtain ⟨e, he, file, hname⟩ := hbody (fieldHa w + (fieldHd w - 1 : ℕ)) (by omega)
  refine ⟨e, ?_, _, hname, not_inRange (by omega)⟩
  have hlast : e ∈ emitted := by
    rw [← Option.some.inj (hall.symm.trans hmore)]
    exact List.mem_flatMap.mpr ⟨fieldHd w - 1, List.mem_range.mpr (by omega), he⟩
  exact List.mem_append_right _ hlast

/-- A walk beyond its file over two registers. -/
lemma insnRegOrri_over {body : ℤ → ℤ → List Emission}
    (hbody : ∀ i ≠ 0, ∀ j, ∃ e ∈ body i j, ∃ src dest, .reg dest i ∈ e.elems ∧ .reg src j ∈ e.elems)
    (hpos : fieldHd w ≠ 0)
    (hover : 64 < fieldHb w + fieldHd w ∨ 64 < fieldHc w + fieldHd w) {fuel : ℕ} {t : Translation}
    (ht : insnRegOrri body fuel pc w = some t) : ∃ e ∈ t.emitted, ∃ r ∈ e.elems, ¬ r.InRange := by
  have hhb : fieldHb w < 64 := fieldHb_lt w
  have hhc : fieldHc w < 64 := fieldHc_lt w
  obtain ⟨emitted, hwalk, rfl⟩ := Option.map_eq_some_iff.mp ht
  have hmore := Loop.doWhile_mono (Nat.le_add_left fuel (fieldHd w)) hwalk
  have hall : walkTwo body (fieldHd w + fuel) (fieldHb w) (fieldHc w) (fieldHd w) = _ :=
    walkTwo_eq_some hpos (Nat.le_add_right _ fuel)
  have hmem : fieldHd w - 1 ∈ orderTwo (fieldHb w) (fieldHc w) (fieldHd w) := by
    rcases orderTwo_cases (fieldHb w) (fieldHc w) (fieldHd w) with horder | horder
    · rw [horder]
      exact List.mem_range.mpr (by omega)
    · rw [horder]
      exact List.mem_reverse.mpr (List.mem_range.mpr (by omega))
  obtain ⟨e, he, src, dest, hdest, hsrc⟩ := hbody (fieldHb w + (fieldHd w - 1 : ℕ)) (by omega)
    (fieldHc w + (fieldHd w - 1 : ℕ))
  have hlast : e ∈ emitted := by
    rw [← Option.some.inj (hall.symm.trans hmore)]
    exact List.mem_flatMap.mpr ⟨fieldHd w - 1, hmem, he⟩
  refine ⟨e, List.mem_append_right _ hlast, ?_⟩
  rcases hover with hover | hover
  · exact ⟨_, hdest, not_inRange (by omega)⟩
  · exact ⟨_, hsrc, not_inRange (by omega)⟩

/-- A walk beyond its file names a register that does not exist. -/
lemma Multi.trans_over (hpos : fieldHd w ≠ 0) {first : ℕ} (hfirst : first ∈ m.firsts w)
    (hover : 64 < first + fieldHd w) {fuel : ℕ} {t : Translation}
    (ht : m.trans fuel pc w = some t) : ∃ e ∈ t.emitted, ∃ r ∈ e.elems, ¬ r.InRange := by
  cases m with
  | ldm dest op =>
    obtain rfl := List.mem_singleton.mp hfirst
    refine insnMemRrri_over (fun i hi => ?_) hpos hover ht
    exact ⟨.elemOp (.mov (elem dest i) (.temp 1)), by simp [ldmBody, hi], dest, by
      simp [Emission.elems, globalsOf, Op.vars]⟩
  | stm src op =>
    obtain rfl := List.mem_singleton.mp hfirst
    refine insnMemRrri_over (fun i _ => ?_) hpos hover ht
    exact ⟨.elemOp (.qemuSt (elem src i) (.temp 0) op), by simp [stmBody], src, by
      simp [Emission.elems, globalsOf, Op.vars]⟩
  | r2r src dest =>
    refine insnRegOrri_over (fun i hi j => ?_) hpos ?_ ht
    · exact ⟨.elemOp (.mov (elem dest i) (elem src j)), by simp [r2rBody, hi], src, dest, by
        simp [Emission.elems, globalsOf, Op.vars]⟩
    · simp only [firsts, List.mem_cons, List.not_mem_nil, or_false] at hfirst
      rcases hfirst with rfl | rfl
      · exact .inl hover
      · exact .inr hover
  | fcvt fn src dest =>
    refine insnRegOrri_over (fun i hi j => ?_) hpos ?_ ht
    · exact ⟨.helper fn (.reg dest i) [.reg src j], by simp [fcvtBody, hi], src, dest, by
        simp [Emission.elems]⟩
    · simp only [firsts, List.mem_cons, List.not_mem_nil, or_false] at hfirst
      rcases hfirst with rfl | rfl
      · exact .inl hover
      · exact .inr hover

end Illegal

/-! ## Registers that exist -/

section InRange

/-- A global that exists. -/
def Global.InRange : Global → Prop
  | .rd i | .rb i | .rf i | .ra i => i < 64
  | _ => True

/-- An operation on globals that exist. -/
def OpInRange (o : Op Global) : Prop := ∀ g ∈ globalsOf o.vars, g.InRange

/-- Operations on globals that exist. -/
def OpsInRange (ops : List (Op Global)) : Prop := ∀ o ∈ ops, OpInRange o

/-- A global that exists is an element that exists. -/
lemma Global.InRange.elem {g : Global} (h : g.InRange) : g.elem.InRange := by
  cases g <;> simp only [Global.elem, Elem.InRange, Global.InRange] at h ⊢ <;> omega

@[simp] lemma inRange_rd {i : ℕ} : (Global.rd i).InRange ↔ i < 64 := Iff.rfl

@[simp] lemma inRange_rb {i : ℕ} : (Global.rb i).InRange ↔ i < 64 := Iff.rfl

@[simp] lemma inRange_rf {i : ℕ} : (Global.rf i).InRange ↔ i < 64 := Iff.rfl

@[simp] lemma inRange_ra {i : ℕ} : (Global.ra i).InRange ↔ i < 64 := Iff.rfl

@[simp] lemma inRange_other : Global.jmpPc.InRange ∧ Global.loadRes.InRange ∧
    Global.loadVal.InRange := ⟨trivial, trivial, trivial⟩

@[simp] lemma opsInRange_nil : OpsInRange [] := by simp [OpsInRange]

@[simp] lemma opsInRange_cons {o : Op Global} {ops : List (Op Global)} :
    OpsInRange (o :: ops) ↔ OpInRange o ∧ OpsInRange ops := by simp [OpsInRange]

@[simp] lemma opsInRange_append {ops ops' : List (Op Global)} :
    OpsInRange (ops ++ ops') ↔ OpsInRange ops ∧ OpsInRange ops' := by
  simp [OpsInRange, or_imp, forall_and]

@[simp] lemma opsInRange_ite {p : Prop} [Decidable p] {ops ops' : List (Op Global)} :
    OpsInRange (if p then ops else ops') ↔ (p → OpsInRange ops) ∧ (¬ p → OpsInRange ops') := by
  split_ifs with h <;> simp [h]

variable {reg : ℕ → Global} (hreg : ∀ i < 64, (reg i).InRange) (pc : BitVec 64) (w : BitVec 32)

include hreg in
@[simp] lemma insnLdRrii_inRange (anyReg : Bool) (op : MemOp) : OpsInRange (insnLdRrii reg anyReg op w).ops := by
  simp [insnLdRrii, Emitted.next, OpInRange, globalsOf, Op.vars, hreg]

include hreg in
@[simp] lemma insnStRrii_inRange (op : MemOp) : OpsInRange (insnStRrii reg op w).ops := by
  simp [insnStRrii, Emitted.next, OpInRange, globalsOf, Op.vars, hreg]

include hreg in
@[simp] lemma insnSetzwRwii_inRange : OpsInRange (insnSetzwRwii reg w).ops := by
  simp [insnSetzwRwii, movi, Emitted.next, OpInRange, globalsOf, Op.vars, hreg]

include hreg in
@[simp] lemma insnOrwRwii_inRange : OpsInRange (insnOrwRwii reg w).ops := by
  simp [insnOrwRwii, Emitted.next, OpInRange, globalsOf, Op.vars, hreg]

include hreg in
@[simp] lemma insnAndnwRwii_inRange : OpsInRange (insnAndnwRwii reg w).ops := by
  simp [insnAndnwRwii, Emitted.next, OpInRange, globalsOf, Op.vars, hreg]

include hreg in
@[simp] lemma insnAlg1Rrii_inRange : OpsInRange (insnAlg1Rrii reg w).ops := by
  simp [insnAlg1Rrii, Emitted.next, OpInRange, globalsOf, Op.vars, hreg]

include hreg in
@[simp] lemma insnCmpOrrr_inRange (cond : Cond) : OpsInRange (insnCmpOrrr reg cond w).ops := by
  simp [insnCmpOrrr, Emitted.next, OpInRange, globalsOf, Op.vars, hreg]

@[simp] lemma insnCset1Rrrr_inRange (cond : Cond) : OpsInRange (insnCset1Rrrr cond w).ops := by
  simp [insnCset1Rrrr, Emitted.next, OpInRange, globalsOf, Op.vars]

@[simp] lemma insnCset2Rrrr_inRange (cond : Cond) : OpsInRange (insnCset2Rrrr cond w).ops := by
  simp [insnCset2Rrrr, Emitted.next, OpInRange, globalsOf, Op.vars]

@[simp] lemma insnFcsetRrrr_inRange (cond : Cond) : OpsInRange (insnFcsetRrrr cond w).ops := by
  simp [insnFcsetRrrr, Emitted.next, OpInRange, globalsOf, Op.vars]

@[simp] lemma insnFcsetOrrr_inRange (cond : Cond) : OpsInRange (insnFcsetOrrr cond w).ops := by
  simp [insnFcsetOrrr, Emitted.next, OpInRange, globalsOf, Op.vars]

@[simp] lemma insnAlg1Rrrr_inRange (op : BinOp) (op2 : WideOp) : OpsInRange (insnAlg1Rrrr op op2 w).ops := by
  simp [insnAlg1Rrrr, Emitted.next, OpInRange, globalsOf, Op.vars]

@[simp] lemma insnAlg1Orrr_inRange (op : BinOp) : OpsInRange (insnAlg1Orrr op w).ops := by
  simp [insnAlg1Orrr, Emitted.next, OpInRange, globalsOf, Op.vars]

@[simp] lemma insnCmpRrii_inRange (imm : BitVec 64) (cond : Cond) : OpsInRange (insnCmpRrii imm cond w).ops := by
  simp [insnCmpRrii, Emitted.next, OpInRange, globalsOf, Op.vars]

@[simp] lemma insnMulRrrr_inRange (op2 : WideOp) : OpsInRange (insnMulRrrr op2 w).ops := by
  simp [insnMulRrrr, movHaHb, Emitted.next, OpInRange, globalsOf, Op.vars]

@[simp] lemma insnDivRrrr_inRange (op op' : BinOp) : OpsInRange (insnDivRrrr op op' w).ops := by
  simp [insnDivRrrr, movHaHb, Emitted.next, OpInRange, globalsOf, Op.vars]

@[simp] lemma insnLogicOrrr_inRange (op : BinOp) : OpsInRange (insnLogicOrrr op w).ops := by
  simp [insnLogicOrrr, Emitted.next, OpInRange, globalsOf, Op.vars]

@[simp] lemma insnExtOrrr_inRange (op : BinOp) : OpsInRange (insnExtOrrr op w).ops := by
  simp [insnExtOrrr, Emitted.next, OpInRange, globalsOf, Op.vars]

@[simp] lemma insnLogicOrri_inRange (op : BinOp) : OpsInRange (insnLogicOrri op w).ops := by
  simp [insnLogicOrri, Emitted.next, OpInRange, globalsOf, Op.vars]

@[simp] lemma insnExtOrri_inRange (op : BinOp) : OpsInRange (insnExtOrri op w).ops := by
  simp [insnExtOrri, Emitted.next, OpInRange, globalsOf, Op.vars]

@[simp] lemma insnBrRrii_inRange (cond : Cond) : OpsInRange (insnBrRrii cond pc w).ops := by
  simp [insnBrRrii, Emitted.jump, OpInRange, globalsOf, Op.vars]

@[simp] lemma insnBrRiii_inRange (cond : Cond) : OpsInRange (insnBrRiii cond pc w).ops := by
  simp [insnBrRiii, Emitted.jump, OpInRange, globalsOf, Op.vars]

/-- A move between registers of the return address stack. -/
lemma opInRange_mov_ra {i j : ℕ} (hi : i < 64) (hj : j < 64) :
    OpInRange (.mov (glob (.ra i)) (glob (.ra j))) := by
  simp [OpInRange, globalsOf, Op.vars, hi, hj]

lemma pushReturnAddress_inRange : OpsInRange (pushReturnAddress pc) := by
  have hmoves : OpsInRange ((List.range 62).map fun i =>
      .mov (glob (.ra (i + 1))) (glob (.ra (i + 2)))) := by
    intro o ho
    obtain ⟨i, hi, rfl⟩ := List.mem_map.mp ho
    have hlt : i < 62 := List.mem_range.mp hi
    exact opInRange_mov_ra (by omega) (by omega)
  simp [pushReturnAddress, OpInRange, globalsOf, Op.vars, movi, hmoves]

lemma popReturnAddress_inRange : OpsInRange popReturnAddress := by
  have hmoves : OpsInRange ((List.range 62).map fun i =>
      .mov (glob (.ra (63 - i))) (glob (.ra (62 - i)))) := by
    intro o ho
    obtain ⟨i, hi, rfl⟩ := List.mem_map.mp ho
    exact opInRange_mov_ra (by omega) (by omega)
  simp [popReturnAddress, OpInRange, globalsOf, Op.vars, hmoves]

lemma transLRO_inRange {rel acq : Bool} {e : Emitted} (h : transLRO rel acq w = some e) :
    OpsInRange e.ops := by
  unfold transLRO at h
  split_ifs at h <;> obtain rfl := Option.some.inj h <;>
    simp [Emitted.next, OpInRange, globalsOf, Op.vars]

lemma transSCO_inRange {e : Emitted} (h : transSCO w = some e) : OpsInRange e.ops := by
  unfold transSCO at h
  split_ifs at h
  obtain rfl := Option.some.inj h
  simp [Emitted.next, OpInRange, globalsOf, Op.vars, movi]

lemma transTRAP_inRange {e : Emitted} (h : transTRAP w = some e) : OpsInRange e.ops := by
  unfold transTRAP at h
  split_ifs at h
  obtain rfl := Option.some.inj h
  simp [OpInRange, globalsOf, Op.vars]

@[simp] lemma transSETOW_inRange : OpsInRange (transSETOW w).ops := by
  simp [transSETOW, Emitted.next, OpInRange, globalsOf, Op.vars, movi]

@[simp] lemma transSETW_inRange : OpsInRange (transSETW w).ops := by
  simp [transSETW, Emitted.next, OpInRange, globalsOf, Op.vars]

@[simp] lemma transADRP_inRange : OpsInRange (transADRP pc w).ops := by
  simp [transADRP, Emitted.next, OpInRange, globalsOf, Op.vars]

@[simp] lemma transXNOR_inRange : OpsInRange (transXNOR w).ops := by
  simp [transXNOR, Emitted.next, OpInRange, globalsOf, Op.vars]

@[simp] lemma transANDI_inRange : OpsInRange (transANDI w).ops := by
  simp [transANDI, Emitted.next, OpInRange, globalsOf, Op.vars]

@[simp] lemma transJUMPr_inRange : OpsInRange (transJUMPr w).ops := by
  simp [transJUMPr, Emitted.jump, OpInRange, globalsOf, Op.vars]

@[simp] lemma transCALLi_inRange : OpsInRange (transCALLi pc w).ops := by
  simp [transCALLi, transJUMPi, pushReturnAddress_inRange]

@[simp] lemma transCALLr_inRange : OpsInRange (transCALLr pc w).ops := by
  simp [transCALLr, pushReturnAddress_inRange]

@[simp] lemma transRET_inRange : OpsInRange (transRET w).ops := by
  simp [transRET, Emitted.jump, popReturnAddress_inRange, OpInRange, globalsOf, Op.vars, movi]

/-- The illegal-instruction exception. -/
@[simp] lemma illegalInstruction_inRange : OpsInRange (illegalInstruction pc).ops := by
  simp [illegalInstruction, OpInRange, globalsOf, Op.vars, movi]

/-- The instructions with opcode byte `0x10`. -/
lemma disasMinor10_inRange {e : Emitted} (h : disasMinor10 pc w = some (some e)) :
    OpsInRange e.ops := by
  unfold disasMinor10 at h
  split at h <;> simp only [reduceCtorEq, Option.some.injEq] at h <;> subst h <;>
    simp [transADDrb, transAND, transCMP, transCMPSr, transCMPUr, transCSNP1, transCSP1, transEXTSi,
      transEXTSr, transEXTZi, transEXTZr, transORR, transSHLUi, transSHLUr, transSHRSi,
      transSHRSr, transSHRUi, transSHRUr, transSUBrb, transXOR,
      Emitted.next]

/-- The instructions with opcode byte `0x70`. -/
lemma disasMinor70_inRange {e : Emitted} (h : disasMinor70 w = some (some e)) :
    OpsInRange e.ops := by
  unfold disasMinor70 at h
  split at h <;> simp only [reduceCtorEq, Option.some.injEq] at h
  case h_1 =>
    subst h
    exact opsInRange_nil
  all_goals first
    | exact transLRO_inRange w h
    | exact transSCO_inRange w h

/-- **Instructions without a loop** name registers that exist. -/
lemma disasDadao_inRange {e : Emitted} (h : disasDadao pc w = some (some e)) :
    OpsInRange e.ops := by
  unfold disasDadao at h
  split at h
  case h_1 => exact disasMinor10_inRange pc w h
  case h_82 => exact disasMinor70_inRange w h
  case h_83 => exact transTRAP_inRange w (Option.some.inj h)
  all_goals simp only [reduceCtorEq, Option.some.injEq] at h
  all_goals subst h
  all_goals simp [transADDIrb, transADDIrd, transADDrd, transANDNWrb, transANDNWrd, transBREQ, transBRN,
    transBRNE, transBRNN, transBRNP, transBRNZ, transBRP, transBRZ, transCMPSi, transCMPUi,
    transCSEQ, transCSNE, transCSNrd, transCSNrf, transCSPrd, transCSPrf, transCSZrd, transCSZrf,
    transDIVS, transDIVU, transLDBS, transLDBU, transLDOrb, transLDOrd, transLDOrf, transLDT,
    transLDTS, transLDTU, transLDWS, transLDWU, transMULS, transMULU, transORWrb, transORWrd,
    transSETZWrb, transSETZWrd, transSTB, transSTOrb, transSTOrd, transSTOrf, transSTTrd,
    transSTTrf, transSTW, transSUBrd, transJUMPi]

/-- Emissions that name registers that exist. -/
def EmissionsInRange (emitted : List Emission) : Prop := ∀ e ∈ emitted, ∀ r ∈ e.elems, r.InRange

lemma OpsInRange.emissions {ops : List (Op Global)} (h : OpsInRange ops) :
    EmissionsInRange (ops.map .op) := by
  intro e he r hr
  obtain ⟨o, ho, rfl⟩ := List.mem_map.mp he
  obtain ⟨g, hg, rfl⟩ := List.mem_map.mp hr
  exact (h o ho g hg).elem

lemma EmissionsInRange.append {xs ys : List Emission} (hx : EmissionsInRange xs)
    (hy : EmissionsInRange ys) : EmissionsInRange (xs ++ ys) := by
  intro e he
  rcases List.mem_append.mp he with he | he
  · exact hx e he
  · exact hy e he

/-- An element that a field names. -/
lemma elemOf_inRange {field : BitVec 32 → ℕ} (h : field w < 64) (file : RegFile) :
    (elemOf file field w).InRange := by
  simp only [Elem.InRange]
  omega

/-- **Instructions that call a helper** name registers that exist. -/
lemma helperInsn_inRange {t : Translation} (h : helperInsn pc w = some t) :
    EmissionsInRange t.emitted := by
  have hha := fun file => elemOf_inRange w (fieldHa_lt w) file
  have hhb := fun file => elemOf_inRange w (fieldHb_lt w) file
  have hhc := fun file => elemOf_inRange w (fieldHc_lt w) file
  have hhd := fun file => elemOf_inRange w (fieldHd_lt w) file
  have horrr : ∀ fn, EmissionsInRange (insnFalgOrrr fn w).emitted := by
    simp [EmissionsInRange, insnFalgOrrr, Emission.elems, hhb, hhc, hhd]
  have hrrrr : ∀ fn, EmissionsInRange (insnFalgRrrr fn w).emitted := by
    simp [EmissionsInRange, insnFalgRrrr, Emission.elems, hha, hhb, hhc, hhd]
  have hcmp : ∀ fn, EmissionsInRange (insnFcmpOrrr fn w).emitted := by
    simp [EmissionsInRange, insnFcmpOrrr, Emission.elems, hhb, hhc, hhd]
  have horri : ∀ fn, EmissionsInRange (insnFalgOrri fn pc w).emitted := by
    intro fn
    refine EmissionsInRange.append ?_ ?_
    · unfold illegalWhen
      split_ifs
      · exact (illegalInstruction_inRange pc).emissions
      · simp [EmissionsInRange]
    · simp [EmissionsInRange, Emission.elems, hhb, hhc]
  unfold helperInsn at h
  split at h <;> simp only [reduceCtorEq, Option.some.injEq] at h <;> subst h <;>
    simp [transFTADD, transFTSUB, transFTMUL, transFTDIV, transFTREM, transFOADD, transFOSUB,
      transFOMUL, transFODIV, transFOREM, transFTSGNJ, transFTSGNN, transFOSGNJ, transFOSGNN,
      transFTMADD, transFOMADD, transFTROOT, transFOROOT, transFTLOG, transFOLOG, transFTQCMP,
      transFTSCMP, transFOQCMP, transFOSCMP, horrr, hrrrr, hcmp, horri]

section Bodies

variable {src dest : RegFile} {op : MemOp} {fn : Helper} {i j : ℤ}

lemma ldmBody_inRange (h : (Elem.reg dest i).InRange) : EmissionsInRange (ldmBody dest op i) := by
  unfold ldmBody
  split_ifs <;> simp [EmissionsInRange, Emission.elems, globalsOf, Op.vars, h]

lemma stmBody_inRange (h : (Elem.reg src i).InRange) : EmissionsInRange (stmBody src op i) := by
  simp [stmBody, EmissionsInRange, Emission.elems, globalsOf, Op.vars, h]

lemma r2rBody_inRange (hi : (Elem.reg dest i).InRange) (hj : (Elem.reg src j).InRange) :
    EmissionsInRange (r2rBody src dest i j) := by
  unfold r2rBody
  split_ifs <;> simp [EmissionsInRange, Emission.elems, globalsOf, Op.vars, hi, hj]

lemma fcvtBody_inRange (hi : (Elem.reg dest i).InRange) (hj : (Elem.reg src j).InRange) :
    EmissionsInRange (fcvtBody fn src dest i j) := by
  unfold fcvtBody
  split_ifs <;> simp [EmissionsInRange, Emission.elems, hi, hj]

end Bodies

/-- **The elements of a legal walk** are registers that exist. -/
lemma Multi.element_inRange {m : Multi} (h : m.Legal w) {k : ℕ} (hk : k < fieldHd w) :
    EmissionsInRange (m.element w k) := by
  have hin : ∀ first ∈ m.firsts w, ∀ file, (Elem.reg file (first + k)).InRange := by
    intro first hfirst file
    have hlast := h.2 first hfirst
    exact ⟨by omega, by omega⟩
  cases m with
  | ldm dest op => exact ldmBody_inRange (hin _ (by simp [firsts]) dest)
  | stm src op => exact stmBody_inRange (hin _ (by simp [firsts]) src)
  | r2r src dest =>
    exact r2rBody_inRange (hin _ (by simp [firsts]) dest) (hin _ (by simp [firsts]) src)
  | fcvt fn src dest =>
    exact fcvtBody_inRange (hin _ (by simp [firsts]) dest) (hin _ (by simp [firsts]) src)

/-- The operations before the elements. -/
lemma Multi.setup_inRange (m : Multi) : EmissionsInRange (m.setup w) := by
  have hadd : OpsInRange [.bin .add (.temp 0) (rbOf fieldHb w) (rdOf fieldHc w)] := by
    simp [OpInRange, globalsOf, Op.vars]
  cases m with
  | ldm dest op => exact hadd.emissions
  | stm src op => exact hadd.emissions
  | _ => simp [setup, EmissionsInRange]

/-- The operations around every instruction. -/
lemma around_inRange {t : Translation} (h : EmissionsInRange t.emitted) :
    EmissionsInRange (t.around pc).emitted := by
  have hprologue : OpsInRange insnPrologue := by
    simp [insnPrologue, OpInRange, globalsOf, Op.vars, movi]
  have hpc : OpsInRange [movi cpuPc (pc + 4)] := by
    simp [OpInRange, globalsOf, Op.vars, movi]
  refine (hprologue.emissions.append h).append ?_
  split_ifs
  · exact hpc.emissions
  · simp [EmissionsInRange]

end InRange

/-! ## Safety -/

section Safety

variable {pc : BitVec 64} {w : BitVec 32}

lemma disasInsn_of_multi {m : Multi} (hm : multiOf w = some m) (fuel : ℕ) :
    disasInsn fuel pc w = m.trans fuel pc w := by
  rw [disasInsn, hm]

/-- Any other instruction is translated at once. -/
lemma disasInsn_of_not_multi (hm : multiOf w = none) (fuel : ℕ) :
    ∃ t, disasInsn fuel pc w = some t ∧ EmissionsInRange t.emitted := by
  rw [disasInsn, hm]
  cases hhelper : helperInsn pc w with
  | some t => exact ⟨t, rfl, helperInsn_inRange pc w hhelper⟩
  | none =>
    refine ⟨_, rfl, OpsInRange.emissions ?_⟩
    cases hdisas : disasDadao pc w with
    | none => exact illegalInstruction_inRange pc
    | some e =>
      cases e with
      | none => exact illegalInstruction_inRange pc
      | some e => exact disasDadao_inRange pc w hdisas

/-- An illegal count is not translated safely. -/
lemma not_safeTranslation {m : Multi} (hm : multiOf w = some m) (hillegal : ¬ m.Legal w) :
    ¬ SafeTranslation pc w := by
  rintro ⟨fuel, t, ht, hin, -⟩
  obtain ⟨t', ht', rfl⟩ := Option.map_eq_some_iff.mp ht
  rw [disasInsn_of_multi hm] at ht'
  by_cases hzero : fieldHd w = 0
  · rw [Multi.trans_zero hzero] at ht'
    exact absurd ht' (by simp)
  · have hfirst : ∃ first ∈ m.firsts w, 64 < first + fieldHd w := by
      by_contra hnone
      push Not at hnone
      exact hillegal ⟨hzero, hnone⟩
    obtain ⟨first, hfirst, hover⟩ := hfirst
    obtain ⟨e, he, r, hr, hout⟩ := Multi.trans_over hzero hfirst hover ht'
    refine hout (hin e ?_ r hr)
    exact List.mem_append_left _ (List.mem_append_right _ he)

/-- A legal count is translated safely. -/
lemma safeTranslation_of_legal {m : Multi} (hm : multiOf w = some m) (hlegal : m.Legal w) :
    SafeTranslation pc w := by
  obtain ⟨order, horder, htrans⟩ : ∃ order, _ ∧ m.trans (fieldHd w) pc w = _ :=
    Multi.trans_of_legal hlegal
  have hmem : ∀ k ∈ order, k < fieldHd w := by
    intro k hk
    rcases horder with rfl | rfl
    · exact List.mem_range.mp hk
    · exact List.mem_range.mp (List.mem_reverse.mp hk)
  have helements : EmissionsInRange (order.flatMap (m.element w)) := by
    intro e he
    obtain ⟨k, hk, hek⟩ := List.mem_flatMap.mp he
    exact Multi.element_inRange w hlegal (hmem k hk) e hek
  have htranslate : translateInsn (fieldHd w) pc w = some (Translation.around pc
      ⟨m.setup w ++ order.flatMap (m.element w), .next, -1⟩) := by
    rw [translateInsn, disasInsn_of_multi hm, htrans, Option.map_some]
  refine ⟨_, _, htranslate, around_inRange pc ((m.setup_inRange w).append helements), ?_⟩
  intro m' hm'
  obtain rfl := Option.some.inj (hm.symm.trans hm')
  exact ⟨fun h => absurd hlegal h, fun _ => ⟨order, horder, rfl⟩⟩

/-- **Translation is safe** on every word but those of an instruction on several registers whose
count is zero or goes beyond a register file. -/
theorem safeTranslation_iff (pc : BitVec 64) (w : BitVec 32) :
    SafeTranslation pc w ↔ ∀ m, multiOf w = some m → m.Legal w := by
  constructor
  · intro hsafe m hm
    by_contra hillegal
    exact not_safeTranslation hm hillegal hsafe
  · intro hlegal
    cases hm : multiOf w with
    | some m => exact safeTranslation_of_legal hm (hlegal m hm)
    | none =>
      obtain ⟨t, ht, hin⟩ : ∃ t, disasInsn 0 pc w = some t ∧ _ := disasInsn_of_not_multi hm 0
      refine ⟨0, t.around pc, by rw [translateInsn, ht, Option.map_some], around_inRange pc hin, ?_⟩
      intro m hm'
      exact absurd (hm.symm.trans hm') (by simp)

/-- A move of no registers is not translated safely: the loop counts down from zero. -/
theorem rd2rd_zero_not_safe : multiOf 0x10a01080 = some transRD2RD ∧
    ¬ SafeTranslation 0 0x10a01080 := by
  have hm : multiOf 0x10a01080 = some transRD2RD := by decide +kernel
  exact ⟨hm, not_safeTranslation hm (by decide +kernel)⟩

end Safety

end Dadao.Qemu
