import Dadao.Wuming.SimulatorState

set_option relaxedAutoImplicit false
set_option autoImplicit false

/-!
# The one-stage core and the simulator

A word executed by the one-stage core and by the simulator, from the same registers and memory. The core
reads the base register 0 as the address of the next word, where the simulator has that of the word
itself; it has no exception for a division by zero; its second result goes into a register the first one
also goes into, where the simulator's first result stays; and it raises an exception for a misaligned
access or target, where the simulator goes on. On all other words that the core has, the two agree.

## Main definitions

* `Dadao.Wuming.SimulatorDoes` — the simulator executes a word, with this one outcome.
* `Dadao.Wuming.Regular` — the words and states without one of the differences.

## Main results

* `Dadao.Wuming.steps_emitted`, `Dadao.Wuming.steps_one`, `Dadao.Wuming.does_of_jump` — the
  instructions, one by one.
* `Dadao.Wuming.core_implements_simulator` — the core does what the simulator does.
-/

namespace Dadao

namespace Wuming

open Tcg (Machine BinOp Cond runStraight stepOp)
open Qemu (Elem Global Emitted Multi fieldHa fieldHb fieldHc fieldHd)

/-! ### The instructions without a jump -/

section Next

variable {a a' : Arch} {m m' : Memory} {s : Machine Elem} {w : BitVec 32}

/-- The registers and the memory after a word that raises no exception, without the program counter. -/
def after (a : Arch) (m : Memory) (w : BitVec 32) : Arch × Memory :=
  let answer := byteBus.access m (Stage1.dmemReq a w)
  let data := Stage1.wbData a w (if (Stage1.csignals w).memEn then answer.1 else 0) 0
  (if (Stage1.csignals w).rfWen then Stage1.writeBack a w data (Stage1.aluOut2 a w) else a,
    if (Stage1.csignals w).memEn then answer.2 else m)

/-- **The operations take the state of the core from one to the other.** -/
def Steps (ops : List (Tcg.Op Elem)) (a : Arch) (m : Memory) (a' : Arch) (m' : Memory) : Prop :=
  ∀ s, SameState a m s → ∀ rest, ∃ s',
    Tcg.exec (ops ++ rest) none s = Tcg.exec rest none s' ∧ SameState a' m' s'

/-- Operations without a branch. -/
lemma steps_of_straight {ops : List (Tcg.Op Elem)} (hall : ops.all Tcg.Op.isStraight = true)
    (h : ∀ s, SameState a m s → SameState a' m' (runStraight ops s)) : Steps ops a m a' m' :=
  fun s hs _ => ⟨_, Tcg.exec_append_straight hall s, h s hs⟩

/-- A word does not divide by zero. -/
def NoZeroDivisor (a : Arch) (w : BitVec 32) : Prop :=
  ((Stage1.csignals w).aluFun = .divs ∨ (Stage1.csignals w).aluFun = .divu) → Stage1.rdData a (hd w) ≠ 0

/-- The two results of a word go to different registers. -/
def TwoDestinations (w : BitVec 32) : Prop :=
  ((Stage1.csignals w).aluFun = .muls ∨ (Stage1.csignals w).aluFun = .mulu ∨
    (Stage1.csignals w).aluFun = .divs ∨ (Stage1.csignals w).aluFun = .divu) → ha w = hb w → ha w = 0

/-- A comparison, as the core has it. -/
lemma compared_slt (x y : BitVec 64) :
    (if Cond.holds .gt y x then -1 else if Cond.holds .gt x y then 1 else 0) =
      Stage1.compared (x == y) (x.slt y) := by
  simp only [Cond.holds, Stage1.compared, BitVec.slt, decide_eq_true_eq, beq_iff_eq]
  by_cases hlt : x.toInt < y.toInt
  · have hne : ¬ x = y := by
      rintro rfl
      omega
    rw [if_pos hlt, if_neg hne, if_pos hlt]
    rfl
  · by_cases hgt : y.toInt < x.toInt
    · have hne : ¬ x = y := by
        rintro rfl
        omega
      rw [if_neg hlt, if_pos hgt, if_neg hne, if_neg hlt]
    · have heq : x = y := BitVec.eq_of_toInt_eq (by omega)
      rw [if_neg hlt, if_neg hgt, if_pos heq]

/-- A comparison without signs, as the core has it. -/
lemma compared_ult (x y : BitVec 64) :
    (if Cond.holds .gtu y x then -1 else if Cond.holds .gtu x y then 1 else 0) =
      Stage1.compared (x == y) (x.ult y) := by
  simp only [Cond.holds, Stage1.compared, BitVec.ult, decide_eq_true_eq, beq_iff_eq]
  by_cases hlt : x.toNat < y.toNat
  · have hne : ¬ x = y := by
      rintro rfl
      omega
    rw [if_pos hlt, if_neg hne, if_pos hlt]
    rfl
  · by_cases hgt : y.toNat < x.toNat
    · have hne : ¬ x = y := by
        rintro rfl
        omega
      rw [if_neg hlt, if_pos hgt, if_neg hne, if_neg hlt]
    · have heq : x = y := BitVec.eq_of_toNat_eq (by omega)
      rw [if_neg hlt, if_neg hgt, if_pos heq]

/-- A choice with its cases exchanged. -/
lemma ite_swap (c : Bool) (x y : BitVec 64) : (if c then x else y) = if !c then y else x := by
  cases c <;> rfl

/-- An octa is loaded as it is. -/
lemma loadValue_o (m : Memory) (x : BitVec 64) : ByteMap.loadValue m x .o = Qemu.moTeuq.load m x := by
  have hvalue : ByteMap.loadValue m x .o = ((m.load x 8).setWidth 64).signExtend 64 := rfl
  rw [hvalue, BitVec.setWidth_eq, BitVec.signExtend_eq]
  rfl

/-- Operations that are emitted under a condition only. -/
lemma straight_ite {p : Prop} [Decidable p] {ops ops' : List (Tcg.Op Global)}
    (h : (elemOps ops).all Tcg.Op.isStraight = true) (h' : (elemOps ops').all Tcg.Op.isStraight = true) :
    (elemOps (if p then ops else ops')).all Tcg.Op.isStraight = true := by
  split_ifs
  · exact h
  · exact h'

lemma straight_append {ops ops' : List (Tcg.Op Global)}
    (h : (elemOps ops).all Tcg.Op.isStraight = true) (h' : (elemOps ops').all Tcg.Op.isStraight = true) :
    (elemOps (ops ++ ops')).all Tcg.Op.isStraight = true := by
  rw [elemOps, List.map_append, List.all_append, h, h']
  rfl

/-- The assignments of two results have no branch. -/
lemma straight_movHaHb : (elemOps (Qemu.movHaHb w)).all Tcg.Op.isStraight = true :=
  straight_append (straight_ite rfl rfl) (straight_ite rfl rfl)

/-- The instructions that go on to the next word have no branch, but for a division. -/
lemma straight_emitted {insn : Insn} (pc : BitVec 64) (hdiv : insn ≠ .divs ∧ insn ≠ .divu) :
    (elemOps (insn.emitted pc w).ops).all Tcg.Op.isStraight = true := by
  cases insn with
  | divs => exact absurd rfl hdiv.1
  | divu => exact absurd rfl hdiv.2
  | addRd | subRd =>
    exact straight_ite rfl (straight_append (straight_append rfl (straight_ite rfl rfl)) (straight_ite rfl rfl))
  | muls | mulu => exact straight_append rfl straight_movHaHb
  | ldbs | ldws | ldts | ldoRd | ldbu | ldwu | ldtu | ldoRb =>
    exact straight_append rfl (straight_ite rfl rfl)
  | _ => first | rfl | exact straight_ite rfl rfl

lemma steps_emitted {insn : Insn} (hdecode : Insn.decode w = some insn)
    (hscope : insn.inScope = true) (hplain : insn.multi = none) (hflow : (Stage1.row insn).ctrlFlow = .x)
    (hread : ReadsRb0 w = false) (hdivisor : NoZeroDivisor a w) (htwo : TwoDestinations w) :
    Steps (elemOps (insn.emitted a.pc w).ops) a m (after a m w).1 (after a m w).2 := by
  have hs : insn ≠ .divs ∧ insn ≠ .divu → _ := straight_emitted (w := w) a.pc
  have hcs : Stage1.csignals w = Stage1.row insn := by rw [Stage1.csignals, hdecode]
  have hcs' : Stage5.csignals w = Stage5.row insn := by rw [Stage5.csignals, hdecode]
  unfold after Stage1.writeBack Stage1.wbData Stage1.aluOut Stage1.aluOut2 Stage1.dmemReq Stage1.aluOut
    Stage1.aluOp1 Stage1.aluOp2 Stage1.condYes
  unfold NoZeroDivisor at hdivisor
  unfold TwoDestinations at htwo
  rw [hcs] at hdivisor htwo ⊢
  rw [ReadsRb0, hcs'] at hread
  cases insn with
  | swym => exact steps_of_straight (hs (by decide)) fun s h => h
  | fence => exact steps_of_straight (hs (by decide)) fun s h => h
  | and => exact steps_of_straight (hs (by decide)) fun s h => h.logicOrrr .and
  | orr => exact steps_of_straight (hs (by decide)) fun s h => h.logicOrrr .or
  | xor => exact steps_of_straight (hs (by decide)) fun s h => h.logicOrrr .xor
  | xnor => exact steps_of_straight (hs (by decide)) fun s h => h.xnor
  | andi => exact steps_of_straight (hs (by decide)) fun s h => h.andi
  | shluR => exact steps_of_straight (hs (by decide)) fun s h => h.logicOrrr .shl
  | shrsR => exact steps_of_straight (hs (by decide)) fun s h => h.logicOrrr .sar
  | shruR => exact steps_of_straight (hs (by decide)) fun s h => h.logicOrrr .shr
  | shluI => exact steps_of_straight (hs (by decide)) fun s h => h.logicOrri .shl
  | shrsI => exact steps_of_straight (hs (by decide)) fun s h => h.logicOrri .sar
  | shruI => exact steps_of_straight (hs (by decide)) fun s h => h.logicOrri .shr
  | extsR => exact steps_of_straight (hs (by decide)) fun s h => h.extOrrr .sar
  | extzR => exact steps_of_straight (hs (by decide)) fun s h => h.extOrrr .shr
  | extsI => exact steps_of_straight (hs (by decide)) fun s h => h.extOrri .sar
  | extzI => exact steps_of_straight (hs (by decide)) fun s h => h.extOrri .shr
  | addiRd =>
    exact steps_of_straight (hs (by decide)) fun s h => h.alg1Rrii .rd (fun _ => rfl) (readable_rd _)
  | addiRb =>
    have hhb : hb w ≠ 0 := by simpa [Stage5.row] using hread
    exact steps_of_straight (hs (by decide)) fun s h => h.alg1Rrii .rb (fun _ => rfl) (readable_rb hhb)
  | addRb =>
    have hhc : hc w ≠ 0 := by simpa [Stage5.row] using hread
    exact steps_of_straight (hs (by decide)) fun s h => h.alg1Orrr .add (readable_rb hhc)
  | subRb =>
    have hhc : hc w ≠ 0 := by simpa [Stage5.row] using hread
    exact steps_of_straight (hs (by decide)) fun s h => h.alg1Orrr .sub (readable_rb hhc)
  | addRd =>
    refine steps_of_straight (hs (by decide)) fun s h => ?_
    have hsum := h.alg1Rrrr (w := w) .add .add2 add2_low
    rw [Tcg.WideOp.eval, sar_append, sar_append] at hsum
    exact hsum
  | subRd =>
    refine steps_of_straight (hs (by decide)) fun s h => ?_
    have hdiff := h.alg1Rrrr (w := w) .sub .sub2 sub2_low
    rw [Tcg.WideOp.eval, sar_append, sar_append] at hdiff
    exact hdiff
  | muls => exact steps_of_straight (hs (by decide)) fun s h => h.mulRrrr .muls2 (htwo (by decide))
  | mulu => exact steps_of_straight (hs (by decide)) fun s h => h.mulRrrr .mulu2 (htwo (by decide))
  | divs => exact fun s h => h.divRrrr .div .rem (htwo (by decide)) (hdivisor (by decide))
  | divu => exact fun s h => h.divRrrr .divu .remu (htwo (by decide)) (hdivisor (by decide))
  | cmpsI =>
    refine steps_of_straight (hs (by decide)) fun s h => ?_
    have hcmp := h.cmpRrii (w := w) (imms12 w) .gt
    rw [compared_slt] at hcmp
    exact hcmp
  | cmpuI =>
    refine steps_of_straight (hs (by decide)) fun s h => ?_
    have hcmp := h.cmpRrii (w := w) (immu12 w) .gtu
    rw [compared_ult] at hcmp
    exact hcmp
  | cmpsR =>
    refine steps_of_straight (hs (by decide)) fun s h => ?_
    have hcmp := h.cmpOrrr .rd .gt (fun _ => rfl) (readable_rd (hc w)) (readable_rd (hd w))
    rw [compared_slt] at hcmp
    exact hcmp
  | cmpuR =>
    refine steps_of_straight (hs (by decide)) fun s h => ?_
    have hcmp := h.cmpOrrr .rd .gtu (fun _ => rfl) (readable_rd (hc w)) (readable_rd (hd w))
    rw [compared_ult] at hcmp
    exact hcmp
  | cmp =>
    have hne : hc w ≠ 0 ∧ hd w ≠ 0 := by simpa [Stage5.row] using hread
    refine steps_of_straight (hs (by decide)) fun s h => ?_
    have hcmp := h.cmpOrrr .rb .gtu (fun _ => rfl) (readable_rb hne.1) (readable_rb hne.2)
    rw [compared_ult] at hcmp
    exact hcmp
  | csnRd => exact steps_of_straight (hs (by decide)) fun s h => h.cset1Rrrr .lt
  | cszRd => exact steps_of_straight (hs (by decide)) fun s h => h.cset1Rrrr .eq
  | cspRd => exact steps_of_straight (hs (by decide)) fun s h => h.cset1Rrrr .gt
  | cseq =>
    refine steps_of_straight (hs (by decide)) fun s h => ?_
    have hcset := h.cset2Rrrr (w := w) .eq
    rw [ite_swap] at hcset
    exact hcset
  | csne =>
    refine steps_of_straight (hs (by decide)) fun s h => ?_
    have hcset := h.cset2Rrrr (w := w) .ne
    have hne : ∀ x y : BitVec 64, Cond.holds .ne x y = !(x == y) := fun _ _ => rfl
    rw [hne, ← ite_swap] at hcset
    exact hcset
  | setzwRd => exact steps_of_straight (hs (by decide)) fun s h => h.setzwRwii .rd fun _ => rfl
  | setzwRb => exact steps_of_straight (hs (by decide)) fun s h => h.setzwRwii .rb fun _ => rfl
  | setow => exact steps_of_straight (hs (by decide)) fun s h => h.setow
  | orwRd => exact steps_of_straight (hs (by decide)) fun s h => h.orwRwii .rd (fun _ => rfl) (readable_rd _)
  | orwRb =>
    have hha : ha w ≠ 0 := by simpa [Stage5.row] using hread
    exact steps_of_straight (hs (by decide)) fun s h => h.orwRwii .rb (fun _ => rfl) (readable_rb hha)
  | andnwRd => exact steps_of_straight (hs (by decide)) fun s h => h.andnwRwii .rd (fun _ => rfl) (readable_rd _)
  | andnwRb =>
    have hha : ha w ≠ 0 := by simpa [Stage5.row] using hread
    exact steps_of_straight (hs (by decide)) fun s h => h.andnwRwii .rb (fun _ => rfl) (readable_rb hha)
  | adrp => exact steps_of_straight (hs (by decide)) fun s h => h.adrp
  | ldbs =>
    have hhb : hb w ≠ 0 := by simpa [Stage5.row] using hread
    exact steps_of_straight (hs (by decide)) fun s h => h.ldRrii .rd ⟨1, true⟩ (fun _ => rfl) (readable_rb hhb)
  | ldws =>
    have hhb : hb w ≠ 0 := by simpa [Stage5.row] using hread
    exact steps_of_straight (hs (by decide)) fun s h => h.ldRrii .rd ⟨2, true⟩ (fun _ => rfl) (readable_rb hhb)
  | ldts =>
    have hhb : hb w ≠ 0 := by simpa [Stage5.row] using hread
    exact steps_of_straight (hs (by decide)) fun s h => h.ldRrii .rd ⟨4, true⟩ (fun _ => rfl) (readable_rb hhb)
  | ldbu =>
    have hhb : hb w ≠ 0 := by simpa [Stage5.row] using hread
    exact steps_of_straight (hs (by decide)) fun s h => h.ldRrii .rd ⟨1, false⟩ (fun _ => rfl) (readable_rb hhb)
  | ldwu =>
    have hhb : hb w ≠ 0 := by simpa [Stage5.row] using hread
    exact steps_of_straight (hs (by decide)) fun s h => h.ldRrii .rd ⟨2, false⟩ (fun _ => rfl) (readable_rb hhb)
  | ldtu =>
    have hhb : hb w ≠ 0 := by simpa [Stage5.row] using hread
    exact steps_of_straight (hs (by decide)) fun s h => h.ldRrii .rd ⟨4, false⟩ (fun _ => rfl) (readable_rb hhb)
  | ldoRd =>
    have hhb : hb w ≠ 0 := by simpa [Stage5.row] using hread
    refine steps_of_straight (hs (by decide)) fun s h => ?_
    have hload := h.ldRrii .rd Qemu.moTeuq (fun _ => rfl) (readable_rb hhb)
    rw [← loadValue_o] at hload
    exact hload
  | ldoRb =>
    have hhb : hb w ≠ 0 := by simpa [Stage5.row] using hread
    refine steps_of_straight (hs (by decide)) fun s h => ?_
    have hload := h.ldRrii .rb Qemu.moTeuq (fun _ => rfl) (readable_rb hhb)
    rw [← loadValue_o] at hload
    exact hload
  | stb =>
    have hhb : hb w ≠ 0 := by simpa [Stage5.row] using hread
    refine steps_of_straight (hs (by decide)) fun s h => ?_
    have hstore := h.stRrii (w := w) .rd ⟨1, false⟩ (fun _ => rfl) (readable_rd _) (readable_rb hhb)
    exact hstore
  | stw =>
    have hhb : hb w ≠ 0 := by simpa [Stage5.row] using hread
    refine steps_of_straight (hs (by decide)) fun s h => ?_
    have hstore := h.stRrii (w := w) .rd ⟨2, false⟩ (fun _ => rfl) (readable_rd _) (readable_rb hhb)
    exact hstore
  | sttRd =>
    have hhb : hb w ≠ 0 := by simpa [Stage5.row] using hread
    refine steps_of_straight (hs (by decide)) fun s h => ?_
    have hstore := h.stRrii (w := w) .rd ⟨4, false⟩ (fun _ => rfl) (readable_rd _) (readable_rb hhb)
    exact hstore
  | stoRd =>
    have hhb : hb w ≠ 0 := by simpa [Stage5.row] using hread
    refine steps_of_straight (hs (by decide)) fun s h => ?_
    have hstore := h.stRrii (w := w) .rd Qemu.moTeuq (fun _ => rfl) (readable_rd _) (readable_rb hhb)
    exact hstore
  | stoRb =>
    have hne : hb w ≠ 0 ∧ ha w ≠ 0 := by simpa [Stage5.row] using hread
    refine steps_of_straight (hs (by decide)) fun s h => ?_
    have hstore := h.stRrii (w := w) .rb Qemu.moTeuq (fun _ => rfl) (readable_rb hne.2) (readable_rb hne.1)
    exact hstore
  | _ => first | (exact absurd hflow (by decide)) | (exact absurd hplain (by decide)) | (exact absurd hscope (by decide))

/-- A file whose register 0 is not assigned. -/
lemma assigned_iff {dest : Qemu.RegFile} (hdest : dest = .rd ∨ dest = .rb) (i : BitVec 6) :
    ((i.toNat : ℤ) ≠ 0 ∨ dest = .rf ∨ dest = .ra) ↔ i ≠ 0 := by
  have hfile : ¬ (dest = .rf ∨ dest = .ra) := by rcases hdest with rfl | rfl <;> decide
  rw [or_iff_left hfile, ne_eq, Int.natCast_eq_zero]
  exact not_congr ⟨fun h => BitVec.eq_of_toNat_eq h, fun h => h ▸ rfl⟩

/-- The state after a load on one register, `INSN_LDM_RRRI`. -/
lemma steps_ldm (dest : Qemu.RegFile) (op : Tcg.MemOp) (hdest : dest = .rd ∨ dest = .rb)
    (hhb : Readable .rb (hb w)) : ∃ ops,
    (oneElement (.ldm dest op) w).emitted.mapM Qemu.Emission.toOp = some ops ∧
      Steps ops a m (setReg dest a (ha w) (op.load m (regData .rb a (hb w) + regData .rd a (hc w)))) m := by
  refine ⟨[.bin .add (.temp 0) (.global (.reg .rb (hb w).toNat)) (.global (.reg .rd (hc w).toNat)),
    .qemuLd (.temp 1) (.temp 0) op] ++
      (if ha w ≠ 0 then [.mov (.global (.reg dest (ha w).toNat)) (.temp 1)] else []) ++
      [.bin .add (.temp 0) (.temp 0) (.const (BitVec.ofNat 64 op.bytes))], ?_, ?_⟩
  · simp only [oneElement, Multi.setup, Multi.element, Qemu.ldmBody, Nat.cast_zero, add_zero, fieldHa_eq,
      assigned_iff hdest]
    split_ifs <;> simp [Qemu.Emission.toOp]
  · have hload := fun s (h : SameState a m s) =>
      (h.write_temp 0 (regData .rb a (hb w) + regData .rd a (hc w))).write_temp 1
        (op.load m (regData .rb a (hb w) + regData .rd a (hc w)))
    by_cases hha : ha w = 0
    · rw [hha, if_neg (not_not.mpr rfl), setReg_zero]
      refine steps_of_straight rfl fun s h => ?_
      have hend := (hload s h).write_temp 0 (regData .rb a (hb w) + regData .rd a (hc w) +
        BitVec.ofNat 64 op.bytes)
      simpa [stepOp, BinOp.eval, h.read hhb, h.read (readable_rd _), h.mem] using hend
    · rw [if_pos hha]
      refine steps_of_straight rfl fun s h => ?_
      have hend := ((hload s h).write dest hha (op.load m (regData .rb a (hb w) + regData .rd a (hc w)))).write_temp
        0 (regData .rb a (hb w) + regData .rd a (hc w) + BitVec.ofNat 64 op.bytes)
      simpa [stepOp, BinOp.eval, h.read hhb, h.read (readable_rd _), h.mem] using hend

/-- The state after a store of one register, `INSN_STM_RRRI`. -/
lemma steps_stm (src : Qemu.RegFile) (op : Tcg.MemOp) (hha : Readable src (ha w))
    (hhb : Readable .rb (hb w)) : ∃ ops,
    (oneElement (.stm src op) w).emitted.mapM Qemu.Emission.toOp = some ops ∧
      Steps ops a m a
        (m.store (regData .rb a (hb w) + regData .rd a (hc w)) op.bytes (regData src a (ha w))) := by
  refine ⟨[.bin .add (.temp 0) (.global (.reg .rb (hb w).toNat)) (.global (.reg .rd (hc w).toNat)),
    .qemuSt (.global (.reg src (ha w).toNat)) (.temp 0) op,
    .bin .add (.temp 0) (.temp 0) (.const (BitVec.ofNat 64 op.bytes))], ?_, ?_⟩
  · simp [oneElement, Multi.setup, Multi.element, Qemu.stmBody, Qemu.Emission.toOp]
  · refine steps_of_straight rfl fun s h => ?_
    have hstore := ((h.write_temp 0 (regData .rb a (hb w) + regData .rd a (hc w))).store
      (m.store (regData .rb a (hb w) + regData .rd a (hc w)) op.bytes (regData src a (ha w)))).write_temp 0
      (regData .rb a (hb w) + regData .rd a (hc w) + BitVec.ofNat 64 op.bytes)
    simpa [stepOp, BinOp.eval, h.read hha, h.read hhb, h.read (readable_rd _), h.mem] using hstore

/-- The state after a move of one register, `INSN_R2R_ORRI`. -/
lemma steps_r2r (src dest : Qemu.RegFile) (hdest : dest = .rd ∨ dest = .rb) (hhc : Readable src (hc w)) :
    ∃ ops, (oneElement (.r2r src dest) w).emitted.mapM Qemu.Emission.toOp = some ops ∧
      Steps ops a m (setReg dest a (hb w) (regData src a (hc w))) m := by
  refine ⟨if hb w ≠ 0 then [.mov (.global (.reg dest (hb w).toNat)) (.global (.reg src (hc w).toNat))] else [],
    ?_, ?_⟩
  · simp only [oneElement, Multi.setup, Multi.element, Qemu.r2rBody, Nat.cast_zero, add_zero, fieldHb_eq,
      fieldHc_eq, assigned_iff hdest]
    split_ifs <;> rfl
  · by_cases hhb : hb w = 0
    · rw [hhb, if_neg (not_not.mpr rfl), setReg_zero]
      exact steps_of_straight rfl fun s h => h
    · rw [if_pos hhb]
      refine steps_of_straight rfl fun s h => ?_
      simpa [stepOp, h.read hhc] using h.write dest hhb (regData src a (hc w))

/-- **An instruction with a count of one.** -/
lemma steps_one {insn : Insn} (hdecode : Insn.decode w = some insn) {multi : Multi}
    (hmulti : insn.multi = some multi) (hscope : insn.inScope = true) (hread : ReadsRb0 w = false) :
    ∃ ops, (oneElement multi w).emitted.mapM Qemu.Emission.toOp = some ops ∧
      Steps ops a m (after a m w).1 (after a m w).2 := by
  have hcs : Stage1.csignals w = Stage1.row insn := by rw [Stage1.csignals, hdecode]
  have hcs' : Stage5.csignals w = Stage5.row insn := by rw [Stage5.csignals, hdecode]
  unfold after Stage1.writeBack Stage1.wbData Stage1.aluOut Stage1.aluOut2 Stage1.dmemReq Stage1.aluOut
    Stage1.aluOp1 Stage1.aluOp2 Stage1.condYes
  rw [hcs]
  rw [ReadsRb0, hcs'] at hread
  cases insn with
  | rd2rd =>
    obtain rfl := Option.some.inj hmulti
    exact steps_r2r .rd .rd (.inl rfl) (readable_rd _)
  | rd2rb =>
    obtain rfl := Option.some.inj hmulti
    exact steps_r2r .rd .rb (.inr rfl) (readable_rd _)
  | rb2rd =>
    have hhc : hc w ≠ 0 := by simpa [Stage5.row] using hread
    obtain rfl := Option.some.inj hmulti
    exact steps_r2r .rb .rd (.inl rfl) (readable_rb hhc)
  | rb2rb =>
    have hhc : hc w ≠ 0 := by simpa [Stage5.row] using hread
    obtain rfl := Option.some.inj hmulti
    exact steps_r2r .rb .rb (.inr rfl) (readable_rb hhc)
  | ldmbs | ldmws | ldmts | ldmbu | ldmwu | ldmtu =>
    have hhb : hb w ≠ 0 := by simpa [Stage5.row] using hread
    obtain rfl := Option.some.inj hmulti
    exact steps_ldm .rd _ (.inl rfl) (readable_rb hhb)
  | ldmoRd =>
    have hhb : hb w ≠ 0 := by simpa [Stage5.row] using hread
    obtain rfl := Option.some.inj hmulti
    have hload := steps_ldm (a := a) (m := m) .rd Qemu.moTeuq (.inl rfl) (readable_rb hhb)
    rw [← loadValue_o] at hload
    exact hload
  | ldmoRb =>
    have hhb : hb w ≠ 0 := by simpa [Stage5.row] using hread
    obtain rfl := Option.some.inj hmulti
    have hload := steps_ldm (a := a) (m := m) .rb Qemu.moTeuq (.inr rfl) (readable_rb hhb)
    rw [← loadValue_o] at hload
    exact hload
  | stmb =>
    have hhb : hb w ≠ 0 := by simpa [Stage5.row] using hread
    obtain rfl := Option.some.inj hmulti
    have hstore := steps_stm (a := a) (m := m) .rd ⟨1, false⟩ (readable_rd (ha w)) (readable_rb hhb)
    exact hstore
  | stmw =>
    have hhb : hb w ≠ 0 := by simpa [Stage5.row] using hread
    obtain rfl := Option.some.inj hmulti
    have hstore := steps_stm (a := a) (m := m) .rd ⟨2, false⟩ (readable_rd (ha w)) (readable_rb hhb)
    exact hstore
  | stmtRd =>
    have hhb : hb w ≠ 0 := by simpa [Stage5.row] using hread
    obtain rfl := Option.some.inj hmulti
    have hstore := steps_stm (a := a) (m := m) .rd ⟨4, false⟩ (readable_rd (ha w)) (readable_rb hhb)
    exact hstore
  | stmoRd =>
    have hhb : hb w ≠ 0 := by simpa [Stage5.row] using hread
    obtain rfl := Option.some.inj hmulti
    have hstore := steps_stm (a := a) (m := m) .rd Qemu.moTeuq (readable_rd (ha w)) (readable_rb hhb)
    exact hstore
  | stmoRb =>
    have hne : hb w ≠ 0 ∧ ha w ≠ 0 := by simpa [Stage5.row] using hread
    obtain rfl := Option.some.inj hmulti
    have hstore := steps_stm (a := a) (m := m) .rb Qemu.moTeuq (readable_rb hne.2) (readable_rb hne.1)
    exact hstore
  | rd2rf | rf2rd | rf2rf => exact absurd hscope (by decide)
  | _ => cases hmulti

end Next

/-! ### Jumps -/

section Jumps

variable {a a' : Arch} {m m' : Memory} {s : Machine Elem} {w : BitVec 32}

/-- **The simulator executes the word** and leaves the registers and the memory. -/
def SimulatorDoes (w : BitVec 32) (s : Machine Elem) (a : Arch) (m : Memory) : Prop :=
  ∃ s', (∀ out, Qemu.Executes w s out ↔ out = .done s') ∧ SameState a m s'

/-- An instruction that goes on to the next word. -/
lemma does_next {fuel : ℕ} {t : Qemu.Translation} {ops : List (Tcg.Op Elem)} (h : SameState a m s)
    (ht : Qemu.disasInsn fuel a.pc w = some t) (hnext : t.isJmp = .next)
    (hops : t.emitted.mapM Qemu.Emission.toOp = some ops) (hsteps : Steps ops a m a' m') :
    SimulatorDoes w s { a' with pc := a.pc + 4 } m' := by
  have hstop : t.stop = [] := by
    rw [Qemu.Translation.stop, hnext]
    rfl
  obtain ⟨s', hexec, hs'⟩ := hsteps _ h.prologue [.mov (.global .pc) (.const (a.pc + 4))]
  refine ⟨s'.write (.global .pc) (a.pc + 4), fun out => ?_, hs'.write_pc _⟩
  rw [← h.pc] at ht
  rw [Qemu.executes_around ht hops, h.pc, hnext, if_pos rfl, hstop, List.append_nil,
    Tcg.exec_append_straight rfl, hexec]
  rfl

/-- An instruction that jumps. -/
lemma does_jump {fuel : ℕ} {t : Qemu.Translation} {ops : List (Tcg.Op Elem)} {target : BitVec 64}
    (h : SameState a m s) (ht : Qemu.disasInsn fuel a.pc w = some t) (hjump : t.isJmp = .jump)
    (hops : t.emitted.mapM Qemu.Emission.toOp = some ops)
    (hend : ∀ s, SameState a m s → ∃ s₁, SameState a m s₁ ∧
      Tcg.exec (ops ++ t.stop) none s = .done (s₁.write (.global .pc) target)) :
    SimulatorDoes w s { a with pc := target } m := by
  obtain ⟨s₁, hs₁, hexec⟩ := hend _ h.prologue
  refine ⟨s₁.write (.global .pc) target, fun out => ?_, hs₁.write_pc _⟩
  rw [← h.pc] at ht
  rw [Qemu.executes_around ht hops, hjump, if_neg (by decide), List.nil_append,
    Tcg.exec_append_straight rfl, hexec]

/-- The operations of an instruction without a helper. -/
lemma mapM_translation (e : Emitted) :
    e.translation.emitted.mapM Qemu.Emission.toOp = some (elemOps e.ops) := Qemu.mapM_toOp_op e.ops

/-- Four times an offset in words. -/
lemma mul_four (x : BitVec 64) : x * 4 = x <<< 2 := by
  apply BitVec.eq_of_toNat_eq
  rw [BitVec.toNat_mul, BitVec.toNat_shiftLeft, Nat.shiftLeft_eq]
  rfl

/-- **A branch**, by the data register `ha` and another one. -/
lemma does_branch (h : SameState a m s) {cond : Cond} {n : ℕ} {y : BitVec 6} {off x : BitVec 64}
    (ht : Qemu.disasInsn 0 a.pc w = some (Emitted.jump [.movcond cond (Qemu.glob .jmpPc)
      (Qemu.glob (.rd (fieldHa w))) (Qemu.glob (.rd n)) (.const (a.pc + off * 4))
      (.const (a.pc + 4))]).translation)
    (hn : n = y.toNat) (hoff : off = x) :
    SimulatorDoes w s { a with pc := if cond.holds (Stage1.rdData a (ha w)) (Stage1.rdData a y) then
      a.pc + x <<< 2 else a.pc + 4 } m := by
  refine does_jump h ht rfl (mapM_translation _) fun s h => ?_
  refine ⟨_, h.write_jmpPc (if cond.holds (Stage1.rdData a (ha w)) (Stage1.rdData a y) then a.pc + x <<< 2
    else a.pc + 4), ?_⟩
  have hstop : ∀ ops, (Emitted.jump ops).translation.stop = [.mov (.global .pc) (.global .jmpPc)] :=
    fun _ => rfl
  have hread : ∀ i : BitVec 6, s.env.globals (.reg .rd i.toNat) = Stage1.rdData a i := h.rd
  rw [Tcg.exec_append_straight rfl, hstop, hn, hoff, ← mul_four]
  simp [Tcg.exec, stepOp, hread, Emitted.jump]

/-- A jump by registers. -/
lemma jumpR_end (h : SameState a m s) (hha : ha w ≠ 0) :
    ∃ s₁, SameState a m s₁ ∧
      Tcg.exec (elemOps (Qemu.transJUMPr w).ops ++ [.mov (.global .pc) (.global .jmpPc)]) none s =
        .done (s₁.write (.global .pc)
          (regData .rb a (ha w) + regData .rd a (hb w) + imms12 w <<< 2)) := by
  refine ⟨_, h.write_jmpPc (regData .rb a (ha w) + regData .rd a (hb w) + imms12 w <<< 2), ?_⟩
  rw [Tcg.exec_append_straight rfl, ← mul_four]
  simp [Tcg.exec, stepOp, Qemu.transJUMPr, Emitted.jump, BinOp.eval, h.read (readable_rb hha),
    h.read (readable_rd _), Machine.write_write]

/-- The target of a branch with an offset of 12 bits. -/
lemma target_br12 (hflow : (Stage1.csignals w).ctrlFlow = .br12) :
    Stage1.target a w (Stage1.pcSelNoXept a w false) =
      if Stage1.brTaken a w then a.pc + imms12 w <<< 2 else a.pc + 4 := by
  rw [Stage1.pcSelNoXept, if_neg (by decide), hflow]
  cases Stage1.brTaken a w <;> rfl

/-- The target of a branch with an offset of 18 bits. -/
lemma target_br18 (hflow : (Stage1.csignals w).ctrlFlow = .br18) :
    Stage1.target a w (Stage1.pcSelNoXept a w false) =
      if Stage1.brTaken a w then a.pc + imms18 w <<< 2 else a.pc + 4 := by
  rw [Stage1.pcSelNoXept, if_neg (by decide), hflow]
  cases Stage1.brTaken a w <;> rfl

/-- A jump by an offset, unless its target is the mark of a computed jump. -/
lemma does_jumpI (h : SameState a m s) (hdecode : Insn.decode w = some .jumpI)
    (hne : a.pc + imms24 w <<< 2 ≠ -1) :
    SimulatorDoes w s { a with pc := a.pc + imms24 w <<< 2 } m := by
  have ht := disasInsn_of_plain a.pc hdecode rfl rfl 0
  refine does_jump h ht rfl (mapM_translation _) fun s h => ⟨s, h, ?_⟩
  have hstop : (Insn.emitted a.pc w .jumpI).translation.stop =
      [.mov (.global .pc) (.const (a.pc + imms24 w <<< 2))] := by
    have himm : (Insn.emitted a.pc w .jumpI).translation.jmpPcImm = a.pc + imms24 w <<< 2 := by
      rw [← mul_four, ← fieldImms24_eq]
      rfl
    have hjump : (Insn.emitted a.pc w .jumpI).translation.isJmp = .jump := rfl
    rw [Qemu.Translation.stop, hjump, if_pos rfl, himm, if_neg hne]
  rw [hstop]
  rfl

/-- **The jumps of the core** go where those of the simulator go. -/
lemma does_of_jump {insn : Insn} (h : SameState a m s) (hdecode : Insn.decode w = some insn)
    (hscope : insn.inScope = true) (hflow : (Stage1.row insn).ctrlFlow ≠ .x)
    (hread : ReadsRb0 w = false) (halign : Stage1.instMisaligned a w false = false) :
    SimulatorDoes w s { a with pc := Stage1.target a w (Stage1.pcSelNoXept a w false) } m := by
  have hcs : Stage1.csignals w = Stage1.row insn := by rw [Stage1.csignals, hdecode]
  have hcs' : Stage5.csignals w = Stage5.row insn := by rw [Stage5.csignals, hdecode]
  rw [ReadsRb0, hcs'] at hread
  have ht := fun hplain => disasInsn_of_plain a.pc hdecode hscope hplain 0
  have h12 := fun hflow => target_br12 (a := a) (w := w) (hcs ▸ hflow)
  have h18 := fun hflow => target_br18 (a := a) (w := w) (hcs ▸ hflow)
  cases insn with
  | breq | brne =>
    rw [h12 rfl, Stage1.brTaken, hcs]
    exact does_branch h (ht rfl) (fieldHb_eq w) (fieldImms12_eq w)
  | brn | brnn | brz | brnz | brp | brnp =>
    rw [h18 rfl, Stage1.brTaken, hcs]
    exact does_branch h (y := 0) (ht rfl) rfl (fieldImms18_eq w)
  | jumpI =>
    have hsel : Stage1.pcSelNoXept a w false = .iiii := by
      rw [Stage1.pcSelNoXept, hcs]
      rfl
    rw [hsel]
    refine does_jumpI h hdecode fun htarget => ?_
    -- the mark is not the address of a word
    have hmis : ((a.pc + imms24 w <<< 2).extractLsb' 0 2 != 0) = false := by
      rw [Stage1.instMisaligned, hsel] at halign
      exact halign
    rw [htarget] at hmis
    exact absurd hmis (by decide)
  | jumpR =>
    have hha : ha w ≠ 0 := by simpa [Stage5.row] using hread
    have hsel : Stage1.pcSelNoXept a w false = .rrii := by
      rw [Stage1.pcSelNoXept, hcs]
      rfl
    rw [hsel]
    exact does_jump h (ht rfl) rfl (mapM_translation _) fun s h => jumpR_end h hha
  | callI | callR | ret => exact absurd hscope (by decide)
  | _ => exact absurd rfl hflow

end Jumps

/-! ### Illegal instructions -/

section Illegal

variable {a : Arch} {m : Memory} {s s' : Machine Elem} {w : BitVec 32}

/-- Operations without a branch raise no exception. -/
lemma not_mem_of_straight {ops : List (Tcg.Op Elem)} (hall : ops.all Tcg.Op.isStraight = true) (e : ℕ) :
    Tcg.Op.exception e ∉ ops := by
  intro hmem
  exact Bool.false_ne_true (List.all_eq_true.mp hall _ hmem)

/-- No instruction that is compared reports itself illegal. -/
lemma not_illegal_emitted (insn : Insn) (pc : BitVec 64) :
    Tcg.Op.exception Qemu.excpIlli ∉ elemOps (insn.emitted pc w).ops := by
  by_cases hdiv : insn ≠ .divs ∧ insn ≠ .divu
  · exact not_mem_of_straight (straight_emitted pc hdiv) _
  · have hmov : Tcg.Op.exception Qemu.excpIlli ∉ elemOps (Qemu.movHaHb w) :=
      not_mem_of_straight straight_movHaHb _
    have hdivs : ∀ divop remop,
        Tcg.Op.exception Qemu.excpIlli ∉ elemOps (Qemu.insnDivRrrr divop remop w).ops := by
      intro divop remop
      simp only [Qemu.insnDivRrrr, Emitted.next, elemOps, List.map_append, List.mem_append, not_or]
      exact ⟨by simp [Qemu.excpIlli, Qemu.excpFper], hmov⟩
    by_cases hdivs' : insn = .divs
    · rw [hdivs']
      exact hdivs .div .rem
    · have hdivu : insn = .divu := by
        by_contra hne
        exact hdiv ⟨hdivs', hne⟩
      rw [hdivu]
      exact hdivs .divu .remu

/-- An operation comes from an emission. -/
lemma exists_emission {emitted : List Qemu.Emission} {ops : List (Tcg.Op Elem)}
    (h : emitted.mapM Qemu.Emission.toOp = some ops) {op : Tcg.Op Elem} (hop : op ∈ ops) :
    ∃ e ∈ emitted, e.toOp = some op := by
  induction emitted generalizing ops with
  | nil =>
    obtain rfl := Option.some.inj h
    cases hop
  | cons e emitted ih =>
    simp only [List.mapM_cons, Option.bind_eq_bind, Option.bind_eq_some_iff, Option.pure_def,
      Option.some.injEq] at h
    obtain ⟨o, ho, os, hos, rfl⟩ := h
    rcases List.mem_cons.mp hop with rfl | hmem
    · exact ⟨e, List.mem_cons_self, ho⟩
    · obtain ⟨e', he', heq⟩ := ih hos hmem
      exact ⟨e', List.mem_cons_of_mem e he', heq⟩

/-- **A word whose translation has no such exception** is not reported illegal. -/
lemma not_raises_illegal {fuel : ℕ} {t : Qemu.Translation}
    (ht : Qemu.disasInsn fuel (s.env.globals .pc) w = some t)
    (hno : ∀ e ∈ t.emitted, e.toOp ≠ some (.exception Qemu.excpIlli)) :
    ¬ Qemu.Executes w s (.raised Qemu.excpIlli s') := by
  rintro ⟨fuel', t', ht', hrun⟩
  have haround : Qemu.translateInsn fuel (s.env.globals .pc) w = some (t.around (s.env.globals .pc)) := by
    rw [Qemu.translateInsn, ht, Option.map_some]
  obtain rfl := Qemu.translateInsn_unique ht' haround
  obtain ⟨ops, hops, hexec⟩ := Option.map_eq_some_iff.mp hrun
  rcases List.mem_append.mp (Tcg.exec_raised hexec) with hmem | hmem
  · obtain ⟨e, he, htoOp⟩ := exists_emission hops hmem
    simp only [Qemu.Translation.around, List.mem_append] at he
    rcases he with (he | he) | he
    · simp only [Qemu.insnPrologue, List.map_cons, List.map_nil, List.mem_cons, List.not_mem_nil,
        or_false] at he
      rcases he with rfl | rfl | rfl <;> cases htoOp
    · exact hno e he htoOp
    · split_ifs at he
      · obtain rfl := List.mem_singleton.mp he
        cases htoOp
      · cases he
  · rw [Qemu.Translation.stop] at hmem
    split_ifs at hmem
    · exact not_mem_of_straight rfl _ hmem
    · exact not_mem_of_straight rfl _ hmem
    · cases hmem

/-- The emissions for one element have no exception. -/
lemma not_illegal_oneElement (multi : Multi) :
    ∀ e ∈ (oneElement multi w).emitted, e.toOp ≠ some (.exception Qemu.excpIlli) := by
  intro e he
  cases multi with
  | ldm dest op =>
    simp only [oneElement, Multi.setup, Multi.element, Qemu.ldmBody] at he
    split_ifs at he <;> simp at he <;> rcases he with rfl | rfl | rfl | rfl <;> simp [Qemu.Emission.toOp]
  | stm src op =>
    simp only [oneElement, Multi.setup, Multi.element, Qemu.stmBody] at he
    simp at he
    rcases he with rfl | rfl | rfl <;> simp [Qemu.Emission.toOp]
  | r2r src dest =>
    simp only [oneElement, Multi.setup, Multi.element, Qemu.r2rBody] at he
    split_ifs at he
    · simp at he
      simp [he, Qemu.Emission.toOp]
    · cases he
  | fcvt fn src dest =>
    simp only [oneElement, Multi.setup, Multi.element, Qemu.fcvtBody] at he
    split_ifs at he
    · simp at he
      simp [he, Qemu.Emission.toOp]
    · cases he

end Illegal

/-! ### The words of the core -/

section Words

variable {a : Arch} {m : Memory} {s : Machine Elem} {w : BitVec 32}

/-- A word that is compared: no instruction of a coprocessor, of the CSR file, of the floating point
registers or of the return address stack. -/
def Comparable (w : BitVec 32) : Prop := ∀ insn, Insn.decode w = some insn → insn.inScope = true

/-- An instruction on several registers has a count. -/
def HasCount (w : BitVec 32) : Prop :=
  ((Stage1.csignals w).regGrp = .mrd ∨ (Stage1.csignals w).regGrp = .mrb ∨
    (Stage1.csignals w).regGrp = .mrf) → hd w ≠ 0

/-- The decoder of the core accepts the word. -/
def Accepted (w : BitVec 32) : Prop := (Stage1.csignals w).valInst = true ∧ Stage1.instMultiReg w = false

/-- The target and the access of a word are aligned. -/
def Aligned (a : Arch) (w : BitVec 32) : Prop :=
  Stage1.instMisaligned a w false = false ∧ Stage1.dataMisaligned a w (Stage1.csignals w).memEn = false

/-- **The words and states without a difference**: the base register 0 is not read, no division is by zero,
and two results go to two registers. -/
structure Regular (a : Arch) (w : BitVec 32) : Prop where
  /-- The base register 0 is not read. -/
  reads : ReadsRb0 w = false
  /-- There is no division by zero. -/
  divisor : NoZeroDivisor a w
  /-- Two results go to two registers. -/
  destinations : TwoDestinations w

/-- An instruction of the return address stack is not compared. -/
lemma instRaspExcp_eq (hw : Comparable w) : Stage1.instRaspExcp a w = false := by
  have hgrp : (Stage1.csignals w).regGrp ≠ .rasPush ∧ (Stage1.csignals w).regGrp ≠ .rasPop := by
    rw [Stage1.csignals]
    cases hdecode : Insn.decode w with
    | none => decide
    | some insn =>
      have hscope := hw insn hdecode
      revert hscope
      cases insn <;> decide
  simp [Stage1.instRaspExcp, Stage1.rasPush, Stage1.rasPop, hgrp]

/-- **An accepted word** raises an exception exactly if it is misaligned. -/
lemma fault_eq_none_iff (hw : Comparable w) :
    Stage1.fault a w = none ↔ Accepted w ∧ Aligned a w := by
  have hfault : Stage1.fault a w = none ↔
      Stage1.exception a w true (Stage1.csignals w).memEn false = false := by
    rw [Stage1.fault]
    cases Stage1.exception a w true (Stage1.csignals w).memEn false <;> simp
  rw [hfault, Stage1.exception, Stage1.illegal, instRaspExcp_eq hw, Accepted, Aligned]
  cases (Stage1.csignals w).valInst <;> cases Stage1.instMultiReg w <;> simp

/-- An accepted word is an instruction of the table. -/
lemma Accepted.decode (h : Accepted w) : ∃ insn, Insn.decode w = some insn := by
  cases hdecode : Insn.decode w with
  | some insn => exact ⟨insn, rfl⟩
  | none =>
    have hval := h.1
    rw [Stage1.csignals, hdecode] at hval
    cases hval

/-- The count of an accepted word is one. -/
lemma Accepted.hd_eq_one (h : Accepted w) (hcount : HasCount w) {insn : Insn}
    (hdecode : Insn.decode w = some insn) {multi : Multi} (hmulti : insn.multi = some multi) : hd w = 1 := by
  have hgrp : (Stage1.csignals w).regGrp = .mrd ∨ (Stage1.csignals w).regGrp = .mrb ∨
      (Stage1.csignals w).regGrp = .mrf := by
    rw [Stage1.csignals, hdecode]
    cases insn <;> first | decide | cases hmulti
  have hfew : w.extractLsb' 1 5 = 0 := by
    have hmany := h.2
    rw [Stage1.instMultiReg] at hmany
    rcases hgrp with hg | hg | hg <;> simpa [hg] using hmany
  have hpos := hcount hgrp
  have hfew' := congrArg BitVec.toNat hfew
  have hpos' : (hd w).toNat ≠ 0 := fun hz => hpos (BitVec.eq_of_toNat_eq hz)
  apply BitVec.eq_of_toNat_eq
  rw [hd, BitVec.extractLsb'_toNat, Nat.shiftRight_zero] at hpos' ⊢
  rw [BitVec.extractLsb'_toNat, Nat.shiftRight_eq_div_pow] at hfew'
  have hzero : (0 : BitVec 5).toNat = 0 := rfl
  have hone : (1 : BitVec 6).toNat = 1 := rfl
  omega

/-- A jump assigns no register and makes no access. -/
lemma after_of_jump {insn : Insn} (hdecode : Insn.decode w = some insn) (hscope : insn.inScope = true)
    (hflow : (Stage1.row insn).ctrlFlow ≠ .x) : after a m w = (a, m) := by
  have hcs : Stage1.csignals w = Stage1.row insn := by rw [Stage1.csignals, hdecode]
  have hidle : (Stage1.row insn).rfWen = false ∧ (Stage1.row insn).memEn = false := by
    revert hscope hflow
    cases insn <;> decide
  simp only [after, hcs, hidle.1, hidle.2]
  rfl

/-- An instruction on several registers does not jump. -/
lemma ctrlFlow_of_multi {insn : Insn} {multi : Multi} (hmulti : insn.multi = some multi) :
    (Stage1.row insn).ctrlFlow = .x := by
  cases insn <;> first | rfl | cases hmulti

/-- The target of a word that does not jump. -/
lemma target_of_next (hflow : (Stage1.csignals w).ctrlFlow = .x) :
    Stage1.target a w (Stage1.pcSelNoXept a w false) = a.pc + 4 := by
  rw [Stage1.pcSelNoXept, if_neg (by decide), hflow]
  rfl

/-- **The simulator does what the core does** on a word without a difference. -/
lemma does_of_regular (h : SameState a m s) (hw : Comparable w) (hcount : HasCount w)
    (haccepted : Accepted w) (haligned : Aligned a w) (hregular : Regular a w) :
    SimulatorDoes w s { (after a m w).1 with pc := Stage1.target a w (Stage1.pcSelNoXept a w false) }
      (after a m w).2 := by
  obtain ⟨insn, hdecode⟩ := haccepted.decode
  have hscope := hw insn hdecode
  have hcs : Stage1.csignals w = Stage1.row insn := by rw [Stage1.csignals, hdecode]
  by_cases hflow : (Stage1.row insn).ctrlFlow = .x
  · rw [target_of_next (hcs ▸ hflow)]
    cases hmulti : insn.multi with
    | none =>
      exact does_next h (disasInsn_of_plain a.pc hdecode hscope hmulti 0)
        (by cases insn <;> first | rfl | exact absurd hflow (by decide)) (mapM_translation _)
        (steps_emitted hdecode hscope hmulti hflow hregular.reads hregular.divisor hregular.destinations)
    | some multi =>
      obtain ⟨ops, hops, hsteps⟩ := steps_one (a := a) (m := m) hdecode hmulti hscope hregular.reads
      exact does_next h (disasInsn_of_one a.pc hdecode hscope hmulti
        (haccepted.hd_eq_one hcount hdecode hmulti)) rfl hops hsteps
  · rw [after_of_jump hdecode hscope hflow]
    exact does_of_jump h hdecode hscope hflow hregular.reads haligned.1

/-- **The simulator does not report** a word illegal that the core accepts. -/
lemma not_illegal_of_accepted {s' : Machine Elem} (hw : Comparable w)
    (hcount : HasCount w) (haccepted : Accepted w) :
    ¬ Qemu.Executes w s (.raised Qemu.excpIlli s') := by
  obtain ⟨insn, hdecode⟩ := haccepted.decode
  have hscope := hw insn hdecode
  cases hmulti : insn.multi with
  | none =>
    refine not_raises_illegal (disasInsn_of_plain _ hdecode hscope hmulti 0) fun e he => ?_
    obtain ⟨o, ho, rfl⟩ := List.mem_map.mp he
    intro htoOp
    exact not_illegal_emitted insn _ (List.mem_map.mpr ⟨o, ho, Option.some.inj htoOp⟩)
  | some multi =>
    have hone := haccepted.hd_eq_one hcount hdecode hmulti
    exact not_raises_illegal (disasInsn_of_one _ hdecode hscope hmulti hone) (not_illegal_oneElement multi)

end Words

/-! ### The result -/

section Result

variable {evec : Cause → BitVec 64} {a : Arch} {m : Memory} {s : Machine Elem}

/-- The outcome of a word that raises no exception. -/
lemma single_of_fault_none {w : BitVec 32} (hword : byteBus.fetch m a.pc = w)
    (hfault : Stage1.fault a w = none) :
    Stage1.single byteBus evec a m =
      { exception := none
        arch :=
          { (after a m w).1 with
            pc := Stage1.target a w (Stage1.pcSelNoXept a w false)
            ras := a.ras.step (Stage1.rasPush w) (Stage1.rasPop w) (Stage1.pcPlus4 a) }
        mem := (after a m w).2 } := by
  simp only [Stage1.single, hword, hfault]
  rfl

/-- The outcome of a word that raises an exception. -/
lemma single_of_fault_some {w : BitVec 32} (hword : byteBus.fetch m a.pc = w) {cause : Cause}
    (hfault : Stage1.fault a w = some cause) :
    (Stage1.single byteBus evec a m).exception = some cause ∧
      (Stage1.single byteBus evec a m).arch.rd = a.rd ∧ (Stage1.single byteBus evec a m).arch.rb = a.rb ∧
      (Stage1.single byteBus evec a m).mem = m := by
  simp only [Stage1.single, hword, hfault]
  exact ⟨trivial, trivial, trivial, trivial⟩

variable (evec) in
/-- **The one-stage core implements the simulator.** A word with a count, if it has one, leaves one outcome
for all latencies of the memories. If the core accepts it and it is aligned and regular, this is the outcome
of the simulator. If it is misaligned, the core raises an exception and changes no register and no memory.
And wherever the simulator reports an illegal instruction, the core raises an exception. -/
theorem core_implements_simulator (hsame : SameState a m s) (hw : Comparable (byteBus.fetch m a.pc))
    (hcount : HasCount (byteBus.fetch m a.pc)) :
    ∃ o, (∀ o', Stage1.Executes byteBus evec a m o' ↔ o' = o) ∧
      (Accepted (byteBus.fetch m a.pc) → Aligned a (byteBus.fetch m a.pc) →
        Regular a (byteBus.fetch m a.pc) →
          o.exception = none ∧ SimulatorDoes (byteBus.fetch m a.pc) s o.arch o.mem) ∧
      (Accepted (byteBus.fetch m a.pc) → ¬ Aligned a (byteBus.fetch m a.pc) →
        o.exception ≠ none ∧ o.arch.rd = a.rd ∧ o.arch.rb = a.rb ∧ o.mem = m) ∧
      ((∃ s', Qemu.Executes (byteBus.fetch m a.pc) s (.raised Qemu.excpIlli s')) → o.exception ≠ none) := by
  refine ⟨Stage1.single byteBus evec a m, fun o' => ⟨fun h => h.eq_single, ?_⟩, ?_, ?_, ?_⟩
  · rintro rfl
    exact Stage1.executes_single
  · intro haccepted haligned hregular
    have hfault := (fault_eq_none_iff hw).mpr ⟨haccepted, haligned⟩
    obtain ⟨s', hexec, hs'⟩ := does_of_regular hsame hw hcount haccepted haligned hregular
    rw [single_of_fault_none rfl hfault]
    exact ⟨rfl, s', hexec, hs'.rd, hs'.rb, hs'.pc, hs'.mem⟩
  · intro haccepted hmisaligned
    cases hfault : Stage1.fault a (byteBus.fetch m a.pc) with
    | none => exact absurd ((fault_eq_none_iff hw).mp hfault).2 hmisaligned
    | some cause =>
      have hout : (Stage1.single byteBus evec a m).exception = some cause ∧ _ :=
        single_of_fault_some rfl hfault
      exact ⟨by simp [hout.1], hout.2⟩
  · rintro ⟨s', hraise⟩ hnone
    cases hfault : Stage1.fault a (byteBus.fetch m a.pc) with
    | none =>
      exact not_illegal_of_accepted hw hcount ((fault_eq_none_iff hw).mp hfault).1 hraise
    | some cause => simp [(single_of_fault_some rfl hfault).1] at hnone

/-- A memory with the bytes of one word at `0x10000`. -/
def oneWord (word : BitVec 32) : Memory := fun x =>
  if x = 0x10000 then word.setWidth 8
  else if x = 0x10001 then (word >>> 8).setWidth 8
  else if x = 0x10002 then (word >>> 16).setWidth 8
  else if x = 0x10003 then (word >>> 24).setWidth 8
  else 0

/-- The registers of the simulator, from those of the core. -/
def machineOf (a : Arch) (m : Memory) : Machine Elem :=
  { env :=
      { globals := fun g => match g with
          | .reg .rd i => Stage1.rdData a (BitVec.ofInt 6 i)
          | .reg .rb i => if i = 0 then a.pc else a.rb (BitVec.ofInt 6 i)
          | _ => 0
        temps := fun _ => 0 }
    mem := m }

/-- **Every state of the core is one of the simulator.** -/
lemma sameState_machineOf (a : Arch) (m : Memory) : SameState a m (machineOf a m) := by
  have hofInt : ∀ i : BitVec 6, BitVec.ofInt 6 i.toNat = i := fun i => by
    rw [BitVec.ofInt_natCast, BitVec.ofNat_toNat, BitVec.setWidth_eq]
  refine ⟨fun i => ?_, fun i hi => ?_, rfl, rfl⟩
  · simp only [machineOf, hofInt]
  · have hne : ¬ (i.toNat : ℤ) = 0 := by
      rw [Int.natCast_eq_zero]
      exact fun hz => hi (BitVec.eq_of_toNat_eq hz)
    simp only [machineOf, if_neg hne, hofInt]

/-- `addi rd1, rd2, 5`. -/
theorem core_implements_addi :
    ∃ o, (∀ o', Stage1.Executes byteBus (fun _ => 0) zeroArch (oneWord 0x19042005) o' ↔ o' = o) ∧
      o.exception = none ∧
        SimulatorDoes 0x19042005 (machineOf zeroArch (oneWord 0x19042005)) o.arch o.mem := by
  have hword : byteBus.fetch (oneWord 0x19042005) zeroArch.pc = 0x19042005 := by decide +kernel
  have hdecode : Insn.decode 0x19042005 = some .addiRd := by decide +kernel
  have hresult := core_implements_simulator (fun _ => 0) (sameState_machineOf zeroArch (oneWord 0x19042005))
    (by
      intro insn hinsn
      rw [hword, hdecode] at hinsn
      obtain rfl := Option.some.inj hinsn
      rfl)
    (by rw [hword]; exact fun h => absurd h (by decide +kernel))
  rw [hword] at hresult
  obtain ⟨o, hexec, hdoes, -⟩ := hresult
  refine ⟨o, hexec, hdoes ?_ ?_ ?_⟩
  · exact ⟨by decide +kernel, by decide +kernel⟩
  · exact ⟨by decide +kernel, by decide +kernel⟩
  · exact ⟨by decide +kernel, fun h => absurd h (by decide +kernel), fun h => absurd h (by decide +kernel)⟩

/-- The core and the simulator leave the same registers and memory after a word. -/
def Implements (word : BitVec 32) : Prop :=
  ∀ evec a m s, SameState a m s → byteBus.fetch m a.pc = word →
    ∀ o, Stage1.Executes byteBus evec a m o →
      ∀ out, Qemu.Executes word s out → ∃ s', out = .done s' ∧ SameState o.arch o.mem s'

/-- The data register 2 is `2 ^ 32`, the others are zero. -/
def squareArch : Arch := { zeroArch with rd := fun i => if i = 2 then 0x100000000 else 0 }

/-- A difference at one state. -/
lemma not_implements {word : BitVec 32} {insn : Insn} (hdecode : Insn.decode word = some insn)
    (hscope : insn.inScope = true) (hplain : insn.multi = none)
    (hword : byteBus.fetch (oneWord word) squareArch.pc = word)
    (hdiffer : ∀ s', Tcg.exec (Qemu.prologue ++ (elemOps (insn.emitted 0x10000 word).ops ++
      ((if (insn.emitted 0x10000 word).isJmp = .next then
          [.mov (.global .pc) (.const (0x10000 + 4))] else []) ++
        (insn.emitted 0x10000 word).translation.stop))) none (machineOf squareArch (oneWord word)) = .done s' →
      ¬ SameState (Stage1.single byteBus (fun _ => 0) squareArch (oneWord word)).arch
        (Stage1.single byteBus (fun _ => 0) squareArch (oneWord word)).mem s') : ¬ Implements word := by
  intro himpl
  have hexec := (Qemu.executes_around (s := machineOf squareArch (oneWord word))
    (disasInsn_of_plain _ hdecode hscope hplain 0) (mapM_translation _) _).mpr rfl
  obtain ⟨s', hdone, hsame⟩ := himpl _ _ _ _ (sameState_machineOf squareArch (oneWord word)) hword _
    Stage1.executes_single _ hexec
  exact hdiffer s' hdone hsame

/-- A word both programs accept and the core does not execute as the simulator does. -/
def Differs (word : BitVec 32) : Prop := Comparable word ∧ Accepted word ∧ ¬ Implements word

/-- **Four differences**: `addi rb1, rb0, 0` reads the base register 0, `divu rd1, rd2, rd3, rd4` divides by
zero, `mulu rd1, rd1, rd2, rd2` has one destination for both results, and `ldws rd1, rb2, 1` is misaligned. -/
theorem core_not_simulator :
    Differs 0x49040000#32 ∧ Differs 0x1f0420c4#32 ∧ Differs 0x1d041082#32 ∧ Differs 0x31042001#32 := by
  have hcomparable : ∀ {word insn}, Insn.decode word = some insn → insn.inScope = true → Comparable word := by
    intro word insn hdecode hscope insn' hinsn
    rw [hdecode] at hinsn
    obtain rfl := Option.some.inj hinsn
    exact hscope
  refine ⟨?_, ?_, ?_, ?_⟩
  · have hdecode : Insn.decode 0x49040000 = some .addiRb := by decide +kernel
    refine ⟨hcomparable hdecode rfl, ⟨by decide +kernel, by decide +kernel⟩,
      not_implements hdecode rfl rfl (by decide +kernel) fun s' hdone hsame => ?_⟩
    obtain rfl := Tcg.Outcome.done.inj ((Tcg.exec_straight rfl _).symm.trans hdone)
    have hrb := hsame.rb 1 (by decide)
    revert hrb
    decide +kernel
  · have hdecode : Insn.decode 0x1f0420c4 = some .divu := by decide +kernel
    refine ⟨hcomparable hdecode rfl, ⟨by decide +kernel, by decide +kernel⟩,
      not_implements hdecode rfl rfl (by decide +kernel) fun s' hdone hsame => ?_⟩
    cases hdone
  · have hdecode : Insn.decode 0x1d041082 = some .mulu := by decide +kernel
    refine ⟨hcomparable hdecode rfl, ⟨by decide +kernel, by decide +kernel⟩,
      not_implements hdecode rfl rfl (by decide +kernel) fun s' hdone hsame => ?_⟩
    obtain rfl := Tcg.Outcome.done.inj ((Tcg.exec_straight rfl _).symm.trans hdone)
    have hrd := hsame.rd 1
    revert hrd
    decide +kernel
  · have hdecode : Insn.decode 0x31042001 = some .ldws := by decide +kernel
    refine ⟨hcomparable hdecode rfl, ⟨by decide +kernel, by decide +kernel⟩,
      not_implements hdecode rfl rfl (by decide +kernel) fun s' hdone hsame => ?_⟩
    obtain rfl := Tcg.Outcome.done.inj ((Tcg.exec_straight rfl _).symm.trans hdone)
    have hpc := hsame.pc
    revert hpc
    decide +kernel

end Result

end Wuming

end Dadao
