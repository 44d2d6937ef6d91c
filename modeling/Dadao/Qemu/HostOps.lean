import Dadao.Lib.HostOps
import Dadao.Qemu.Integer

set_option relaxedAutoImplicit false
set_option autoImplicit false

/-!
# Integer instructions on the host

The shifts and divisions the integer instructions are translated to, and the operands these pass: amounts
of a register are passed as they are, and a division is guarded against a divisor of zero only.

## Main definitions

* `Dadao.Qemu.ExecutesOn` — the execution of a word on a host.
* `Dadao.Qemu.OnlySpecified` — a word of which no operation without a specified value is executed.
* `Dadao.Qemu.Independent` — a word whose semantics do not rest on the host.

## Main results

* `Dadao.Qemu.independent_iff` — when an integer instruction does not rest on the host.
-/

namespace Dadao.Qemu

open Tcg Integers

/-- **The simulator executes a word on a host** at the program counter, with this outcome. -/
def ExecutesOn (host : Host) (w : BitVec 32) (s : Machine Elem) (out : Outcome Elem) : Prop :=
  ∃ fuel t ops, translateInsn fuel (s.env.globals .pc) w = some t ∧
    t.emitted.mapM Emission.toOp = some ops ∧ execOn host (ops ++ t.stop) none s = some out

/-- **No operation without a specified value** is executed for a word. -/
def OnlySpecified (w : BitVec 32) (s : Machine Elem) : Prop :=
  ∀ fuel t ops, translateInsn fuel (s.env.globals .pc) w = some t →
    t.emitted.mapM Emission.toOp = some ops → SpecifiedRun (ops ++ t.stop) none s

variable (w : BitVec 32)

/-- The shifts and extensions by the amount in a register. -/
def registerShift : Option Shift :=
  if (w >>> 24).toNat = 0x10 then
    match fieldHa w with
    | 0x11 => some shiftLeft
    | 0x12 => some shiftRightSigned
    | 0x13 => some shiftRightUnsigned
    | 0x14 => some extendSign
    | 0x15 => some extendZero
    | _ => none
  else none

/-- A shift by the amount in a register modulo 64. -/
def shiftModulo (f : Shift) : IntegerInsn :=
  single .rd (fieldHb w) fun s => f (rdv w fieldHc s) ((rdv w fieldHd s).toNat % 64)

/-- **A word whose semantics do not rest on the host**: only operations with a specified value are
executed, and shifts by a register are by the amount modulo 64 on every host. -/
structure Independent (m : Machine Elem) : Prop where
  specified : OnlySpecified w m
  modulo : ∀ f, registerShift w = some f → ∀ host : Host, host.Agrees →
    ∃ m', ExecutesOn host w m (.done m') ∧
      reads m' = ((shiftModulo w f).after (reads m)).set .rb 0 (m.env.globals .pc + 4)

/-- A shift by 64 or more, into a register that is not register 0. -/
def Overshift (s : State) : Prop :=
  registerShift w ≠ none ∧ fieldHb w ≠ 0 ∧ 64 ≤ (rdv w fieldHd s).toNat

/-- A signed division of the least dividend by `-1`. -/
def MinDivision (s : State) : Prop :=
  (w >>> 24).toNat = 0x1e ∧ rdv w fieldHc s = BitVec.intMin 64 ∧ rdv w fieldHd s = -1

/-! ## Executions -/

section Executions

variable {w} {m : Machine Elem}

/-- The operations of a translation decide. -/
lemma onlySpecified_iff {fuel : ℕ} {t : Translation} {ops : List (Op Elem)}
    (ht : translateInsn fuel (m.env.globals .pc) w = some t)
    (hops : t.emitted.mapM Emission.toOp = some ops) :
    OnlySpecified w m ↔ SpecifiedRun (ops ++ t.stop) none m := by
  constructor
  · exact fun h => h fuel t ops ht hops
  · intro h fuel' t' ops' ht' hops'
    obtain rfl := translateInsn_unique ht ht'
    obtain rfl : ops = ops' := Option.some.inj (hops.symm.trans hops')
    exact h

/-- **A word that only executes specified operations** has its outcome on every host. -/
lemma OnlySpecified.executesOn (h : OnlySpecified w m) {host : Host} (hhost : host.Agrees)
    {out : Outcome Elem} (hexec : Executes w m out) : ExecutesOn host w m out := by
  obtain ⟨fuel, t, ht, hout⟩ := hexec
  obtain ⟨ops, hops, rfl⟩ := Option.map_eq_some_iff.mp hout
  exact ⟨fuel, t, ops, ht, hops, execOn_of_specifiedRun hhost (h fuel t ops ht hops)⟩

/-- Operations that are always specified stay so as operations on elements. -/
lemma all_alwaysSpecified_map (os : List (Op Global)) :
    (os.map (Op.map Global.elem)).all Op.alwaysSpecified = os.all Op.alwaysSpecified := by
  rw [List.all_map]
  congr 1
  funext op
  cases op with
  | bin f d a b => cases f <;> cases b <;> rfl
  | _ => rfl

variable {ops : BitVec 64 → List (Op Global)}

/-- **An instruction that goes on to the next one**: what is around it is specified. -/
lemma onlySpecified_next (hw : Plain w) (hdisas : ∀ pc, disasDadao pc w = some (some (.next (ops pc)))) :
    OnlySpecified w m ↔ SpecifiedRun ((ops (m.env.globals .pc)).map (Op.map Global.elem)) none
      (runStraight prologue m) := by
  have hprologue : prologue.all Op.isStraight = true := rfl
  have halways : prologue.all Op.alwaysSpecified = true := rfl
  have htrans : translateInsn 0 (m.env.globals .pc) w =
      some ((Emitted.next (ops (m.env.globals .pc))).translation.around (m.env.globals .pc)) := by
    rw [translateInsn, disasInsn, hw.1]
    simp only
    rw [hw.2, hdisas]
    rfl
  rw [onlySpecified_iff htrans (mapM_toOp_around (mapM_toOp_op _) _), List.append_assoc, List.append_assoc,
    specifiedRun_append_straight hprologue, specifiedRun_append_always rfl]
  exact and_iff_right (specifiedRun_of_always halways)

/-- A translation that goes on and only has operations that are always specified. -/
def Emitted.AlwaysSpecified (e : Emitted) : Prop :=
  ∃ ops, e = .next ops ∧ ops.all Op.alwaysSpecified = true

/-- Such a translation. -/
lemma onlySpecified_of_always {e : BitVec 64 → Emitted} (hall : ∀ pc, (e pc).AlwaysSpecified) (hw : Plain w)
    (hdisas : ∀ pc, disasDadao pc w = some (some (e pc))) : OnlySpecified w m := by
  choose ops hops halways using hall
  rw [onlySpecified_next hw fun pc => (hdisas pc).trans (by rw [hops])]
  exact specifiedRun_of_always (by rw [all_alwaysSpecified_map, halways])

/-- **A shift by a register** is specified by its amount. -/
lemma onlySpecified_insnLogicOrrr {f : BinOp} (hf : f = .shl ∨ f = .sar ∨ f = .shr) (hw : Plain w)
    (hdisas : ∀ pc, disasDadao pc w = some (some (insnLogicOrrr f w))) :
    OnlySpecified w m ↔ (fieldHb w ≠ 0 → (rdv w fieldHd (reads m)).toNat < 64) := by
  rw [onlySpecified_next hw hdisas]
  have hamount : (runStraight prologue m).env.globals (.reg .rd (fieldHd w)) = rdv w fieldHd (reads m) := by
    rw [(settled_prologue m).read, reads_prologue, rdv]
  by_cases hb : fieldHb w = 0
  · simp [hb, SpecifiedRun]
  · rcases hf with rfl | rfl | rfl <;>
      simp [hb, SpecifiedRun, stepOp, Op.Specified, BinOp.Specified, hamount, rdOf]

/-- **An extension by a register** is specified by its amount. -/
lemma onlySpecified_insnExtOrrr {f : BinOp} (hf : f = .sar ∨ f = .shr) (hw : Plain w)
    (hdisas : ∀ pc, disasDadao pc w = some (some (insnExtOrrr f w))) :
    OnlySpecified w m ↔ (fieldHb w ≠ 0 → (rdv w fieldHd (reads m)).toNat < 64) := by
  rw [onlySpecified_next hw hdisas]
  have hamount : (runStraight prologue m).env.globals (.reg .rd (fieldHd w)) = rdv w fieldHd (reads m) := by
    rw [(settled_prologue m).read, reads_prologue, rdv]
  by_cases hb : fieldHb w = 0
  · simp [hb, SpecifiedRun]
  · rcases hf with rfl | rfl <;>
      simp [hb, SpecifiedRun, stepOp, Op.Specified, BinOp.Specified, hamount, rdOf]

/-- The assignments of two results. -/
lemma all_movHaHb : (movHaHb w).all Op.alwaysSpecified = true := by
  rw [movHaHb]
  split_ifs <;> rfl

/-- **A division** is specified by its operands, unless the divisor is zero. -/
lemma onlySpecified_insnDivRrrr {f g : BinOp} (hw : Plain w)
    (hdisas : ∀ pc, disasDadao pc w = some (some (insnDivRrrr f g w))) :
    OnlySpecified w m ↔ (rdv w fieldHd (reads m) ≠ 0 →
      f.Specified (rdv w fieldHc (reads m)) (rdv w fieldHd (reads m)) ∧
      g.Specified (rdv w fieldHc (reads m)) (rdv w fieldHd (reads m))) := by
  rw [onlySpecified_next hw hdisas]
  have hread (i : ℕ) : (runStraight prologue m).env.globals (.reg .rd i) = (reads m).reg .rd i := by
    rw [(settled_prologue m).read, reads_prologue]
  rw [List.map_append, specifiedRun_append_always (by rw [all_alwaysSpecified_map, all_movHaHb])]
  have hzero : (runStraight prologue m).env.globals (.reg .rd (0 : ℕ)) = 0 := hread 0
  have hcond : Cond.ne.holds ((runStraight prologue m).env.globals (.reg .rd (fieldHd w)))
      ((runStraight prologue m).env.globals (.reg .rd (0 : ℕ))) = true ↔ rdv w fieldHd (reads m) ≠ 0 := by
    rw [hread, hzero, rdv]
    simp [Cond.holds]
  simp only [List.map_cons, Op.map, Var.map, Global.elem_rd]
  rw [specifiedRun_brcond, Env.read_global, Env.read_global]
  by_cases h : rdv w fieldHd (reads m) = 0
  · rw [if_neg fun hne => hcond.mp hne h]
    exact iff_of_true ⟨trivial, trivial⟩ fun hne => absurd h hne
  · rw [if_pos (hcond.mpr h)]
    simp only [SpecifiedRun, stepOp, Op.Specified, reduceCtorEq, if_false, if_true, true_and, and_true,
      Env.read_global, Machine.write_env, Env.write_temp_globals, List.map_nil, hread]
    exact ⟨fun hs _ => hs, fun hs => hs h⟩

end Executions

/-! ## Integer instructions -/

section Instructions

variable {w} {i : IntegerInsn} {f : Shift} {m : Machine Elem}

section Families

lemma always_insnLogicOrrr {f : BinOp} (hf : f = .and ∨ f = .or ∨ f = .xor) :
    (insnLogicOrrr f w).AlwaysSpecified := by
  refine ⟨_, rfl, ?_⟩
  rcases hf with rfl | rfl | rfl <;> split_ifs <;> rfl

lemma always_transXNOR : (transXNOR w).AlwaysSpecified := by
  refine ⟨_, rfl, ?_⟩
  split_ifs <;> rfl

lemma always_transANDI : (transANDI w).AlwaysSpecified := by
  refine ⟨_, rfl, ?_⟩
  split_ifs <;> rfl

lemma amount_of_immediate : decide ((fieldImmu 6 w).toNat < 64) = true := by
  rw [decide_eq_true_iff, toNat_fieldImmu 6 (by omega)]
  exact toNat_fieldImmu6_lt

lemma always_insnLogicOrri {f : BinOp} (hf : f = .shl ∨ f = .sar ∨ f = .shr) :
    (insnLogicOrri f w).AlwaysSpecified := by
  refine ⟨_, rfl, ?_⟩
  rcases hf with rfl | rfl | rfl <;> split_ifs <;> simp [Op.alwaysSpecified, amount_of_immediate]

lemma always_insnExtOrri {f : BinOp} (hf : f = .sar ∨ f = .shr) : (insnExtOrri f w).AlwaysSpecified := by
  refine ⟨_, rfl, ?_⟩
  rcases hf with rfl | rfl <;> split_ifs <;> simp [Op.alwaysSpecified, amount_of_immediate]

lemma always_insnCmpOrrr {src : ℕ → Global} {k : Cond} : (insnCmpOrrr src k w).AlwaysSpecified := by
  refine ⟨_, rfl, ?_⟩
  split_ifs <;> rfl

lemma always_insnCmpRrii {imm : BitVec 64} {k : Cond} : (insnCmpRrii imm k w).AlwaysSpecified := by
  refine ⟨_, rfl, ?_⟩
  split_ifs <;> rfl

lemma always_insnAlg1Orrr {f : BinOp} (hf : f = .add ∨ f = .sub) : (insnAlg1Orrr f w).AlwaysSpecified := by
  refine ⟨_, rfl, ?_⟩
  rcases hf with rfl | rfl <;> split_ifs <;> rfl

lemma always_insnAlg1Rrii {reg : ℕ → Global} : (insnAlg1Rrii reg w).AlwaysSpecified := by
  refine ⟨_, rfl, ?_⟩
  split_ifs <;> rfl

lemma always_insnAlg1Rrrr {f : BinOp} {g : WideOp} (hf : f = .add ∨ f = .sub) :
    (insnAlg1Rrrr f g w).AlwaysSpecified := by
  refine ⟨_, rfl, ?_⟩
  rcases hf with rfl | rfl <;> split_ifs <;> rfl

lemma always_insnMulRrrr {g : WideOp} : (insnMulRrrr g w).AlwaysSpecified := by
  refine ⟨_, rfl, ?_⟩
  rw [List.all_append, all_movHaHb]
  rfl

lemma always_insnCset1Rrrr {k : Cond} : (insnCset1Rrrr k w).AlwaysSpecified := by
  refine ⟨_, rfl, ?_⟩
  split_ifs <;> rfl

lemma always_insnCset2Rrrr {k : Cond} : (insnCset2Rrrr k w).AlwaysSpecified := by
  refine ⟨_, rfl, ?_⟩
  split_ifs <;> rfl

lemma always_insnOrwRwii {reg : ℕ → Global} : (insnOrwRwii reg w).AlwaysSpecified := by
  refine ⟨_, rfl, ?_⟩
  split_ifs <;> rfl

lemma always_insnAndnwRwii {reg : ℕ → Global} : (insnAndnwRwii reg w).AlwaysSpecified := by
  refine ⟨_, rfl, ?_⟩
  split_ifs <;> rfl

lemma always_insnSetzwRwii {reg : ℕ → Global} : (insnSetzwRwii reg w).AlwaysSpecified := by
  refine ⟨_, rfl, ?_⟩
  split_ifs <;> rfl

lemma always_transSETOW : (transSETOW w).AlwaysSpecified := by
  refine ⟨_, rfl, ?_⟩
  split_ifs <;> rfl

lemma always_transADRP (pc : BitVec 64) : (transADRP pc w).AlwaysSpecified := by
  refine ⟨_, rfl, ?_⟩
  split_ifs <;> rfl

end Families

/-- **The other instructions with opcode byte `0x10`** have amounts of the word, if any. -/
lemma always_minor10 (h : integerMinor10 w = some i) (hop : (w >>> 24).toNat = 0x10)
    (hshift : registerShift w = none) :
    ∃ e : BitVec 64 → Emitted, (∀ pc, disasMinor10 pc w = some (some (e pc))) ∧
      ∀ pc, (e pc).AlwaysSpecified := by
  rw [registerShift, if_pos hop] at hshift
  unfold integerMinor10 at h
  split at h
  all_goals rename_i ha
  all_goals simp only [ha, reduceCtorEq] at hshift h
  all_goals simp only [disasMinor10, ha]
  · exact ⟨_, fun _ => rfl, fun _ => always_insnLogicOrrr (by simp)⟩
  · exact ⟨_, fun _ => rfl, fun _ => always_insnLogicOrrr (by simp)⟩
  · exact ⟨_, fun _ => rfl, fun _ => always_insnLogicOrrr (by simp)⟩
  · exact ⟨_, fun _ => rfl, fun _ => always_transXNOR⟩
  · exact ⟨_, fun _ => rfl, fun _ => always_insnLogicOrri (by simp)⟩
  · exact ⟨_, fun _ => rfl, fun _ => always_insnLogicOrri (by simp)⟩
  · exact ⟨_, fun _ => rfl, fun _ => always_insnLogicOrri (by simp)⟩
  · exact ⟨_, fun _ => rfl, fun _ => always_insnExtOrri (by simp)⟩
  · exact ⟨_, fun _ => rfl, fun _ => always_insnExtOrri (by simp)⟩
  · exact ⟨_, fun _ => rfl, fun _ => always_insnCmpOrrr⟩
  · exact ⟨_, fun _ => rfl, fun _ => always_insnCmpOrrr⟩
  · exact ⟨_, fun _ => rfl, fun _ => always_insnCmpOrrr⟩
  · exact ⟨_, fun _ => rfl, fun _ => always_insnAlg1Orrr (by simp)⟩
  · exact ⟨_, fun _ => rfl, fun _ => always_insnAlg1Orrr (by simp)⟩

/-- **The other instructions** have amounts of the word, if any, and no division. -/
lemma always_integerInsn (h : integerInsn w = some i) (hshift : registerShift w = none)
    (hdiv : (w >>> 24).toNat ≠ 0x1e ∧ (w >>> 24).toNat ≠ 0x1f) :
    ∃ e : BitVec 64 → Emitted, (∀ pc, disasDadao pc w = some (some (e pc))) ∧
      ∀ pc, (e pc).AlwaysSpecified := by
  unfold integerInsn at h
  split at h
  all_goals rename_i hop
  all_goals try simp only [reduceCtorEq] at h
  all_goals simp only [disasDadao, hop]
  · exact always_minor10 h hop hshift
  · exact ⟨_, fun _ => rfl, fun _ => always_insnCmpRrii⟩
  · exact ⟨_, fun _ => rfl, fun _ => always_insnCmpRrii⟩
  · exact ⟨_, fun _ => rfl, fun _ => always_insnOrwRwii⟩
  · exact ⟨_, fun _ => rfl, fun _ => always_insnAndnwRwii⟩
  · exact ⟨_, fun _ => rfl, fun _ => always_insnSetzwRwii⟩
  · exact ⟨_, fun _ => rfl, fun _ => always_transSETOW⟩
  · exact ⟨_, fun _ => rfl, fun _ => always_transANDI⟩
  · exact ⟨_, fun _ => rfl, fun _ => always_insnAlg1Rrii⟩
  · exact ⟨_, fun _ => rfl, fun _ => always_insnAlg1Rrrr (by simp)⟩
  · exact ⟨_, fun _ => rfl, fun _ => always_insnAlg1Rrrr (by simp)⟩
  · exact ⟨_, fun _ => rfl, fun _ => always_insnMulRrrr⟩
  · exact ⟨_, fun _ => rfl, fun _ => always_insnMulRrrr⟩
  · exact absurd hop hdiv.1
  · exact absurd hop hdiv.2
  · exact ⟨_, fun _ => rfl, fun _ => always_insnCset1Rrrr⟩
  · exact ⟨_, fun _ => rfl, fun _ => always_insnCset1Rrrr⟩
  · exact ⟨_, fun _ => rfl, fun _ => always_insnCset1Rrrr⟩
  · exact ⟨_, fun _ => rfl, fun _ => always_insnCset2Rrrr⟩
  · exact ⟨_, fun _ => rfl, fun _ => always_insnCset2Rrrr⟩
  · exact ⟨_, fun _ => rfl, fun pc => always_transADRP pc⟩
  · exact ⟨_, fun _ => rfl, fun _ => always_insnAlg1Rrii⟩
  · exact ⟨_, fun _ => rfl, fun _ => always_insnOrwRwii⟩
  · exact ⟨_, fun _ => rfl, fun _ => always_insnAndnwRwii⟩
  · exact ⟨_, fun _ => rfl, fun _ => always_insnSetzwRwii⟩

/-- The shifts by a register. -/
lemma registerShift_cases (h : registerShift w = some f) : (w >>> 24).toNat = 0x10 ∧
    ((fieldHa w = 0x11 ∧ f = shiftLeft) ∨ (fieldHa w = 0x12 ∧ f = shiftRightSigned) ∨
      (fieldHa w = 0x13 ∧ f = shiftRightUnsigned) ∨ (fieldHa w = 0x14 ∧ f = extendSign) ∨
      (fieldHa w = 0x15 ∧ f = extendZero)) := by
  unfold registerShift at h
  split_ifs at h with hop
  refine ⟨hop, ?_⟩
  split at h <;> simp_all

/-- **The operands of a shift by a register.** -/
lemma onlySpecified_registerShift (hw : Plain w) (h : registerShift w = some f) :
    OnlySpecified w m ↔ (fieldHb w ≠ 0 → (rdv w fieldHd (reads m)).toNat < 64) := by
  obtain ⟨hop, hcases⟩ := registerShift_cases h
  have hdisas (pc : BitVec 64) : disasDadao pc w = disasMinor10 pc w := by simp only [disasDadao, hop]
  rcases hcases with ⟨ha, -⟩ | ⟨ha, -⟩ | ⟨ha, -⟩ | ⟨ha, -⟩ | ⟨ha, -⟩
  · exact onlySpecified_insnLogicOrrr (.inl rfl) hw fun pc => by rw [hdisas, disasMinor10, ha]; rfl
  · exact onlySpecified_insnLogicOrrr (.inr (.inl rfl)) hw fun pc => by rw [hdisas, disasMinor10, ha]; rfl
  · exact onlySpecified_insnLogicOrrr (.inr (.inr rfl)) hw fun pc => by rw [hdisas, disasMinor10, ha]; rfl
  · exact onlySpecified_insnExtOrrr (.inl rfl) hw fun pc => by rw [hdisas, disasMinor10, ha]; rfl
  · exact onlySpecified_insnExtOrrr (.inr rfl) hw fun pc => by rw [hdisas, disasMinor10, ha]; rfl

/-- The amount of a shift modulo 64. -/
lemma toNat_amount (y : BitVec 64) : (BitVec.ofNat 64 (y.toNat % 64)).toNat = y.toNat % 64 := by
  rw [BitVec.toNat_ofNat]
  omega

/-- Where it is not specified, the model of a shift takes its amount modulo 64. -/
lemma eval_amount {f : BinOp} (hf : f = .shl ∨ f = .sar ∨ f = .shr) (x y : BitVec 64) :
    f.eval x y = f.eval x (BitVec.ofNat 64 (y.toNat % 64)) := by
  rcases hf with rfl | rfl | rfl <;> simp only [BinOp.eval, toNat_amount, Nat.mod_mod]

/-- **A shift by a register** is by the amount modulo 64, where the host takes it so. -/
lemma acts_shiftModulo (hw : Plain w) (h : registerShift w = some f) :
    Acts always w (shiftModulo w f).after := by
  obtain ⟨hop, hcases⟩ := registerShift_cases h
  have hdisas (pc : BitVec 64) : disasDadao pc w = disasMinor10 pc w := by simp only [disasDadao, hop]
  have hlt (y : BitVec 64) : (BitVec.ofNat 64 (y.toNat % 64)).toNat < 64 := by
    rw [toNat_amount]
    omega
  rcases hcases with ⟨ha, rfl⟩ | ⟨ha, rfl⟩ | ⟨ha, rfl⟩ | ⟨ha, rfl⟩ | ⟨ha, rfl⟩
  · exact (acts_insnLogicOrrr (f := .shl) hw fun pc => by
      rw [hdisas, disasMinor10, ha]
      rfl).single_congr
      fun s _ => by rw [eval_amount (by simp), shl_eq _ (hlt _), toNat_amount]
  · exact (acts_insnLogicOrrr (f := .sar) hw fun pc => by
      rw [hdisas, disasMinor10, ha]
      rfl).single_congr
      fun s _ => by rw [eval_amount (by simp), sar_eq _ (hlt _), toNat_amount]
  · exact (acts_insnLogicOrrr (f := .shr) hw fun pc => by
      rw [hdisas, disasMinor10, ha]
      rfl).single_congr
      fun s _ => by rw [eval_amount (by simp), shr_eq _ (hlt _), toNat_amount]
  · exact (acts_insnExtOrrr (f := .sar) hw fun pc => by
      rw [hdisas, disasMinor10, ha]
      rfl).single_congr
      fun s _ => by
        rw [eval_amount (by simp), eval_amount (f := .shl) (by simp), shl_sar_eq _ (hlt _), toNat_amount]
  · exact (acts_insnExtOrrr (f := .shr) hw fun pc => by
      rw [hdisas, disasMinor10, ha]
      rfl).single_congr
      fun s _ => by
        rw [eval_amount (by simp), eval_amount (f := .shl) (by simp), shl_shr_eq _ (hlt _), toNat_amount]

/-- **The operands of an integer instruction** are all specified but for those of two kinds. -/
lemma onlySpecified_integerInsn (h : integerInsn w = some i) :
    OnlySpecified w m ↔ ¬ Overshift w (reads m) ∧ ¬ MinDivision w (reads m) := by
  have hw := plain_of_integerInsn h
  cases hshift : registerShift w with
  | some f =>
    have hop := (registerShift_cases hshift).1
    rw [onlySpecified_registerShift hw hshift]
    simp only [Overshift, MinDivision, hshift, hop, ne_eq, reduceCtorEq, not_false_eq_true, true_and,
      not_and, Nat.reduceEqDiff, false_and, and_true, Nat.not_le]
  | none =>
    have hover : ¬ Overshift w (reads m) := fun h => h.1 hshift
    by_cases hdivs : (w >>> 24).toNat = 0x1e
    · rw [onlySpecified_insnDivRrrr (f := .div) (g := .rem) hw fun pc => by rw [disasDadao, hdivs]; rfl]
      have hone : (-1 : BitVec 64) ≠ 0 := by decide
      simp only [BinOp.Specified, MinDivision, hdivs, hover, not_false_eq_true, true_and, and_self]
      constructor
      · rintro h ⟨hc, hd⟩
        exact (h (hd ▸ hone)).2 ⟨hc, hd⟩
      · exact fun h hd => ⟨hd, h⟩
    · have hmin : ¬ MinDivision w (reads m) := fun h => hdivs h.1
      refine iff_of_true ?_ ⟨hover, hmin⟩
      by_cases hdivu : (w >>> 24).toNat = 0x1f
      · rw [onlySpecified_insnDivRrrr (f := .divu) (g := .remu) hw fun pc => by rw [disasDadao, hdivu]; rfl]
        exact fun hd => ⟨hd, hd⟩
      · obtain ⟨e, hdisas, hall⟩ := always_integerInsn h hshift ⟨hdivs, hdivu⟩
        exact onlySpecified_of_always hall hw hdisas

/-- **The semantics of an integer instruction** rest on the host exactly if it shifts by a register amount of
64 or more, or divides the least dividend by `-1`. -/
theorem independent_iff (h : integerInsn w = some i) (m : Machine Elem) :
    Independent w m ↔ ¬ Overshift w (reads m) ∧ ¬ MinDivision w (reads m) := by
  rw [← onlySpecified_integerInsn h]
  refine ⟨Independent.specified, fun hspecified => ⟨hspecified, fun f hshift host hhost => ?_⟩⟩
  obtain ⟨m', hexec, hreads⟩ := acts_shiftModulo (plain_of_integerInsn h) hshift m trivial
  exact ⟨m', hspecified.executesOn hhost hexec, hreads⟩

end Instructions

/-- A machine with `v` in every register. -/
def constantMachine (v : BitVec 64) : Machine Elem := ⟨⟨fun _ => v, fun _ => 0⟩, fun _ => 0⟩

/-- `shlu rd1, rd2, rd3`. -/
theorem independent_iff_shlu : Independent 0x10441083#32 (constantMachine 1) ↔
    ¬ Overshift 0x10441083#32 (reads (constantMachine 1)) ∧
      ¬ MinDivision 0x10441083#32 (reads (constantMachine 1)) :=
  independent_iff (i := shiftRegister 0x10441083#32 shiftLeft) rfl (constantMachine 1)

/-- **`shlu rd1, rd2, rd3` by 64** rests on the host. -/
theorem shlu_not_independent : ¬ Independent 0x10441083#32 (constantMachine 64) := by
  intro h
  have hinsn : integerInsn 0x10441083#32 = some (shiftRegister 0x10441083#32 shiftLeft) := rfl
  exact ((onlySpecified_integerInsn hinsn).mp h.specified).1 ⟨by decide, by decide, by decide⟩

end Dadao.Qemu
