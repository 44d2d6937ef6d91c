import Dadao.Qemu.Translate
import Mathlib.Tactic.SplitIfs
import Mathlib.Order.Defs.LinearOrder
import Mathlib.Algebra.Order.Ring.Int

set_option relaxedAutoImplicit false
set_option autoImplicit false

/-!
# The lowering of integer comparisons

A model of the comparisons in the LLVM back end: `IntCondCCodeToICC` with its three callers in
`DadaoISelLowering.cpp`, and the selectors of their nodes in `DadaoISelDAGToDAG.cpp`. A selected node
is kept as a term over the operands of the comparison; `none` is `llvm_unreachable`. What the machine
instructions of a term compute is read off the simulator.

## Main definitions

* `Dadao.Llvm.intCondCCodeToICC` — the condition code of the target, with the right operand it leaves.
* `Dadao.Llvm.selectSETCC`, `Dadao.Llvm.selectBR_CC`, `Dadao.Llvm.selectSELECT_CC` — the selectors.
* `Dadao.Llvm.MachineNode.eval`, `Dadao.Llvm.BranchNode.taken` — the meaning of selected nodes.

## Main results

* `Dadao.Llvm.rd_transCMPSr`, … — the meaning of the nodes is that of the simulator.
* `Dadao.Llvm.lowering_iff` — when the three nodes are lowered to what the comparison says.
* `Dadao.Llvm.lowering_not_correct` — a comparison with zero has no selection, and one with
  `0xFFFFFFFF` branches on the sign.
-/

namespace Dadao.Llvm

open Tcg Qemu

/-! ## Condition codes -/

/-- The condition codes of the selection graph, `ISD::CondCode`. -/
inductive CondCode where
  | setfalse | setoeq | setogt | setoge | setolt | setole | setone | seto | setuo | setueq
  | setugt | setuge | setult | setule | setune | settrue
  | setfalse2 | seteq | setgt | setge | setlt | setle | setne | settrue2
  deriving DecidableEq, Repr

/-- The codes of integer comparisons. -/
def CondCode.isInteger : CondCode → Bool
  | .seteq | .setne | .setgt | .setge | .setlt | .setle | .setugt | .setuge | .setult | .setule => true
  | _ => false

/-- What an integer comparison says of two operands of 64 bits. -/
def CondCode.Holds (cc : CondCode) (a b : BitVec 64) : Prop :=
  match cc with
  | .seteq => a = b
  | .setne => a ≠ b
  | .setgt => b.toInt < a.toInt
  | .setge => b.toInt ≤ a.toInt
  | .setlt => a.toInt < b.toInt
  | .setle => a.toInt ≤ b.toInt
  | .setugt => b.toNat < a.toNat
  | .setuge => b.toNat ≤ a.toNat
  | .setult => a.toNat < b.toNat
  | .setule => a.toNat ≤ b.toNat
  | _ => False

instance (cc : CondCode) (a b : BitVec 64) : Decidable (cc.Holds a b) := by
  unfold CondCode.Holds
  split <;> infer_instance

/-- The condition codes of the target, `LPCC::CondCode`. -/
inductive Lpcc where
  | t | f | ugt | ule | ult | uge | ne | eq | vc | vs | pl | mi | ge | lt | gt | le
  deriving DecidableEq, Repr

/-! ## Operands and machine nodes -/

/-- An operand of a node: a register or a constant. -/
inductive SDValue where
  | reg (n : ℕ)
  | const (c : BitVec 64)
  deriving DecidableEq, Repr

/-- The value of an operand. -/
def SDValue.eval (env : ℕ → BitVec 64) : SDValue → BitVec 64
  | .reg n => env n
  | .const c => c

/-- The machine nodes the selectors build for a value. -/
inductive MachineNode where
  | value (v : SDValue)
  | cmpsOrrr (a b : MachineNode)
  | cmpuOrrr (a b : MachineNode)
  | shruOrri (a : MachineNode) (imm : BitVec 64)
  | andiRrii (a : MachineNode) (imm : BitVec 64)
  | csn (a x y : MachineNode)
  | csz (a x y : MachineNode)
  | csp (a x y : MachineNode)
  deriving DecidableEq, Repr

/-- The machine nodes that branch. -/
inductive BranchNode where
  | brn (a : MachineNode)
  | brnn (a : MachineNode)
  | brp (a : MachineNode)
  | brnp (a : MachineNode)
  | breq (a b : MachineNode)
  | brne (a b : MachineNode)
  deriving DecidableEq, Repr

/-- The result of `cmps` and `cmpu`. -/
def compareValue (c : Cond) (a b : BitVec 64) : BitVec 64 :=
  if c.holds b a then -1 else if c.holds a b then 1 else 0

/-- The result of `csn`, `csz` and `csp`. -/
def conditionalSet (c : Cond) (a x y : BitVec 64) : BitVec 64 := if c.holds a 0 then x else y

/-- The value of a node. -/
def MachineNode.eval (env : ℕ → BitVec 64) : MachineNode → BitVec 64
  | .value v => v.eval env
  | .cmpsOrrr a b => compareValue .gt (a.eval env) (b.eval env)
  | .cmpuOrrr a b => compareValue .gtu (a.eval env) (b.eval env)
  | .shruOrri a imm => BinOp.shr.eval (a.eval env) imm
  | .andiRrii a imm => BinOp.and.eval (a.eval env) imm
  | .csn a x y => conditionalSet .lt (a.eval env) (x.eval env) (y.eval env)
  | .csz a x y => conditionalSet .eq (a.eval env) (x.eval env) (y.eval env)
  | .csp a x y => conditionalSet .gt (a.eval env) (x.eval env) (y.eval env)

/-- Whether a branch is taken. -/
def BranchNode.taken (env : ℕ → BitVec 64) : BranchNode → Bool
  | .brn a => Cond.lt.holds (a.eval env) 0
  | .brnn a => Cond.ge.holds (a.eval env) 0
  | .brp a => Cond.gt.holds (a.eval env) 0
  | .brnp a => Cond.le.holds (a.eval env) 0
  | .breq a b => Cond.eq.holds (a.eval env) (b.eval env)
  | .brne a b => Cond.ne.holds (a.eval env) (b.eval env)

/-! ## The lowering -/

/-- The constant `-1` of a 32-bit comparison, as `IntCondCCodeToICC` tests for it. -/
def allOnes32 : BitVec 64 := 0xFFFFFFFF

/-- `IntCondCCodeToICC`: the code of the target and the right operand, which some cases replace. -/
def intCondCCodeToICC (cc : CondCode) (rhs : SDValue) : Option (Lpcc × SDValue) :=
  match cc with
  | .seteq => some (.eq, rhs)
  | .setgt => if rhs = .const allOnes32 then some (.pl, .const 0) else some (.gt, rhs)
  | .setugt => some (.ugt, rhs)
  | .setlt => if rhs = .const 0 then some (.mi, rhs) else some (.lt, rhs)
  | .setult => some (.ult, rhs)
  | .setle => if rhs = .const allOnes32 then some (.mi, .const 0) else some (.le, rhs)
  | .setule => some (.ule, rhs)
  | .setge => if rhs = .const 0 then some (.pl, rhs) else some (.ge, rhs)
  | .setuge => some (.uge, rhs)
  | .setne => some (.ne, rhs)
  | _ => none

/-- `selectSETCC` on the operands of a `DadaoISD::SETCC` node. -/
def selectSETCC (cc : Lpcc) (lhs rhs : MachineNode) : Option MachineNode :=
  let const1 := MachineNode.value (.const 1)
  let const0 := MachineNode.value (.const 0)
  match cc with
  | .gt => some (.shruOrri (.cmpsOrrr rhs lhs) 63)
  | .lt => some (.shruOrri (.cmpsOrrr lhs rhs) 63)
  | .ge => some (.csn (.cmpsOrrr lhs rhs) const0 const1)
  | .le => some (.csn (.cmpsOrrr rhs lhs) const0 const1)
  | .ugt => some (.shruOrri (.cmpuOrrr rhs lhs) 63)
  | .ult => some (.shruOrri (.cmpuOrrr lhs rhs) 63)
  | .uge => some (.csn (.cmpuOrrr lhs rhs) const0 const1)
  | .ule => some (.csn (.cmpuOrrr rhs lhs) const0 const1)
  | .eq => some (.csz (.cmpuOrrr lhs rhs) const1 const0)
  | .ne => some (.andiRrii (.cmpuOrrr lhs rhs) 1)
  | _ => none

/-- `selectBR_CC` on the operands of a `DadaoISD::BR_CC` node. -/
def selectBR_CC (cc : Lpcc) (lhs rhs : MachineNode) : Option BranchNode :=
  match cc with
  | .pl => some (.brnn lhs)
  | .mi => some (.brn lhs)
  | .gt => some (.brp (.cmpsOrrr lhs rhs))
  | .lt => some (.brn (.cmpsOrrr lhs rhs))
  | .ge => some (.brnn (.cmpsOrrr lhs rhs))
  | .le => some (.brnp (.cmpsOrrr lhs rhs))
  | .ugt => some (.brp (.cmpuOrrr lhs rhs))
  | .ult => some (.brn (.cmpuOrrr lhs rhs))
  | .uge => some (.brnn (.cmpuOrrr lhs rhs))
  | .ule => some (.brnp (.cmpuOrrr lhs rhs))
  | .eq => some (.breq lhs rhs)
  | .ne => some (.brne lhs rhs)
  | _ => none

/-- `selectSELECT_CC` on the operands of a `DadaoISD::SELECT_CC` node; the comparison becomes a
`DadaoISD::SETCC` node, which is selected in its turn. -/
def selectSELECT_CC (cc : Lpcc) (lhs rhs trueV falseV : MachineNode) : Option MachineNode :=
  (selectSETCC cc lhs rhs).map fun cmp => .csp cmp trueV falseV

/-- `LowerSETCC`, then `selectSETCC`. -/
def lowerSETCC (cc : CondCode) (lhs rhs : SDValue) : Option MachineNode := do
  let (icc, rhs') ← intCondCCodeToICC cc rhs
  selectSETCC icc (.value lhs) (.value rhs')

/-- `LowerBR_CC`, then `selectBR_CC`. -/
def lowerBR_CC (cc : CondCode) (lhs rhs : SDValue) : Option BranchNode := do
  let (icc, rhs') ← intCondCCodeToICC cc rhs
  selectBR_CC icc (.value lhs) (.value rhs')

/-- `LowerSELECT_CC`, then `selectSELECT_CC`. -/
def lowerSELECT_CC (cc : CondCode) (lhs rhs trueV falseV : SDValue) : Option MachineNode := do
  let (icc, rhs') ← intCondCCodeToICC cc rhs
  selectSELECT_CC icc (.value lhs) (.value rhs') (.value trueV) (.value falseV)

/-! ## The meaning of the machine nodes -/

section Simulator

variable {s : Machine Global} {w : BitVec 32}

/-- `cmps` and `cmpu` on registers leave the comparison in their destination. -/
lemma rd_insnCmpOrrr (cond : Cond) (hb : fieldHb w ≠ 0) :
    (runStraight (insnCmpOrrr .rd cond w).ops s).env.globals (.rd (fieldHb w)) =
      compareValue cond (s.env.globals (.rd (fieldHc w))) (s.env.globals (.rd (fieldHd w))) := by
  simp only [insnCmpOrrr, Emitted.next, if_neg hb, runStraight_cons, runStraight_nil, stepOp, Machine.write_env,
    Env.write_global_globals, if_true, Env.write_temp_globals, Env.read_global]
  rfl

/-- `csn`, `csz` and `csp` test their first operand against the zero register. -/
lemma rd_insnCset1Rrrr (cond : Cond) (hb : fieldHb w ≠ 0) (hzero : s.env.globals (.rd 0) = 0) :
    (runStraight (insnCset1Rrrr cond w).ops s).env.globals (.rd (fieldHb w)) =
      conditionalSet cond (s.env.globals (.rd (fieldHa w))) (s.env.globals (.rd (fieldHc w)))
        (s.env.globals (.rd (fieldHd w))) := by
  simp [insnCset1Rrrr, Emitted.next, hb, stepOp, conditionalSet, hzero]

/-- `shru` with an immediate. -/
lemma rd_transSHRUi (hb : fieldHb w ≠ 0) :
    (runStraight (transSHRUi w).ops s).env.globals (.rd (fieldHb w)) =
      BinOp.shr.eval (s.env.globals (.rd (fieldHc w))) (fieldImmu 6 w) := by
  simp [transSHRUi, insnLogicOrri, Emitted.next, hb, stepOp]

/-- `andi`. -/
lemma rd_transANDI (ha : fieldHa w ≠ 0) :
    (runStraight (transANDI w).ops s).env.globals (.rd (fieldHa w)) =
      BinOp.and.eval (s.env.globals (.rd (fieldHb w))) (fieldImmu 12 w) := by
  simp [transANDI, Emitted.next, ha, stepOp]

/-- The branches on one register are taken when the condition holds against zero. -/
lemma jmpPc_insnBrRiii (cond : Cond) (pc : BitVec 64) (hzero : s.env.globals (.rd 0) = 0) :
    (runStraight (insnBrRiii cond pc w).ops s).env.globals .jmpPc =
      if cond.holds (s.env.globals (.rd (fieldHa w))) 0 then pc + fieldImms 18 w * 4 else pc + 4 := by
  simp [insnBrRiii, Emitted.jump, stepOp, hzero]

/-- The branches on two registers are taken when the condition holds of them. -/
lemma jmpPc_insnBrRrii (cond : Cond) (pc : BitVec 64) :
    (runStraight (insnBrRrii cond pc w).ops s).env.globals .jmpPc =
      if cond.holds (s.env.globals (.rd (fieldHa w))) (s.env.globals (.rd (fieldHb w)))
      then pc + fieldImms 12 w * 4 else pc + 4 := by
  simp only [insnBrRrii, Emitted.jump, runStraight_cons, runStraight_nil, stepOp, Machine.write_env,
    Env.write_global_globals, if_true, Env.read_global]
  rfl

end Simulator

/-! ## Comparisons of two values -/

/-- The orders of a comparison. -/
inductive Order where
  | signed | unsigned
  deriving DecidableEq, Repr

/-- The value an order compares. -/
def Order.value : Order → BitVec 64 → ℤ
  | .signed, a => a.toInt
  | .unsigned, a => a.toNat

/-- The condition that an order is greater. -/
def Order.greater : Order → Cond
  | .signed => .gt
  | .unsigned => .gtu

lemma Order.greater_holds (o : Order) (a b : BitVec 64) :
    o.greater.holds a b = true ↔ o.value b < o.value a := by
  cases o
  · exact BitVec.slt_iff_toInt_lt
  · simp [Order.greater, Cond.holds, Order.value, BitVec.ult]

lemma Order.value_inj (o : Order) {a b : BitVec 64} (h : o.value a = o.value b) : a = b := by
  cases o
  · exact BitVec.toInt_inj.mp h
  · exact BitVec.eq_of_toNat_eq (Int.ofNat_inj.mp h)

section Compare

variable (o : Order) (a b : BitVec 64)

/-- **A comparison has one of three results.** -/
lemma compareValue_cases :
    (o.value a < o.value b ∧ compareValue o.greater a b = -1) ∨
    (a = b ∧ compareValue o.greater a b = 0) ∨
    (o.value b < o.value a ∧ compareValue o.greater a b = 1) := by
  have hba := o.greater_holds b a
  have hab := o.greater_holds a b
  rcases lt_trichotomy (o.value a) (o.value b) with hlt | heq | hgt
  · exact Or.inl ⟨hlt, by rw [compareValue, if_pos (hba.mpr hlt)]⟩
  · have hne : ∀ {x y}, o.value x = o.value y → ¬ o.greater.holds x y = true := by
      intro x y hxy hholds
      have := (o.greater_holds x y).mp hholds
      omega
    refine Or.inr (Or.inl ⟨o.value_inj heq, ?_⟩)
    rw [compareValue, if_neg (hne heq.symm), if_neg (hne heq)]
  · have hnot : ¬ o.greater.holds b a = true := by
      rw [hba]
      omega
    exact Or.inr (Or.inr ⟨hgt, by rw [compareValue, if_neg hnot, if_pos (hab.mpr hgt)]⟩)

/-- The sign bit of a comparison. -/
lemma shr_compareValue :
    BinOp.shr.eval (compareValue o.greater a b) 63 = if o.value a < o.value b then 1 else 0 := by
  rcases compareValue_cases o a b with ⟨h, hv⟩ | ⟨rfl, hv⟩ | ⟨h, hv⟩
  · rw [hv, if_pos h]
    rfl
  · rw [hv, if_neg (by omega)]
    rfl
  · rw [hv, if_neg (by omega)]
    rfl

/-- The lowest bit of a comparison. -/
lemma and_compareValue :
    BinOp.and.eval (compareValue o.greater a b) 1 = if a = b then 0 else 1 := by
  rcases compareValue_cases o a b with ⟨h, hv⟩ | ⟨rfl, hv⟩ | ⟨h, hv⟩
  · have hne : a ≠ b := by
      rintro rfl
      omega
    rw [hv, if_neg hne]
    rfl
  · rw [hv, if_pos rfl]
    rfl
  · have hne : a ≠ b := by
      rintro rfl
      omega
    rw [hv, if_neg hne]
    rfl

/-- What the conditions say of a comparison against zero. -/
lemma holds_compareValue :
    (Cond.lt.holds (compareValue o.greater a b) 0 = true ↔ o.value a < o.value b) ∧
    (Cond.ge.holds (compareValue o.greater a b) 0 = true ↔ o.value b ≤ o.value a) ∧
    (Cond.gt.holds (compareValue o.greater a b) 0 = true ↔ o.value b < o.value a) ∧
    (Cond.le.holds (compareValue o.greater a b) 0 = true ↔ o.value a ≤ o.value b) ∧
    (Cond.eq.holds (compareValue o.greater a b) 0 = true ↔ a = b) := by
  rcases compareValue_cases o a b with ⟨h, hv⟩ | ⟨rfl, hv⟩ | ⟨h, hv⟩
  · have hne : a ≠ b := by
      rintro rfl
      omega
    rw [hv]
    refine ⟨iff_of_true rfl h, iff_of_false (by decide) (by omega), iff_of_false (by decide) (by omega),
      iff_of_true rfl (by omega), iff_of_false (by decide) hne⟩
  · rw [hv]
    refine ⟨iff_of_false (by decide) (by omega), iff_of_true rfl (by omega), iff_of_false (by decide) (by omega),
      iff_of_true rfl (by omega), iff_of_true rfl rfl⟩
  · have hne : a ≠ b := by
      rintro rfl
      omega
    rw [hv]
    refine ⟨iff_of_false (by decide) (by omega), iff_of_true rfl (by omega), iff_of_true rfl h,
      iff_of_false (by decide) (by omega), iff_of_false (by decide) hne⟩

end Compare

/-! ## The rewritten comparisons -/

/-- A comparison with the 32-bit constant `-1`, which is taken for one with zero. -/
def WideTest (cc : CondCode) (rhs : SDValue) : Prop :=
  (cc = .setgt ∨ cc = .setle) ∧ rhs = .const allOnes32

/-- A comparison that becomes a test of the sign. -/
def SignTest (cc : CondCode) (rhs : SDValue) : Prop :=
  (cc = .setlt ∨ cc = .setge) ∧ rhs = .const 0 ∨ WideTest cc rhs

/-- The code of a comparison that is not rewritten. -/
def plainIcc : CondCode → Lpcc
  | .seteq => .eq
  | .setne => .ne
  | .setgt => .gt
  | .setge => .ge
  | .setlt => .lt
  | .setle => .le
  | .setugt => .ugt
  | .setuge => .uge
  | .setult => .ult
  | _ => .ule

lemma intCondCCodeToICC_plain {cc : CondCode} (hcc : cc.isInteger = true) {rhs : SDValue}
    (h : ¬ SignTest cc rhs) : intCondCCodeToICC cc rhs = some (plainIcc cc, rhs) := by
  cases cc <;> first
    | exact Bool.noConfusion hcc
    | rfl
    | exact if_neg fun hrhs => h (Or.inr ⟨Or.inl rfl, hrhs⟩)
    | exact if_neg fun hrhs => h (Or.inr ⟨Or.inr rfl, hrhs⟩)
    | exact if_neg fun hrhs => h (Or.inl ⟨Or.inl rfl, hrhs⟩)
    | exact if_neg fun hrhs => h (Or.inl ⟨Or.inr rfl, hrhs⟩)

/-- A rewritten comparison asks whether the left operand is negative. -/
lemma intCondCCodeToICC_signTest {cc : CondCode} {rhs : SDValue} (h : SignTest cc rhs) :
    intCondCCodeToICC cc rhs =
      some (if cc = .setlt ∨ cc = .setle then .mi else .pl, .const 0) := by
  rcases h with ⟨rfl | rfl, rfl⟩ | ⟨rfl | rfl, rfl⟩ <;> rfl

/-! ## The selected nodes -/

section Select

variable (env : ℕ → BitVec 64) {cc : CondCode} (hcc : cc.isInteger = true) (lhs rhs : MachineNode)

/-- The test for the opposite condition takes the other value. -/
lemma ite_opposite {α : Type} {p q : Prop} [Decidable p] [Decidable q] (h : p ↔ ¬ q) (x y : α) :
    (if p then x else y) = if q then y else x := by
  by_cases hq : q
  · rw [if_pos hq, if_neg fun hp => h.mp hp hq]
  · rw [if_neg hq, if_pos (h.mpr hq)]

/-- A comparison in the other sense takes the other value. -/
lemma csn_compareValue (o : Order) (a b : BitVec 64) :
    conditionalSet .lt (compareValue o.greater a b) 0 1 = if o.value b ≤ o.value a then 1 else 0 := by
  refine ite_opposite ?_ 0 1
  rw [(holds_compareValue o a b).1]
  exact lt_iff_not_ge

include hcc in
/-- **What `selectSETCC` makes of a comparison that is not rewritten.** -/
lemma selectSETCC_plain : ∃ node, selectSETCC (plainIcc cc) lhs rhs = some node ∧
    node.eval env = if cc.Holds (lhs.eval env) (rhs.eval env) then 1 else 0 := by
  cases cc <;> first
    | exact Bool.noConfusion hcc
    | refine ⟨_, rfl, ?_⟩
  case setgt => exact (shr_compareValue .signed _ _).trans (if_congr Iff.rfl rfl rfl)
  case setlt => exact (shr_compareValue .signed _ _).trans (if_congr Iff.rfl rfl rfl)
  case setugt => exact (shr_compareValue .unsigned _ _).trans (if_congr Int.ofNat_lt rfl rfl)
  case setult => exact (shr_compareValue .unsigned _ _).trans (if_congr Int.ofNat_lt rfl rfl)
  case setge => exact (csn_compareValue .signed _ _).trans (if_congr Iff.rfl rfl rfl)
  case setle => exact (csn_compareValue .signed _ _).trans (if_congr Iff.rfl rfl rfl)
  case setuge => exact (csn_compareValue .unsigned _ _).trans (if_congr Int.ofNat_le rfl rfl)
  case setule => exact (csn_compareValue .unsigned _ _).trans (if_congr Int.ofNat_le rfl rfl)
  case seteq => exact if_congr (holds_compareValue .unsigned _ _).2.2.2.2 rfl rfl
  case setne =>
    refine (and_compareValue .unsigned _ _).trans (ite_opposite ?_ 0 1)
    exact not_not.symm

include hcc in
/-- **What `selectBR_CC` makes of a comparison that is not rewritten.** -/
lemma selectBR_CC_plain : ∃ node, selectBR_CC (plainIcc cc) lhs rhs = some node ∧
    (node.taken env = true ↔ cc.Holds (lhs.eval env) (rhs.eval env)) := by
  have hsigned := holds_compareValue .signed (lhs.eval env) (rhs.eval env)
  have hunsigned := holds_compareValue .unsigned (lhs.eval env) (rhs.eval env)
  cases cc <;> first
    | exact Bool.noConfusion hcc
    | refine ⟨_, rfl, ?_⟩
  case setlt => exact hsigned.1
  case setge => exact hsigned.2.1
  case setgt => exact hsigned.2.2.1
  case setle => exact hsigned.2.2.2.1
  case setult => exact hunsigned.1.trans Int.ofNat_lt
  case setuge => exact hunsigned.2.1.trans Int.ofNat_le
  case setugt => exact hunsigned.2.2.1.trans Int.ofNat_lt
  case setule => exact hunsigned.2.2.2.1.trans Int.ofNat_le
  case seteq => exact beq_iff_eq
  case setne => exact bne_iff_ne

end Select

/-! ## Correctness -/

section Correct

variable (env : ℕ → BitVec 64) (cc : CondCode) (lhs rhs trueV falseV : SDValue)

/-- A `SETCC` is selected, and yields 1 or 0 as the comparison holds or not. -/
def SetccCorrect : Prop :=
  ∃ node, lowerSETCC cc lhs rhs = some node ∧
    node.eval env = if cc.Holds (lhs.eval env) (rhs.eval env) then 1 else 0

/-- A `SELECT_CC` is selected, and picks the true value exactly when the comparison holds. -/
def SelectCorrect : Prop :=
  ∃ node, lowerSELECT_CC cc lhs rhs trueV falseV = some node ∧
    node.eval env = if cc.Holds (lhs.eval env) (rhs.eval env) then trueV.eval env else falseV.eval env

/-- A `BR_CC` is selected, and branches exactly when the comparison holds. -/
def BrCorrect : Prop :=
  ∃ node, lowerBR_CC cc lhs rhs = some node ∧
    (node.taken env = true ↔ cc.Holds (lhs.eval env) (rhs.eval env))

variable {cc} {rhs}

/-- There is no selection for the codes of a sign test. -/
lemma selectSETCC_signTest (h : SignTest cc rhs) : lowerSETCC cc lhs rhs = none := by
  simp only [lowerSETCC, intCondCCodeToICC_signTest h, Option.bind_eq_bind, Option.bind_some]
  split_ifs <;> rfl

lemma selectSELECT_CC_signTest (h : SignTest cc rhs) : lowerSELECT_CC cc lhs rhs trueV falseV = none := by
  simp only [lowerSELECT_CC, intCondCCodeToICC_signTest h, Option.bind_eq_bind, Option.bind_some]
  split_ifs <;> rfl

/-- A branch on a sign test is taken as the left operand is negative or not. -/
lemma taken_signTest (h : SignTest cc rhs) : ∃ node, lowerBR_CC cc lhs rhs = some node ∧
    (node.taken env = true ↔
      if cc = .setlt ∨ cc = .setle then (lhs.eval env).toInt < 0 else 0 ≤ (lhs.eval env).toInt) := by
  simp only [lowerBR_CC, intCondCCodeToICC_signTest h, Option.bind_eq_bind, Option.bind_some]
  split_ifs
  · exact ⟨_, rfl, BitVec.slt_iff_toInt_lt⟩
  · refine ⟨_, rfl, ?_⟩
    have hslt := BitVec.slt_iff_toInt_lt (x := lhs.eval env) (y := 0)
    have htaken : (BranchNode.brnn (.value lhs)).taken env = !(lhs.eval env).slt 0 := rfl
    have hzero : (0 : BitVec 64).toInt = 0 := rfl
    rw [htaken, Bool.not_eq_true', ← Bool.not_eq_true, hslt, hzero]
    omega

end Correct

/-- **When integer comparisons are lowered to what they say.** A value has no selection exactly if the
comparison becomes a sign test; a branch is wrong exactly if the comparison is with `0xFFFFFFFF` and the
left operand lies between zero and that.

**Proof sketch.** A comparison that is not rewritten is selected to a comparison instruction, which has
one of three results, and a test of that result. A rewritten one branches on the sign, which says the
same as a comparison with zero. -/
theorem lowering_iff (env : ℕ → BitVec 64) {cc : CondCode} (hcc : cc.isInteger = true)
    (lhs rhs trueV falseV : SDValue) :
    (SetccCorrect env cc lhs rhs ↔ ¬ SignTest cc rhs) ∧
    (SelectCorrect env cc lhs rhs trueV falseV ↔ ¬ SignTest cc rhs) ∧
    (BrCorrect env cc lhs rhs ↔
      ¬ (WideTest cc rhs ∧ 0 ≤ (lhs.eval env).toInt ∧ (lhs.eval env).toInt ≤ 0xFFFFFFFF)) := by
  by_cases h : SignTest cc rhs
  · refine ⟨iff_of_false ?_ (not_not.mpr h), iff_of_false ?_ (not_not.mpr h), ?_⟩
    · rintro ⟨node, hnode, -⟩
      rw [selectSETCC_signTest lhs h] at hnode
      cases hnode
    · rintro ⟨node, hnode, -⟩
      rw [selectSELECT_CC_signTest lhs trueV falseV h] at hnode
      cases hnode
    · obtain ⟨node, hnode, htaken⟩ := taken_signTest env lhs h
      have hbr : BrCorrect env cc lhs rhs ↔
          (node.taken env = true ↔ cc.Holds (lhs.eval env) (rhs.eval env)) := by
        constructor
        · rintro ⟨node', hnode', hiff⟩
          rw [hnode] at hnode'
          obtain rfl := Option.some.inj hnode'
          exact hiff
        · exact fun hiff => ⟨node, hnode, hiff⟩
      have hzero : (0 : BitVec 64).toInt = 0 := rfl
      have hwide : allOnes32.toInt = 0xFFFFFFFF := rfl
      rw [hbr, htaken]
      rcases h with ⟨rfl | rfl, rfl⟩ | ⟨rfl | rfl, rfl⟩ <;>
        simp only [WideTest, CondCode.Holds, SDValue.eval, hzero, hwide, reduceCtorEq, or_self, or_true,
          true_or, if_true, if_false, false_and, true_and, not_false_eq_true] <;>
        omega
  · have hplain := intCondCCodeToICC_plain hcc h
    have hnotwide : ¬ WideTest cc rhs := fun hwide => h (Or.inr hwide)
    refine ⟨iff_of_true ?_ h, iff_of_true ?_ h, iff_of_true ?_ fun hwide => hnotwide hwide.1⟩
    · obtain ⟨node, hnode, heval⟩ := selectSETCC_plain env hcc (.value lhs) (.value rhs)
      exact ⟨node, by rw [lowerSETCC, hplain]; exact hnode, heval⟩
    · obtain ⟨node, hnode, heval⟩ := selectSETCC_plain env hcc (.value lhs) (.value rhs)
      refine ⟨.csp node (.value trueV) (.value falseV), ?_, ?_⟩
      · have hselect : selectSELECT_CC (plainIcc cc) (.value lhs) (.value rhs) (.value trueV) (.value falseV) =
            some (.csp node (.value trueV) (.value falseV)) := by rw [selectSELECT_CC, hnode, Option.map_some]
        rw [lowerSELECT_CC, hplain]
        exact hselect
      · have hcsp : (MachineNode.csp node (.value trueV) (.value falseV)).eval env =
            conditionalSet .gt (node.eval env) (trueV.eval env) (falseV.eval env) := rfl
        rw [hcsp, heval]
        by_cases hholds : cc.Holds (lhs.eval env) (rhs.eval env)
        · have hholds' : cc.Holds ((MachineNode.value lhs).eval env) ((MachineNode.value rhs).eval env) := hholds
          rw [if_pos hholds, if_pos hholds']
          rfl
        · have hholds' : ¬ cc.Holds ((MachineNode.value lhs).eval env) ((MachineNode.value rhs).eval env) := hholds
          rw [if_neg hholds, if_neg hholds']
          rfl
    · obtain ⟨node, hnode, htaken⟩ := selectBR_CC_plain env hcc (.value lhs) (.value rhs)
      exact ⟨node, by rw [lowerBR_CC, hplain]; exact hnode, htaken⟩

/-- A comparison of registers is lowered right. -/
theorem lowering_setlt : SetccCorrect (fun _ => 0) .setlt (.reg 1) (.reg 2) :=
  (lowering_iff (fun _ => 0) (by decide : CondCode.setlt.isInteger = true) (.reg 1) (.reg 2) (.reg 3) (.reg 4)).1.mpr
    (by rintro (⟨-, h⟩ | ⟨-, h⟩) <;> cases h)

/-- **Two failures**: `x < 0` has no selection as a value, and `0 > 0xFFFFFFFF` branches. -/
theorem lowering_not_correct :
    lowerSETCC .setlt (.reg 1) (.const 0) = none ∧ lowerSELECT_CC .setlt (.reg 1) (.const 0) (.reg 2) (.reg 3) = none ∧
    ¬ BrCorrect (fun _ => 0) .setgt (.reg 1) (.const 0xFFFFFFFF) := by
  refine ⟨rfl, rfl, ?_⟩
  rintro ⟨node, hnode, htaken⟩
  obtain rfl : BranchNode.brnn (.value (.reg 1)) = node := Option.some.inj hnode
  revert htaken
  decide

end Dadao.Llvm
