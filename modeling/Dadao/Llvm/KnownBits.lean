import Dadao.Lib.KnownBits
import Dadao.Llvm.Lowering

set_option relaxedAutoImplicit false
set_option autoImplicit false

/-!
# Known bits of the nodes of the target

A model of `computeKnownBitsForTargetNode` on the nodes that `LowerSETCC` and `LowerSELECT_CC` build. The analysis
asks for the operands by position; a `SELECT_CC` node has the compared values first and the selected ones behind
them.

## Main definitions

* `Dadao.Llvm.TargetNode` — the nodes, with their operands in order.
* `Dadao.Llvm.TargetNode.result` — what a node computes.
* `Dadao.Llvm.computeKnownBitsForTargetNode` — the analysis.

## Main results

* `Dadao.Llvm.eval_lowerSETCC`, `Dadao.Llvm.eval_lowerSELECT_CC` — a selected node computes its result.
* `Dadao.Llvm.knownBits_sound_iff` — when the reported bits are those of the result.
-/

namespace Dadao.Llvm

open KnownBits

/-! ## Nodes -/

/-- The nodes of the target, as they are built. -/
inductive TargetNode where
  | setcc (lhs rhs : SDValue) (icc : Lpcc)
  | selectCC (lhs rhs trueV falseV : SDValue) (icc : Lpcc)
  deriving DecidableEq, Repr

/-- The code of the target as an operand. -/
def Lpcc.encoding : Lpcc → BitVec 64
  | .t => 0 | .f => 1 | .ugt => 2 | .ule => 3 | .ult => 4 | .uge => 5 | .ne => 6 | .eq => 7
  | .vc => 8 | .vs => 9 | .pl => 10 | .mi => 11 | .ge => 12 | .lt => 13 | .gt => 14 | .le => 15

/-- The operands of a node in their order. -/
def TargetNode.operands : TargetNode → List SDValue
  | .setcc lhs rhs icc => [lhs, rhs, .const icc.encoding]
  | .selectCC lhs rhs trueV falseV icc => [lhs, rhs, trueV, falseV, .const icc.encoding]

/-- The comparisons of the generic nodes. -/
inductive Comparison where
  | setcc (lhs rhs : SDValue) (cond : CondCode)
  | selectCC (lhs rhs trueV falseV : SDValue) (cond : CondCode)
  deriving DecidableEq, Repr

/-- `LowerSETCC` and `LowerSELECT_CC`: the node that is built. -/
def Comparison.lower : Comparison → Option TargetNode
  | .setcc lhs rhs cond => (intCondCCodeToICC cond rhs).map fun p => .setcc lhs p.2 p.1
  | .selectCC lhs rhs trueV falseV cond =>
    (intCondCCodeToICC cond rhs).map fun p => .selectCC lhs p.2 trueV falseV p.1

/-- What a code of the target says of two values; `pl` and `mi` look at the left one only. -/
def Lpcc.Holds (icc : Lpcc) (a b : BitVec 64) : Prop :=
  match icc with
  | .t => True
  | .f => False
  | .ugt => b.toNat < a.toNat
  | .ule => a.toNat ≤ b.toNat
  | .ult => a.toNat < b.toNat
  | .uge => b.toNat ≤ a.toNat
  | .ne => a ≠ b
  | .eq => a = b
  | .vc => a.ssubOverflow b = false
  | .vs => a.ssubOverflow b = true
  | .pl => 0 ≤ a.toInt
  | .mi => a.toInt < 0
  | .ge => b.toInt ≤ a.toInt
  | .lt => a.toInt < b.toInt
  | .gt => b.toInt < a.toInt
  | .le => a.toInt ≤ b.toInt

instance (icc : Lpcc) (a b : BitVec 64) : Decidable (icc.Holds a b) := by
  unfold Lpcc.Holds
  split <;> infer_instance

/-- What a node computes. -/
def TargetNode.result (env : ℕ → BitVec 64) : TargetNode → BitVec 64
  | .setcc lhs rhs icc => if icc.Holds (lhs.eval env) (rhs.eval env) then 1 else 0
  | .selectCC lhs rhs trueV falseV icc =>
    if icc.Holds (lhs.eval env) (rhs.eval env) then trueV.eval env else falseV.eval env

/-! ## The selected nodes -/

section Selected

variable {cond : CondCode} {icc : Lpcc} {rhs rhs' : SDValue}

/-- A code that is not a test of the sign says what its comparison says. -/
lemma holds_plainIcc (h : cond.isInteger = true) (a b : BitVec 64) : (plainIcc cond).Holds a b ↔ cond.Holds a b := by
  cases cond <;> first | exact Bool.noConfusion h | exact Iff.rfl

/-- An integer comparison has a code. -/
lemma isInteger_of_icc (h : intCondCCodeToICC cond rhs = some (icc, rhs')) : cond.isInteger = true := by
  cases cond <;> first | rfl | exact absurd h (by simp [intCondCCodeToICC])

/-- A selected comparison that becomes a test of the sign has no selection. -/
lemma not_signTest {lhs : SDValue} {node : MachineNode} (h : lowerSETCC cond lhs rhs = some node) :
    ¬SignTest cond rhs := fun hsign => absurd ((selectSETCC_signTest lhs hsign).symm.trans h) (by simp)

end Selected

/-- **A selected `SETCC` node** computes its result. -/
lemma eval_lowerSETCC {cond : CondCode} {lhs rhs : SDValue} {node : MachineNode} {t : TargetNode}
    (h : lowerSETCC cond lhs rhs = some node) (ht : (Comparison.setcc lhs rhs cond).lower = some t)
    (env : ℕ → BitVec 64) : node.eval env = t.result env := by
  obtain ⟨⟨icc, rhs'⟩, hicc, rfl⟩ := Option.map_eq_some_iff.mp ht
  have hint := isInteger_of_icc hicc
  have hplain := intCondCCodeToICC_plain hint (not_signTest h)
  obtain ⟨rfl, rfl⟩ := Prod.mk.inj (Option.some.inj (hplain.symm.trans hicc))
  obtain ⟨node', hnode', heval⟩ := selectSETCC_plain env hint (.value lhs) (.value rhs)
  rw [lowerSETCC, hplain] at h
  obtain rfl := Option.some.inj (hnode'.symm.trans h)
  exact heval.trans (if_congr (holds_plainIcc hint ..).symm rfl rfl)

/-- **A selected `SELECT_CC` node** computes its result. -/
lemma eval_lowerSELECT_CC {cond : CondCode} {lhs rhs trueV falseV : SDValue} {node : MachineNode} {t : TargetNode}
    (h : lowerSELECT_CC cond lhs rhs trueV falseV = some node)
    (ht : (Comparison.selectCC lhs rhs trueV falseV cond).lower = some t) (env : ℕ → BitVec 64) :
    node.eval env = t.result env := by
  obtain ⟨⟨icc, rhs'⟩, hicc, rfl⟩ := Option.map_eq_some_iff.mp ht
  rw [lowerSELECT_CC, hicc] at h
  obtain ⟨cmp, hcmp, rfl⟩ := Option.map_eq_some_iff.mp h
  have hlower : lowerSETCC cond lhs rhs = some cmp := by
    rw [lowerSETCC, hicc]
    exact hcmp
  have heval := eval_lowerSETCC hlower (t := .setcc lhs rhs' icc) (by rw [Comparison.lower, hicc]; rfl) env
  have hcsp : (MachineNode.csp cmp (.value trueV) (.value falseV)).eval env =
      conditionalSet .gt (cmp.eval env) (trueV.eval env) (falseV.eval env) := rfl
  rw [hcsp, heval]
  by_cases hholds : icc.Holds (lhs.eval env) (rhs'.eval env)
  · simp only [TargetNode.result, if_pos hholds]
    rfl
  · simp only [TargetNode.result, if_neg hholds]
    rfl

/-! ## The analysis -/

/-- **What is known of the operands**: of a constant everything, and of each register something that a word can
meet. -/
structure Knowledge where
  computeKnownBits : SDValue → KnownBits 64
  constant : ∀ c, computeKnownBits (.const c) = makeConstant c
  consistent : ∀ n, ∃ x, (computeKnownBits (.reg n)).Allows x

/-- `computeKnownBitsForTargetNode`, with the answers for the operands. -/
def computeKnownBitsForTargetNode (dag : SDValue → KnownBits 64) (op : TargetNode) : KnownBits 64 :=
  match op with
  | .setcc .. => { unknown 64 with zero := bitsFrom 64 1 64 }
  | .selectCC .. =>
    commonBits (dag (op.operands.getD 0 (.const 0))) (dag (op.operands.getD 1 (.const 0)))

/-- A valuation of the operands. -/
def Knowledge.Allowed (k : Knowledge) (env : ℕ → BitVec 64) : Prop := ∀ n, (k.computeKnownBits (.reg n)).Allows (env n)

/-- **The reported bits are those of the result** in every valuation of the operands. -/
def Comparison.Sound (k : Knowledge) (x : Comparison) : Prop :=
  ∀ node, x.lower = some node → ∀ env, k.Allowed env →
    (computeKnownBitsForTargetNode k.computeKnownBits node).Allows (node.result env)

/-- Every bit that is known of both compared values is known of a third one. -/
def Knowledge.Covers (k : Knowledge) (lhs rhs v : SDValue) : Prop :=
  ∀ i u, (k.computeKnownBits lhs).Knows i u → (k.computeKnownBits rhs).Knows i u → (k.computeKnownBits v).Knows i u

/-- A node with values that can be selected only if they have the bits of the compared ones. -/
def TargetNode.Fits (k : Knowledge) : TargetNode → Prop
  | .setcc .. => True
  | .selectCC lhs rhs trueV falseV icc =>
    ((∃ env, k.Allowed env ∧ icc.Holds (lhs.eval env) (rhs.eval env)) → k.Covers lhs rhs trueV) ∧
    ((∃ env, k.Allowed env ∧ ¬icc.Holds (lhs.eval env) (rhs.eval env)) → k.Covers lhs rhs falseV)

/-- The comparisons with such nodes. -/
def Comparison.Fits (k : Knowledge) (x : Comparison) : Prop := ∀ node, x.lower = some node → node.Fits k

section Sound

variable {k : Knowledge} {env : ℕ → BitVec 64}

/-- A valuation meets what is known of an operand. -/
lemma Knowledge.Allowed.allows (h : k.Allowed env) (v : SDValue) : (k.computeKnownBits v).Allows (v.eval env) := by
  cases v with
  | reg n => exact h n
  | const c =>
    rw [k.constant]
    exact (allows_makeConstant_iff c c).mpr rfl

/-- **A value that is selected** has the bits of the compared ones in every valuation only if they are known of it:
else a register that is not compared takes the other bit. -/
lemma knows_of_allows {lhs rhs v : SDValue} {i : ℕ} {u : Bool} (henv : k.Allowed env)
    (hl : (k.computeKnownBits lhs).Knows i u) (hr : (k.computeKnownBits rhs).Knows i u)
    (hall : ∀ env', k.Allowed env' → lhs.eval env' = lhs.eval env → rhs.eval env' = rhs.eval env →
      (v.eval env').getLsbD i = u) : (k.computeKnownBits v).Knows i u := by
  cases v with
  | const c =>
    rw [k.constant, knows_makeConstant hl.lt]
    exact hall env henv rfl rfl
  | reg n =>
    by_contra hnot
    have hkeep {x : SDValue} (hx : (k.computeKnownBits x).Knows i u) (y : BitVec 64) :
        x.eval (Function.update env n y) = x.eval env := by
      cases x with
      | const c => rfl
      | reg m =>
        have hmn : m ≠ n := by
          rintro rfl
          exact hnot hx
        exact Function.update_of_ne hmn ..
    have hother : k.Allowed (Function.update env n (At.set (env n) i !u)) := by
      intro m
      by_cases hm : m = n
      · subst hm
        rw [Function.update_self]
        exact At.allows_set (henv m) hl.lt hnot
      · rw [Function.update_of_ne hm]
        exact henv m
    have hbit := hall _ hother (hkeep hl _) (hkeep hr _)
    rw [SDValue.eval, Function.update_self, At.getLsbD_set _ hl.lt, if_pos rfl] at hbit
    exact absurd hbit (by simp)

/-- A `SELECT_CC` node. -/
lemma selectCC_sound_iff (lhs rhs trueV falseV : SDValue) (icc : Lpcc) :
    (∀ env, k.Allowed env → (computeKnownBitsForTargetNode k.computeKnownBits
      (.selectCC lhs rhs trueV falseV icc)).Allows ((TargetNode.selectCC lhs rhs trueV falseV icc).result env)) ↔
      (TargetNode.selectCC lhs rhs trueV falseV icc).Fits k := by
  have hreported : computeKnownBitsForTargetNode k.computeKnownBits (.selectCC lhs rhs trueV falseV icc) =
      commonBits (k.computeKnownBits lhs) (k.computeKnownBits rhs) := rfl
  rw [hreported]
  constructor
  · intro h
    constructor
    · rintro ⟨env, henv, hholds⟩ i u hl hr
      refine knows_of_allows henv hl hr fun env' henv' hlhs hrhs => ?_
      have hbits := h env' henv' i u ((knows_commonBits ..).mpr ⟨hl, hr⟩)
      rwa [TargetNode.result, hlhs, hrhs, if_pos hholds] at hbits
    · rintro ⟨env, henv, hholds⟩ i u hl hr
      refine knows_of_allows henv hl hr fun env' henv' hlhs hrhs => ?_
      have hbits := h env' henv' i u ((knows_commonBits ..).mpr ⟨hl, hr⟩)
      rwa [TargetNode.result, hlhs, hrhs, if_neg hholds] at hbits
  · rintro ⟨htrue, hfalse⟩ env henv i u hknows
    obtain ⟨hl, hr⟩ := (knows_commonBits ..).mp hknows
    rw [TargetNode.result]
    by_cases hholds : icc.Holds (lhs.eval env) (rhs.eval env)
    · rw [if_pos hholds]
      exact henv.allows trueV i u (htrue ⟨env, henv, hholds⟩ i u hl hr)
    · rw [if_neg hholds]
      exact henv.allows falseV i u (hfalse ⟨env, henv, hholds⟩ i u hl hr)

end Sound

/-- **The analysis is sound** on every `SETCC` node, and on the `SELECT_CC` nodes with values that have the common
bits of the compared ones, as far as they can be selected. -/
theorem knownBits_sound_iff (k : Knowledge) (x : Comparison) : x.Sound k ↔ x.Fits k := by
  refine forall₂_congr fun node hnode => ?_
  cases node with
  | setcc lhs rhs icc => exact iff_of_true (fun env _ => allows_bitsFrom_one (by decide) _) trivial
  | selectCC lhs rhs trueV falseV icc => exact selectCC_sound_iff ..

/-- The first register has zero bits but for the lowest; nothing is known of the others. -/
def lowBit : Knowledge where
  computeKnownBits
    | .reg 0 => ⟨~~~1, 0⟩
    | .reg _ => unknown 64
    | .const c => makeConstant c
  constant _ := rfl
  consistent n := by
    refine ⟨0, ?_⟩
    intro i v hknows
    cases n <;> cases v <;> simp_all [Knows, unknown]

/-- The selection of six or of another register by the lowest bit of the first. -/
def selectSix : Comparison := .selectCC (.reg 0) (.const 0) (.const 6) (.reg 1) .seteq

/-- Six is reported to have no bits above the lowest. -/
theorem selectSix_not_sound : ¬selectSix.Sound lowBit := by
  intro h
  have hallowed : lowBit.Allowed fun _ => 0 := by
    intro n i v hknows
    cases n <;> cases v <;> simp_all [Knows, unknown, lowBit]
  have hbit := h (.selectCC (.reg 0) (.const 0) (.const 6) (.reg 1) .eq) rfl _ hallowed 1 false
    ((knows_commonBits ..).mpr ⟨rfl, rfl⟩)
  exact absurd hbit (by decide)

end Dadao.Llvm
