import Dadao.Llvm.Lowering
import Dadao.Qemu.View

set_option relaxedAutoImplicit false
set_option autoImplicit false

/-!
# Branch analysis

The analysis of the terminators of a basic block in `DadaoInstrInfo.cpp`, with the removal and the insertion of
branches. The analysis walks a block from its end and edits it on the way.

## Main definitions

* `Dadao.Llvm.MachineInstr` — the instructions of a block.
* `Dadao.Llvm.transfer` — where control goes from a block, and the state it leaves.
* `Dadao.Llvm.analyzeBranch`, `Dadao.Llvm.removeBranch`, `Dadao.Llvm.insertBranch` — the source.
* `Dadao.Llvm.KeepsControl` — an analysis keeps the control flow.

## Main results

* `Dadao.Llvm.analyzeLoop_spec` — what a walk keeps, and what it has seen where it succeeds.
* `Dadao.Llvm.removeLoop_spec` — what is left of such a block.
* `Dadao.Llvm.keepsControl_analyzeBranch` — every analysis keeps the control flow.
-/

namespace Dadao.Llvm

open Qemu Tcg

/-! ## Blocks -/

/-- The branches on one register. -/
inductive BrRiii where
  | brn | brnn | brz | brnz | brp | brnp
  deriving DecidableEq, Repr

/-- The condition of a branch, on its register and zero. -/
def BrRiii.cond : BrRiii → Cond
  | brn => .lt
  | brnn => .ge
  | brz => .eq
  | brnz => .ne
  | brp => .gt
  | brnp => .le

/-- The branches on two registers. -/
inductive BrRrii where
  | breq | brne
  deriving DecidableEq, Repr

/-- The condition of a branch on two registers. -/
def BrRrii.cond : BrRrii → Cond
  | breq => .eq
  | brne => .ne

/-- The instructions of a block: debug instructions, instructions that are no terminators, and the terminators of
`DadaoInstrInfo.td`. A branch as `insertBranch` builds it has no register operand. -/
inductive MachineInstr where
  | debug (n : ℕ)
  | plain (n : ℕ)
  | jumpIiii (mbb : ℕ)
  | brRiii (op : BrRiii) (mbb : ℕ) (rxHa : Option ℕ)
  | brRrii (op : BrRrii) (mbb rxHa ryHb : ℕ)
  | jumpRrii (rxHa ryHb : ℕ) (imm12 : BitVec 12)
  | retFixme
  deriving DecidableEq, Repr

namespace MachineInstr

/-- `isDebugInstr`. -/
def isDebugInstr : MachineInstr → Bool
  | debug _ => true
  | _ => false

/-- `isTerminator`, which is all of `isUnpredicatedTerminator`, as no instruction has a predicate. -/
def isTerminator : MachineInstr → Bool
  | debug _ | plain _ => false
  | _ => true

/-- `isBranch`. -/
def isBranch : MachineInstr → Bool
  | debug _ | plain _ | retFixme => false
  | _ => true

/-- The branches that `removeBranch` knows. -/
def isRemovable : MachineInstr → Bool
  | jumpIiii _ | brRiii .. => true
  | _ => false

end MachineInstr

/-- Where control goes: to a block, behind the last block, to an address, back to the caller; a branch without a
register goes nowhere. -/
inductive Exit where
  | block (mbb : ℕ)
  | off
  | address (a : BitVec 64)
  | ret
  | illegal
  deriving DecidableEq, Repr

section Transfer

variable (succ : Option ℕ) (effect : ℕ → State → State)

/-- Control at the end of a block goes to the block behind it in the layout. -/
def fallThrough : Exit := succ.elim .off .block

/-- **Where control goes from a block, and the state it leaves.** -/
def transfer : List MachineInstr → State → Exit × State
  | [], s => (fallThrough succ, s)
  | .debug _ :: l, s => transfer l s
  | .plain n :: l, s => transfer l (effect n s)
  | .jumpIiii mbb :: _, s => (.block mbb, s)
  | .brRiii op mbb (some r) :: l, s => if op.cond.holds (s.reg .rd r) 0 then (.block mbb, s) else transfer l s
  | .brRiii _ _ none :: _, s => (.illegal, s)
  | .brRrii op mbb r r' :: l, s =>
    if op.cond.holds (s.reg .rd r) (s.reg .rd r') then (.block mbb, s) else transfer l s
  | .jumpRrii r r' imm :: _, s => (.address (s.reg .rb r + s.reg .rd r' + imm.signExtend 64 * 4), s)
  | .retFixme :: _, s => (.ret, s)

end Transfer

/-! ## The source -/

/-- The result of an analysis: whether it fails, the block it leaves, and what it has found. -/
structure Analysis where
  fails : Bool
  block : List MachineInstr
  trueBlock : Option ℕ
  falseBlock : Option ℕ
  condition : List Lpcc

/-- The walk of `analyzeBranch`: the instructions above the iterator from the bottom up, and those from it on. -/
def analyzeLoop (succ : Option ℕ) (allowModify : Bool) :
    List MachineInstr → List MachineInstr → Option ℕ → Option ℕ → List Lpcc → Analysis
  | [], after, trueBlock, falseBlock, condition => ⟨false, after, trueBlock, falseBlock, condition⟩
  | inst :: before, after, trueBlock, falseBlock, condition =>
    if inst.isDebugInstr then analyzeLoop succ allowModify before (inst :: after) trueBlock falseBlock condition
    else if ¬inst.isTerminator then ⟨false, before.reverse ++ inst :: after, trueBlock, falseBlock, condition⟩
    else if ¬inst.isBranch then ⟨true, before.reverse ++ inst :: after, trueBlock, falseBlock, condition⟩
    else
      match inst with
      | .jumpIiii mbb =>
        if ¬allowModify then analyzeLoop succ allowModify before (inst :: after) (some mbb) falseBlock condition
        else if succ = some mbb then
          -- a jump to the next block is deleted with all behind it
          analyzeLoop succ allowModify before [] none none []
        else analyzeLoop succ allowModify before [inst] (some mbb) none []
      | _ => ⟨true, before.reverse ++ inst :: after, trueBlock, falseBlock, condition⟩

/-- **`analyzeBranch`**, for a caller that has found nothing yet. -/
def analyzeBranch (succ : Option ℕ) (allowModify : Bool) (block : List MachineInstr) : Analysis :=
  analyzeLoop succ allowModify block.reverse [] none none []

/-- The walk of `removeBranch`: what is left, and the number of branches removed. -/
def removeLoop : List MachineInstr → List MachineInstr → List MachineInstr × ℕ
  | [], after => (after, 0)
  | inst :: before, after =>
    if inst.isDebugInstr then removeLoop before (inst :: after)
    else if ¬inst.isRemovable then (before.reverse ++ inst :: after, 0)
    else
      -- once more from the end
      let rest := removeLoop (after.reverse ++ before) []
      (rest.1, rest.2 + 1)
termination_by before after => (before.length + after.length, before.length)
decreasing_by
  · simp only [List.length_cons, Prod.lex_def]
    omega
  · simp [Prod.lex_def]
    omega

/-- **`removeBranch`.** -/
def removeBranch (block : List MachineInstr) : List MachineInstr × ℕ := removeLoop block.reverse []

/-- The branch that `insertBranch` takes for a condition. -/
def branchOf : Lpcc → Option BrRiii
  | .eq => some .brz
  | .ne => some .brnz
  | .ge => some .brnn
  | .lt => some .brn
  | .gt => some .brp
  | .le => some .brnp
  | _ => none

/-- **`insertBranch`**: the block and the number of instructions added; `none` is a failed assertion. -/
def insertBranch (block : List MachineInstr) (trueBlock falseBlock : Option ℕ) (condition : List Lpcc) :
    Option (List MachineInstr × ℕ) :=
  match trueBlock, condition, falseBlock with
  | none, _, _ => none
  | some mbb, [], none => some (block ++ [.jumpIiii mbb], 1)
  | some _, [], some _ => none
  | some mbb, [code], none => (branchOf code).map fun op => (block ++ [.brRiii op mbb none], 1)
  | some mbb, [code], some mbb' =>
    (branchOf code).map fun op => (block ++ [.brRiii op mbb none, .jumpIiii mbb'], 2)
  | some _, _ :: _ :: _, _ => none

/-- The block after `removeBranch`, followed by `insertBranch` with the results of an analysis, where there is a
block to go to. -/
def rebuild (a : Analysis) : Option (List MachineInstr) :=
  if a.trueBlock = none then some (removeBranch a.block).1
  else (insertBranch (removeBranch a.block).1 a.trueBlock a.falseBlock a.condition).map Prod.fst

/-- **An analysis keeps the control flow**: control goes from the block it leaves to where it went from the block
before, in every state, and the same is so of the rebuilt block where the analysis succeeds. -/
def KeepsControl (succ : Option ℕ) (effect : ℕ → State → State) (block : List MachineInstr) (a : Analysis) : Prop :=
  transfer succ effect a.block = transfer succ effect block ∧
    (a.fails = false → ∃ new, rebuild a = some new ∧ transfer succ effect new = transfer succ effect block)

/-! ## Where control goes -/

section Control

variable (succ : Option ℕ) (effect : ℕ → State → State)

/-- The end of a block counts only by where control goes from it. -/
lemma transfer_append {l l' : List MachineInstr} (p : List MachineInstr)
    (h : transfer succ effect l = transfer succ effect l') :
    transfer succ effect (p ++ l) = transfer succ effect (p ++ l') := by
  induction p with
  | nil => exact h
  | cons inst p ih =>
    funext s
    cases inst with
    | brRiii op mbb r => cases r <;> simp only [List.cons_append, transfer, ih]
    | _ => simp only [List.cons_append, transfer, ih]

/-- What is behind a jump does not count. -/
lemma transfer_jump (mbb : ℕ) (l : List MachineInstr) :
    transfer succ effect (.jumpIiii mbb :: l) = transfer succ effect [.jumpIiii mbb] := rfl

/-- A jump to the next block does not count. -/
lemma transfer_jump_next {mbb : ℕ} (h : succ = some mbb) :
    transfer succ effect [.jumpIiii mbb] = transfer succ effect [] := by
  funext s
  simp [transfer, fallThrough, h]

/-- A debug instruction does not count. -/
lemma transfer_debug {inst : MachineInstr} (h : inst.isDebugInstr = true) (l : List MachineInstr) :
    transfer succ effect (inst :: l) = transfer succ effect l := by
  cases inst with
  | debug n => rfl
  | _ => exact absurd h Bool.false_ne_true

end Control

/-- Debug instructions only. -/
def AllDebug (l : List MachineInstr) : Prop := ∀ inst ∈ l, inst.isDebugInstr = true

/-- Debug instructions and jumps only. -/
def OnlyJumps (l : List MachineInstr) : Prop := ∀ inst ∈ l, inst.isDebugInstr = true ∨ ∃ mbb, inst = .jumpIiii mbb

/-- The target of the first jump. -/
def firstJump : List MachineInstr → Option ℕ
  | [] => none
  | .jumpIiii mbb :: _ => some mbb
  | _ :: l => firstJump l

/-- A walk from the end stops at the end of these instructions. -/
def Stops (p : List MachineInstr) : Prop := ∀ inst ∈ p.getLast?, inst.isDebugInstr = false ∧ inst.isTerminator = false

section Specs

variable (succ : Option ℕ) (effect : ℕ → State → State)

/-- Control goes to the first jump, if there are only jumps. -/
lemma transfer_onlyJumps {l : List MachineInstr} (h : OnlyJumps l) (s : State) :
    transfer succ effect l s = ((firstJump l).elim (fallThrough succ) .block, s) := by
  induction l with
  | nil => rfl
  | cons inst l ih =>
    have hrest := ih fun x hx => h x (List.mem_cons_of_mem _ hx)
    rcases h inst List.mem_cons_self with hdebug | ⟨mbb, rfl⟩
    · cases inst with
      | debug n => exact hrest
      | _ => exact absurd hdebug Bool.false_ne_true
    · rfl

/-- Control goes through debug instructions. -/
lemma transfer_allDebug {d : List MachineInstr} (h : AllDebug d) (l : List MachineInstr) :
    transfer succ effect (d ++ l) = transfer succ effect l := by
  induction d with
  | nil => rfl
  | cons inst d ih =>
    rw [List.cons_append, transfer_debug succ effect (h inst List.mem_cons_self)]
    exact ih fun x hx => h x (List.mem_cons_of_mem _ hx)

/-- **A walk keeps where control goes.** Where it succeeds there are no conditions, and it has seen only jumps behind
the instruction it stops at, whose first is the true block. -/
lemma analyzeLoop_spec (allowModify : Bool) (before after : List MachineInstr) (trueBlock : Option ℕ)
    (hafter : OnlyJumps after) (hfirst : firstJump after = trueBlock) :
    let a := analyzeLoop succ allowModify before after trueBlock none []
    transfer succ effect a.block = transfer succ effect (before.reverse ++ after) ∧
      (a.fails = false → a.falseBlock = none ∧ a.condition = [] ∧
        ∃ p q, a.block = p ++ q ∧ Stops p ∧ OnlyJumps q ∧ firstJump q = a.trueBlock) := by
  have hstop (before : List MachineInstr) {inst : MachineInstr} (hdebug : inst.isDebugInstr = false)
      (hterm : inst.isTerminator = false) : Stops (before.reverse ++ [inst]) := by
    intro x hx
    rw [List.getLast?_append_of_ne_nil _ (by simp)] at hx
    obtain rfl : inst = x := by simpa using hx
    exact ⟨hdebug, hterm⟩
  induction before generalizing after trueBlock with
  | nil => exact ⟨rfl, fun _ => ⟨rfl, rfl, [], after, rfl, by simp [Stops], hafter, hfirst⟩⟩
  | cons inst before ih =>
    have hsplit : (inst :: before).reverse ++ after = before.reverse ++ inst :: after := by simp
    rw [hsplit]
    cases inst with
    | debug n =>
      exact ih (.debug n :: after) trueBlock (List.forall_mem_cons.mpr ⟨.inl rfl, hafter⟩) hfirst
    | plain n =>
      refine ⟨rfl, fun _ => ⟨rfl, rfl, before.reverse ++ [.plain n], after, ?_, hstop before rfl rfl, hafter, hfirst⟩⟩
      simp [analyzeLoop, MachineInstr.isDebugInstr, MachineInstr.isTerminator]
    | jumpIiii mbb =>
      have hone : OnlyJumps [.jumpIiii mbb] := by simp [OnlyJumps]
      by_cases hallow : allowModify = true
      · by_cases hnext : succ = some mbb
        · -- the jump is deleted
          have hloop : analyzeLoop succ allowModify (.jumpIiii mbb :: before) after trueBlock none [] =
              analyzeLoop succ allowModify before [] none none [] := by
            simp [analyzeLoop, MachineInstr.isDebugInstr, MachineInstr.isTerminator, MachineInstr.isBranch, hallow, hnext]
          obtain ⟨hcontrol, hfound⟩ := ih [] none (by simp [OnlyJumps]) rfl
          simp only [hloop]
          refine ⟨hcontrol.trans (transfer_append succ effect _ ?_), hfound⟩
          rw [transfer_jump, transfer_jump_next succ effect hnext]
        · have hloop : analyzeLoop succ allowModify (.jumpIiii mbb :: before) after trueBlock none [] =
              analyzeLoop succ allowModify before [.jumpIiii mbb] (some mbb) none [] := by
            simp [analyzeLoop, MachineInstr.isDebugInstr, MachineInstr.isTerminator, MachineInstr.isBranch, hallow, hnext]
          obtain ⟨hcontrol, hfound⟩ := ih [.jumpIiii mbb] (some mbb) hone rfl
          simp only [hloop]
          exact ⟨hcontrol.trans (transfer_append succ effect _ (transfer_jump ..).symm), hfound⟩
      · have hloop : analyzeLoop succ allowModify (.jumpIiii mbb :: before) after trueBlock none [] =
            analyzeLoop succ allowModify before (.jumpIiii mbb :: after) (some mbb) none [] := by
          simp [analyzeLoop, MachineInstr.isDebugInstr, MachineInstr.isTerminator, MachineInstr.isBranch, hallow]
        simp only [hloop]
        exact ih _ (some mbb) (List.forall_mem_cons.mpr ⟨.inr ⟨mbb, rfl⟩, hafter⟩) rfl
    | _ => exact ⟨rfl, fun h => absurd h Bool.true_eq_false.mp⟩

/-- **The removal of branches** leaves what is before the jumps, and debug instructions. -/
lemma removeLoop_spec {p : List MachineInstr} (hstops : Stops p) (before after q : List MachineInstr)
    (hq : OnlyJumps q) (hbefore : before = q.reverse ++ p.reverse) (hafter : AllDebug after) :
    ∃ d, AllDebug d ∧ (removeLoop before after).1 = p ++ d := by
  induction before, after using removeLoop.induct generalizing q with
  | case1 after =>
    obtain rfl : p = [] := by
      have hnil := List.append_eq_nil_iff.mp hbefore.symm
      simpa using hnil.2
    exact ⟨after, hafter, by simp [removeLoop]⟩
  | case2 inst before after hdebug ih =>
    have hdebugs : AllDebug (inst :: after) := List.forall_mem_cons.mpr ⟨hdebug, hafter⟩
    rw [removeLoop, if_pos hdebug]
    rcases List.eq_nil_or_concat' q with rfl | ⟨q, last, rfl⟩
    · -- the walk does not pass the instruction it stops at
      have hlast : inst ∈ p.getLast? := by
        rw [← List.head?_reverse, ← show inst :: before = p.reverse from hbefore]
        rfl
      exact absurd (hstops inst hlast).1 (by simp [hdebug])
    · rw [List.reverse_append] at hbefore
      obtain ⟨-, htail⟩ := List.cons.inj (hbefore : inst :: before = last :: (q.reverse ++ p.reverse))
      exact ih q (fun x hx => hq x (List.mem_append_left _ hx)) htail hdebugs
  | case3 inst before after hdebug hkeep =>
    rw [removeLoop, if_neg hdebug, if_pos hkeep]
    rcases List.eq_nil_or_concat' q with rfl | ⟨q, last, rfl⟩
    · refine ⟨after, hafter, ?_⟩
      have hp : p = before.reverse ++ [inst] := by
        rw [← List.reverse_reverse p, ← show inst :: before = p.reverse from hbefore, List.reverse_cons]
      simp [hp]
    · rw [List.reverse_append] at hbefore
      obtain ⟨rfl, -⟩ := List.cons.inj (hbefore : inst :: before = last :: (q.reverse ++ p.reverse))
      rcases hq inst (by simp) with h | ⟨mbb, rfl⟩
      · exact absurd h hdebug
      · exact absurd rfl hkeep
  | case4 inst before after hdebug hremove ih =>
    rw [removeLoop, if_neg hdebug, if_neg hremove]
    have hdebugs : OnlyJumps after := fun x hx => .inl (hafter x hx)
    rcases List.eq_nil_or_concat' q with rfl | ⟨q, last, rfl⟩
    · have hlast : inst ∈ p.getLast? := by
        rw [← List.head?_reverse, ← show inst :: before = p.reverse from hbefore]
        rfl
      have hterm := (hstops inst hlast).2
      rw [not_not] at hremove
      cases inst <;> simp_all [MachineInstr.isTerminator, MachineInstr.isRemovable]
    · rw [List.reverse_append] at hbefore
      obtain ⟨-, htail⟩ := List.cons.inj (hbefore : inst :: before = last :: (q.reverse ++ p.reverse))
      have hrest := ih (q ++ after) ?_ ?_ (by simp [AllDebug])
      · simpa using hrest
      · exact List.forall_mem_append.mpr ⟨fun x hx => hq x (List.mem_append_left _ hx), hdebugs⟩
      · rw [show before = q.reverse ++ p.reverse from htail]
        simp

/-- **The rebuilt block** goes where the block of the analysis goes. -/
lemma rebuild_control {a : Analysis} {p q : List MachineInstr} (hfalse : a.falseBlock = none)
    (hcondition : a.condition = []) (hblock : a.block = p ++ q) (hstops : Stops p) (hq : OnlyJumps q)
    (hfirst : firstJump q = a.trueBlock) :
    ∃ new, rebuild a = some new ∧ transfer succ effect new = transfer succ effect a.block := by
  obtain ⟨d, hdebugs, hleft⟩ := removeLoop_spec hstops (p ++ q).reverse [] q hq (List.reverse_append ..)
    (by simp [AllDebug])
  have hremove : (removeBranch a.block).1 = p ++ d := by rw [← hleft, removeBranch, hblock]
  rw [hblock, rebuild, hremove, hfalse, hcondition]
  cases htrue : a.trueBlock with
  | none =>
    rw [htrue] at hfirst
    refine ⟨p ++ d, rfl, transfer_append succ effect p ?_⟩
    funext s
    rw [← List.append_nil d, transfer_allDebug succ effect hdebugs, transfer_onlyJumps succ effect hq, hfirst]
    rfl
  | some mbb =>
    rw [htrue] at hfirst
    refine ⟨p ++ d ++ [.jumpIiii mbb], rfl, ?_⟩
    rw [List.append_assoc]
    refine transfer_append succ effect p ?_
    funext s
    rw [transfer_allDebug succ effect hdebugs, transfer_onlyJumps succ effect hq, hfirst]
    rfl

end Specs

/-- **Branch analysis keeps the control flow**: for every block, every block behind it and both values of
`AllowModify`, whatever the other instructions do. -/
theorem keepsControl_analyzeBranch (succ : Option ℕ) (effect : ℕ → State → State) (allowModify : Bool)
    (block : List MachineInstr) : KeepsControl succ effect block (analyzeBranch succ allowModify block) := by
  obtain ⟨hcontrol, hfound⟩ := analyzeLoop_spec succ effect allowModify block.reverse [] none (by simp [OnlyJumps]) rfl
  rw [List.reverse_reverse, List.append_nil] at hcontrol
  refine ⟨hcontrol, fun hsucceeds => ?_⟩
  obtain ⟨hfalse, hcondition, p, q, hblock, hstops, hq, hfirst⟩ := hfound hsucceeds
  obtain ⟨new, hnew, hsame⟩ := rebuild_control succ effect hfalse hcondition hblock hstops hq hfirst
  exact ⟨new, hnew, hsame.trans hcontrol⟩

end Dadao.Llvm
