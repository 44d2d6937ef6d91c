import Dadao.Qemu.Execute
import Mathlib.Logic.Function.Basic

set_option relaxedAutoImplicit false
set_option autoImplicit false

/-!
# What a program sees of the simulator

The register files and the memory between two instructions, and words that turn one such state into
another: `rd0` reads zero, `rf0` reads with its fixed bits, and the program counter is left out.

## Main definitions

* `Dadao.Qemu.State`, `Dadao.Qemu.view` — the registers and the memory, as the next instruction reads
  them.
* `Dadao.Qemu.Straight` — consecutive words executed one after the other.
* `Dadao.Qemu.Yields` — words that make a new state of every state they are meant for.

## Main results

* `Dadao.Qemu.Yields.append` — words one after the other.
* `Dadao.Qemu.yields_next` — an instruction without a loop.
-/

namespace Dadao.Qemu

open Tcg

/-! ## States -/

/-- The register files and the memory. -/
structure State where
  reg : RegFile → ℕ → BitVec 64
  mem : Memory

/-- Assign a register. -/
def State.set (s : State) (file : RegFile) (i : ℕ) (v : BitVec 64) : State :=
  { s with reg := fun f j => if f = file ∧ j = i then v else s.reg f j }

@[simp] lemma State.set_reg (s : State) (file f : RegFile) (i j : ℕ) (v : BitVec 64) :
    (s.set file i v).reg f j = if f = file ∧ j = i then v else s.reg f j := rfl

@[simp] lemma State.set_mem (s : State) (file : RegFile) (i : ℕ) (v : BitVec 64) :
    (s.set file i v).mem = s.mem := rfl

/-- Of two assignments to a register the second stays. -/
@[simp] lemma State.set_set (s : State) (file : RegFile) (i : ℕ) (v v' : BitVec 64) :
    (s.set file i v).set file i v' = s.set file i v' := by
  simp only [State.set, State.mk.injEq, and_true]
  funext f j
  by_cases h : f = file ∧ j = i
  · rw [if_pos h, if_pos h]
  · rw [if_neg h, if_neg h, if_neg h]

/-- A register of the machine as the next instruction reads it. -/
def viewReg (m : Machine Elem) : RegFile → ℕ → BitVec 64
  | .rd, 0 => 0
  | .rb, 0 => 0
  | .rf, 0 => m.env.globals (.reg .rf 0) &&& fcsrMask ||| fcsrDefault
  | file, i => m.env.globals (.reg file i)

/-- **What a program sees** of the machine. -/
def view (m : Machine Elem) : State := ⟨viewReg m, m.mem⟩

/-- The registers with fixed values have them. -/
structure Settled (m : Machine Elem) : Prop where
  rd : m.env.globals (.reg .rd 0) = 0
  rf : m.env.globals (.reg .rf 0) &&& fcsrMask ||| fcsrDefault = m.env.globals (.reg .rf 0)

/-- A register that is not one of the fixed ones. -/
lemma viewReg_of_ne (m : Machine Elem) {file : RegFile} {i : ℕ} (h : i ≠ 0) :
    viewReg m file i = m.env.globals (.reg file i) := by
  cases i with
  | zero => exact absurd rfl h
  | succ i => cases file <;> rfl

/-- Reading `rd`. -/
lemma Settled.read_rd {m : Machine Elem} (h : Settled m) (i : ℕ) :
    m.env.globals (.reg .rd i) = (view m).reg .rd i := by
  cases i with
  | zero => exact h.rd
  | succ i => rfl

/-- Reading `rb`, not the program counter. -/
lemma read_rb (m : Machine Elem) {i : ℕ} (hi : i ≠ 0) :
    m.env.globals (.reg .rb i) = (view m).reg .rb i := (viewReg_of_ne m hi).symm

/-- A temporary is not seen. -/
@[simp] lemma view_write_temp (m : Machine Elem) (n : ℕ) (v : BitVec 64) :
    view (m.write (.temp n) v) = view m := rfl

/-- Assigning a register. -/
lemma view_write_reg (m : Machine Elem) {file : RegFile} {i : ℕ} (hi : i ≠ 0) (v : BitVec 64) :
    view (m.write (.global (.reg file i)) v) = (view m).set file i v := by
  have hreg : viewReg (m.write (.global (.reg file i)) v) =
      fun f j => if f = file ∧ j = i then v else viewReg m f j := by
    funext f j
    by_cases hj : j = 0
    · subst hj
      rw [if_neg fun h => hi h.2.symm]
      have hne : ∀ f : RegFile, Elem.reg f 0 ≠ .reg file i := by
        intro f h
        simp only [Elem.reg.injEq] at h
        omega
      cases f
      · rfl
      · rfl
      · exact congrArg (fun x => x &&& fcsrMask ||| fcsrDefault)
          (Machine.globals_write_of_ne m (hne .rf) v)
      · exact Machine.globals_write_of_ne m (hne .ra) v
    · rw [viewReg_of_ne _ hj, viewReg_of_ne _ hj, Machine.write_env, Env.write_global_globals]
      by_cases h : f = file ∧ j = i
      · rw [if_pos h, if_pos (by rw [h.1, h.2])]
      · rw [if_neg h, if_neg]
        simp only [Elem.reg.injEq]
        rintro ⟨hf, hij⟩
        exact h ⟨hf, by omega⟩
  simp only [view, State.set, hreg, Machine.write_mem]

/-- The program counter is not seen. -/
lemma view_write_pc (m : Machine Elem) (v : BitVec 64) : view (m.write (.global .pc) v) = view m := by
  have hreg : viewReg (m.write (.global .pc) v) = viewReg m := by
    funext f j
    by_cases hj : j = 0
    · subst hj
      cases f <;> rfl
    · rw [viewReg_of_ne _ hj, viewReg_of_ne _ hj]
      refine Machine.globals_write_of_ne m ?_ v
      simp only [ne_eq, Elem.reg.injEq]
      omega
  simp only [view, hreg, Machine.write_mem]

/-! ## Words -/

/-- Consecutive words, executed one after the other, each going on to the next. -/
def Straight : List (BitVec 32) → Machine Elem → Machine Elem → Prop
  | [], m, m' => m' = m
  | w :: ws, m, m' => ∃ t, Executes w m (.done t) ∧ t.env.globals .pc = m.env.globals .pc + 4 ∧
    Straight ws t m'

/-- **Words that make `f` of a state** that meets `pre`. -/
def Yields (pre : State → Prop) (ws : List (BitVec 32)) (f : State → State) : Prop :=
  ∀ m, pre (view m) → ∃ m', Straight ws m m' ∧ view m' = f (view m)

/-- Words after words. -/
lemma Straight.append {ws ws' : List (BitVec 32)} {m t m' : Machine Elem} (h : Straight ws m t)
    (h' : Straight ws' t m') : Straight (ws ++ ws') m m' := by
  induction ws generalizing m with
  | nil =>
    obtain rfl : t = m := h
    exact h'
  | cons w ws ih =>
    obtain ⟨u, hw, hpc, hrest⟩ := h
    exact ⟨u, hw, hpc, ih hrest⟩

/-- **Words one after the other.** -/
lemma Yields.append {pre pre' : State → Prop} {ws ws' : List (BitVec 32)} {f f' : State → State}
    (h : Yields pre ws f) (h' : Yields pre' ws' f') (hpre : ∀ s, pre s → pre' (f s)) :
    Yields pre (ws ++ ws') (f' ∘ f) := by
  intro m hm
  obtain ⟨t, hrun, hview⟩ := h m hm
  obtain ⟨m', hrun', hview'⟩ := h' t (hview ▸ hpre _ hm)
  exact ⟨m', hrun.append hrun', by rw [hview', hview, Function.comp_apply]⟩

/-- For every state. -/
abbrev always : State → Prop := fun _ => True

/-- No words. -/
lemma yields_nil : Yields always [] id := fun m _ => ⟨m, rfl, rfl⟩

/-! ## One instruction -/

/-- The prologue settles the registers with fixed values. -/
lemma settled_prologue (m : Machine Elem) : Settled (runStraight prologue m) where
  rd := by simp [prologue, insnPrologue, stepOp, movi]
  rf := by
    have hfixed : fcsrDefault &&& fcsrMask ||| fcsrDefault = fcsrDefault := by decide
    have hagain (v : BitVec 64) : (v &&& fcsrMask ||| fcsrDefault) &&& fcsrMask ||| fcsrDefault =
        v &&& fcsrMask ||| fcsrDefault := by
      rw [BitVec.and_or_distrib_right, BitVec.and_assoc, BitVec.and_self, BitVec.or_assoc, hfixed]
    simp [prologue, insnPrologue, stepOp, movi, BinOp.eval, hagain]

/-- The prologue is not seen. -/
lemma view_prologue (m : Machine Elem) : view (runStraight prologue m) = view m := by
  have hreg : viewReg (runStraight prologue m) = viewReg m := by
    funext f j
    by_cases hj : j = 0
    · subst hj
      have hagain := (settled_prologue m).rf
      cases f
      · rfl
      · rfl
      · simp only [viewReg]
        rw [hagain]
        simp [prologue, insnPrologue, stepOp, movi, BinOp.eval]
      · rfl
    · have hne (f' : RegFile) : Elem.reg f j ≠ .reg f' 0 := by
        intro h
        simp only [Elem.reg.injEq] at h
        omega
      rw [viewReg_of_ne _ hj, viewReg_of_ne _ hj]
      simp [prologue, insnPrologue, stepOp, movi, hne]
  have hmem : (runStraight prologue m).mem = m.mem := rfl
  simp only [view, hreg, hmem]

/-- **An instruction that goes on to the next one**: its operations decide what it does. -/
lemma yields_of_exec {pre : State → Prop} {w : BitVec 32} {ops : List (Op Elem)} {f : State → State}
    (hdisas : ∀ pc, ∃ fuel t, disasInsn fuel pc w = some t ∧ t.emitted.mapM Emission.toOp = some ops ∧
      t.isJmp = .next)
    (hexec : ∀ m, Settled m → pre (view m) → ∃ m', (∀ rest, exec (ops ++ rest) none m =
      exec rest none m') ∧ view m' = f (view m)) : Yields pre [w] f := by
  intro m hm
  obtain ⟨fuel, t, ht, hops, hjmp⟩ := hdisas (m.env.globals .pc)
  obtain ⟨m', hrest, hview⟩ := hexec _ (settled_prologue m) (by rwa [view_prologue])
  have hstop : t.stop = [] := by rw [Translation.stop, hjmp, if_neg (by decide)]
  have hprologue : prologue.all Op.isStraight = true := rfl
  refine ⟨m'.write (.global .pc) (m.env.globals .pc + 4), ⟨_, ?_, ?_, rfl⟩, ?_⟩
  · rw [executes_around ht hops, hjmp, if_pos rfl, hstop, exec_append_straight hprologue, hrest]
    rfl
  · rw [Machine.write_env, Env.write_global_globals, if_pos rfl]
  · rw [view_write_pc, hview, view_prologue]

/-- **An instruction without a loop** that goes on to the next one. -/
lemma yields_next {w : BitVec 32} {ops : List (Op Global)} {f : State → State}
    (hmulti : multiOf w = none) (hhelper : ∀ pc, helperInsn pc w = none)
    (hdisas : ∀ pc, disasDadao pc w = some (some (.next ops))) (hops : ops.all Op.isStraight = true)
    (hf : ∀ m, Settled m → view (runStraight (ops.map (Op.map Global.elem)) m) = f (view m)) :
    Yields always [w] f := by
  refine yields_of_exec (fun pc => ⟨0, ⟨ops.map .op, .next, -1⟩, ?_,
    mapM_toOp_op ops, rfl⟩) fun m hm _ => ⟨_, fun rest => ?_, hf m hm⟩
  · rw [disasInsn, hmulti]
    simp only
    rw [hhelper, hdisas]
    rfl
  · exact exec_append_straight (by rw [all_isStraight_map, hops]) m

/-! ## Every state -/

/-- **The states a program sees**: the registers with fixed values have them. -/
structure State.IsView (s : State) : Prop where
  rd : s.reg .rd 0 = 0
  rb : s.reg .rb 0 = 0
  rf : s.reg .rf 0 &&& fcsrMask ||| fcsrDefault = s.reg .rf 0

/-- A machine is seen as such a state. -/
lemma isView_view (m : Machine Elem) : (view m).IsView where
  rd := rfl
  rb := rfl
  rf := by
    have h := view_prologue m
    have hset := (settled_prologue m).rf
    rw [← h]
    have hread : (view (runStraight prologue m)).reg .rf 0 =
        (runStraight prologue m).env.globals (.reg .rf 0) := hset
    rw [hread]
    exact hset

/-- A machine with the registers and the memory of a state, and zeroes in everything else. -/
def State.machine (s : State) : Machine Elem :=
  ⟨⟨fun
    | .reg f i => s.reg f i.toNat
    | _ => 0, fun _ => 0⟩, s.mem⟩

/-- Each of them is the view of a machine. -/
lemma State.IsView.exists_view {s : State} (h : s.IsView) : ∃ m, view m = s := by
  refine ⟨s.machine, ?_⟩
  have hreg : viewReg s.machine = s.reg := by
    funext f i
    cases i with
    | zero =>
      cases f
      · exact h.rd.symm
      · exact h.rb.symm
      · exact h.rf
      · rfl
    | succ i =>
      rw [viewReg_of_ne _ (by omega)]
      rfl
  rw [view, hreg]
  rfl

/-- A word has one outcome. -/
lemma Executes.unique {w : BitVec 32} {m : Machine Elem} {out out' : Outcome Elem} (h : Executes w m out)
    (h' : Executes w m out') : out = out' := by
  obtain ⟨fuel, t, ht, hrun⟩ := h
  obtain ⟨fuel', t', ht', hrun'⟩ := h'
  rw [translateInsn_unique ht' ht, hrun] at hrun'
  exact Option.some.inj hrun'

/-- Words have one outcome. -/
lemma Straight.unique {ws : List (BitVec 32)} {m m₁ m₂ : Machine Elem} (h : Straight ws m m₁)
    (h' : Straight ws m m₂) : m₁ = m₂ := by
  induction ws generalizing m with
  | nil => exact Eq.trans h (Eq.symm h')
  | cons w ws ih =>
    obtain ⟨t, hw, -, hrest⟩ := h
    obtain ⟨t', hw', -, hrest'⟩ := h'
    obtain rfl : t = t' := Outcome.done.inj (hw.unique hw')
    exact ih hrest hrest'

/-- Words make one thing of a state. -/
lemma Yields.unique {ws : List (BitVec 32)} {f g : State → State} (h : Yields always ws f) (h' : Yields always ws g)
    (m : Machine Elem) : f (view m) = g (view m) := by
  obtain ⟨m₁, hrun, hview⟩ := h m trivial
  obtain ⟨m₂, hrun', hview'⟩ := h' m trivial
  rw [← hview, ← hview', hrun.unique hrun']

end Dadao.Qemu
