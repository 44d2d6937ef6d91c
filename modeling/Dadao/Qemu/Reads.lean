import Dadao.Qemu.View

set_option relaxedAutoImplicit false
set_option autoImplicit false

/-!
# What an instruction reads

The registers and the memory as an instruction finds them behind the operations that are emitted before
every instruction, with the program counter in `rb0`, and instructions as functions of that.

## Main definitions

* `Dadao.Qemu.reads` — the registers and the memory as the next instruction reads them.
* `Dadao.Qemu.Acts` — an instruction that makes a new state and goes on to the next one.

## Main results

* `Dadao.Qemu.acts_next` — an instruction without a loop.
-/

namespace Dadao.Qemu

open Tcg

/-- A register as the next instruction reads it. -/
def readReg (m : Machine Elem) : RegFile → ℕ → BitVec 64
  | .rd, 0 => 0
  | .rf, 0 => m.env.globals (.reg .rf 0) &&& fcsrMask ||| fcsrDefault
  | file, i => m.env.globals (.reg file i)

/-- **What the next instruction reads.** -/
def reads (m : Machine Elem) : State := ⟨readReg m, m.mem⟩

@[simp] lemma reads_mem (m : Machine Elem) : (reads m).mem = m.mem := rfl

@[simp] lemma reads_pc (m : Machine Elem) : (reads m).reg .rb 0 = m.env.globals .pc := rfl

/-- A register that is not one of the fixed ones. -/
lemma readReg_of_ne (m : Machine Elem) {file : RegFile} {i : ℕ} (h : i ≠ 0) :
    readReg m file i = m.env.globals (.reg file i) := by
  cases i with
  | zero => exact absurd rfl h
  | succ i => cases file <;> rfl

/-- Behind the prologue, the registers have what is read. -/
lemma Settled.read {m : Machine Elem} (h : Settled m) (file : RegFile) (i : ℕ) :
    m.env.globals (.reg file i) = (reads m).reg file i := by
  cases i with
  | zero =>
    cases file
    · exact h.rd
    · rfl
    · exact h.rf.symm
    · rfl
  | succ i => exact (readReg_of_ne m (by omega)).symm

/-- A temporary is not read by the next instruction. -/
@[simp] lemma reads_write_temp (m : Machine Elem) (n : ℕ) (v : BitVec 64) :
    reads (m.write (.temp n) v) = reads m := rfl

/-- Assigning a register. -/
lemma reads_write_reg (m : Machine Elem) {file : RegFile} {i : ℕ} (hi : i ≠ 0) (v : BitVec 64) :
    reads (m.write (.global (.reg file i)) v) = (reads m).set file i v := by
  have hne (f : RegFile) : Elem.reg f 0 ≠ .reg file i := by
    intro h
    simp only [Elem.reg.injEq] at h
    omega
  have hreg : readReg (m.write (.global (.reg file i)) v) =
      fun f j => if f = file ∧ j = i then v else readReg m f j := by
    funext f j
    by_cases hj : j = 0
    · subst hj
      rw [if_neg fun h => hi h.2.symm]
      cases f
      · rfl
      · exact Machine.globals_write_of_ne m (hne .rb) v
      · exact congrArg (fun x => x &&& fcsrMask ||| fcsrDefault)
          (Machine.globals_write_of_ne m (hne .rf) v)
      · exact Machine.globals_write_of_ne m (hne .ra) v
    · rw [readReg_of_ne _ hj, readReg_of_ne _ hj, Machine.write_env, Env.write_global_globals]
      by_cases h : f = file ∧ j = i
      · rw [if_pos h, if_pos (by rw [h.1, h.2])]
      · rw [if_neg h, if_neg]
        simp only [Elem.reg.injEq]
        rintro ⟨hf, hij⟩
        exact h ⟨hf, by omega⟩
  simp only [reads, State.set, hreg, Machine.write_mem]

/-- Assigning the program counter. -/
lemma reads_write_pc (m : Machine Elem) (v : BitVec 64) :
    reads (m.write (.global .pc) v) = (reads m).set .rb 0 v := by
  have hreg : readReg (m.write (.global .pc) v) =
      fun f j => if f = .rb ∧ j = 0 then v else readReg m f j := by
    funext f j
    by_cases hj : j = 0
    · subst hj
      cases f <;> rfl
    · rw [if_neg fun h => hj h.2, readReg_of_ne _ hj, readReg_of_ne _ hj]
      refine Machine.globals_write_of_ne m ?_ v
      simp only [ne_eq, Elem.reg.injEq]
      omega
  simp only [reads, State.set, hreg, Machine.write_mem]

/-- The operations before an instruction make the registers what is read. -/
lemma reads_prologue (m : Machine Elem) : reads (runStraight prologue m) = reads m := by
  have hreg : readReg (runStraight prologue m) = readReg m := by
    funext f j
    by_cases hj : j = 0
    · subst hj
      have hagain := (settled_prologue m).rf
      cases f
      · rfl
      · rfl
      · simp only [readReg]
        rw [hagain]
        simp [prologue, insnPrologue, stepOp, movi, BinOp.eval]
      · rfl
    · have hne (f' : RegFile) : Elem.reg f j ≠ .reg f' 0 := by
        intro h
        simp only [Elem.reg.injEq] at h
        omega
      rw [readReg_of_ne _ hj, readReg_of_ne _ hj]
      simp [prologue, insnPrologue, stepOp, movi, hne]
  have hmem : (runStraight prologue m).mem = m.mem := rfl
  simp only [reads, hreg, hmem]

/-! ## Instructions -/

/-- **An instruction that makes `f` of what it reads**, in a state that meets `pre`, and goes on to the next
one. -/
def Acts (pre : State → Prop) (w : BitVec 32) (f : State → State) : Prop :=
  ∀ m, pre (reads m) → ∃ m', Executes w m (.done m') ∧
    reads m' = (f (reads m)).set .rb 0 (m.env.globals .pc + 4)

/-- **An instruction that goes on to the next one**: its operations decide what it does. -/
lemma acts_of_exec {pre : State → Prop} {w : BitVec 32} {f : State → State} {ops : BitVec 64 → List (Op Elem)}
    (hdisas : ∀ pc, ∃ fuel t, disasInsn fuel pc w = some t ∧ t.emitted.mapM Emission.toOp = some (ops pc) ∧
      t.isJmp = .next)
    (hexec : ∀ m, Settled m → pre (reads m) → ∃ m', (∀ rest, exec (ops (m.env.globals .pc) ++ rest) none m =
      exec rest none m') ∧ reads m' = f (reads m)) : Acts pre w f := by
  intro m hm
  obtain ⟨fuel, t, ht, hops, hjmp⟩ := hdisas (m.env.globals .pc)
  obtain ⟨m', hrest, hreads⟩ := hexec _ (settled_prologue m) (by rwa [reads_prologue])
  have hpc : (runStraight prologue m).env.globals .pc = m.env.globals .pc := rfl
  have hstop : t.stop = [] := by rw [Translation.stop, hjmp, if_neg (by decide)]
  have hprologue : prologue.all Op.isStraight = true := rfl
  refine ⟨m'.write (.global .pc) (m.env.globals .pc + 4), ?_, ?_⟩
  · rw [executes_around ht hops, hjmp, if_pos rfl, hstop, exec_append_straight hprologue, ← hpc, hrest]
    rfl
  · rw [reads_write_pc, hreads, reads_prologue]

/-- **An instruction without a loop** that goes on to the next one. -/
lemma acts_next {w : BitVec 32} {ops : BitVec 64 → List (Op Global)} {f : State → State}
    (hmulti : multiOf w = none) (hhelper : ∀ pc, helperInsn pc w = none)
    (hdisas : ∀ pc, disasDadao pc w = some (some (.next (ops pc))))
    (hops : ∀ pc, (ops pc).all Op.isStraight = true)
    (hf : ∀ m, Settled m →
      reads (runStraight ((ops (m.env.globals .pc)).map (Op.map Global.elem)) m) = f (reads m)) :
    Acts always w f := by
  refine acts_of_exec (fun pc =>
    ⟨0, ⟨(ops pc).map .op, .next, -1⟩, ?_, mapM_toOp_op (ops pc), rfl⟩) fun m hm _ =>
      ⟨_, fun rest => ?_, hf m hm⟩
  · rw [disasInsn, hmulti]
    simp only
    rw [hhelper, hdisas]
    rfl
  · exact exec_append_straight (by rw [all_isStraight_map, hops]) m

end Dadao.Qemu
