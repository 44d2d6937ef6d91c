import Dadao.Qemu.Translate
import Mathlib.Data.List.Basic
import Mathlib.Logic.Function.Basic

set_option relaxedAutoImplicit false
set_option autoImplicit false

/-!
# Sequences of instructions

Consecutive instructions that go on to the next one, and what they make of one register. A register
is looked at as the next instruction reads it, behind the operations emitted before every
instruction.

## Main definitions

* `Dadao.Qemu.runInsns` — fetch and execute a number of instructions.
* `Dadao.Qemu.regs` — the registers as an instruction reads them.
* `Dadao.Qemu.Runs` — the execution of consecutive words.
* `Dadao.Qemu.Computes` — what consecutive words make of a register.

## Main results

* `Dadao.Qemu.Computes.append` — sequences compose.
* `Dadao.Qemu.runInsns_append` — words in memory are executed one after the other.
-/

namespace Dadao.Qemu

open Tcg

/-- The program counter of a machine. -/
def pcOf (s : Machine Global) : BitVec 64 := s.env.globals cpuPc

/-- Fetch and execute `n` instructions, unless one raises an exception; `none` for an instruction
left out. -/
def runInsns (fetch : BitVec 64 → BitVec 32) : ℕ → Machine Global → Option (Outcome Global)
  | 0, s => some (.done s)
  | n + 1, s =>
    match execInsn (pcOf s) (fetch (pcOf s)) s with
    | some (.done s') => runInsns fetch n s'
    | r => r

/-! ## Registers between instructions -/

/-- What `insnPrologue` makes of a register. -/
def settle : Global → BitVec 64 → BitVec 64
  | .rd 0, _ => 0
  | .rf 0, v => v &&& fcsrMask ||| fcsrDefault
  | _, v => v

/-- Any other register is left alone. -/
lemma settle_of_ne {g : Global} {v : BitVec 64} (hrd : g ≠ .rd 0) (hrf : g ≠ .rf 0) :
    settle g v = v := by
  unfold settle
  split
  · exact absurd rfl hrd
  · exact absurd rfl hrf
  · rfl

/-- The registers as the next instruction reads them. -/
def regs (s : Machine Global) (g : Global) : BitVec 64 := settle g (s.env.globals g)

/-- The prologue settles the registers and does nothing else. -/
lemma runStraight_insnPrologue (s : Machine Global) (g : Global) :
    (runStraight insnPrologue s).env.globals g = regs s g := by
  unfold regs settle
  split
  · simp [insnPrologue, runStraight, stepOp, movi]
  · simp [insnPrologue, runStraight, stepOp, movi, BinOp.eval]
  · rename_i hrd hrf
    simp only [insnPrologue, runStraight, stepOp, movi, List.foldl_cons, List.foldl_nil,
      Machine.write_env, Env.write_global_globals]
    rw [if_neg hrf, if_neg hrf, if_neg hrd]

/-- Settling twice is settling once. -/
lemma settle_settle (g : Global) (v : BitVec 64) : settle g (settle g v) = settle g v := by
  by_cases hrf : g = .rf 0
  · have hfixed : fcsrDefault &&& fcsrMask ||| fcsrDefault = fcsrDefault := by decide
    subst hrf
    simp only [settle]
    rw [BitVec.and_or_distrib_right, BitVec.and_assoc, BitVec.and_self, BitVec.or_assoc, hfixed]
  · by_cases hrd : g = .rd 0
    · rw [hrd]
      rfl
    · rw [settle_of_ne hrd hrf, settle_of_ne hrd hrf]

/-- The end of an instruction that goes on to the next one. -/
lemma execInsn_next {pc : BitVec 64} {w : BitVec 32} {ops : List (Op Global)}
    (hdisas : disasDadao pc w = some (some (.next ops))) (hops : ops.all Op.isStraight = true)
    (s : Machine Global) : execInsn pc w s =
      some (.done ((runStraight ops (runStraight insnPrologue s)).write (glob cpuPc) (pc + 4))) := by
  have hall : (insnPrologue ++ ops ++ [movi cpuPc (pc + 4)]).all Op.isStraight = true := by
    rw [List.all_append, List.all_append, hops]
    rfl
  have hinsn : insnOps pc (some (.next ops)) = insnPrologue ++ ops ++ [movi cpuPc (pc + 4)] := rfl
  rw [execInsn, hdisas, Option.map_some, hinsn, exec_straight hall]
  simp only [runStraight, List.foldl_append, List.foldl_cons, List.foldl_nil, movi, stepOp,
    Env.read_const]

/-- A word without an instruction. -/
lemma execInsn_undefined {pc : BitVec 64} {w : BitVec 32} (hdisas : disasDadao pc w = some none)
    (s : Machine Global) : ∃ s', execInsn pc w s = some (.raised excpIlli s') := by
  rw [execInsn, hdisas, Option.map_some]
  exact ⟨_, rfl⟩

/-! ## Consecutive words -/

/-- Execute consecutive words, each going on to the next. -/
def Runs : List (BitVec 32) → Machine Global → Machine Global → Prop
  | [], s, s' => s' = s
  | w :: ws, s, s' =>
    ∃ t, execInsn (pcOf s) w s = some (.done t) ∧ pcOf t = pcOf s + 4 ∧ Runs ws t s'

/-- Runs compose. -/
lemma Runs.append {ws ws' : List (BitVec 32)} {s t s' : Machine Global} (h : Runs ws s t)
    (h' : Runs ws' t s') : Runs (ws ++ ws') s s' := by
  induction ws generalizing s with
  | nil =>
    rw [Runs] at h
    rwa [← h]
  | cons w ws ih =>
    obtain ⟨t', hexec, hpc, hrest⟩ := h
    exact ⟨t', hexec, hpc, ih hrest⟩

/-- The address behind the words. -/
lemma Runs.pcOf_eq {ws : List (BitVec 32)} {s s' : Machine Global} (h : Runs ws s s') :
    pcOf s' = pcOf s + BitVec.ofNat 64 (4 * ws.length) := by
  induction ws generalizing s with
  | nil =>
    rw [Runs] at h
    simp [h]
  | cons w ws ih =>
    obtain ⟨t, -, hpc, hrest⟩ := h
    rw [ih hrest, hpc, BitVec.add_assoc, List.length_cons, Nat.mul_add, Nat.add_comm (4 * _),
      BitVec.ofNat_add]
    rfl

/-- **Words in memory** are executed one after the other. -/
lemma runInsns_append {fetch : BitVec 64 → BitVec 32} {ws : List (BitVec 32)}
    {s s' : Machine Global} (h : Runs ws s s')
    (hfetch : ∀ k < ws.length, ws[k]? = some (fetch (pcOf s + BitVec.ofNat 64 (4 * k)))) (n : ℕ) :
    runInsns fetch (ws.length + n) s = runInsns fetch n s' := by
  induction ws generalizing s with
  | nil =>
    rw [Runs] at h
    rw [h, List.length_nil, Nat.zero_add]
  | cons w ws ih =>
    obtain ⟨t, hexec, hpc, hrest⟩ := h
    have hw : w = fetch (pcOf s) := by simpa using hfetch 0 (by simp)
    rw [List.length_cons, Nat.add_right_comm, runInsns, ← hw, hexec]
    refine ih hrest fun k hk => ?_
    have hnext : pcOf t + BitVec.ofNat 64 (4 * k) = pcOf s + BitVec.ofNat 64 (4 * (k + 1)) := by
      rw [hpc, BitVec.add_assoc, Nat.mul_add, Nat.add_comm, BitVec.ofNat_add]
      rfl
    rw [hnext, ← hfetch (k + 1) (by simpa using hk), List.getElem?_cons_succ]

/-- A run that meets a word without an instruction does not come to its end. -/
lemma runInsns_undefined {fetch : BitVec 64 → BitVec 32} {ws : List (BitVec 32)}
    {s t : Machine Global} (h : Runs ws s t)
    (hfetch : ∀ k < ws.length, ws[k]? = some (fetch (pcOf s + BitVec.ofNat 64 (4 * k))))
    (hdisas : disasDadao (pcOf t) (fetch (pcOf s + BitVec.ofNat 64 (4 * ws.length))) = some none)
    (n : ℕ) (s' : Machine Global) : runInsns fetch (ws.length + (n + 1)) s ≠ some (.done s') := by
  rw [runInsns_append h hfetch, runInsns]
  rw [← h.pcOf_eq] at hdisas
  obtain ⟨t', hexec⟩ := execInsn_undefined hdisas t
  rw [hexec]
  simp

/-- Consecutive words compute a function of one register and keep the others. -/
def Computes (dst : Global) (ws : List (BitVec 32)) (f : BitVec 64 → BitVec 64) : Prop :=
  ∀ s, ∃ s', Runs ws s s' ∧ regs s' dst = f (regs s dst) ∧
    ∀ g, g ≠ dst → g ≠ cpuPc → regs s' g = regs s g

lemma computes_nil (dst : Global) : Computes dst [] id :=
  fun s => ⟨s, rfl, rfl, fun _ _ _ => rfl⟩

/-- **Sequences compose.** -/
lemma Computes.append {dst : Global} {ws ws' : List (BitVec 32)} {f f' : BitVec 64 → BitVec 64}
    (h : Computes dst ws f) (h' : Computes dst ws' f') : Computes dst (ws ++ ws') (f' ∘ f) := by
  intro s
  obtain ⟨t, hruns, hdst, hframe⟩ := h s
  obtain ⟨s', hruns', hdst', hframe'⟩ := h' t
  refine ⟨s', hruns.append hruns', ?_, fun g hg hpc => ?_⟩
  · rw [hdst', hdst]
    rfl
  · rw [hframe' g hg hpc, hframe g hg hpc]

/-- One instruction that assigns its destination. -/
lemma computes_of_next {dst : Global} {w : BitVec 32} {ops : List (Op Global)}
    {f : BitVec 64 → BitVec 64} (hdst : dst ≠ cpuPc)
    (hdisas : ∀ pc, disasDadao pc w = some (some (.next ops)))
    (hops : ops.all Op.isStraight = true)
    (hf : ∀ s, (runStraight ops s).env.globals dst = f (s.env.globals dst))
    (hframe : ∀ s g, g ≠ dst → (runStraight ops s).env.globals g = s.env.globals g) :
    Computes dst [w] (settle dst ∘ f) := by
  intro s
  refine ⟨_, ⟨_, execInsn_next (hdisas _) hops s, ?_, rfl⟩, ?_, fun g hg hpc => ?_⟩
  · simp [pcOf]
  · rw [regs, Machine.write_env, Env.write_global_globals, if_neg hdst, hf,
      runStraight_insnPrologue]
    rfl
  · rw [regs, Machine.write_env, Env.write_global_globals, if_neg hpc, hframe _ _ hg,
      runStraight_insnPrologue, regs, settle_settle]

end Dadao.Qemu
