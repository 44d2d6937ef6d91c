import Dadao.Lib.Moves
import Dadao.Qemu.Reads

set_option relaxedAutoImplicit false
set_option autoImplicit false

/-!
# Moves of several registers

`RD2RD` and the like: one assignment after the other, from the end of the ranges that makes them
simultaneous also where the ranges overlap.

## Main definitions

* `Dadao.Qemu.blockMoves` — the assignments in their order.

## Main results

* `Dadao.Qemu.blockMove_simultaneous` — each destination gets what its source had before.
-/

namespace Dadao.Qemu

open Tcg

/-- `rd0` and `rb0`, which a move does not assign. -/
def ReadOnly (file : RegFile) (i : ℕ) : Prop := i = 0 ∧ (file = .rd ∨ file = .rb)

instance (file : RegFile) (i : ℕ) : Decidable (ReadOnly file i) := inferInstanceAs (Decidable (_ ∧ _))

/-- The assignment for element `k`, from source to destination. -/
def blockMove (src dest : RegFile) (hb hc k : ℕ) : Elem × Elem :=
  (.reg dest (hb + k : ℕ), .reg src (hc + k : ℕ))

/-- **The assignments** of a move of `n` registers, in their order. -/
def blockMoves (src dest : RegFile) (hb hc n : ℕ) : List (Elem × Elem) :=
  ((orderTwo hb hc n).filter fun k => ¬ ReadOnly dest (hb + k)).map (blockMove src dest hb hc)

variable {src dest : RegFile} {hb hc n : ℕ}

lemma mem_blockMoves {m : Elem × Elem} : m ∈ blockMoves src dest hb hc n ↔
    ∃ k < n, ¬ ReadOnly dest (hb + k) ∧ m = blockMove src dest hb hc k := by
  have hmem (k : ℕ) : k ∈ orderTwo hb hc n ↔ k < n := by
    rcases orderTwo_cases hb hc n with h | h <;> simp [h]
  simp only [blockMoves, List.mem_map, List.mem_filter, hmem, decide_not, Bool.not_eq_true',
    decide_eq_false_iff_not]
  constructor
  · rintro ⟨k, ⟨hk, hro⟩, rfl⟩
    exact ⟨k, hk, hro, rfl⟩
  · rintro ⟨k, hk, hro, rfl⟩
    exact ⟨k, ⟨hk, hro⟩, rfl⟩

/-- **No assignment changes what a later one reads**: going up, sources are ahead of destinations, and going
down they are behind them. -/
lemma ordered_blockMoves : Moves.Ordered (blockMoves src dest hb hc n) := by
  have horder : (orderTwo hb hc n).Pairwise fun k k' => hb + k ≠ hc + k' ∧ k ≠ k' := by
    unfold orderTwo
    split_ifs with h
    · rw [List.pairwise_reverse]
      refine List.pairwise_lt_range.imp fun {k k'} hlt => ?_
      omega
    · refine List.pairwise_lt_range.imp fun {k k'} hlt => ?_
      omega
  refine List.pairwise_map.mpr ((horder.filter _).imp fun {k k'} hk => ?_)
  simp only [blockMove, ne_eq, Elem.reg.injEq, Int.natCast_inj]
  omega

/-- The operations of the loop, as assignments. -/
lemma mapM_r2rBody (order : List ℕ) :
    (order.flatMap fun k : ℕ => r2rBody src dest (hb + k) (hc + k)).mapM Emission.toOp =
      some (((order.filter fun k => ¬ ReadOnly dest (hb + k)).map (blockMove src dest hb hc)).map
        fun m => .mov (.global m.1) (.global m.2)) := by
  induction order with
  | nil => rfl
  | cons k order ih =>
    have hkeep : ((hb + k : ℤ) ≠ 0 ∨ dest = .rf ∨ dest = .ra) ↔ ¬ ReadOnly dest (hb + k) := by
      cases dest <;> simp [ReadOnly] <;> omega
    rw [List.flatMap_cons, List.mapM_append, ih, r2rBody]
    by_cases h : ReadOnly dest (hb + k)
    · rw [if_neg (fun hne => hkeep.mp hne h), List.filter_cons_of_neg (by simpa using h)]
      rfl
    · rw [if_pos (hkeep.mpr h), List.filter_cons_of_pos (by simpa using h)]
      rfl

/-- Assignments of globals to globals. -/
lemma runStraight_moves (moves : List (Elem × Elem)) (m : Machine Elem) :
    runStraight (moves.map fun mv => .mov (.global mv.1) (.global mv.2)) m =
      { m with env := { m.env with globals := Moves.run moves m.env.globals } } := by
  induction moves generalizing m with
  | nil => rfl
  | cons mv moves ih =>
    have hwrite : (m.write (.global mv.1) (m.env.globals mv.2)).env.globals =
        Function.update m.env.globals mv.1 (m.env.globals mv.2) := by
      funext g
      simp [Function.update_apply]
    rw [List.map_cons, runStraight_cons, ih, Moves.run_cons, ← hwrite]
    rfl

/-- The execution of a move of several registers. -/
lemma executes_r2r {w : BitVec 32} (hmulti : multiOf w = some (.r2r src dest)) (hpos : fieldHd w ≠ 0)
    (hhb : fieldHb w + fieldHd w ≤ 64) (hhc : fieldHc w + fieldHd w ≤ 64) (m : Machine Elem) :
    Executes w m (.done ((runStraight ((blockMoves src dest (fieldHb w) (fieldHc w) (fieldHd w)).map
      fun mv => .mov (.global mv.1) (.global mv.2)) (runStraight prologue m)).write (.global .pc)
        (m.env.globals .pc + 4))) := by
  have hdisas : disasInsn (fieldHd w) (m.env.globals .pc) w =
      some ⟨(orderTwo (fieldHb w) (fieldHc w) (fieldHd w)).flatMap fun k : ℕ =>
        r2rBody src dest (fieldHb w + k) (fieldHc w + k), .next, -1⟩ := by
    rw [disasInsn, hmulti]
    exact insnRegOrri_of_legal hpos hhb hhc
  have hprologue : prologue.all Op.isStraight = true := rfl
  have hmoves (moves : List (Elem × Elem)) : (moves.map fun mv =>
      (.mov (.global mv.1) (.global mv.2) : Op Elem)).all Op.isStraight = true := by
    simp [Op.isStraight]
  rw [executes_around hdisas (mapM_r2rBody _), exec_append_straight hprologue,
    exec_append_straight (hmoves _)]
  rfl

/-- **A move of several registers is a simultaneous assignment**, also where the ranges overlap: each
destination but `rd0` and `rb0` gets what its source had before, and nothing else changes. -/
theorem blockMove_simultaneous {w : BitVec 32} (hmulti : multiOf w = some (.r2r src dest))
    (hpos : fieldHd w ≠ 0) (hhb : fieldHb w + fieldHd w ≤ 64) (hhc : fieldHc w + fieldHd w ≤ 64)
    (m : Machine Elem) : ∃ m', Executes w m (.done m') ∧ m'.mem = m.mem ∧
      m'.env.globals .pc = m.env.globals .pc + 4 ∧
      (∀ i < fieldHd w, ¬ ReadOnly dest (fieldHb w + i) →
        m'.env.globals (.reg dest (fieldHb w + i : ℕ)) = (reads m).reg src (fieldHc w + i)) ∧
      ∀ file j, (∀ i < fieldHd w, ¬ ReadOnly dest (fieldHb w + i) → ¬ (file = dest ∧ j = fieldHb w + i)) →
        ¬ (file = .rb ∧ j = 0) → m'.env.globals (.reg file j) = (reads m).reg file j := by
  have hmem (moves : List (Elem × Elem)) (s : Machine Elem) : (runStraight (moves.map fun mv =>
      .mov (.global mv.1) (.global mv.2)) s).mem = s.mem := by
    rw [runStraight_moves]
  have hread (file : RegFile) (i : ℕ) :
      (runStraight prologue m).env.globals (.reg file i) = (reads m).reg file i := by
    rw [(settled_prologue m).read, reads_prologue]
  refine ⟨_, executes_r2r hmulti hpos hhb hhc m, hmem _ _, ?_, fun i hi hro => ?_, fun file j hdest hpc => ?_⟩
  · rw [Machine.write_env, Env.write_global_globals, if_pos rfl]
  · have hne : Elem.reg dest (fieldHb w + i : ℕ) ≠ .pc := by
      rintro h
      simp only [Elem.reg.injEq] at h
      exact hro ⟨by omega, .inr h.1⟩
    have hin : blockMove src dest (fieldHb w) (fieldHc w) i ∈ _ :=
      mem_blockMoves.mpr ⟨i, hi, hro, rfl⟩
    rw [Machine.globals_write_of_ne _ hne, runStraight_moves]
    exact (Moves.run_of_mem ordered_blockMoves hin _).trans (hread _ _)
  · have hne : Elem.reg file j ≠ .pc := by
      rintro h
      simp only [Elem.reg.injEq] at h
      exact hpc ⟨h.1, by omega⟩
    rw [Machine.globals_write_of_ne _ hne, runStraight_moves]
    refine (Moves.run_of_forall_ne (fun mv hmv heq => ?_) _).trans (hread _ _)
    obtain ⟨i, hi, hro, rfl⟩ := mem_blockMoves.mp hmv
    simp only [blockMove, Elem.reg.injEq, Int.natCast_inj] at heq
    exact hdest i hi hro ⟨heq.1.symm, heq.2.symm⟩

/-- The machine with a `2` in `rd2` and zeros elsewhere. -/
def machineRd2 : Machine Elem := ⟨⟨fun e => if e = .reg .rd 2 then 2 else 0, fun _ => 0⟩, fun _ => 0⟩

/-- `rd2rd rd2, rd1, 2`, whose ranges overlap, and its registers. -/
theorem blockMove_simultaneous_overlap : ∃ m', Executes 0x10a02042#32 machineRd2 (.done m') ∧
    m'.env.globals (.reg .rd 3) = (reads machineRd2).reg .rd 2 := by
  obtain ⟨m', hexec, -, -, hdest, -⟩ := blockMove_simultaneous
    (show multiOf 0x10a02042#32 = some (.r2r .rd .rd) from rfl) (by decide) (by decide) (by decide) machineRd2
  exact ⟨m', hexec, hdest 1 (by decide) (by decide)⟩

end Dadao.Qemu
