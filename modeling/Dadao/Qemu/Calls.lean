import Dadao.Qemu.Insns
import Dadao.Qemu.ReturnStack

set_option relaxedAutoImplicit false
set_option autoImplicit false

/-!
# Calls

Where a call goes. It pushes its return address first, which needs room in the registers or in memory; the
registers that make up the target are not among those of the stack.

## Main definitions

* `Dadao.Qemu.CanPush` — the return address can be pushed.

## Main results

* `Dadao.Qemu.exec_pushElem` — a push keeps all other registers.
* `Dadao.Qemu.calls_rrii`, `Dadao.Qemu.calls_iiii` — the targets.
-/

namespace Dadao.Qemu

open Tcg

/-- **The return address can be pushed**: a register is free, or `rasp` is set up. -/
def CanPush (m : Machine Elem) : Prop := m.env.globals (.reg .ra 1) = 0 ∨ m.env.globals (.reg .ra 0) ≠ 0

/-- The other registers are kept. -/
def KeepsOthers (s t : Machine Elem) : Prop :=
  ∀ file i, file ≠ .ra → t.env.globals (.reg file i) = s.env.globals (.reg file i)

/-- An assignment to a register of the stack. -/
lemma keepsOthers_write (s : Machine Elem) (i : ℤ) (v : BitVec 64) :
    KeepsOthers s (s.write (.global (.reg .ra i)) v) := by
  intro file j hfile
  rw [Machine.write_env, Env.write_global_globals, if_neg (by simp [hfile])]

lemma KeepsOthers.trans {s t u : Machine Elem} (h : KeepsOthers s t) (h' : KeepsOthers t u) : KeepsOthers s u :=
  fun file i hfile => (h' file i hfile).trans (h file i hfile)

/-- A move to a register of the stack. -/
def IsRaMove (op : Op Elem) : Prop := ∃ i v, op = .mov (.global (.reg .ra i)) v

/-- Moves of the stack. -/
lemma exec_raMoves {ops : List (Op Elem)} (h : ∀ op ∈ ops, IsRaMove op) (s : Machine Elem) (rest : List (Op Elem)) :
    ∃ t, exec (ops ++ rest) none s = exec rest none t ∧ KeepsOthers s t := by
  induction ops generalizing s with
  | nil => exact ⟨s, rfl, fun _ _ _ => rfl⟩
  | cons op ops ih =>
    obtain ⟨i, v, rfl⟩ := h op List.mem_cons_self
    obtain ⟨t, hexec, hkeeps⟩ := ih (fun op hop => h op (List.mem_cons_of_mem _ hop))
      (s.write (.global (.reg .ra i)) (s.env.read v))
    exact ⟨t, hexec, (keepsOthers_write s i _).trans hkeeps⟩

/-- The moves of a push. -/
def pushMovesOf (pc : BitVec 64) : List (Op Global) :=
  (List.range 62).map (fun i => .mov (glob (.ra (i + 1))) (glob (.ra (i + 2)))) ++ [movi (.ra 63) (pc + 4)]

lemma raMove_of_mem {pc : BitVec 64} {op : Op Elem} (h : op ∈ (pushMovesOf pc).map (Op.map Global.elem)) :
    IsRaMove op := by
  simp only [pushMovesOf, List.map_append, List.map_map, List.mem_append, List.mem_map, List.map_cons,
    List.map_nil, List.mem_singleton] at h
  rcases h with ⟨i, -, rfl⟩ | rfl
  · exact ⟨_, _, rfl⟩
  · exact ⟨_, _, rfl⟩

section Push

variable (pc : BitVec 64) {s : Machine Elem} (rest : List (Op Elem))

/-- The head of a push. -/
lemma exec_pushHeadElem (h : CanPush s) : ∃ t,
    exec (pushHead.map (Op.map Global.elem) ++ rest) none s = exec rest none t ∧ KeepsOthers s t := by
  simp only [pushHead, List.map_cons, List.map_nil, List.cons_append, List.nil_append, Op.map, Var.map, Global.elem,
    exec_brcond, Cond.holds, Env.read_global, Env.read_const, beq_iff_eq, bne_iff_ne, Nat.cast_zero, Nat.cast_one]
  by_cases hfree : s.env.globals (.reg .ra 1) = 0
  · rw [if_pos hfree]
    exact ⟨s, by simp [exec], fun _ _ _ => rfl⟩
  · have hrasp : s.env.globals (.reg .ra 0) ≠ 0 := h.resolve_left hfree
    rw [if_neg hfree, if_pos hrasp]
    refine ⟨⟨s.env.write (.global (.reg .ra 0)) (s.env.globals (.reg .ra 0) + -8),
      s.mem.store (s.env.globals (.reg .ra 0) + -8) 8 (s.env.globals (.reg .ra 1))⟩, ?_, ?_⟩
    · simp [exec, stepOp, Machine.write, moTeuq, BinOp.eval]
    · intro file j hfile
      rw [Env.write_global_globals, if_neg (by simp [hfile])]

/-- **A push** goes on with all other registers kept, if there is room. -/
lemma exec_pushElem (h : CanPush s) : ∃ t,
    exec ((pushReturnAddress pc).map (Op.map Global.elem) ++ rest) none s = exec rest none t ∧ KeepsOthers s t := by
  have hsplit : pushReturnAddress pc = pushHead ++ pushMovesOf pc := by
    rw [pushReturnAddress, pushMovesOf, List.append_assoc]
    rfl
  rw [hsplit, List.map_append, List.append_assoc]
  obtain ⟨t, hhead, hkeeps⟩ := exec_pushHeadElem ((pushMovesOf pc).map (Op.map Global.elem) ++ rest) h
  obtain ⟨u, hmoves, hkeeps'⟩ := exec_raMoves (fun op => raMove_of_mem) t rest
  exact ⟨u, hhead.trans hmoves, hkeeps.trans hkeeps'⟩

end Push

section Targets

variable {w : BitVec 32} {op a b c d : ℕ} {m : Machine Elem}

/-- The registers of the machine before the push. -/
lemma CanPush.prologue (h : CanPush m) : CanPush (runStraight prologue m) := by
  have hkeep (i : ℤ) : (runStraight Qemu.prologue m).env.globals (.reg .ra i) = m.env.globals (.reg .ra i) := by
    simp [Qemu.prologue, insnPrologue, stepOp, movi, Global.elem, Var.map]
  rwa [CanPush, hkeep, hkeep]

/-- **A call through registers** goes to its target. -/
lemma calls_rrii (h : Fields w op a b c d) (hw : Plain w)
    (hdisas : ∀ pc, disasDadao pc w = some (some (transCALLr pc w))) (ha : a ≠ 0) (hroom : CanPush m) :
    ∃ m', Executes w m (.done m') ∧ m'.env.globals .pc = (view m).reg .rb a +
      (view m).reg .rd b + (BitVec.ofNat 12 (c * 2 ^ 6 + d)).signExtend 64 * 4 := by
  have hops : disasInsn 0 (m.env.globals .pc) w = some (transCALLr (m.env.globals .pc) w).translation := by
    rw [disasInsn, hw.1]
    simp only
    rw [hw.2, hdisas]
    rfl
  have hprologue : prologue.all Op.isStraight = true := rfl
  have hset := settled_prologue m
  have hrd := hset.read_rd b
  have hrb := read_rb (runStraight prologue m) ha
  rw [view_prologue] at hrd hrb
  obtain ⟨t, hpush, hkeeps⟩ := exec_pushElem (m.env.globals .pc)
    ((transJUMPr w).ops.map (Op.map Global.elem) ++ (transCALLr (m.env.globals .pc) w).translation.stop)
      hroom.prologue
  have hrb' := (hkeeps .rb a (by decide)).trans hrb
  have hrd' := (hkeeps .rd b (by decide)).trans hrd
  refine ⟨(runStraight ((transJUMPr w).ops.map (Op.map Global.elem)) t).write (.global .pc)
    ((runStraight ((transJUMPr w).ops.map (Op.map Global.elem)) t).env.globals .jmpPc),
    (executes_around hops (mapM_toOp_op _) _).mpr ?_, ?_⟩
  · have htrans : (transCALLr (m.env.globals .pc) w).ops =
        pushReturnAddress (m.env.globals .pc) ++ (transJUMPr w).ops := rfl
    have hend : ((if (transCALLr (m.env.globals .pc) w).translation.isJmp = .next then
        [Op.mov (.global .pc) (.const (m.env.globals .pc + 4))] else []) : List (Op Elem)) = [] := rfl
    rw [exec_append_straight hprologue, hend, List.nil_append, htrans, List.map_append, List.append_assoc, hpush,
      exec_append_straight (by rw [all_isStraight_map]; rfl)]
    rfl
  · rw [Machine.write_env, Env.write_global_globals, if_pos rfl]
    rw [← hrb', ← hrd', ← h.ha, ← h.hb, ← h.imms12]
    simp [transJUMPr, Emitted.jump, stepOp, BinOp.eval]

/-- **A call of an address** goes to its target. -/
lemma calls_iiii (hw : Plain w) (hdisas : ∀ pc, disasDadao pc w = some (some (transCALLi pc w))) (hroom : CanPush m)
    (htarget : m.env.globals .pc + fieldImms 24 w * 4 ≠ -1) : ∃ m', Executes w m (.done m') ∧
      m'.env.globals .pc = m.env.globals .pc + fieldImms 24 w * 4 := by
  have hops : disasInsn 0 (m.env.globals .pc) w = some (transCALLi (m.env.globals .pc) w).translation := by
    rw [disasInsn, hw.1]
    simp only
    rw [hw.2, hdisas]
    rfl
  have hprologue : prologue.all Op.isStraight = true := rfl
  obtain ⟨t, hpush, -⟩ := exec_pushElem (m.env.globals .pc)
    ((transCALLi (m.env.globals .pc) w).translation.stop) hroom.prologue
  have hstop : (transCALLi (m.env.globals .pc) w).translation.stop =
      [.mov (.global .pc) (.const (m.env.globals .pc + fieldImms 24 w * 4))] :=
    (if_pos rfl).trans (if_neg htarget)
  refine ⟨t.write (.global .pc) (m.env.globals .pc + fieldImms 24 w * 4),
    (executes_around hops (mapM_toOp_op _) _).mpr ?_, ?_⟩
  · have htrans : (transCALLi (m.env.globals .pc) w).ops = pushReturnAddress (m.env.globals .pc) :=
      List.append_nil _
    have hend : ((if (transCALLi (m.env.globals .pc) w).translation.isJmp = .next then
        [Op.mov (.global .pc) (.const (m.env.globals .pc + 4))] else []) : List (Op Elem)) = [] := rfl
    rw [exec_append_straight hprologue, hend, List.nil_append, htrans, hpush, hstop]
    rfl
  · rw [Machine.write_env, Env.write_global_globals, if_pos rfl]

end Targets

end Dadao.Qemu
