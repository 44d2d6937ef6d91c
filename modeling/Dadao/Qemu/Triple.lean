import Dadao.Qemu.Integer
import Dadao.Qemu.ReturnStack
import Dadao.Qemu.Several

set_option relaxedAutoImplicit false
set_option autoImplicit false

/-!
# Words with conditions before and behind them

Consecutive words that lead from every state with one property to a state with another one, and the
return that ends a function.

## Main definitions

* `Dadao.Qemu.Triple` — consecutive words with a condition before and one behind them.
* `Dadao.Qemu.State.popRa` — the registers behind a pop of the return address.

## Main results

* `Dadao.Qemu.Triple.append`, `Dadao.Qemu.triple_of_acts` — the rules.
* `Dadao.Qemu.returns_ret` — what a return makes of the registers, and where it goes.
-/

namespace Dadao.Qemu

open Tcg

/-! ## The rules -/

/-- **Consecutive words lead from `P` to `Q`**: of every machine where `P` is read they make one where `Q`
is read. -/
def Triple (P : State → Prop) (ws : List (BitVec 32)) (Q : State → Prop) : Prop :=
  ∀ m, P (reads m) → ∃ m', Straight ws m m' ∧ Q (reads m')

section Rules

variable {P P' Q Q' R : State → Prop} {ws ws' : List (BitVec 32)} {w : BitVec 32}

/-- **Words one after the other.** -/
lemma Triple.append (h : Triple P ws Q) (h' : Triple Q ws' R) : Triple P (ws ++ ws') R := by
  intro m hm
  obtain ⟨t, hrun, ht⟩ := h m hm
  obtain ⟨m', hrun', hm'⟩ := h' t ht
  exact ⟨m', hrun.append hrun', hm'⟩

/-- A word and the words behind it. -/
lemma Triple.cons (h : Triple P [w] Q) (h' : Triple Q ws R) : Triple P (w :: ws) R := h.append h'

/-- **One instruction**: what it makes of a state with `P` has `Q`, wherever it goes on. -/
lemma triple_of_acts {f : State → State} (h : Acts always w f)
    (hf : ∀ s, P s → (f s).reg .rb 0 = s.reg .rb 0 ∧ ∀ pc, Q ((f s).set .rb 0 pc)) : Triple P [w] Q := by
  intro m hm
  obtain ⟨m', hexec, hreads⟩ := h m trivial
  have hnext : m'.env.globals .pc = m.env.globals .pc + 4 := by
    rw [← reads_pc m', hreads, State.set_reg, if_pos ⟨rfl, rfl⟩]
  exact ⟨m', ⟨m', hexec, hnext, rfl⟩, hreads ▸ (hf _ hm).2 _⟩

end Rules

/-! ## Loads and stores -/

section Memory

variable {w : BitVec 32} {op a b c d : ℕ}

/-- A store at a displacement. -/
lemma acts_st (src : ℕ → Global) (file : RegFile) (mo : MemOp) (h : Fields w op a b c d) (hw : Plain w)
    (hfile : ∀ i, (src i).elem = .reg file i) (hdisas : ∀ pc, disasDadao pc w = some (some (insnStRrii src mo w))) :
    Acts always w fun s => { s with mem := s.mem.store (s.reg .rb b +
      (BitVec.ofNat 12 (c * 2 ^ 6 + d)).signExtend 64) mo.bytes (s.reg file a) } := by
  refine acts_next hw.1 hw.2 (fun pc => by rw [hdisas, insnStRrii, h.ha]) (fun _ => rfl) fun m hm => ?_
  simp [h.hb, h.imms12, stepOp, hfile, hm.read, BinOp.eval]
  rfl

/-- A load at a displacement. -/
lemma acts_ld (dest : ℕ → Global) (file : RegFile) (mo : MemOp) (h : Fields w op a b c d) (hw : Plain w)
    (hfile : ∀ i, (dest i).elem = .reg file i)
    (hdisas : ∀ pc, disasDadao pc w = some (some (insnLdRrii dest false mo w))) (ha : a ≠ 0) :
    Acts always w fun s => s.set file a (mo.load s.mem (s.reg .rb b +
      (BitVec.ofNat 12 (c * 2 ^ 6 + d)).signExtend 64)) := by
  refine acts_next hw.1 hw.2 (fun pc => by rw [hdisas, insnLdRrii, h.ha, if_pos (Or.inl ha)])
    (fun _ => rfl) fun m hm => ?_
  simp [h.hb, h.imms12, stepOp, hfile, reads_write_reg _ ha, hm.read, BinOp.eval]

end Memory

/-! ## Returns -/

/-- The registers behind a pop of a return address from the registers. -/
def State.popRa (s : State) : State :=
  { s with reg := fun f j => if f = .ra ∧ j = 1 then 0 else if f = .ra ∧ 2 ≤ j ∧ j ≤ 63 then s.reg .ra (j - 1)
    else s.reg f j }

lemma State.popRa_reg (s : State) (f : RegFile) (j : ℕ) : s.popRa.reg f j =
    if f = .ra ∧ j = 1 then 0 else if f = .ra ∧ 2 ≤ j ∧ j ≤ 63 then s.reg .ra (j - 1) else s.reg f j := rfl

@[simp] lemma State.popRa_mem (s : State) : s.popRa.mem = s.mem := rfl

/-- A register of another file. -/
lemma State.popRa_reg_of_ne (s : State) {f : RegFile} (h : f ≠ .ra) (j : ℕ) : s.popRa.reg f j = s.reg f j := by
  rw [State.popRa_reg, if_neg fun hf => h hf.1, if_neg fun hf => h hf.1]

/-- The moves of a pop. -/
def popMoves : List (Elem × Elem) := (List.range 62).map fun i => (.reg .ra (63 - i : ℕ), .reg .ra (62 - i : ℕ))

lemma mem_popMoves {mv : Elem × Elem} :
    mv ∈ popMoves ↔ ∃ j : ℕ, 2 ≤ j ∧ j ≤ 63 ∧ mv = (.reg .ra j, .reg .ra (j - 1 : ℕ)) := by
  simp only [popMoves, List.mem_map, List.mem_range]
  constructor
  · rintro ⟨i, hi, rfl⟩
    exact ⟨63 - i, by omega, by omega, by rw [show 63 - i - 1 = 62 - i by omega]⟩
  · rintro ⟨j, hle, hlt, rfl⟩
    exact ⟨63 - j, by omega, by rw [show 63 - (63 - j) = j by omega, show 62 - (63 - j) = j - 1 by omega]⟩

/-- Going down, each register is read before it is assigned. -/
lemma ordered_popMoves : Moves.Ordered popMoves := by
  refine List.pairwise_map.mpr (List.pairwise_lt_range.imp_of_mem fun {i k} hi hk hlt => ?_)
  rw [List.mem_range] at hi hk
  simp only [ne_eq, Elem.reg.injEq, Int.natCast_inj, true_and]
  omega

/-- The operations of a pop with a return address in the registers. -/
lemma exec_popElem {s : Machine Elem} (h : s.env.globals (.reg .ra 63) ≠ 0) (rest : List (Op Elem)) :
    ∃ t, exec (popReturnAddress.map (Op.map Global.elem) ++ rest) none s = exec rest none t ∧ t.mem = s.mem ∧
      t.env.globals .jmpPc = s.env.globals (.reg .ra 63) ∧
      ∀ f (j : ℕ), t.env.globals (.reg f j) = if f = .ra ∧ j = 1 then 0
        else if f = .ra ∧ 2 ≤ j ∧ j ≤ 63 then s.env.globals (.reg .ra (j - 1 : ℕ)) else s.env.globals (.reg f j) := by
  -- the head goes to the moves, as the registers are not empty
  have hhead (tail : List (Op Elem)) : exec (popHead.map (Op.map Global.elem) ++ tail) none s =
      exec tail none (s.write (.global .jmpPc) (s.env.globals (.reg .ra 63))) := by
    simp only [popHead, List.map_cons, List.map_nil, List.cons_append, List.nil_append, Op.map, Var.map,
      Global.elem, Nat.cast_ofNat, exec_brcond, Cond.holds, Env.read_global, Env.read_const, bne_iff_ne]
    rw [if_pos h]
    simp [exec, stepOp]
  have hmap : (shiftDown 62).map (Op.map Global.elem) =
      popMoves.map fun mv => .mov (.global mv.1) (.global mv.2) := by
    rw [shiftDown, popMoves, List.map_map, List.map_map]
    rfl
  have hstraight : ((popMoves.map fun mv => .mov (.global mv.1) (.global mv.2) : List (Op Elem)).all
      Op.isStraight) = true := by
    simp [Op.isStraight]
  have htail (t : Machine Elem) : exec ((([.mov (glob (.ra 1)) (.const 0), .setLabel 2] : List (Op Global)).map
      (Op.map Global.elem)) ++ rest) none t = exec rest none (t.write (.global (.reg .ra 1)) 0) := rfl
  set s₁ := s.write (.global .jmpPc) (s.env.globals (.reg .ra 63))
  refine ⟨(runStraight (popMoves.map fun mv => .mov (.global mv.1) (.global mv.2)) s₁).write
    (.global (.reg .ra 1)) 0, ?_, ?_, ?_, fun f j => ?_⟩
  · rw [popReturnAddress_eq, List.map_append, List.map_append, List.append_assoc, List.append_assoc, hhead, hmap,
      exec_append_straight hstraight, htail]
  · rw [Machine.write_mem, runStraight_moves]
    rfl
  · have hne : ∀ mv ∈ popMoves, mv.1 ≠ Elem.jmpPc := by
      intro mv hmv
      obtain ⟨j, -, -, rfl⟩ := mem_popMoves.mp hmv
      simp
    rw [Machine.globals_write_of_ne _ (by simp), runStraight_moves]
    simp only
    rw [Moves.run_of_forall_ne hne, Machine.write_env, Env.write_global_globals, if_pos rfl]
  · rw [Machine.write_env, Env.write_global_globals]
    by_cases hone : f = .ra ∧ j = 1
    · rw [if_pos hone, if_pos (by rw [hone.1, hone.2]; rfl)]
    · have hne : Elem.reg f j ≠ .reg .ra 1 := by
        intro heq
        simp only [Elem.reg.injEq] at heq
        exact hone ⟨heq.1, by omega⟩
      rw [if_neg hone, if_neg hne, runStraight_moves]
      have hkeep (e : Elem) (he : e ≠ .jmpPc) : s₁.env.globals e = s.env.globals e :=
        Machine.globals_write_of_ne s he _
      split_ifs with hra
      · obtain ⟨rfl, hle, hlt⟩ := hra
        exact (Moves.run_of_mem ordered_popMoves (mem_popMoves.mpr ⟨j, hle, hlt, rfl⟩) _).trans (hkeep _ (by simp))
      · refine (Moves.run_of_forall_ne (fun mv hmv heq => hra ?_) _).trans (hkeep _ (by simp))
        obtain ⟨i, hle, hlt, rfl⟩ := mem_popMoves.mp hmv
        simp only [Elem.reg.injEq, Int.natCast_inj] at heq
        exact ⟨heq.1.symm, by omega, by omega⟩

variable {w : BitVec 32}

/-- **A return with its address in the registers** assigns the result, pops the address and goes there. -/
lemma returns_ret (hw : Plain w) (hdisas : ∀ pc, disasDadao pc w = some (some (transRET w))) {m : Machine Elem}
    (h : (reads m).reg .ra 63 ≠ 0) : ∃ m', Executes w m (.done m') ∧
      reads m' = (((reads m).put .rd (fieldHa w) (fieldImms 18 w)).popRa).set .rb 0 ((reads m).reg .ra 63) := by
  have hops : disasInsn 0 (m.env.globals .pc) w = some (transRET w).translation := by
    rw [disasInsn, hw.1]
    simp only
    rw [hw.2, hdisas]
    rfl
  have hprologue : prologue.all Op.isStraight = true := rfl
  -- the result is assigned before the pop
  set head : List (Op Elem) :=
    (if fieldHa w ≠ 0 then [.mov (.global (.reg .rd (fieldHa w))) (.const (fieldImms 18 w))] else []) with hhead
  set s := runStraight head (runStraight prologue m) with hs
  have hstraight : head.all Op.isStraight = true := by
    rw [hhead]
    split_ifs <;> rfl
  have hresult : reads s = (reads m).put .rd (fieldHa w) (fieldImms 18 w) := by
    rw [hs, hhead, ← reads_prologue m]
    by_cases ha : fieldHa w = 0
    · rw [if_neg (not_not.mpr ha), ha, State.put_zero]
      rfl
    · rw [if_pos ha]
      exact reads_write_put _ ha _
  have hra (j : ℕ) (hj : j ≠ 0) : s.env.globals (.reg .ra j) = (reads m).reg .ra j := by
    rw [← readReg_of_ne s hj]
    refine (congrArg (fun t : State => t.reg .ra j) hresult).trans ?_
    rw [State.put]
    split_ifs <;> simp
  obtain ⟨t, hexec, hmem, hjmp, hregs⟩ := exec_popElem ((hra 63 (by omega)).trans_ne h)
    [.mov (.global .pc) (.global .jmpPc)]
  refine ⟨t.write (.global .pc) (t.env.globals .jmpPc), (executes_around hops (mapM_toOp_op _) _).mpr ?_, ?_⟩
  · have htrans : (transRET w).ops.map (Op.map Global.elem) = head ++ popReturnAddress.map (Op.map Global.elem) := by
      rw [transRET, Emitted.jump, List.map_append, hhead]
      split_ifs <;> rfl
    have hend : ((if (transRET w).translation.isJmp = .next then
        [Op.mov (.global .pc) (.const (m.env.globals .pc + 4))] else []) : List (Op Elem)) = [] := rfl
    rw [exec_append_straight hprologue, hend, List.nil_append, htrans, List.append_assoc,
      exec_append_straight hstraight]
    exact hexec.symm
  · have hreads : reads t = (reads s).popRa := by
      have hreg : readReg t = (reads s).popRa.reg := by
        funext f j
        rw [State.popRa_reg]
        by_cases hj : j = 0
        · subst hj
          rw [if_neg (by simp), if_neg (by simp)]
          have hzero (f : RegFile) : t.env.globals (.reg f (0 : ℕ)) = s.env.globals (.reg f (0 : ℕ)) := by
            rw [hregs, if_neg (by simp), if_neg (by simp)]
          cases f
          · rfl
          · exact hzero .rb
          · exact congrArg (fun v => v &&& fcsrMask ||| fcsrDefault) (hzero .rf)
          · exact hzero .ra
        · rw [readReg_of_ne t hj, hregs]
          by_cases hpop : f = .ra ∧ 2 ≤ j ∧ j ≤ 63
          · rw [if_pos hpop, if_pos hpop]
            exact congrArg (ite _ _) (readReg_of_ne s (by omega)).symm
          · rw [if_neg hpop, if_neg hpop]
            exact congrArg (ite _ _) (readReg_of_ne s hj).symm
      exact (State.mk.injEq ..).mpr ⟨hreg, hmem⟩
    rw [reads_write_pc, hreads, hresult, hjmp, ← hra 63 (by omega)]
    rfl

end Dadao.Qemu
