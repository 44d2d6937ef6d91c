import Dadao.Qemu.Sequence
import Dadao.Qemu.SpecialRegs

set_option relaxedAutoImplicit false
set_option autoImplicit false

/-!
# Restarting an instruction

An access to memory can fault, and an instruction can raise an exception of its own. Once the cause has
been removed, the instruction is executed again, on the registers and the memory it has left behind.
Most instructions assign nothing before their last operation that can fault. A call that spills moves
`rasp` before it stores, and a load of several registers can overwrite its own base or index.

## Main definitions

* `Dadao.Qemu.Translation.outcome` — the CPU after an instruction.
* `Dadao.Qemu.Restartable` — that executing an instruction again makes no difference.
* `Dadao.Qemu.Spills`, `Dadao.Qemu.Reloads` — the two exceptions.

## Main results

* `Dadao.Qemu.restartable_of_faultsFirst` — instructions that assign registers behind their faults.
* `Dadao.Qemu.restartable_iff` — the instructions and CPUs for which a restart is right.
-/

namespace Dadao.Qemu

open Tcg

/-- The CPU between instructions: the temporaries belong to one translation. -/
def fresh (s : Machine Elem) : Machine Elem := ⟨⟨s.env.globals, fun _ => 0⟩, s.mem⟩

/-- **The CPU after an instruction** and the exception it raises, if it does. -/
def Translation.outcome (fpu : Fpu) (t : Translation) (s : Machine Elem) : Machine Elem × Option ℕ :=
  let end' := fpu.dialect.final (t.emitted ++ t.stop.map .elemOp) none (fresh s)
  (fresh end'.1, end'.2)

/-- What the handler of an exception changes: registers and memory. -/
structure Repair where
  regs : Elem → Option (BitVec 64)
  mem : Memory → Memory

/-- The CPU a handler returns to. -/
def Repair.apply (r : Repair) (s : Machine Elem) : Machine Elem :=
  ⟨⟨fun g => (r.regs g).getD (s.env.globals g), s.env.temps⟩, r.mem s.mem⟩

/-- **A translation is restartable**: executed again after any of its accesses to memory has faulted, it
ends as it would have without the fault; and after an exception of its own it ends, whatever the handler
has changed, as it would have if the change had been made before. -/
def RestartableAt (fpu : Fpu) (t : Translation) (s : Machine Elem) : Prop :=
  (∀ v ∈ t.visits fpu (fresh s), v.1.accesses = true → t.outcome fpu v.2 = t.outcome fpu s) ∧
  ((t.outcome fpu s).2 ≠ none → ∀ r : Repair,
    t.outcome fpu (r.apply (t.outcome fpu s).1) = t.outcome fpu (r.apply s))

/-- **An instruction is restartable** on a CPU. -/
def Restartable (fpu : Fpu) (w : BitVec 32) (s : Machine Elem) : Prop :=
  ∀ fuel t, translateInsn fuel (pcVal s) w = some t → RestartableAt fpu t s

/-! ## Faults before assignments -/

section FaultsFirst

variable {fpu : Fpu} {w : BitVec 32} {s : Machine Elem} {t : Translation} {pc : BitVec 64}

@[simp] lemma fresh_fresh (s : Machine Elem) : fresh (fresh s) = fresh s := rfl

lemma SameCpu.fresh_eq {s s' : Machine Elem} (h : SameCpu s s') : fresh s = fresh s' := by
  rw [fresh, fresh, h.1, h.2]

lemma sameCpu_fresh (s : Machine Elem) : SameCpu (fresh s) s := ⟨rfl, rfl⟩

/-- Two machines are one. -/
lemma machine_ext {s s' : Machine Elem} (hglobals : s.env.globals = s'.env.globals)
    (htemps : s.env.temps = s'.env.temps) (hmem : s.mem = s'.mem) : s = s' := by
  obtain ⟨⟨g, τ⟩, m⟩ := s
  obtain ⟨⟨g', τ'⟩, m'⟩ := s'
  simp only at hglobals htemps hmem
  rw [hglobals, htemps, hmem]

@[simp] lemma effectStart_mem (s : Machine Elem) : (effectStart s).mem = s.mem := rfl

@[simp] lemma effectStart_temps (s : Machine Elem) : (effectStart s).env.temps = s.env.temps := rfl

/-- What an instruction does behind the prologue. -/
def body (t : Translation) (pc : BitVec 64) : List Emission :=
  t.emitted ++ nextPc t pc ++ t.stop.map .elemOp

lemma outcome_around : (t.around pc).outcome fpu s =
    (fresh (fpu.dialect.final (body t pc) none (effectStart (fresh s))).1,
      (fpu.dialect.final (body t pc) none (effectStart (fresh s))).2) := by
  have hlist : (t.around pc).emitted ++ (t.around pc).stop.map .elemOp =
      insnPrologue.map .op ++ body t pc := by
    simp only [Translation.around, body, nextPc, List.append_assoc]
    rfl
  rw [Translation.outcome, hlist, Dialect.final_append_straight straight_insnPrologue]
  rfl

/-- The prologue may be executed before a handler and again behind it. -/
lemma effectStart_repair (r : Repair) (s : Machine Elem) :
    effectStart (fresh (r.apply (effectStart (fresh s)))) = effectStart (fresh (r.apply s)) := by
  refine machine_ext (funext fun g => ?_) rfl rfl
  rw [effectStart_globals, effectStart_globals]
  have hrepair : ∀ (s : Machine Elem) g, (fresh (r.apply s)).env.globals g =
      (r.regs g).getD (s.env.globals g) := fun _ _ => rfl
  rw [hrepair, hrepair, hrepair, hrepair]
  by_cases hf : g = .fcsr
  · rw [if_pos hf, if_pos hf]
    cases r.regs .fcsr with
    | some v => rfl
    | none =>
      have hsettle := settle_settle (.rf 0) (s.env.globals .fcsr)
      rw [Option.getD_none, Option.getD_none, effectStart_globals, if_pos rfl]
      exact hsettle
  · rw [if_neg hf, if_neg hf]
    by_cases hz : g = .reg .rd 0
    · rw [if_pos hz, if_pos hz]
    · rw [if_neg hz, if_neg hz, effectStart_of_ne hf hz]
      rfl

/-- No access is in the prologue. -/
lemma prologue_accesses {e : Emission} (he : e ∈ insnPrologue.map Emission.op) :
    e.accesses = false := by
  obtain ⟨o, ho, rfl⟩ := List.mem_map.mp he
  simp only [insnPrologue, List.mem_cons, List.not_mem_nil, or_false] at ho
  rcases ho with rfl | rfl | rfl <;> rfl

/-- An emission that raises an exception can fault, and leaves the machine as it is. -/
lemma mayFault_of_raise {e : Emission} {s s' : Machine Elem} {excp : ℕ}
    (h : fpu.dialect.step e s = (s', .raise excp)) : e.mayFault = true ∧ s' = s := by
  have hop : ∀ {G : Type} [DecidableEq G] (o : Op G) (s s' : Machine G),
      stepOp o s = (s', .raise excp) → o.mayFault = true ∧ s' = s := by
    intro G _ o s s' hstep
    cases o with
    | exception e' =>
      rw [stepOp, Prod.mk.injEq] at hstep
      exact ⟨rfl, hstep.1.symm⟩
    | brcond c a b l =>
      rw [stepOp, Prod.mk.injEq] at hstep
      split_ifs at hstep <;> simp at hstep
    | _ => simp [stepOp] at hstep
  cases e with
  | op o =>
    have hmap := hop (o.map Global.elem) s s' h
    refine ⟨?_, hmap.2⟩
    rw [← hmap.1]
    cases o <;> rfl
  | elemOp o => exact hop o s s' h
  | helper fn d args => simp [Fpu.dialect] at h

lemma mayFault_of_accesses {e : Emission} (h : e.accesses = true) : e.mayFault = true := by
  have hop : ∀ {G : Type} (o : Op G), o.accesses = true → o.mayFault = true := by
    intro G o h
    cases o <;> first | exact h | exact absurd h Bool.false_ne_true
  cases e with
  | op o => exact hop o h
  | elemOp o => exact hop o h
  | helper fn d args => exact absurd h Bool.false_ne_true

/-- The last operations of an instruction do not fault. -/
lemma mayFault_end {e : Emission} (he : e ∈ nextPc t pc ++ t.stop.map .elemOp) : e.mayFault = false := by
  rcases List.mem_append.mp he with he | he
  · unfold nextPc at he
    split_ifs at he
    · obtain rfl := List.mem_singleton.mp he
      rfl
    · exact absurd he List.not_mem_nil
  · obtain ⟨o, ho, rfl⟩ := List.mem_map.mp he
    unfold Translation.stop at ho
    split_ifs at ho
    · obtain rfl := List.mem_singleton.mp ho
      rfl
    · obtain rfl := List.mem_singleton.mp ho
      rfl
    · exact absurd ho List.not_mem_nil

/-- **The faults of an instruction** that assigns nothing before them but what it assigns again. The
list `pre` stands in front, and has the same result however often it is executed. -/
lemma restartable_of_faultsFirst (pre rest : List Emission) (ht : t.emitted = pre ++ rest)
    (hpre : fpu.dialect.Straight pre) (hsafe : ∀ e ∈ pre, e.accesses = false)
    (habsorb : ∀ (r : Repair) s, fpu.dialect.run pre (effectStart (fresh (r.apply
      (fpu.dialect.run pre (effectStart (fresh s)))))) =
        fpu.dialect.run pre (effectStart (fresh (r.apply s))))
    (hfirst : FaultsFirst Emission.hasEffect Emission.mayFault rest) :
    RestartableAt fpu (t.around pc) s := by
  set run := fun s => fpu.dialect.run pre (effectStart (fresh s)) with hrun
  set last := nextPc t pc ++ t.stop.map .elemOp with hlast
  have hlist : body t pc = pre ++ (rest ++ last) := by
    simp only [body, ht, hlast, List.append_assoc]
  have hfinal : ∀ s, fpu.dialect.final (body t pc) none (effectStart (fresh s)) =
      fpu.dialect.final (rest ++ last) none (run s) := by
    intro s
    rw [hlist, Dialect.final_append_straight hpre]
  have hsame : ∀ s s', run s = run s' →
      (t.around pc).outcome fpu s = (t.around pc).outcome fpu s' := by
    intro s s' h
    rw [outcome_around, outcome_around, hfinal, hfinal, h]
  have hfresh : ∀ {s s'}, SameCpu s s' → run s = run s' := by
    intro s s' h
    rw [hrun]
    simp only [h.fresh_eq]
  have htwice : run (run s) = run s := habsorb ⟨fun _ => none, id⟩ s
  constructor
  · rintro v hv haccess
    rw [visits_around, List.mem_append] at hv
    rcases hv with hv | hv
    · rw [prologue_accesses (Dialect.mem_of_mem_visits hv)] at haccess
      exact absurd haccess Bool.false_ne_true
    rw [ht, List.append_assoc, Dialect.visits_append_straight hpre, List.mem_append] at hv
    rcases hv with hv | hv
    · rw [hsafe _ (Dialect.mem_of_mem_visits hv)] at haccess
      exact absurd haccess Bool.false_ne_true
    have hstate : SameCpu v.2 (run s) := by
      refine Dialect.visits_of_faultsFirst SameCpu.refl (fun _ _ _ => SameCpu.trans)
        (fun e s h => sameCpu_step fpu h s) (hfirst.append_safe fun e he => ?_) hv
        (mayFault_of_accesses haccess)
      exact mayFault_end (List.mem_append_left _ he)
    exact hsame _ _ ((hfresh hstate).trans htwice)
  · intro hraise r
    rw [outcome_around] at hraise
    obtain ⟨excp, hexcp⟩ := Option.ne_none_iff_exists'.mp hraise
    rw [hfinal] at hexcp
    obtain ⟨v, hv, hstep⟩ := Dialect.exists_visit_of_raised hexcp
    obtain ⟨hfault, hend⟩ := mayFault_of_raise hstep
    have hstate : SameCpu v.2 (run s) :=
      Dialect.visits_of_faultsFirst SameCpu.refl (fun _ _ _ => SameCpu.trans)
        (fun e s h => sameCpu_step fpu h s) (hfirst.append_safe fun e he => mayFault_end he) hv hfault
    have hleft : SameCpu ((t.around pc).outcome fpu s).1 (run s) := by
      rw [outcome_around, hfinal, hend]
      exact (sameCpu_fresh _).trans hstate
    have hrepair : SameCpu (r.apply ((t.around pc).outcome fpu s).1) (r.apply (run s)) := by
      refine ⟨funext fun g => ?_, congrArg r.mem hleft.2⟩
      simp only [Repair.apply, hleft.1]
    exact hsame _ _ ((hfresh hrepair).trans (habsorb r s))

/-- The same without a list in front. -/
lemma restartable_of_first (hfirst : FaultsFirst Emission.hasEffect Emission.mayFault t.emitted) :
    RestartableAt fpu (t.around pc) s :=
  restartable_of_faultsFirst [] _ rfl (by simp [Dialect.Straight]) (by simp)
    (fun r s => effectStart_repair r s) hfirst

/-- Operations whose faults come first are emissions whose faults come first. -/
lemma faultsFirst_map {ops : List (Op Global)} (h : FaultsFirst Op.hasEffect Op.mayFault ops) :
    FaultsFirst Emission.hasEffect Emission.mayFault (ops.map .op) := by
  induction ops with
  | nil => trivial
  | cons o ops ih =>
    refine ⟨fun heffect e he => ?_, ih h.2⟩
    obtain ⟨o', ho', rfl⟩ := List.mem_map.mp he
    exact h.1 heffect o' ho'

lemma Tame.faultsFirst {ops : List (Op Global)} (h : Tame ops) :
    FaultsFirst Op.hasEffect Op.mayFault ops := by
  induction ops with
  | nil => trivial
  | cons o ops ih => exact ⟨h.2.1, ih h.2.2.2⟩

/-- **An exception that leaves the registers alone** is no obstacle. -/
lemma repair_of_sameCpu (h : SameCpu (fpu.dialect.final (body t pc) none (effectStart (fresh s))).1
    (effectStart (fresh s))) (r : Repair) :
    (t.around pc).outcome fpu (r.apply ((t.around pc).outcome fpu s).1) =
      (t.around pc).outcome fpu (r.apply s) := by
  have hleft : SameCpu ((t.around pc).outcome fpu s).1 (effectStart (fresh s)) := by
    rw [outcome_around]
    exact (sameCpu_fresh _).trans h
  have hrepair : SameCpu (r.apply ((t.around pc).outcome fpu s).1)
      (r.apply (effectStart (fresh s))) := by
    refine ⟨funext fun g => ?_, congrArg r.mem hleft.2⟩
    simp only [Repair.apply, hleft.1]
  rw [outcome_around (s := r.apply ((t.around pc).outcome fpu s).1), outcome_around (s := r.apply s),
    hrepair.fresh_eq, effectStart_repair]

/-- A visit of an access is behind the prologue. -/
lemma visits_of_accesses {v : Emission × Machine Elem} (hv : v ∈ (t.around pc).visits fpu (fresh s))
    (haccess : v.1.accesses = true) :
    v ∈ fpu.dialect.visits (t.emitted ++ nextPc t pc) none (effectStart (fresh s)) := by
  rw [visits_around, List.mem_append] at hv
  rcases hv with hv | hv
  · rw [prologue_accesses (Dialect.mem_of_mem_visits hv)] at haccess
    exact absurd haccess Bool.false_ne_true
  · exact hv

end FaultsFirst

/-! ## Illegal instructions -/

/-- **The illegal-instruction exception** leaves the registers alone. -/
lemma restartable_of_illegal {fpu : Fpu} {s : Machine Elem} {t : Translation}
    (h : t.Illegal (pcVal s)) : RestartableAt fpu (t.around (pcVal s)) s := by
  obtain ⟨-, rest, hrest⟩ := h
  constructor
  · intro v hv haccess
    have hv' := visits_of_accesses hv haccess
    rw [hrest, List.append_assoc, visits_illegal] at hv'
    simp only [List.mem_cons, List.not_mem_nil, or_false] at hv'
    rcases hv' with rfl | rfl <;> exact absurd haccess Bool.false_ne_true
  · rintro - r
    refine repair_of_sameCpu ?_ r
    rw [body, hrest, List.append_assoc, List.append_assoc, final_illegal]
    refine ⟨funext fun g => ?_, rfl⟩
    by_cases hg : g = .pc
    · rw [hg, Machine.write_env, Env.write_global_globals, if_pos rfl,
        effectStart_of_ne (by simp) (by simp)]
      rfl
    · exact Machine.globals_write_of_ne _ hg _

/-! ## The return address stack -/

section Stack

variable {fpu : Fpu} {w : BitVec 32} {s m : Machine Elem} {pc : BitVec 64}

lemma faultsFirst_pop : FaultsFirst Op.hasEffect Op.mayFault popReturnAddress := by
  rw [popReturnAddress, List.append_assoc]
  refine FaultsFirst.append_safe ?_ fun o ho => ?_
  · simp [FaultsFirst, Op.hasEffect, Op.mayFault, Op.accesses]
  · rcases List.mem_append.mp ho with ho | ho
    · obtain ⟨i, -, rfl⟩ := List.mem_map.mp ho
      rfl
    · simp only [List.mem_cons, List.not_mem_nil, or_false] at ho
      rcases ho with rfl | rfl <;> rfl

/-- The assignment in front of `RET`. -/
lemma effectStart_write {i : ℤ} (hi : i ≠ 0) (v : BitVec 64) (s : Machine Elem) :
    effectStart (s.write (.global (.reg .rd i)) v) =
      (effectStart s).write (.global (.reg .rd i)) v := by
  refine machine_ext (funext fun g => ?_) rfl rfl
  rw [effectStart_globals, Machine.write_env, Machine.write_env, Env.write_global_globals,
    Env.write_global_globals, Env.write_global_globals, effectStart_globals]
  by_cases hg : g = .reg .rd i
  · subst hg
    simp [hi]
  · have hf : Elem.fcsr ≠ .reg .rd i := by simp
    rw [if_neg hg, if_neg hg, if_neg hf]

/-- **`RET`** assigns its register before it can fault, and again when it is restarted. -/
lemma restartable_ret : RestartableAt fpu ((transRET w).translation.around pc) s := by
  by_cases hha : fieldHa w = 0
  · refine restartable_of_first ?_
    have hops : (transRET w).ops = popReturnAddress := by
      rw [transRET, if_neg (not_not.mpr hha)]
      rfl
    rw [Emitted.translation, hops]
    exact faultsFirst_map faultsFirst_pop
  · have hops : (transRET w).ops = [movi (.rd (fieldHa w)) (fieldImms 18 w)] ++ popReturnAddress := by
      rw [transRET, if_pos hha]
      rfl
    refine restartable_of_faultsFirst [.op (movi (.rd (fieldHa w)) (fieldImms 18 w))]
      (popReturnAddress.map .op) ?_ ?_ ?_ (fun r s => ?_) (faultsFirst_map faultsFirst_pop)
    · rw [Emitted.translation, hops, List.map_append]
      rfl
    · intro e he s
      obtain rfl := List.mem_singleton.mp he
      rfl
    · intro e he
      obtain rfl := List.mem_singleton.mp he
      rfl
    · have hne : (fieldHa w : ℤ) ≠ 0 := by omega
      set d := Elem.reg .rd (fieldHa w) with hd
      set v := fieldImms 18 w
      have hrun : ∀ s : Machine Elem, fpu.dialect.run [.op (movi (.rd (fieldHa w)) v)] s =
          s.write (.global d) v := fun _ => rfl
      rw [hrun, hrun, hrun]
      -- the handler may change the register, which is assigned again
      have hover : ((fresh (r.apply ((effectStart (fresh s)).write (.global d) v)))).write (.global d) v =
          (fresh (r.apply (effectStart (fresh s)))).write (.global d) v := by
        refine machine_ext (funext fun g => ?_) rfl rfl
        rw [Machine.write_env, Machine.write_env, Env.write_global_globals, Env.write_global_globals]
        by_cases hg : g = d
        · rw [if_pos hg, if_pos hg]
        · rw [if_neg hg, if_neg hg]
          simp only [fresh, Repair.apply]
          rw [Machine.globals_write_of_ne _ hg]
      rw [← effectStart_write hne, hover, effectStart_write hne, effectStart_repair]

/-- The moves of `push_return_address`, behind the spill. -/
def pushMoves (pc : BitVec 64) : List (Op Global) :=
  (List.range 62).map (fun i => .mov (glob (.ra (i + 1))) (glob (.ra (i + 2)))) ++ [movi (.ra 63) (pc + 4)]

/-- The operations of `push_return_address` in front of the moves. -/
def pushFront : List (Op Global) :=
  [.brcond .eq (glob (.ra 1)) (.const 0) 0,
    .brcond .ne (glob cpuRasp) (.const 0) 1,
    .exception excpTrip,
    .setLabel 1,
    .bin .add (glob cpuRasp) (glob cpuRasp) (.const (-8)),
    .qemuSt (glob (.ra 1)) (glob cpuRasp) moTeuq,
    .setLabel 0]

lemma pushReturnAddress_front : pushReturnAddress pc = pushFront ++ pushMoves pc := by
  rw [pushReturnAddress, pushMoves, List.append_assoc]
  rfl

/-- The registers are not full: nothing is spilled. -/
lemma push_room (rest : List Emission) (h : m.env.globals (.reg .ra 1) = 0) :
    fpu.dialect.final (pushFront.map .op ++ rest) none m = fpu.dialect.final rest none m ∧
    fpu.dialect.visits (pushFront.map .op ++ rest) none m =
      (.op (.brcond .eq (glob (.ra 1)) (.const 0) 0), m) :: fpu.dialect.visits rest none m := by
  have hroom : fpu.dialect.step (.op (.brcond .eq (glob (.ra 1)) (.const 0) 0)) m = (m, .skip 0) := by
    have hcond : (m.env.globals (.reg .ra 1) == 0) = true := by simpa using h
    exact congrArg (Prod.mk m) (if_pos hcond)
  simp only [pushFront, List.map_cons, List.cons_append]
  rw [Dialect.final_skip hroom, Dialect.visits_skip hroom]
  exact ⟨rfl, rfl⟩

/-- The registers are full: the first branch is not taken. -/
lemma step_full (h : m.env.globals (.reg .ra 1) ≠ 0) :
    fpu.dialect.step (.op (.brcond .eq (glob (.ra 1)) (.const 0) 0)) m = (m, .next) := by
  have hcond : ¬ (m.env.globals (.reg .ra 1) == 0) = true := by simpa using h
  exact congrArg (Prod.mk m) (if_neg hcond)

variable (fpu) in
/-- The registers are full, and there is no memory to spill to. -/
lemma push_trip (rest : List Emission) (h : m.env.globals (.reg .ra 1) ≠ 0)
    (hrasp : m.env.globals (.reg .ra 0) = 0) :
    fpu.dialect.final (pushFront.map .op ++ rest) none m = (m, some excpTrip) ∧
    ∀ v ∈ fpu.dialect.visits (pushFront.map .op ++ rest) none m, v.1.accesses = false := by
  have hunset : fpu.dialect.step (.op (.brcond .ne (glob cpuRasp) (.const 0) 1)) m = (m, .next) := by
    have hcond : ¬ (m.env.globals (.reg .ra 0) != 0) = true := by simpa using hrasp
    exact congrArg (Prod.mk m) (if_neg hcond)
  have hraise : fpu.dialect.step (.op (.exception excpTrip)) m = (m, .raise excpTrip) := rfl
  simp only [pushFront, List.map_cons, List.cons_append]
  rw [Dialect.final_next (step_full h), Dialect.final_next hunset, Dialect.final_raise hraise,
    Dialect.visits_next (step_full h), Dialect.visits_next hunset, Dialect.visits_raise hraise]
  refine ⟨rfl, fun v hv => ?_⟩
  simp only [List.mem_cons, List.not_mem_nil, or_false] at hv
  rcases hv with rfl | rfl | rfl <;> rfl

/-- `rasp` moved by one octa. -/
def moveRasp (m : Machine Elem) : Machine Elem :=
  m.write (.global (.reg .ra 0)) (m.env.globals (.reg .ra 0) + -8)

variable (fpu) in
/-- The oldest return address is stored behind the move of `rasp`. -/
lemma push_spill (rest : List Emission) (h : m.env.globals (.reg .ra 1) ≠ 0)
    (hrasp : m.env.globals (.reg .ra 0) ≠ 0) :
    (∃ mem, fpu.dialect.final (pushFront.map .op ++ rest) none m =
      fpu.dialect.final rest none ⟨(moveRasp m).env, mem⟩) ∧
    (.op (.qemuSt (glob (.ra 1)) (glob cpuRasp) moTeuq), moveRasp m) ∈
      fpu.dialect.visits (pushFront.map .op ++ rest) none m := by
  have hset : fpu.dialect.step (.op (.brcond .ne (glob cpuRasp) (.const 0) 1)) m = (m, .skip 1) := by
    have hcond : (m.env.globals (.reg .ra 0) != 0) = true := by simpa using hrasp
    exact congrArg (Prod.mk m) (if_pos hcond)
  simp only [pushFront, List.map_cons, List.cons_append]
  rw [Dialect.final_next (step_full h), Dialect.final_skip hset,
    Dialect.visits_next (step_full h), Dialect.visits_skip hset]
  refine ⟨⟨_, rfl⟩, ?_⟩
  refine List.mem_cons_of_mem _ (List.mem_cons_of_mem _ (List.mem_cons_of_mem _ ?_))
  exact List.mem_cons_self

/-! ### The calls -/

/-- An emission behind the spill of a call: no branch, no access, and not of `rasp`. -/
def BehindSpill (e : Emission) : Prop :=
  (∀ (fpu : Fpu) s, (fpu.dialect.step e s).2 = .next) ∧ e.accesses = false ∧ .reg .ra 0 ∉ e.writes

/-- **A call**: the spill, then emissions that do not fault. -/
lemma call_emitted {e : Emitted} (h : e = transCALLi pc w ∨ e = transCALLr pc w) :
    e.isJmp = .jump ∧ ∃ moves : List Emission, e.translation.emitted = pushFront.map .op ++ moves ∧
      ∀ x ∈ moves, BehindSpill x := by
  have hmoves : ∀ o ∈ pushMoves pc, BehindSpill (.op o) := by
    intro o ho
    rcases List.mem_append.mp ho with ho | ho
    · obtain ⟨i, -, rfl⟩ := List.mem_map.mp ho
      refine ⟨fun _ _ => rfl, rfl, ?_⟩
      simp only [Emission.writes, Op.writes, globalsOf, List.filterMap_cons, List.filterMap_nil,
        List.map_cons, List.map_nil, Global.elem, List.mem_singleton, Elem.reg.injEq, true_and]
      omega
    · obtain rfl := List.mem_singleton.mp ho
      refine ⟨fun _ _ => rfl, rfl, ?_⟩
      simp [movi, Emission.writes, Op.writes, globalsOf, Global.elem]
  rcases h with rfl | rfl
  · refine ⟨rfl, (pushMoves pc).map .op, ?_, fun x hx => ?_⟩
    · rw [← List.map_append, ← pushReturnAddress_front, transCALLi, Emitted.translation]
      simp [transJUMPi]
    · obtain ⟨o, ho, rfl⟩ := List.mem_map.mp hx
      exact hmoves o ho
  · refine ⟨rfl, (pushMoves pc ++ (transJUMPr w).ops).map .op, ?_, fun x hx => ?_⟩
    · rw [← List.map_append, ← List.append_assoc, ← pushReturnAddress_front]
      rfl
    · obtain ⟨o, ho, rfl⟩ := List.mem_map.mp hx
      rcases List.mem_append.mp ho with ho | ho
      · exact hmoves o ho
      · simp only [transJUMPr, Emitted.jump, List.mem_cons, List.not_mem_nil, or_false] at ho
        rcases ho with rfl | rfl | rfl <;>
          exact ⟨fun _ _ => rfl, rfl, by simp [Emission.writes, Op.writes, globalsOf, Global.elem]⟩

/-- The end of a jump is behind the spill, too. -/
lemma behindSpill_stop {t : Translation} {e : Emission} (he : e ∈ t.stop.map Emission.elemOp) :
    BehindSpill e := by
  obtain ⟨o, ho, rfl⟩ := List.mem_map.mp he
  unfold Translation.stop at ho
  split_ifs at ho
  · obtain rfl := List.mem_singleton.mp ho
    exact ⟨fun _ _ => rfl, rfl, by simp [Emission.writes, Op.writes, globalsOf]⟩
  · obtain rfl := List.mem_singleton.mp ho
    exact ⟨fun _ _ => rfl, rfl, by simp [Emission.writes, Op.writes, globalsOf]⟩
  · exact absurd ho List.not_mem_nil

variable (fpu) in
/-- What is behind the spill ends with the same `rasp`. -/
lemma final_behindSpill {es : List Emission} (h : ∀ e ∈ es, BehindSpill e) (m : Machine Elem) :
    (fpu.dialect.final es none m).2 = none ∧
    (fpu.dialect.final es none m).1.env.globals (.reg .ra 0) = m.env.globals (.reg .ra 0) := by
  constructor
  · rw [Dialect.final_straight fun e he s => (h e he).1 fpu s]
  · refine (Dialect.inv (P := fun s : Machine Elem => s.env.globals (.reg .ra 0) =
      m.env.globals (.reg .ra 0)) (fun e he s hs => ?_) rfl).2
    rw [step_globals fpu (h e he).2.2]
    exact hs

/-- **A call is restartable** unless it spills a return address. -/
lemma restartable_call {e : Emitted} (h : e = transCALLi pc w ∨ e = transCALLr pc w) :
    RestartableAt fpu (e.translation.around pc) s ↔
      ¬ (s.env.globals (.reg .ra 1) ≠ 0 ∧ s.env.globals (.reg .ra 0) ≠ 0) := by
  obtain ⟨hjmp, moves, hemitted, hmoves⟩ := call_emitted h
  set t := e.translation with ht
  have hnext : nextPc t pc = [] := if_neg (by simp [ht, Emitted.translation, hjmp])
  set last := moves ++ t.stop.map .elemOp with hlast
  have hbody : body t pc = pushFront.map .op ++ last := by
    rw [body, hnext, hemitted, List.append_nil, List.append_assoc]
  have hbehind : ∀ x ∈ last, BehindSpill x := by
    intro x hx
    rcases List.mem_append.mp hx with hx | hx
    · exact hmoves x hx
    · exact behindSpill_stop hx
  have hraise : ∀ s : Machine Elem, (t.around pc).outcome fpu s =
      (fresh (fpu.dialect.final (pushFront.map .op ++ last) none (effectStart (fresh s))).1,
        (fpu.dialect.final (pushFront.map .op ++ last) none (effectStart (fresh s))).2) := by
    intro s
    rw [outcome_around, hbody]
  have hkeep : ∀ (s : Machine Elem) i, (effectStart (fresh s)).env.globals (.reg .ra i) =
      s.env.globals (.reg .ra i) := by
    intro s i
    rw [effectStart_of_ne (by simp) (by simp)]
    rfl
  by_cases hold : s.env.globals (.reg .ra 1) = 0
  · -- there is room in the registers
    refine iff_of_true ⟨fun v hv haccess => ?_, fun hne => ?_⟩ (by simp [hold])
    · have hv' := visits_of_accesses hv haccess
      rw [hemitted, hnext, List.append_nil, (push_room moves (by rw [hkeep, hold])).2] at hv'
      rcases List.mem_cons.mp hv' with rfl | hv'
      · exact absurd haccess Bool.false_ne_true
      · rw [(hmoves _ (Dialect.mem_of_mem_visits hv')).2.1] at haccess
        exact absurd haccess Bool.false_ne_true
    · rw [hraise, (push_room last (by rw [hkeep, hold])).1] at hne
      exact absurd (final_behindSpill _ hbehind _).1 hne
  by_cases hrasp : s.env.globals (.reg .ra 0) = 0
  · -- there is no memory to spill to
    have htrip := fun rest => push_trip fpu (m := effectStart (fresh s)) rest
      (by rw [hkeep]; exact hold) (by rw [hkeep, hrasp])
    refine iff_of_true ⟨fun v hv haccess => ?_, fun _ r => ?_⟩ (by simp [hrasp])
    · have hv' := visits_of_accesses hv haccess
      rw [hemitted, hnext, List.append_nil] at hv'
      rw [(htrip moves).2 v hv'] at haccess
      exact absurd haccess Bool.false_ne_true
    · refine repair_of_sameCpu ?_ r
      rw [hbody, (htrip last).1]
      exact SameCpu.refl _
  · -- the store finds `rasp` moved already
    refine iff_of_false (fun hrestart => ?_) (not_not.mpr ⟨hold, hrasp⟩)
    have hfull : (effectStart (fresh s)).env.globals (.reg .ra 1) ≠ 0 := by rw [hkeep]; exact hold
    have hset : (effectStart (fresh s)).env.globals (.reg .ra 0) ≠ 0 := by rw [hkeep]; exact hrasp
    have hvisit := (push_spill fpu moves hfull hset).2
    have hagain := hrestart.1 _ (by
      rw [visits_around, hemitted, hnext, List.append_nil]
      exact List.mem_append_right _ hvisit) rfl
    have hspill : ∀ s : Machine Elem, s.env.globals (.reg .ra 1) ≠ 0 → s.env.globals (.reg .ra 0) ≠ 0 →
        ((t.around pc).outcome fpu s).2 = none ∧
          ((t.around pc).outcome fpu s).1.env.globals (.reg .ra 0) = s.env.globals (.reg .ra 0) + -8 := by
      intro s hfull hset
      obtain ⟨mem, hfinal⟩ := (push_spill fpu (m := effectStart (fresh s)) last
        (by rw [hkeep]; exact hfull) (by rw [hkeep]; exact hset)).1
      rw [hraise, hfinal]
      refine ⟨(final_behindSpill _ hbehind _).1, ?_⟩
      have hend := (final_behindSpill fpu hbehind ⟨(moveRasp (effectStart (fresh s))).env, mem⟩).2
      refine hend.trans ?_
      rw [moveRasp, Machine.write_env, Env.write_global_globals, if_pos rfl, hkeep]
    have hmoved : ∀ i, (moveRasp (effectStart (fresh s))).env.globals (.reg .ra i) =
        if i = 0 then s.env.globals (.reg .ra 0) + -8 else s.env.globals (.reg .ra i) := by
      intro i
      rw [moveRasp, Machine.write_env, Env.write_global_globals, hkeep, hkeep]
      by_cases hi : i = 0
      · simp [hi]
      · simp [hi]
    have hfull' : (moveRasp (effectStart (fresh s))).env.globals (.reg .ra 1) ≠ 0 := by
      rw [hmoved, if_neg (by decide)]
      exact hold
    by_cases hzero : s.env.globals (.reg .ra 0) + -8 = 0
    · have htrip := (push_trip fpu (m := effectStart (fresh (moveRasp (effectStart (fresh s)))))
        last (by rw [hkeep]; exact hfull') (by rw [hkeep, hmoved, if_pos rfl, hzero])).1
      rw [hraise, htrip] at hagain
      have hnone := (hspill s hold hrasp).1
      rw [← hagain] at hnone
      exact absurd hnone (by simp)
    · have hset' : (moveRasp (effectStart (fresh s))).env.globals (.reg .ra 0) ≠ 0 := by
        rw [hmoved, if_pos rfl]
        exact hzero
      have htwo := (hspill _ hfull' hset').2
      rw [hagain, (hspill s hold hrasp).2, hmoved, if_pos rfl] at htwo
      have hne : ∀ x : BitVec 64, x + -8 ≠ x + -8 + -8 := by
        intro x hx
        have hcancel : x + -8 + -8 - (x + -8) = 0#64 := by rw [← hx, BitVec.sub_self]
        rw [BitVec.add_comm (x + -8), BitVec.add_sub_cancel] at hcancel
        exact absurd hcancel (by decide)
      exact hne _ htwo

end Stack

/-! ## Loads and stores of several registers -/

section Several

variable {fpu : Fpu} {dest src : RegFile} {op : MemOp} {w : BitVec 32} {s m : Machine Elem}
  {pc a : BitVec 64} {ha i : ℤ} {n k : ℕ}

/-- A register a load of several registers assigns. -/
def Writable (dest : RegFile) (i : ℤ) : Prop := i ≠ 0 ∨ dest = .rf ∨ dest = .ra

instance (dest : RegFile) (i : ℤ) : Decidable (Writable dest i) := inferInstanceAs (Decidable (_ ∨ _))

/-- Element `k` of the memory from an address on. -/
def element (op : MemOp) (mem : Memory) (a : BitVec 64) (k : ℕ) : BitVec 64 :=
  op.load mem (a + BitVec.ofNat 64 (k * op.bytes))

/-- The registers after `k` elements have been loaded from `a` on. -/
def afterLoads (dest : RegFile) (op : MemOp) (ha : ℤ) (k : ℕ) (a : BitVec 64) (s : Machine Elem) :
    Elem → BitVec 64
  | .reg file i => if file = dest ∧ ha ≤ i ∧ i < ha + k ∧ Writable dest i
      then element op s.mem a (i - ha).toNat else s.env.globals (.reg file i)
  | r => s.env.globals r

/-- The memory after `k` registers have been stored from `a` on. -/
def afterStores (src : RegFile) (op : MemOp) (ha : ℤ) (a : BitVec 64) (g : Elem → BitVec 64) :
    ℕ → Memory → Memory
  | 0, mem => mem
  | k + 1, mem => (afterStores src op ha a g k mem).store (a + BitVec.ofNat 64 (k * op.bytes)) op.bytes
      (g (.reg src (ha + k)))

lemma straight_ldmBody : fpu.dialect.Straight (ldmBody dest op i) :=
  fun e he s => (inLoop_ldmBody e he).2 fpu s

lemma straight_stmBody : fpu.dialect.Straight (stmBody src op i) :=
  fun e he s => (inLoop_stmBody src e he).2 fpu s

/-- One element further. -/
lemma add_element (a : BitVec 64) (k b : ℕ) :
    a + BitVec.ofNat 64 (k * b) + BitVec.ofNat 64 b = a + BitVec.ofNat 64 ((k + 1) * b) := by
  rw [BitVec.add_assoc, ← BitVec.ofNat_add, Nat.add_mul, Nat.one_mul]

/-- **One load**: the register, and the address of the next one. -/
lemma run_ldmBody : fpu.dialect.run (ldmBody dest op i) m =
    let v := op.load m.mem (m.env.temps 0)
    let m' := m.write (.temp 1) v
    (if Writable dest i then m'.write (elem dest i) v else m').write (.temp 0)
      (m.env.temps 0 + BitVec.ofNat 64 op.bytes) := by
  have hw : (i ≠ 0 ∨ dest = .rf ∨ dest = .ra) ↔ Writable dest i := Iff.rfl
  unfold ldmBody
  simp only [hw]
  by_cases h : Writable dest i
  · simp only [if_pos h]
    rfl
  · simp only [if_neg h]
    rfl

variable (fpu dest op ha) in
/-- **`k` loads.** -/
lemma run_loads (h0 : m.env.temps 0 = a) (k : ℕ) :
    (fpu.dialect.run ((List.range k).flatMap fun k : ℕ => ldmBody dest op (ha + k)) m).env.globals =
      afterLoads dest op ha k a m ∧
    (fpu.dialect.run ((List.range k).flatMap fun k : ℕ => ldmBody dest op (ha + k)) m).env.temps 0 =
      a + BitVec.ofNat 64 (k * op.bytes) ∧
    (fpu.dialect.run ((List.range k).flatMap fun k : ℕ => ldmBody dest op (ha + k)) m).mem = m.mem := by
  induction k with
  | zero =>
    refine ⟨funext fun r => ?_, by simp [h0], rfl⟩
    cases r with
    | reg file i =>
      rw [afterLoads, if_neg (by omega)]
      rfl
    | _ => rfl
  | succ k ih =>
    obtain ⟨hglobals, htemp, hmem⟩ := ih
    set m' := fpu.dialect.run ((List.range k).flatMap fun k : ℕ => ldmBody dest op (ha + k)) m
    have hrun : fpu.dialect.run ((List.range (k + 1)).flatMap fun k : ℕ => ldmBody dest op (ha + k)) m =
        fpu.dialect.run (ldmBody dest op (ha + k)) m' := by
      rw [List.range_succ, List.flatMap_append, Dialect.run_append, List.flatMap_singleton]
    rw [hrun, run_ldmBody]
    refine ⟨funext fun r => ?_, ?_, ?_⟩
    · have hload : op.load m'.mem (m'.env.temps 0) = element op m.mem a k := by rw [hmem, htemp, element]
      by_cases hr : r = .reg dest (ha + k)
      · subst hr
        by_cases hw : Writable dest (ha + k)
        · have hindex : (ha + k - ha).toNat = k := by omega
          simp only [if_pos hw, Machine.write_env, Env.write_temp_globals, Env.write_global_globals,
            if_true, hload, afterLoads]
          rw [if_pos ⟨trivial, by omega, by omega, hw⟩, hindex]
        · simp only [if_neg hw, Machine.write_env, Env.write_temp_globals, hglobals, afterLoads]
          rw [if_neg fun h => hw h.2.2.2, if_neg fun h => hw h.2.2.2]
      · have hkeep : ((if Writable dest (ha + k) then
            (m'.write (.temp 1) (op.load m'.mem (m'.env.temps 0))).write (elem dest (ha + k))
              (op.load m'.mem (m'.env.temps 0)) else
            m'.write (.temp 1) (op.load m'.mem (m'.env.temps 0))).write (.temp 0)
              (m'.env.temps 0 + BitVec.ofNat 64 op.bytes)).env.globals r = afterLoads dest op ha k a m r := by
          split_ifs
          · simp only [Machine.write_env, Env.write_temp_globals, Env.write_global_globals, if_neg hr,
              hglobals]
          · simp only [Machine.write_env, Env.write_temp_globals, hglobals]
        refine hkeep.trans ?_
        cases r with
        | reg file i =>
          have hiff : (file = dest ∧ ha ≤ i ∧ i < ha + k ∧ Writable dest i) ↔
              file = dest ∧ ha ≤ i ∧ i < ha + (k + 1 : ℕ) ∧ Writable dest i := by
            constructor
            · rintro ⟨hfile, hle, hlt, hw⟩
              exact ⟨hfile, hle, by omega, hw⟩
            · rintro ⟨hfile, hle, hlt, hw⟩
              refine ⟨hfile, hle, ?_, hw⟩
              have hne : i ≠ ha + k := fun hi => hr (by rw [hfile, hi])
              omega
          simp only [afterLoads, hiff]
        | _ => rfl
    · simp only [Machine.write_env, Env.write_temp_temps, if_true]
      rw [htemp, add_element]
    · split_ifs <;> exact hmem

variable (fpu src op ha) in
/-- **`k` stores.** -/
lemma run_stores (h0 : m.env.temps 0 = a) (k : ℕ) :
    (fpu.dialect.run ((List.range k).flatMap fun k : ℕ => stmBody src op (ha + k)) m).env.globals =
      m.env.globals ∧
    (fpu.dialect.run ((List.range k).flatMap fun k : ℕ => stmBody src op (ha + k)) m).env.temps 0 =
      a + BitVec.ofNat 64 (k * op.bytes) ∧
    (fpu.dialect.run ((List.range k).flatMap fun k : ℕ => stmBody src op (ha + k)) m).mem =
      afterStores src op ha a m.env.globals k m.mem := by
  induction k with
  | zero => exact ⟨rfl, by simp [h0], rfl⟩
  | succ k ih =>
    obtain ⟨hglobals, htemp, hmem⟩ := ih
    set m' := fpu.dialect.run ((List.range k).flatMap fun k : ℕ => stmBody src op (ha + k)) m
    have hrun : fpu.dialect.run ((List.range (k + 1)).flatMap fun k : ℕ => stmBody src op (ha + k)) m =
        fpu.dialect.run (stmBody src op (ha + k)) m' := by
      rw [List.range_succ, List.flatMap_append, Dialect.run_append, List.flatMap_singleton]
    rw [hrun]
    refine ⟨hglobals, ?_, ?_⟩
    · have hstep : (fpu.dialect.run (stmBody src op (ha + k)) m').env.temps 0 =
          m'.env.temps 0 + BitVec.ofNat 64 op.bytes := rfl
      rw [hstep, htemp, add_element]
    · have hstep : (fpu.dialect.run (stmBody src op (ha + k)) m').mem =
          m'.mem.store (m'.env.temps 0) op.bytes (m'.env.globals (.reg src (ha + k))) := rfl
      rw [hstep, htemp, hmem, hglobals]
      rfl

/-- A byte is one that the stores put down, or the one that was there. -/
lemma afterStores_cell (src : RegFile) (op : MemOp) (ha : ℤ) (a : BitVec 64) (g : Elem → BitVec 64)
    (k : ℕ) (x : BitVec 64) : (∀ mem, afterStores src op ha a g k mem x = mem x) ∨
      ∃ b, ∀ mem, afterStores src op ha a g k mem x = b := by
  induction k with
  | zero => exact .inl fun _ => rfl
  | succ k ih =>
    by_cases hin : Memory.offsetFrom (a + BitVec.ofNat 64 (k * op.bytes)) x < op.bytes
    · exact .inr ⟨_, fun mem => if_pos hin⟩
    · have hout : ∀ mem, afterStores src op ha a g (k + 1) mem x = afterStores src op ha a g k mem x :=
        fun mem => if_neg hin
      rcases ih with hkeep | ⟨b, hb⟩
      · exact .inl fun mem => (hout mem).trans (hkeep mem)
      · exact .inr ⟨b, fun mem => (hout mem).trans (hb mem)⟩

/-- **Stores may be repeated.** -/
lemma afterStores_again (src : RegFile) (op : MemOp) (ha : ℤ) (a : BitVec 64) (g : Elem → BitVec 64)
    {k n : ℕ} (hkn : k ≤ n) (mem : Memory) :
    afterStores src op ha a g n (afterStores src op ha a g k mem) = afterStores src op ha a g n mem := by
  induction n, hkn using Nat.le_induction with
  | base =>
    funext x
    rcases afterStores_cell src op ha a g k x with hkeep | ⟨b, hb⟩
    · rw [hkeep]
    · rw [hb, hb]
  | succ n _ ih => rw [afterStores, ih, afterStores]

/-- The address of the first element. -/
def multiAddr (w : BitVec 32) (g : Elem → BitVec 64) : BitVec 64 :=
  g (.reg .rb (fieldHb w)) + g (.reg .rd (fieldHc w))

/-- The translation of a load or store of several registers with a legal count. -/
def severalRegs (w : BitVec 32) (f : ℕ → List Emission) : Translation :=
  ⟨[.op (.bin .add (.temp 0) (rbOf fieldHb w) (rdOf fieldHc w))] ++ (List.range (fieldHd w)).flatMap f,
    .next, -1⟩

/-- The machine in front of element `k`. -/
def beforeElement (fpu : Fpu) (w : BitVec 32) (f : ℕ → List Emission) (k : ℕ) (s : Machine Elem) :
    Machine Elem :=
  fpu.dialect.run ((List.range k).flatMap f)
    ((effectStart (fresh s)).write (.temp 0) (multiAddr w (effectStart (fresh s)).env.globals))

section Elements

variable {f : ℕ → List Emission} (hf : ∀ (fpu : Fpu) k, fpu.dialect.Straight (f k))

include hf in
/-- The end of the instruction. -/
lemma outcome_severalRegs : ((severalRegs w f).around pc).outcome fpu s =
    (fresh ((beforeElement fpu w f (fieldHd w) s).write (.global .pc) (pc + 4)), none) := by
  have hbody : body (severalRegs w f) pc =
      [.op (.bin .add (.temp 0) (rbOf fieldHb w) (rdOf fieldHc w))] ++
        ((List.range (fieldHd w)).flatMap f ++ [.op (movi cpuPc (pc + 4))]) := by
    simp only [body, severalRegs, nextPc, if_true, List.append_assoc]
    rfl
  have hall : fpu.dialect.Straight ((List.range (fieldHd w)).flatMap f) := by
    intro o ho
    obtain ⟨k, -, ho⟩ := List.mem_flatMap.mp ho
    exact hf fpu k o ho
  have hsetup : fpu.dialect.Straight [.op (.bin .add (.temp 0) (rbOf fieldHb w) (rdOf fieldHc w))] := by
    intro o ho s
    obtain rfl := List.mem_singleton.mp ho
    rfl
  rw [outcome_around, hbody, Dialect.final_append_straight hsetup, Dialect.final_append_straight hall]
  rfl

include hf in
/-- The accesses of the instruction are those of its elements. -/
lemma visits_severalRegs {v : Emission × Machine Elem} (haccess : v.1.accesses = true) :
    v ∈ ((severalRegs w f).around pc).visits fpu (fresh s) ↔
      ∃ k < fieldHd w, v ∈ fpu.dialect.visits (f k) none (beforeElement fpu w f k s) := by
  have hall : fpu.dialect.Straight ((List.range (fieldHd w)).flatMap f) := by
    intro o ho
    obtain ⟨k, -, ho⟩ := List.mem_flatMap.mp ho
    exact hf fpu k o ho
  have hsetup : fpu.dialect.Straight [.op (.bin .add (.temp 0) (rbOf fieldHb w) (rdOf fieldHc w))] := by
    intro o ho s
    obtain rfl := List.mem_singleton.mp ho
    rfl
  have hother : ∀ {es : List Emission} {s}, (∀ e ∈ es, e.accesses = false) →
      v ∉ fpu.dialect.visits es none s := by
    intro es s hes hv
    rw [hes _ (Dialect.mem_of_mem_visits hv)] at haccess
    exact absurd haccess Bool.false_ne_true
  have hlast : ∀ e ∈ nextPc (severalRegs w f) pc, e.accesses = false := by
    intro e he
    obtain rfl := List.mem_singleton.mp he
    rfl
  have hemitted : (severalRegs w f).emitted =
      [.op (.bin .add (.temp 0) (rbOf fieldHb w) (rdOf fieldHc w))] ++
        (List.range (fieldHd w)).flatMap f := rfl
  rw [visits_around, hemitted, List.append_assoc, Dialect.visits_append_straight hsetup,
    Dialect.visits_append_straight hall, List.mem_append, List.mem_append, List.mem_append,
    or_iff_right (hother fun e he => prologue_accesses he), or_iff_right (hother ?_),
    or_iff_left (hother hlast), Dialect.mem_visits_flatMap (hf fpu)]
  · rfl
  · intro e he
    obtain rfl := List.mem_singleton.mp he
    rfl

end Elements

/-- **The stores of several registers** may be repeated. -/
lemma restartable_stm :
    RestartableAt fpu ((severalRegs w fun k => stmBody src op (fieldHa w + k)).around pc) s := by
  have hf : ∀ (fpu : Fpu) k, fpu.dialect.Straight (stmBody src op (fieldHa w + (k : ℕ))) :=
    fun fpu k => straight_stmBody
  have hbefore : ∀ k s, (beforeElement fpu w (fun k => stmBody src op (fieldHa w + k)) k s).env.globals =
      (effectStart (fresh s)).env.globals ∧
      (beforeElement fpu w (fun k => stmBody src op (fieldHa w + k)) k s).mem =
        afterStores src op (fieldHa w) (multiAddr w (effectStart (fresh s)).env.globals)
          (effectStart (fresh s)).env.globals k s.mem := by
    intro k s
    obtain ⟨hglobals, -, hmem⟩ := run_stores fpu src op (fieldHa w)
      (m := (effectStart (fresh s)).write (.temp 0) (multiAddr w (effectStart (fresh s)).env.globals)) rfl k
    exact ⟨hglobals, hmem⟩
  constructor
  · intro v hv haccess
    obtain ⟨k, hk, hv⟩ := (visits_severalRegs hf haccess).mp hv
    have hstate : v.2 = beforeElement fpu w (fun k => stmBody src op (fieldHa w + k)) k s := by
      simp only [stmBody] at hv
      rw [Dialect.visits_next rfl, Dialect.visits_next rfl, Dialect.visits] at hv
      simp only [List.mem_cons, List.not_mem_nil, or_false] at hv
      rcases hv with rfl | rfl
      · rfl
      · exact absurd haccess Bool.false_ne_true
    have hstart : (effectStart (fresh v.2)).env.globals = (effectStart (fresh s)).env.globals := by
      have htwice := effectStart_repair ⟨fun _ => none, id⟩ s
      have hglobals : (fresh v.2).env.globals = (fresh (effectStart (fresh s))).env.globals := by
        rw [hstate]
        exact (hbefore k s).1
      have heq : (effectStart (fresh v.2)).env.globals =
          (effectStart (fresh (effectStart (fresh s)))).env.globals := by
        funext r
        rw [effectStart_globals, effectStart_globals, hglobals]
      rw [heq]
      exact congrArg (fun m : Machine Elem => m.env.globals) htwice
    rw [outcome_severalRegs hf, outcome_severalRegs hf]
    refine congrArg (·, none) (machine_ext (funext fun r => ?_) rfl ?_)
    · have hg := (hbefore (fieldHd w) v.2).1.trans (hstart.trans (hbefore (fieldHd w) s).1.symm)
      simp only [fresh, Machine.write_env, Env.write_global_globals]
      rw [hg]
    · have hm := (hbefore (fieldHd w) v.2).2
      have hvmem := (hbefore k s).2
      rw [← hstate] at hvmem
      rw [hstart, hvmem, afterStores_again _ _ _ _ _ (by omega)] at hm
      exact hm.trans (hbefore (fieldHd w) s).2.symm
  · intro hne
    rw [outcome_severalRegs hf] at hne
    exact absurd rfl hne

/-- The address formed from base and index once `k` elements have been loaded. -/
def loadAddr (dest : RegFile) (op : MemOp) (w : BitVec 32) (k : ℕ) (s : Machine Elem) : BitVec 64 :=
  multiAddr w (afterLoads dest op (fieldHa w) k (multiAddr w (effectStart s).env.globals) (effectStart s))

/-- The loads of several registers, element by element. -/
abbrev loads (dest : RegFile) (op : MemOp) (w : BitVec 32) (k : ℕ) : List Emission :=
  ldmBody dest op (fieldHa w + k)

lemma straight_loads (fpu : Fpu) (k : ℕ) : fpu.dialect.Straight (loads dest op w k) := straight_ldmBody

variable (fpu dest op) in
/-- The machine in front of an element of a load. -/
lemma beforeElement_loads (k : ℕ) (s : Machine Elem) :
    (beforeElement fpu w (loads dest op w) k s).env.globals = afterLoads dest op (fieldHa w) k
        (multiAddr w (effectStart (fresh s)).env.globals) (effectStart (fresh s)) ∧
      (beforeElement fpu w (loads dest op w) k s).mem = s.mem := by
  obtain ⟨hglobals, -, hmem⟩ := run_loads fpu dest op (fieldHa w)
    (m := (effectStart (fresh s)).write (.temp 0) (multiAddr w (effectStart (fresh s)).env.globals)) rfl k
  refine ⟨hglobals.trans (funext fun r => ?_), hmem⟩
  cases r <;> rfl

/-- A register that is not among the loaded ones. -/
lemma afterLoads_of_not {r : Elem} {file : RegFile} {i : ℤ} (hr : r = .reg file i)
    (h : ¬ (file = dest ∧ ha ≤ i ∧ i < ha + k ∧ Writable dest i)) :
    afterLoads dest op ha k a m r = m.env.globals r := by
  rw [hr, afterLoads, if_neg h]

variable (dest op) in
/-- The base and the index behind the prologue of a restart. -/
lemma multiAddr_restart {m : Machine Elem} (hm : m.env.globals = afterLoads dest op (fieldHa w) k
    (multiAddr w (effectStart (fresh s)).env.globals) (effectStart (fresh s))) :
    multiAddr w (effectStart (fresh m)).env.globals = loadAddr dest op w k s := by
  have hbase : (effectStart (fresh m)).env.globals (.reg .rb (fieldHb w)) =
      m.env.globals (.reg .rb (fieldHb w)) := effectStart_of_ne (by simp) (by simp)
  have hindex : (effectStart (fresh m)).env.globals (.reg .rd (fieldHc w)) =
      m.env.globals (.reg .rd (fieldHc w)) := by
    by_cases hz : fieldHc w = 0
    · have hkeep : ¬ (RegFile.rd = dest ∧ (fieldHa w : ℤ) ≤ 0 ∧ (0 : ℤ) < fieldHa w + k ∧
          Writable dest 0) := by
        rintro ⟨rfl, -, -, hw⟩
        simp [Writable] at hw
      have hzero : m.env.globals (.reg .rd 0) = 0 := by
        rw [hm, afterLoads_of_not rfl hkeep, effectStart_globals, if_neg (by simp), if_pos rfl]
      have hcast : ((0 : ℕ) : ℤ) = 0 := rfl
      rw [hz, hcast, hzero, effectStart_globals, if_neg (by simp), if_pos rfl]
    · exact effectStart_of_ne (by simp) (by simp [hz])
  have haddr : multiAddr w (effectStart (fresh m)).env.globals = multiAddr w m.env.globals := by
    rw [multiAddr, multiAddr, hbase, hindex]
  rw [haddr, hm, loadAddr]
  rfl

/-- **A restart behind `k` loads** ends as the load does exactly if it reads the same elements. -/
lemma outcome_loads_iff {k : ℕ} (hk : k < fieldHd w) :
    ((severalRegs w (loads dest op w)).around pc).outcome fpu
        (beforeElement fpu w (loads dest op w) k s) =
      ((severalRegs w (loads dest op w)).around pc).outcome fpu s ↔
    ∀ i < fieldHd w, Writable dest (fieldHa w + i) →
      element op s.mem (loadAddr dest op w k s) i = element op s.mem (loadAddr dest op w 0 s) i := by
  set m := beforeElement fpu w (loads dest op w) k s with hm
  obtain ⟨hmg, hmm⟩ : m.env.globals = _ ∧ m.mem = _ := beforeElement_loads fpu _ _ k s
  have haddr := multiAddr_restart dest op (s := s) hmg
  have haddr0 : loadAddr dest op w 0 s = multiAddr w (effectStart (fresh s)).env.globals := by
    have h0 := multiAddr_restart dest op (w := w) (k := 0) (s := s)
      (m := effectStart (fresh s)) (funext fun r => ?_)
    · rw [← h0]
      have htwice := effectStart_repair ⟨fun _ => none, id⟩ s
      exact congrArg (fun m : Machine Elem => multiAddr w m.env.globals) htwice
    · cases r with
      | reg file i => rw [afterLoads_of_not rfl (by rintro ⟨-, hle, hlt, -⟩; omega)]
      | _ => rfl
  obtain ⟨hag, ham⟩ := beforeElement_loads fpu dest op (w := w) (fieldHd w) m
  obtain ⟨hbg, hbm⟩ := beforeElement_loads fpu dest op (w := w) (fieldHd w) s
  rw [outcome_severalRegs straight_loads, outcome_severalRegs straight_loads, haddr0]
  rw [haddr] at hag
  -- the registers that are not loaded are those of the start
  have hother : ∀ file i, ¬ (file = dest ∧ (fieldHa w : ℤ) ≤ i ∧ i < fieldHa w + (fieldHd w : ℕ) ∧
      Writable dest i) → (effectStart (fresh m)).env.globals (.reg file i) =
        (effectStart (fresh s)).env.globals (.reg file i) := by
    intro file i hnot
    have hnotk : ¬ (file = dest ∧ (fieldHa w : ℤ) ≤ i ∧ i < fieldHa w + (k : ℕ) ∧ Writable dest i) := by
      rintro ⟨hfile, hle, hlt, hw⟩
      exact hnot ⟨hfile, hle, by omega, hw⟩
    have hkeep : (fresh m).env.globals (.reg file i) =
        (effectStart (fresh s)).env.globals (.reg file i) := by
      change m.env.globals (.reg file i) = _
      rw [hmg, afterLoads_of_not rfl hnotk]
    rw [effectStart_globals]
    by_cases hf : Elem.reg file i = .fcsr
    · rw [if_pos hf, ← hf, hkeep, hf, effectStart_globals, if_pos rfl]
      exact settle_settle (.rf 0) _
    · rw [if_neg hf]
      by_cases hz : Elem.reg file i = .reg .rd 0
      · rw [if_pos hz, effectStart_globals, if_neg hf, if_pos hz]
      · rw [if_neg hz]
        exact hkeep
  constructor
  · intro heq i hi hw
    have hne : Elem.reg dest (fieldHa w + i) ≠ .pc := by
      intro hpc
      simp only [Elem.reg.injEq] at hpc
      rcases hw with hne | hrf | hra
      · exact hne hpc.2
      · rw [hrf] at hpc
        exact absurd hpc.1 (by decide)
      · rw [hra] at hpc
        exact absurd hpc.1 (by decide)
    have hreg := congrFun (congrArg (fun o => o.1.env.globals) heq) (.reg dest (fieldHa w + i))
    simp only [fresh, Machine.write_env, Env.write_global_globals, if_neg hne] at hreg
    rw [hag, hbg, afterLoads, afterLoads, if_pos ⟨rfl, by omega, by omega, hw⟩,
      if_pos ⟨rfl, by omega, by omega, hw⟩] at hreg
    have hindex : ((fieldHa w : ℤ) + i - fieldHa w).toNat = i := by omega
    rw [hindex] at hreg
    have hmem : (effectStart (fresh m)).mem = s.mem := hmm
    rw [hmem] at hreg
    exact hreg
  · intro helem
    refine congrArg (·, none) (machine_ext (funext fun r => ?_) rfl ?_)
    · simp only [fresh, Machine.write_env, Env.write_global_globals]
      by_cases hpc : r = .pc
      · rw [if_pos hpc, if_pos hpc]
      · rw [if_neg hpc, if_neg hpc, hag, hbg]
        cases r with
        | reg file i =>
          by_cases hin : file = dest ∧ (fieldHa w : ℤ) ≤ i ∧ i < fieldHa w + (fieldHd w : ℕ) ∧
              Writable dest i
          · rw [afterLoads, afterLoads, if_pos hin, if_pos hin]
            have hindex : (fieldHa w : ℤ) + (i - fieldHa w).toNat = i := by omega
            have hmem : (effectStart (fresh m)).mem = s.mem := hmm
            rw [hmem]
            exact helem _ (by omega) (by rw [hindex]; exact hin.2.2.2)
          · rw [afterLoads_of_not rfl hin, afterLoads_of_not rfl hin]
            exact hother file i hin
        | _ =>
          change (fresh m).env.globals _ = (fresh s).env.globals _
          change m.env.globals _ = _
          rw [hmg]
          rfl
    · exact ham.trans (hmm.trans hbm.symm)

/-- **The loads of several registers** are restartable exactly if the address that is formed again has
the same elements. -/
lemma restartable_ldm : RestartableAt fpu ((severalRegs w (loads dest op w)).around pc) s ↔
    ∀ k < fieldHd w, ∀ i < fieldHd w, Writable dest (fieldHa w + i) →
      element op s.mem (loadAddr dest op w k s) i = element op s.mem (loadAddr dest op w 0 s) i := by
  have hload : (Emission.elemOp (.qemuLd (.temp 1) (.temp 0) op)).accesses = true := rfl
  constructor
  · rintro ⟨hfault, -⟩ k hk
    refine (outcome_loads_iff hk).mp (hfault (.elemOp (.qemuLd (.temp 1) (.temp 0) op), _) ?_ hload)
    refine (visits_severalRegs straight_loads hload).mpr ⟨k, hk, ?_⟩
    rw [loads, ldmBody, List.append_assoc]
    exact List.mem_cons_self
  · intro helem
    refine ⟨fun v hv haccess => ?_, fun hne => ?_⟩
    · obtain ⟨k, hk, hv⟩ := (visits_severalRegs straight_loads haccess).mp hv
      have hstate : v.2 = beforeElement fpu w (loads dest op w) k s := by
        rw [loads, ldmBody, List.append_assoc, List.singleton_append, Dialect.visits_next rfl,
          List.mem_cons] at hv
        rcases hv with rfl | hv
        · rfl
        · refine absurd haccess ?_
          rcases List.mem_append.mp (Dialect.mem_of_mem_visits hv) with he | he
          · split_ifs at he
            · rw [List.mem_singleton.mp he]
              exact Bool.false_ne_true
            · exact absurd he List.not_mem_nil
          · rw [List.mem_singleton.mp he]
            exact Bool.false_ne_true
      rw [hstate]
      exact (outcome_loads_iff hk).mpr (helem k hk)
    · rw [outcome_severalRegs straight_loads] at hne
      exact absurd rfl hne

end Several

/-! ## All instructions -/

/-- A call that spills a return address. -/
def Spills (w : BitVec 32) (s : Machine Elem) : Prop :=
  (w >>> 24).toNat ∈ [0x6c, 0x6d] ∧ s.env.globals (.reg .ra 1) ≠ 0 ∧ s.env.globals (.reg .ra 0) ≠ 0

/-- **A load of several registers reads the same elements** from the address that its base and its index
form once some of the registers have been loaded. -/
def Reloads (w : BitVec 32) (s : Machine Elem) : Prop :=
  ∀ dest op, multiOf w = some (.ldm dest op) → (Multi.ldm dest op).Legal w →
    ∀ k < fieldHd w, ∀ i < fieldHd w, Writable dest (fieldHa w + i) →
      element op s.mem (loadAddr dest op w k s) i = element op s.mem (loadAddr dest op w 0 s) i

section All

variable {fpu : Fpu} {w : BitVec 32} {s : Machine Elem} {pc : BitVec 64}

variable (pc) in
/-- The calls are translated at once. -/
lemma translateInsn_call (hcall : (w >>> 24).toNat ∈ [0x6c, 0x6d]) :
    ∃ e, (e = transCALLi pc w ∨ e = transCALLr pc w) ∧
      translateInsn 0 pc w = some (e.translation.around pc) := by
  simp only [List.mem_cons, List.not_mem_nil, or_false] at hcall
  have hmulti : multiOf w = none := by
    unfold multiOf
    rcases hcall with hop | hop <;> rw [hop] <;> rfl
  have hhelper : helperInsn pc w = none := by
    unfold helperInsn
    rcases hcall with hop | hop <;> rw [hop] <;> rfl
  have hdisas : disasInsn 0 pc w =
      some (((disasDadao pc w).getD none).getD (illegalInstruction pc)).translation := by
    rw [disasInsn, hmulti]
    simp only [hhelper]
  unfold disasDadao at hdisas
  rcases hcall with hop | hop
  · refine ⟨transCALLi pc w, .inl rfl, ?_⟩
    rw [translateInsn, hdisas, hop]
    rfl
  · refine ⟨transCALLr pc w, .inr rfl, ?_⟩
    rw [translateInsn, hdisas, hop]
    rfl

/-- A legal load of several registers. -/
lemma translateInsn_ldm {dest : RegFile} {op : MemOp} (hm : multiOf w = some (.ldm dest op))
    (hlegal : (Multi.ldm dest op).Legal w) :
    translateInsn (fieldHd w) pc w = some ((severalRegs w (loads dest op w)).around pc) := by
  rw [translateInsn, disasInsn_of_multi hm, Multi.trans,
    insnMemRrri_of_legal hlegal.1 (hlegal.2 _ (by simp [Multi.firsts]))]
  rfl

/-- A legal store of several registers. -/
lemma translateInsn_stm {src : RegFile} {op : MemOp} (hm : multiOf w = some (.stm src op))
    (hlegal : (Multi.stm src op).Legal w) : translateInsn (fieldHd w) pc w =
      some ((severalRegs w fun k => stmBody src op (fieldHa w + k)).around pc) := by
  rw [translateInsn, disasInsn_of_multi hm, Multi.trans,
    insnMemRrri_of_legal hlegal.1 (hlegal.2 _ (by simp [Multi.firsts]))]
  rfl

/-- Moves and conversions of several registers do not fault. -/
lemma restartable_moves {m : Multi} (hmoves : (∃ src dest, m = .r2r src dest) ∨
    ∃ fn src dest, m = .fcvt fn src dest) (hm : multiOf w = some m) (hlegal : m.Legal w) {fuel : ℕ}
    {t : Translation} (ht : translateInsn fuel pc w = some t) : RestartableAt fpu t s := by
  obtain ⟨order, -, htrans⟩ : ∃ order, _ ∧ m.trans (fieldHd w) pc w = _ := Multi.trans_of_legal hlegal
  have hlegalTrans : translateInsn (fieldHd w) pc w =
      some (Translation.around pc ⟨m.setup w ++ order.flatMap (m.element w), .next, -1⟩) := by
    rw [translateInsn, disasInsn_of_multi hm, htrans, Option.map_some]
  obtain rfl := translateInsn_unique ht hlegalTrans
  refine restartable_of_first (faultsFirst_of_safe fun e he => ?_)
  rcases hmoves with ⟨src, dest, rfl⟩ | ⟨fn, src, dest, rfl⟩
  · obtain ⟨k, -, he⟩ := List.mem_flatMap.mp he
    simp only [Multi.element, r2rBody] at he
    split_ifs at he
    · rw [List.mem_singleton.mp he]
      rfl
    · exact absurd he List.not_mem_nil
  · obtain ⟨k, -, he⟩ := List.mem_flatMap.mp he
    simp only [Multi.element, fcvtBody] at he
    split_ifs at he
    · rw [List.mem_singleton.mp he]
      rfl
    · exact absurd he List.not_mem_nil

/-- Instructions on several registers. -/
lemma restartable_multi {m : Multi} (hm : multiOf w = some m) (hreload : Reloads w s) :
    Restartable fpu w s := by
  intro fuel t ht
  by_cases hlegal : m.Legal w
  · cases m with
    | ldm dest op =>
      obtain rfl := translateInsn_unique ht (translateInsn_ldm hm hlegal)
      exact restartable_ldm.mpr (hreload dest op hm hlegal)
    | stm src op =>
      obtain rfl := translateInsn_unique ht (translateInsn_stm hm hlegal)
      exact restartable_stm
    | r2r src dest => exact restartable_moves (.inl ⟨src, dest, rfl⟩) hm hlegal ht
    | fcvt fn src dest => exact restartable_moves (.inr ⟨fn, src, dest, rfl⟩) hm hlegal ht
  · obtain ⟨t, hdisas, rfl⟩ := Option.map_eq_some_iff.mp ht
    rw [disasInsn_of_multi hm] at hdisas
    exact restartable_of_illegal (Multi.illegal_of_not_legal hlegal hdisas)

/-- Any other instruction. -/
lemma restartable_single (hm : multiOf w = none) (hspill : ¬ Spills w s) : Restartable fpu w s := by
  intro fuel t ht
  obtain ⟨t, hdisas, rfl⟩ := Option.map_eq_some_iff.mp ht
  rw [disasInsn, hm] at hdisas
  cases hhelper : helperInsn (pcVal s) w with
  | some t' =>
    rw [hhelper] at hdisas
    obtain rfl := Option.some.inj hdisas
    rcases helperInsn_cases hhelper with hillegal | ⟨fn, file, i, args, -, -, rfl⟩
    · exact restartable_of_illegal hillegal
    · refine restartable_of_first (faultsFirst_of_safe fun e he => ?_)
      rw [List.mem_singleton.mp he]
      rfl
  | none =>
    rw [hhelper] at hdisas
    obtain rfl := Option.some.inj hdisas
    have hillegal : RestartableAt fpu ((illegalInstruction (pcVal s)).translation.around (pcVal s)) s :=
      restartable_of_illegal illegal_illegalInstruction
    cases hd : disasDadao (pcVal s) w with
    | none => exact hillegal
    | some e =>
      cases e with
      | none => exact hillegal
      | some e =>
        rcases disasDadao_tame _ w hd with htame | rfl | hstack
        · exact restartable_of_first (faultsFirst_map htame.faultsFirst)
        · exact hillegal
        · have hcall : (w >>> 24).toNat ∈ [0x6c, 0x6d] →
              ¬ (s.env.globals (.reg .ra 1) ≠ 0 ∧ s.env.globals (.reg .ra 0) ≠ 0) :=
            fun hop hfull => hspill ⟨hop, hfull⟩
          rcases hstack with ⟨hop, rfl⟩ | ⟨hop, rfl⟩ | ⟨hop, rfl⟩
          · exact (restartable_call (.inl rfl)).mpr (hcall (by simp [hop]))
          · exact (restartable_call (.inr rfl)).mpr (hcall (by simp [hop]))
          · exact restartable_ret

/-- **Faulting instructions are restartable** but for calls that spill a return address and loads of
several registers that overwrite their own address. -/
theorem restartable_iff (fpu : Fpu) (w : BitVec 32) (s : Machine Elem) :
    Restartable fpu w s ↔ ¬ Spills w s ∧ Reloads w s := by
  constructor
  · intro h
    refine ⟨fun ⟨hop, hfull⟩ => ?_, fun dest op hm hlegal => ?_⟩
    · obtain ⟨e, he, ht⟩ := translateInsn_call (pcVal s) hop
      exact (restartable_call he).mp (h 0 _ ht) hfull
    · exact restartable_ldm.mp (h _ _ (translateInsn_ldm hm hlegal))
  · rintro ⟨hspill, hreload⟩
    cases hm : multiOf w with
    | some m => exact restartable_multi hm hreload
    | none => exact restartable_single hm hspill

/-- A load of several registers whose base and index are not among the registers loaded before the last
one reads the same elements. -/
lemma reloads_of_apart (h : ∀ dest op, multiOf w = some (.ldm dest op) → ∀ i : ℕ, i + 1 < fieldHd w →
    (dest = .rb → fieldHa w + i ≠ fieldHb w) ∧ (dest = .rd → fieldHa w + i ≠ fieldHc w)) :
    Reloads w s := by
  intro dest op hm _ k hk i _ _
  have haddr : ∀ k, k < fieldHd w → loadAddr dest op w k s = multiAddr w (effectStart s).env.globals := by
    intro k hk
    rw [loadAddr, multiAddr, multiAddr, afterLoads_of_not rfl, afterLoads_of_not rfl]
    · rintro ⟨hfile, hle, hlt, -⟩
      obtain ⟨j, hj⟩ : ∃ j : ℕ, fieldHc w = fieldHa w + j := ⟨fieldHc w - fieldHa w, by omega⟩
      exact (h dest op hm j (by omega)).2 hfile.symm hj.symm
    · rintro ⟨hfile, hle, hlt, -⟩
      obtain ⟨j, hj⟩ : ∃ j : ℕ, fieldHb w = fieldHa w + j := ⟨fieldHb w - fieldHa w, by omega⟩
      exact (h dest op hm j (by omega)).1 hfile.symm hj.symm
  rw [haddr k hk, haddr 0 (by omega)]

/-- A machine whose return address registers are full. -/
def fullStack : Machine Elem :=
  ⟨⟨fun r => if r = .reg .ra 0 then 0x1000 else if r = .reg .ra 1 then 4 else 0, fun _ => 0⟩, fun _ => 0⟩

/-- **A call whose spill faults** has moved `rasp` already. -/
theorem not_restartable_all : ¬ ∀ fpu w s, Restartable fpu w s := by
  intro hall
  obtain ⟨e, he, ht⟩ := translateInsn_call (w := 0x6c000000) (pcVal fullStack) (by decide)
  exact (restartable_call he).mp (hall .zero 0x6c000000 fullStack 0 _ ht) ⟨by decide, by decide⟩

end All

end Dadao.Qemu
