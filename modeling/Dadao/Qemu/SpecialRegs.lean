import Dadao.Qemu.Effects

set_option relaxedAutoImplicit false
set_option autoImplicit false

/-!
# The special registers over whole runs

A run executes one instruction after the other. The translator goes on from an instruction to the next
one in the same translation block, or the block is left through `dadao_tr_tb_stop`. A direct exit is a
`goto_tb`: once it is linked to its destination, it goes there at once, and the assignment of `cpu_pc`
behind it is not executed.

## Main definitions

* `Dadao.Qemu.Point` — an instruction that is about to be executed.
* `Dadao.Qemu.Point.leave` — how the next instruction is reached.
* `Dadao.Qemu.Run` — the runs.
* `Dadao.Qemu.Special` — what holds of the special registers at an instruction.

## Main results

* `Dadao.Qemu.special_iff` — the special registers are right throughout a run unless a direct jump goes
  through a linked exit.
-/

namespace Dadao.Qemu

open Tcg

/-! ## Runs -/

/-- An instruction that is about to be executed: `pc_first` of its translation block, its own address,
which is `pc_next` of the translator, and the CPU. -/
structure Point where
  first : BitVec 64
  addr : BitVec 64
  cpu : Machine Elem

/-- The program counter of a machine, `cpu_rb[0]`. -/
abbrev pcVal (s : Machine Elem) : BitVec 64 := s.env.globals .pc

/-- A translation block that is looked up by the program counter. -/
def Point.enter (s : Machine Elem) : Point := ⟨pcVal s, pcVal s, s⟩

/-- How an instruction is left: the translator goes on, the block ends in a linked `goto_tb`, it ends in
any other way, or an exception is handled. -/
inductive Exit where
  | goOn | linked | lookup | fault
  deriving DecidableEq, Repr

section Runs

variable (fpu : Fpu) (useGotoTb : BitVec 64 → BitVec 64 → Bool)

/-- The execution of a translation. -/
def Translation.final (t : Translation) (s : Machine Elem) : Machine Elem × Option ℕ :=
  fpu.dialect.final t.emitted none s

/-- The emissions that are executed, each with the machine it finds. -/
def Translation.visits (t : Translation) (s : Machine Elem) : List (Emission × Machine Elem) :=
  fpu.dialect.visits t.emitted none s

/-- **The next instruction** when no exception is raised (`translator_loop`, `dadao_tr_tb_stop`).
`useGotoTb` is `translator_use_goto_tb`, and `junk` is what `tcg_gen_discard_tl` leaves in `jmp_pc`. -/
def Point.leave (p : Point) (t : Translation) (x : Exit) (junk : BitVec 64) (s : Machine Elem) :
    Option Point :=
  match t.isJmp, x with
  | .next, .goOn => some ⟨p.first, p.addr + 4, s⟩
  | .next, .linked =>
    if useGotoTb p.first (p.addr + 4) then some ⟨p.addr + 4, p.addr + 4, s⟩ else none
  | .next, .lookup => some (.enter (s.write (.global .pc) (p.addr + 4)))
  | .jump, .linked =>
    if t.jmpPcImm ≠ -1 ∧ useGotoTb p.first t.jmpPcImm then
      some ⟨t.jmpPcImm, t.jmpPcImm, s.write (.global .jmpPc) junk⟩ else none
  | .jump, .lookup =>
    let dest := if t.jmpPcImm = -1 then s.env.globals .jmpPc else t.jmpPcImm
    some (.enter ((s.write (.global .jmpPc) junk).write (.global .pc) dest))
  | _, _ => none

/-- **One instruction.** After an exception the CPU is what its handler makes of it. -/
inductive Point.Step (p : Point) (w : BitVec 32) : Exit → Point → Prop
  | leave {fuel : ℕ} {t : Translation} {x : Exit} {junk : BitVec 64} {q : Point}
      (htrans : translateInsn fuel p.addr w = some t) (hdone : (t.final fpu p.cpu).2 = none)
      (hleave : p.leave useGotoTb t x junk (t.final fpu p.cpu).1 = some q) : p.Step w x q
  | fault {fuel : ℕ} {t : Translation} {v : Emission × Machine Elem} (s : Machine Elem)
      (htrans : translateInsn fuel p.addr w = some t) (hv : v ∈ t.visits fpu p.cpu)
      (hfault : v.1.mayFault = true) : p.Step w .fault (.enter s)

/-- One instruction of a run. -/
structure Turn where
  point : Point
  word : BitVec 32
  exit : Exit

/-- **Runs**: the instructions that are executed, and the one that is next. -/
inductive Run : Point → List Turn → Point → Prop
  | nil (p : Point) : Run p [] p
  | cons {τ : Turn} {ts : List Turn} {q r : Point} (hstep : τ.point.Step fpu useGotoTb τ.word τ.exit q)
      (hrun : Run q ts r) : Run τ.point (τ :: ts) r

end Runs

/-! ## The special registers -/

/-- The machine at the start of the effect of an instruction, behind the operations that are emitted
before every one. -/
def effectStart (s : Machine Elem) : Machine Elem := runStraight prologue s

/-- **The special registers at an instruction**: `rb[0]` is its address, `rf[0]` has its reserved bits,
every read of `rd[0]` finds zero, and the return address stack stays unless it is meant to change. -/
structure SpecialAt (fpu : Fpu) (p : Point) (w : BitVec 32) (t : Translation) : Prop where
  pc : pcVal (effectStart p.cpu) = p.addr
  fcsr : (effectStart p.cpu).env.globals .fcsr &&& ~~~fcsrMask = fcsrDefault &&& ~~~fcsrMask
  zero : ∀ v ∈ t.visits fpu p.cpu, .reg .rd 0 ∈ v.1.reads → v.2.env.globals (.reg .rd 0) = 0
  stack : ¬ ChangesStack w → ∀ i, (∀ v ∈ t.visits fpu p.cpu,
      v.2.env.globals (.reg .ra i) = p.cpu.env.globals (.reg .ra i)) ∧
    (t.final fpu p.cpu).1.env.globals (.reg .ra i) = p.cpu.env.globals (.reg .ra i)

/-- The special registers are right for the instruction `w`. -/
def Special (fpu : Fpu) (p : Point) (w : BitVec 32) : Prop :=
  ∀ fuel t, translateInsn fuel p.addr w = some t → SpecialAt fpu p w t

/-- The direct jump and the direct call. -/
def IsDirect (w : BitVec 32) : Prop := (w >>> 24).toNat = 0x64 ∨ (w >>> 24).toNat = 0x6c

/-- **A stale program counter**: a direct jump through a linked exit to another address than its own. -/
def Turn.Stale (τ : Turn) : Prop :=
  τ.exit = .linked ∧ IsDirect τ.word ∧ fieldImms 24 τ.word * 4 ≠ 0

/-! ## The direct jumps -/

section Direct

variable {pc : BitVec 64} {w : BitVec 32}

/-- A direct jump is translated without a loop and without a helper. -/
lemma translateInsn_direct (hdirect : IsDirect w) {fuel : ℕ} {t : Translation}
    (h : translateInsn fuel pc w = some t) :
    t.isJmp = .jump ∧ t.jmpPcImm = pc + fieldImms 24 w * 4 := by
  obtain ⟨t, hdisas, rfl⟩ := Option.map_eq_some_iff.mp h
  have hmulti : multiOf w = none := by
    unfold multiOf
    rcases hdirect with hop | hop <;> rw [hop] <;> rfl
  have hhelper : helperInsn pc w = none := by
    unfold helperInsn
    rcases hdirect with hop | hop <;> rw [hop] <;> rfl
  rw [disasInsn, hmulti] at hdisas
  simp only [hhelper] at hdisas
  obtain rfl := Option.some.inj hdisas
  unfold disasDadao
  rcases hdirect with hop | hop <;> rw [hop] <;> exact ⟨rfl, rfl⟩

lemma jmpPcImm_transLRO {rel acq : Bool} {e : Emitted} (h : transLRO rel acq w = some e) :
    e.jmpPcImm = -1 := by
  unfold transLRO at h
  split_ifs at h <;> obtain rfl := Option.some.inj h <;> rfl

lemma jmpPcImm_transSCO {e : Emitted} (h : transSCO w = some e) : e.jmpPcImm = -1 := by
  unfold transSCO at h
  split_ifs at h
  obtain rfl := Option.some.inj h
  rfl

lemma jmpPcImm_transTRAP {e : Emitted} (h : transTRAP w = some e) : e.jmpPcImm = -1 := by
  unfold transTRAP at h
  split_ifs at h
  obtain rfl := Option.some.inj h
  rfl

/-- Any other instruction has no direct target. -/
lemma jmpPcImm_of_not_direct (hdirect : ¬ IsDirect w) {e : Emitted}
    (h : disasDadao pc w = some (some e)) : e.jmpPcImm = -1 := by
  unfold disasDadao at h
  split at h
  case h_1 =>
    unfold disasMinor10 at h
    split at h <;> simp only [reduceCtorEq, Option.some.injEq] at h <;> subst h <;> rfl
  case h_75 hop => exact absurd (.inl hop) hdirect
  case h_78 hop => exact absurd (.inr hop) hdirect
  case h_82 =>
    unfold disasMinor70 at h
    split at h <;> simp only [reduceCtorEq, Option.some.injEq] at h
    case h_1 =>
      subst h
      rfl
    all_goals first
      | exact jmpPcImm_transLRO h
      | exact jmpPcImm_transSCO h
  case h_83 => exact jmpPcImm_transTRAP (Option.some.inj h)
  all_goals simp only [reduceCtorEq, Option.some.injEq] at h
  all_goals subst h
  all_goals rfl

lemma jmpPcImm_trans {m : Multi} {fuel : ℕ} {t : Translation} (h : m.trans fuel pc w = some t) :
    t.jmpPcImm = -1 := by
  cases m <;>
    simp only [Multi.trans, insnMemRrri, insnRegOrri, Option.map_eq_some_iff] at h <;>
    obtain ⟨emitted, -, rfl⟩ := h <;>
    rfl

lemma jmpPcImm_helperInsn {t : Translation} (h : helperInsn pc w = some t) : t.jmpPcImm = -1 := by
  unfold helperInsn at h
  split at h <;> simp only [reduceCtorEq, Option.some.injEq] at h <;> subst h <;> rfl

/-- **Direct targets** are those of the direct jumps. -/
lemma translateInsn_not_direct (hdirect : ¬ IsDirect w) {fuel : ℕ} {t : Translation}
    (h : translateInsn fuel pc w = some t) : t.jmpPcImm = -1 := by
  obtain ⟨t, hdisas, rfl⟩ := Option.map_eq_some_iff.mp h
  change t.jmpPcImm = -1
  rw [disasInsn] at hdisas
  cases hm : multiOf w with
  | some m =>
    rw [hm] at hdisas
    exact jmpPcImm_trans hdisas
  | none =>
    rw [hm] at hdisas
    cases hhelper : helperInsn pc w with
    | some t' =>
      rw [hhelper] at hdisas
      obtain rfl := Option.some.inj hdisas
      exact jmpPcImm_helperInsn hhelper
    | none =>
      rw [hhelper] at hdisas
      obtain rfl := Option.some.inj hdisas
      cases h : disasDadao pc w with
      | none => rfl
      | some e =>
        cases e with
        | none => rfl
        | some e => exact jmpPcImm_of_not_direct hdirect h

end Direct

/-! ## One instruction -/

section Instruction

variable {fpu : Fpu} {useGotoTb : BitVec 64 → BitVec 64 → Bool} {p q : Point} {w : BitVec 32}
  {t : Translation} {pc : BitVec 64} {s : Machine Elem}

/-- What the prologue assigns. -/
lemma effectStart_globals (s : Machine Elem) (r : Elem) : (effectStart s).env.globals r =
    if r = .fcsr then s.env.globals .fcsr &&& fcsrMask ||| fcsrDefault
    else if r = .reg .rd 0 then 0 else s.env.globals r := by
  simp only [effectStart, prologue, insnPrologue, movi, runStraight, List.map_cons, List.map_nil, Op.map,
    Var.map, List.foldl_cons, List.foldl_nil, stepOp, Machine.write_env, Env.write_global_globals,
    Env.read_global, Env.read_const, BinOp.eval]
  by_cases hf : r = .fcsr
  · subst hf
    simp [Global.elem]
  · by_cases hz : r = .reg .rd 0
    · subst hz
      simp [Global.elem]
    · simp [Global.elem, hf, hz]

lemma effectStart_of_ne {r : Elem} (hf : r ≠ .fcsr) (hz : r ≠ .reg .rd 0) :
    (effectStart s).env.globals r = s.env.globals r := by
  rw [effectStart_globals, if_neg hf, if_neg hz]

/-- The prologue goes on to the instruction. -/
lemma straight_insnPrologue : fpu.dialect.Straight (insnPrologue.map .op) := by
  intro e he s
  obtain ⟨o, ho, rfl⟩ := List.mem_map.mp he
  simp only [insnPrologue, List.mem_cons, List.not_mem_nil, or_false] at ho
  rcases ho with rfl | rfl | rfl <;> rfl

/-- What is emitted behind an instruction that goes on to the next one. -/
def nextPc (t : Translation) (pc : BitVec 64) : List Emission :=
  if t.isJmp = .next then [.op (movi cpuPc (pc + 4))] else []

lemma final_around : (t.around pc).final fpu s =
    fpu.dialect.final (t.emitted ++ nextPc t pc) none (effectStart s) := by
  rw [Translation.final, Translation.around, List.append_assoc,
    Dialect.final_append_straight straight_insnPrologue]
  rfl

lemma visits_around : (t.around pc).visits fpu s = fpu.dialect.visits (insnPrologue.map .op) none s ++
    fpu.dialect.visits (t.emitted ++ nextPc t pc) none (effectStart s) := by
  rw [Translation.visits, Translation.around, List.append_assoc,
    Dialect.visits_append_straight straight_insnPrologue]
  rfl

/-- The assignment behind an instruction is of the program counter. -/
lemma writes_nextPc {e : Emission} (he : e ∈ nextPc t pc) : e.reads = [] ∧ e.writes = [.pc] := by
  unfold nextPc at he
  split_ifs at he
  · obtain rfl := List.mem_singleton.mp he
    exact ⟨rfl, rfl⟩
  · exact absurd he List.not_mem_nil

/-- **The illegal-instruction exception** is raised at once. -/
lemma final_illegal (rest : List Emission) :
    fpu.dialect.final ((illegalInstruction pc).ops.map .op ++ rest) none s =
      (s.write (.global .pc) pc, some excpIlli) := rfl

lemma visits_illegal (rest : List Emission) :
    fpu.dialect.visits ((illegalInstruction pc).ops.map .op ++ rest) none s =
      [(.op (movi cpuPc pc), s), (.op (.exception excpIlli), s.write (.global .pc) pc)] := rfl

/-- An orderly instruction that is done has the program counter behind it, or has left it alone. -/
lemma pcVal_final (ht : t.Orderly w) (hdone : ((t.around pc).final fpu s).2 = none) :
    pcVal ((t.around pc).final fpu s).1 = if t.isJmp = .next then pc + 4 else pcVal s := by
  rw [final_around] at hdone ⊢
  have hbody : fpu.dialect.final (t.emitted ++ nextPc t pc) none (effectStart s) = _ :=
    (Dialect.final_append (ht.closed fpu) (by simp : ∀ k, none = some k → _)).1
  by_cases hraise : (fpu.dialect.final t.emitted none (effectStart s)).2 = none
  · rw [hbody, if_pos hraise]
    have hkeep : pcVal (fpu.dialect.final t.emitted none (effectStart s)).1 = pcVal s := by
      refine (Dialect.inv (P := fun s' => pcVal s' = pcVal s) (fun e he s' hs' => ?_) ?_).2
      · rw [pcVal, step_globals fpu fun hmem => (ht.writes e he _ hmem).1 rfl]
        exact hs'
      · exact effectStart_of_ne (by simp) (by simp)
    unfold nextPc
    by_cases hnext : t.isJmp = .next
    · rw [if_pos hnext, if_pos hnext]
      rfl
    · rw [if_neg hnext, if_neg hnext]
      exact hkeep
  · rw [hbody, if_neg hraise] at hdone
    exact absurd hdone hraise

/-- The reserved bits behind the prologue. -/
lemma fcsr_reserved (v : BitVec 64) :
    (v &&& fcsrMask ||| fcsrDefault) &&& ~~~fcsrMask = fcsrDefault &&& ~~~fcsrMask := by
  have hmask : fcsrMask &&& ~~~fcsrMask = 0#64 := by decide
  rw [BitVec.and_or_distrib_right, BitVec.and_assoc, hmask, BitVec.and_zero, BitVec.zero_or]

/-- No operation of the prologue reads `rd0`, and none writes the stack. -/
lemma prologue_spares {e : Emission} (he : e ∈ insnPrologue.map Emission.op) :
    .reg .rd 0 ∉ e.reads ∧ ∀ i, .reg .ra i ∉ e.writes := by
  obtain ⟨o, ho, rfl⟩ := List.mem_map.mp he
  simp only [insnPrologue, List.mem_cons, List.not_mem_nil, or_false] at ho
  rcases ho with rfl | rfl | rfl <;>
    simp [movi, Emission.reads, Emission.writes, globalsOf, Op.reads, Op.writes, Global.elem]

/-- **Reads of `rd0`** find zero. -/
lemma zero_of_visits (h : t.Illegal pc ∨ t.Orderly w) {v : Emission × Machine Elem}
    (hv : v ∈ (t.around pc).visits fpu s) (hread : .reg .rd 0 ∈ v.1.reads) :
    v.2.env.globals (.reg .rd 0) = 0 := by
  rw [visits_around, List.mem_append] at hv
  rcases hv with hv | hv
  · exact absurd hread (prologue_spares (Dialect.mem_of_mem_visits hv)).1
  rcases h with ⟨-, rest, hrest⟩ | horderly
  · rw [hrest, List.append_assoc, visits_illegal] at hv
    simp only [List.mem_cons, List.not_mem_nil, or_false] at hv
    rcases hv with rfl | rfl <;> simp [movi, Emission.reads, globalsOf, Op.reads] at hread
  · rcases horderly.zero with hwrites | hreads
    · refine (Dialect.inv (P := fun s' => s'.env.globals (.reg .rd 0) = 0) (fun e he s' hs' => ?_)
        ?_).1 v hv
      · rw [step_globals fpu fun hmem => ?_]
        · exact hs'
        · rcases List.mem_append.mp he with he | he
          · exact hwrites e he hmem
          · rw [(writes_nextPc he).2] at hmem
            simp at hmem
      · rw [effectStart_globals, if_neg (by simp), if_pos rfl]
    · rcases List.mem_append.mp (Dialect.mem_of_mem_visits hv) with he | he
      · exact absurd hread (hreads v.1 he)
      · rw [(writes_nextPc he).1] at hread
        exact absurd hread List.not_mem_nil

/-- **The return address stack** is left alone by all but a few instructions. -/
lemma stack_of_not_changesStack (h : t.Illegal pc ∨ t.Orderly w) (hw : ¬ ChangesStack w) (i : ℤ) :
    (∀ v ∈ (t.around pc).visits fpu s, v.2.env.globals (.reg .ra i) = s.env.globals (.reg .ra i)) ∧
    ((t.around pc).final fpu s).1.env.globals (.reg .ra i) = s.env.globals (.reg .ra i) := by
  have hstart : (effectStart s).env.globals (.reg .ra i) = s.env.globals (.reg .ra i) :=
    effectStart_of_ne (by simp) (by simp)
  have hprologue : ∀ v ∈ fpu.dialect.visits (insnPrologue.map .op) none s,
      v.2.env.globals (.reg .ra i) = s.env.globals (.reg .ra i) :=
    (Dialect.inv (P := fun s' => s'.env.globals (.reg .ra i) = s.env.globals (.reg .ra i))
      (fun e he s' hs' => (step_globals fpu ((prologue_spares he).2 i) s').trans hs') rfl).1
  rw [visits_around, final_around]
  simp only [List.mem_append, or_imp, forall_and]
  rw [and_assoc]
  refine ⟨hprologue, ?_⟩
  rcases h with ⟨-, rest, hrest⟩ | horderly
  · rw [hrest, List.append_assoc, final_illegal, visits_illegal]
    simp [hstart]
  · refine Dialect.inv (P := fun s' : Machine Elem => s'.env.globals (.reg .ra i) =
      s.env.globals (.reg .ra i)) (fun e he s' hs' => ?_) hstart
    rw [step_globals fpu fun hmem => ?_]
    · exact hs'
    · rcases List.mem_append.mp he with he | he
      · exact hw ((horderly.writes e he _ hmem).2 i rfl)
      · rw [(writes_nextPc he).2] at hmem
        simp at hmem

/-- **An instruction that is entered with its address in `rb[0]`** finds its special registers right. -/
lemma special_of_entered (h : pcVal p.cpu = p.addr) (w : BitVec 32) : Special fpu p w := by
  intro fuel t htrans
  obtain ⟨t, hdisas, rfl⟩ := Option.map_eq_some_iff.mp htrans
  have hcases := disasInsn_cases hdisas
  refine ⟨?_, ?_, fun v hv hread => zero_of_visits hcases hv hread,
    fun hw i => stack_of_not_changesStack hcases hw i⟩
  · rw [pcVal, effectStart_of_ne (by simp) (by simp)]
    exact h
  · rw [effectStart_globals, if_pos rfl]
    exact fcsr_reserved _

/-- The address that an instruction finds in `rb[0]`. -/
lemma entered_of_special {fuel : ℕ} (htrans : translateInsn fuel p.addr w = some t)
    (h : Special fpu p w) : pcVal p.cpu = p.addr := by
  have hpc := (h fuel t htrans).pc
  rwa [pcVal, effectStart_of_ne (by simp) (by simp)] at hpc

/-! ## Whole runs -/

/-- **One step**: the next instruction is entered with its address in `rb[0]` unless a direct jump goes
through a linked exit to another address. -/
lemma Point.Step.entered_iff {x : Exit} (hentered : pcVal p.cpu = p.addr)
    (h : p.Step fpu useGotoTb w x q) : pcVal q.cpu = q.addr ↔ ¬ (Turn.mk p w x).Stale := by
  cases h with
  | fault s htrans hv hfault => exact ⟨fun _ hstale => by simpa using hstale.1, fun _ => rfl⟩
  | @leave fuel t x junk q htrans hdone hleave =>
    obtain ⟨t, hdisas, rfl⟩ := Option.map_eq_some_iff.mp htrans
    have horderly : t.Orderly w := by
      refine (disasInsn_cases hdisas).resolve_left ?_
      rintro ⟨-, rest, hrest⟩
      rw [final_around, hrest, List.append_assoc, final_illegal] at hdone
      exact absurd hdone (by simp)
    have hpc := pcVal_final horderly hdone
    have hjmp : (t.around p.addr).isJmp = t.isJmp := rfl
    -- what the word says about the exit
    have hnext : t.isJmp = .next → ¬ IsDirect w := by
      intro hnext hdirect
      have htarget := (translateInsn_direct hdirect htrans).1
      rw [hjmp, hnext] at htarget
      exact absurd htarget (by decide)
    cases hisJmp : t.isJmp with
    | next =>
      have hstale : ¬ (Turn.mk p w x).Stale := fun hstale => hnext hisJmp hstale.2.1
      rw [if_pos hisJmp] at hpc
      rw [iff_true_right hstale]
      cases x <;> simp only [Point.leave, hjmp, hisJmp, reduceCtorEq, Option.some.injEq] at hleave
      case goOn =>
        subst hleave
        exact hpc
      case linked =>
        split_ifs at hleave
        obtain rfl := Option.some.inj hleave
        exact hpc
      case lookup =>
        subst hleave
        rfl
    | jump =>
      rw [hisJmp, if_neg (by decide)] at hpc
      cases x <;> simp only [Point.leave, hjmp, hisJmp, reduceCtorEq, Option.some.injEq] at hleave
      case linked =>
        split_ifs at hleave with himm
        obtain rfl := Option.some.inj hleave
        have hdirect : IsDirect w := by
          by_contra hdirect
          exact himm.1 (translateInsn_not_direct hdirect htrans)
        have hdest := (translateInsn_direct hdirect htrans).2
        have hkeep : pcVal (((t.around p.addr).final fpu p.cpu).1.write (.global .jmpPc) junk) = p.addr := by
          rw [pcVal, Machine.globals_write_of_ne _ (by simp)]
          exact hpc.trans hentered
        change pcVal _ = (t.around p.addr).jmpPcImm ↔ _
        rw [hkeep, hdest, Turn.Stale]
        simp [hdirect, eq_comm]
      case lookup =>
        subst hleave
        exact iff_of_true rfl fun hstale => absurd hstale.1 (by simp)
    | noreturn =>
      cases x <;> simp [Point.leave, hjmp, hisJmp] at hleave

/-- The instruction that does nothing is translated everywhere. -/
lemma translateInsn_swym (pc : BitVec 64) : ∃ t, translateInsn 0 pc 0x10000000 = some t := ⟨_, rfl⟩

/-- **The special registers over whole runs** are right for every instruction exactly if no direct jump
of the run goes through a linked exit to another address than its own. -/
theorem special_iff (fpu : Fpu) (useGotoTb : BitVec 64 → BitVec 64 → Bool) {p q : Point}
    {ts : List Turn} (hentered : pcVal p.cpu = p.addr) (hrun : Run fpu useGotoTb p ts q) :
    ((∀ τ ∈ ts, Special fpu τ.point τ.word) ∧ ∀ w, Special fpu q w) ↔ ∀ τ ∈ ts, ¬ τ.Stale := by
  induction hrun with
  | nil p => simpa using special_of_entered hentered
  | @cons τ ts q r hstep hrun ih =>
    have hnext : pcVal q.cpu = q.addr ↔ ¬ τ.Stale := hstep.entered_iff hentered
    simp only [List.forall_mem_cons]
    constructor
    · rintro ⟨⟨-, hts⟩, hlast⟩
      have hq : pcVal q.cpu = q.addr := by
        cases hrun with
        | nil =>
          obtain ⟨t, ht⟩ := translateInsn_swym q.addr
          exact entered_of_special ht (hlast _)
        | @cons τ' ts q' r hstep' hrun' =>
          have hspecial : Special fpu τ'.point τ'.word := hts τ' List.mem_cons_self
          obtain ⟨point, word, exit⟩ := τ'
          cases hstep' with
          | leave htrans => exact entered_of_special htrans hspecial
          | fault s htrans => exact entered_of_special htrans hspecial
      exact ⟨hnext.mp hq, (ih hq).mp ⟨hts, hlast⟩⟩
    · rintro ⟨hstale, hts⟩
      obtain ⟨hspecial, hlast⟩ := (ih (hnext.mpr hstale)).mpr hts
      exact ⟨⟨special_of_entered hentered _, hspecial⟩, hlast⟩

end Instruction

/-! ## A jump inside its page -/

/-- Arithmetic that always gives zero. -/
def Fpu.zero : Fpu := ⟨fun _ _ _ => 0, fun _ _ _ => 0⟩

/-- `translator_use_goto_tb`: the destination is in the page of the block. -/
def samePage (first dest : BitVec 64) : Bool := (first ^^^ dest) >>> 12 == 0

/-- A `jump` over one instruction, at `0x1000`. -/
def jumpPoint : Point := .enter ⟨⟨fun r => if r = .pc then 0x1000 else 0, fun _ => 0⟩, fun _ => 0⟩

/-- Its translation. -/
def jumpTranslation : Translation := Translation.around 0x1000 ⟨[], .jump, 0x1008⟩

/-- The instruction it jumps to, by either exit. -/
def jumpDest (x : Exit) : Option Point :=
  jumpPoint.leave samePage jumpTranslation x 0 (jumpTranslation.final .zero jumpPoint.cpu).1

lemma step_jumpPoint {x : Exit} {q : Point} (hq : jumpDest x = some q) :
    jumpPoint.Step .zero samePage 0x64000002 x q :=
  .leave (show translateInsn 0 0x1000 0x64000002 = some jumpTranslation from rfl) rfl hq

lemma run_jumpPoint {x : Exit} {q : Point} (hq : jumpDest x = some q) :
    Run .zero samePage jumpPoint [⟨jumpPoint, 0x64000002, x⟩] q := by
  have hstep : (Turn.mk jumpPoint 0x64000002 x).point.Step .zero samePage 0x64000002 x q :=
    step_jumpPoint hq
  exact Run.cons hstep (.nil q)

/-- **A linked jump** leaves its own address in `rb[0]`. -/
theorem not_special_all : ¬ ∀ (fpu : Fpu) (useGotoTb : BitVec 64 → BitVec 64 → Bool) (p q : Point)
    (ts : List Turn), pcVal p.cpu = p.addr → Run fpu useGotoTb p ts q →
    (∀ τ ∈ ts, Special fpu τ.point τ.word) ∧ ∀ w, Special fpu q w := by
  intro hall
  obtain ⟨q, hq⟩ : ∃ q, jumpDest .linked = some q := ⟨_, rfl⟩
  have haddr : (jumpDest .linked).map (fun q => (pcVal q.cpu, q.addr)) = some (0x1000, 0x1008) := rfl
  rw [hq, Option.map_some, Option.some.injEq, Prod.mk.injEq] at haddr
  have hlast := (hall .zero samePage jumpPoint q _ rfl (run_jumpPoint hq)).2 0x10000000
  obtain ⟨t, ht⟩ := translateInsn_swym q.addr
  have hentered : pcVal q.cpu = q.addr := entered_of_special ht hlast
  rw [haddr.1, haddr.2] at hentered
  exact absurd hentered (by decide)

/-- The same jump when its exit is not linked. -/
theorem special_jumpPoint : ∃ q, jumpDest .lookup = some q ∧
    (((∀ τ ∈ [Turn.mk jumpPoint 0x64000002 .lookup], Special .zero τ.point τ.word) ∧
      ∀ w, Special .zero q w) ↔ ∀ τ ∈ [Turn.mk jumpPoint 0x64000002 .lookup], ¬ τ.Stale) := by
  obtain ⟨q, hq⟩ : ∃ q, jumpDest .lookup = some q := ⟨_, rfl⟩
  exact ⟨q, hq, special_iff .zero samePage rfl (run_jumpPoint hq)⟩

end Dadao.Qemu
