import Dadao.Qemu.Restart

set_option relaxedAutoImplicit false
set_option autoImplicit false

/-!
# Translation blocks

The translator puts instructions into one translation block until it meets a jump, a page boundary or
`max_insns`. A run of whatever blocks is compared with the run of the same program that leaves the block
behind every instruction and looks the next one up.

## Main definitions

* `Dadao.Qemu.Turn.alone` — an instruction of a run, in a translation block of its own.
* `Dadao.Qemu.SameMeaning` — the run goes through the same CPUs one instruction a block, and its
  exceptions find the address of their instruction in `rb[0]`.

## Main results

* `Dadao.Qemu.sameMeaning_iff` — the runs whose blocks do not change the meaning of the program.
-/

namespace Dadao.Qemu

open Tcg

/-- **An instruction in a block of its own**, which the CPU reaches by its program counter. -/
def Turn.alone (τ : Turn) : Turn :=
  ⟨.enter τ.point.cpu, τ.word, if τ.exit = .fault then .fault else .lookup⟩

/-- Every instruction of a run is the one of the program at its address. -/
def Follows (fetch : BitVec 64 → BitVec 32) (ts : List Turn) : Prop :=
  ∀ τ ∈ ts, τ.word = fetch τ.point.addr

/-- **Exceptions find the address** of the instruction that raises them in `rb[0]`. -/
def FaultsAtHome (fpu : Fpu) (p : Point) (w : BitVec 32) : Prop :=
  ∀ fuel t, translateInsn fuel p.addr w = some t →
    ∀ v ∈ t.visits fpu p.cpu, v.1.mayFault = true → pcVal v.2 = p.addr

/-- **The blocks of a run do not matter**: with one instruction a block the program goes through the same
CPUs, and wherever an exception may be raised `rb[0]` is the address of the instruction. -/
structure SameMeaning (fpu : Fpu) (useGotoTb : BitVec 64 → BitVec 64 → Bool)
    (fetch : BitVec 64 → BitVec 32) (p : Point) (ts : List Turn) (q : Point) : Prop where
  run : Run fpu useGotoTb (.enter p.cpu) (ts.map Turn.alone) (.enter q.cpu)
  follows : Follows fetch (ts.map Turn.alone)
  faults : ∀ τ ∈ ts, FaultsAtHome fpu τ.point τ.word
  last : FaultsAtHome fpu q (fetch q.addr)

section Blocks

variable {fpu : Fpu} {useGotoTb : BitVec 64 → BitVec 64 → Bool} {fetch : BitVec 64 → BitVec 32}
  {p q : Point} {w : BitVec 32} {x : Exit} {s : Machine Elem} {t : Translation} {pc : BitVec 64}

/-! ## Exceptions -/

/-- Until the program counter is advanced it is the one the instruction was entered with. -/
lemma pcVal_of_visits (h : t.Illegal pc ∨ t.Orderly w) (hentered : pcVal s = pc)
    {v : Emission × Machine Elem} (hv : v ∈ (t.around pc).visits fpu s) (hfault : v.1.mayFault = true) :
    pcVal v.2 = pc := by
  have hstart : pcVal (effectStart s) = pc := (effectStart_of_ne (by simp) (by simp)).trans hentered
  rw [visits_around, List.mem_append] at hv
  rcases hv with hv | hv
  · obtain ⟨o, ho, he⟩ := List.mem_map.mp (Dialect.mem_of_mem_visits hv)
    simp only [insnPrologue, List.mem_cons, List.not_mem_nil, or_false] at ho
    rw [← he] at hfault
    rcases ho with rfl | rfl | rfl <;> exact absurd hfault (by decide)
  rcases h with ⟨-, rest, hrest⟩ | horderly
  · rw [hrest, List.append_assoc, visits_illegal] at hv
    simp only [List.mem_cons, List.not_mem_nil, or_false] at hv
    rcases hv with rfl | rfl
    · exact hstart
    · rfl
  · rw [(Dialect.final_append (horderly.closed fpu) (by simp)).2, List.mem_append] at hv
    rcases hv with hv | hv
    · refine (Dialect.inv (P := fun s' => pcVal s' = pc) (fun e he s' hs' => ?_) hstart).1 v hv
      rw [pcVal, step_globals fpu fun hmem => (horderly.writes e he _ hmem).1 rfl]
      exact hs'
    · split_ifs at hv
      · have he := Dialect.mem_of_mem_visits hv
        unfold nextPc at he
        split_ifs at he
        · rw [List.mem_singleton.mp he] at hfault
          exact absurd hfault (by simp [movi, Emission.mayFault, Op.mayFault, Op.accesses])
        · exact absurd he List.not_mem_nil
      · exact absurd hv List.not_mem_nil

/-- An instruction that is entered with its address in `rb[0]` raises its exceptions there. -/
lemma faultsAtHome_of_entered (h : pcVal p.cpu = p.addr) (w : BitVec 32) : FaultsAtHome fpu p w := by
  intro fuel t htrans v hv hfault
  obtain ⟨t, hdisas, rfl⟩ := Option.map_eq_some_iff.mp htrans
  exact pcVal_of_visits (disasInsn_cases hdisas) h hv hfault

/-! ## One instruction -/

/-- Assigning a global its own value changes nothing. -/
lemma write_self {g : Elem} {v : BitVec 64} (h : s.env.globals g = v) : s.write (.global g) v = s := by
  refine machine_ext (funext fun g' => ?_) rfl rfl
  rw [Machine.write_env, Env.write_global_globals]
  split_ifs with hg
  · rw [hg, h]
  · rfl

/-- **One step, alone**: without a stale program counter the instruction ends as it does in a block of
its own. -/
lemma Point.Step.alone (hentered : pcVal p.cpu = p.addr) (h : p.Step fpu useGotoTb w x q)
    (hstale : ¬ (Turn.mk p w x).Stale) :
    (Point.enter p.cpu).Step fpu useGotoTb w (Turn.mk p w x).alone.exit (.enter q.cpu) := by
  have hnext : pcVal q.cpu = q.addr := (h.entered_iff hentered).mpr hstale
  cases h with
  | @fault fuel t v s htrans hv hfault =>
    rw [← hentered] at htrans
    exact .fault s htrans hv hfault
  | @leave fuel t x junk q htrans hdone hleave =>
    rw [← hentered] at htrans
    have hend : ∀ {d}, pcVal (t.final fpu p.cpu).1 = d →
        (t.final fpu p.cpu).1.write (.global .pc) d = (t.final fpu p.cpu).1 := write_self
    have hjmp : ∀ {d}, pcVal (t.final fpu p.cpu).1 = d →
        ((t.final fpu p.cpu).1.write (.global .jmpPc) junk).write (.global .pc) d =
          (t.final fpu p.cpu).1.write (.global .jmpPc) junk :=
      fun h => write_self ((Machine.globals_write_of_ne _ (by simp) _).trans h)
    refine .leave htrans hdone (show Point.leave _ _ _ _ junk _ = _ from ?_)
    unfold Point.leave at hleave ⊢
    split at hleave
    case h_1 hisJmp =>
      obtain rfl := Option.some.inj hleave
      simp only [hisJmp, Turn.alone, reduceCtorEq, if_false, Point.enter, hentered]
      rw [hend hnext]
    case h_2 hisJmp =>
      split_ifs at hleave
      obtain rfl := Option.some.inj hleave
      simp only [hisJmp, Turn.alone, reduceCtorEq, if_false, Point.enter, hentered]
      rw [hend hnext]
    case h_3 hisJmp =>
      obtain rfl := Option.some.inj hleave
      simp only [hisJmp, Turn.alone, reduceCtorEq, if_false, Point.enter, hentered]
    case h_4 hisJmp =>
      split_ifs at hleave with himm
      obtain rfl := Option.some.inj hleave
      simp only [hisJmp, Turn.alone, reduceCtorEq, if_false, Point.enter, hentered, if_neg himm.1]
      rw [hjmp ((Machine.globals_write_of_ne _ (by simp) _).symm.trans hnext)]
    case h_5 hisJmp =>
      obtain rfl := Option.some.inj hleave
      simp only [hisJmp, Turn.alone, reduceCtorEq, if_false, Point.enter]
    case h_6 => exact absurd hleave (by simp)

/-- A direct jump through a linked exit goes to its target. -/
lemma Point.Step.addr_linked (hdirect : IsDirect w) (h : p.Step fpu useGotoTb w .linked q) :
    q.addr = p.addr + fieldImms 24 w * 4 ∧ q.addr ≠ -1 := by
  cases h with
  | @leave fuel t x junk q htrans hdone hleave =>
    obtain ⟨hisJmp, hdest⟩ := translateInsn_direct hdirect htrans
    simp only [Point.leave, hisJmp] at hleave
    split_ifs at hleave with himm
    obtain rfl := Option.some.inj hleave
    exact ⟨hdest, himm.1⟩

/-- In a block of its own it goes there too, and `rb[0]` says so. -/
lemma Point.Step.pcVal_lookup (hdirect : IsDirect w) (hdest : p.addr + fieldImms 24 w * 4 ≠ -1)
    (h : p.Step fpu useGotoTb w .lookup q) : pcVal q.cpu = p.addr + fieldImms 24 w * 4 := by
  cases h with
  | @leave fuel t x junk q htrans hdone hleave =>
    obtain ⟨hisJmp, himm⟩ := translateInsn_direct hdirect htrans
    simp only [Point.leave, hisJmp, Option.some.injEq] at hleave
    subst hleave
    rw [himm, if_neg hdest]
    rfl

/-- **A stale step** does not end as the instruction does alone. -/
lemma Point.Step.not_alone (hentered : pcVal p.cpu = p.addr) (h : p.Step fpu useGotoTb w x q)
    (hstale : (Turn.mk p w x).Stale) :
    ¬ (Point.enter p.cpu).Step fpu useGotoTb w (Turn.mk p w x).alone.exit (.enter q.cpu) := by
  intro halone
  have hexit : x = .linked := hstale.1
  subst hexit
  obtain ⟨hq, hne⟩ := h.addr_linked hstale.2.1
  have haddr : (Point.enter p.cpu).addr = p.addr := hentered
  have hpc : pcVal q.cpu = q.addr := by
    rw [hq, ← haddr]
    exact halone.pcVal_lookup (q := .enter q.cpu) hstale.2.1 (by rwa [haddr, ← hq])
  exact (h.entered_iff hentered).mp hpc hstale

/-! ## Whole runs -/

/-- The first instruction of a run. -/
lemma Run.of_cons {τ : Turn} {ts : List Turn} (h : Run fpu useGotoTb p (τ :: ts) q) :
    p = τ.point ∧ ∃ r, τ.point.Step fpu useGotoTb τ.word τ.exit r ∧ Run fpu useGotoTb r ts q := by
  cases h with
  | cons hstep hrun => exact ⟨rfl, _, hstep, hrun⟩

/-- Where a run of instructions alone starts. -/
lemma Run.start_alone {ts : List Turn} {p' : Point} (h : Run fpu useGotoTb p ts q)
    (halone : Run fpu useGotoTb p' (ts.map Turn.alone) (.enter q.cpu)) : p' = .enter p.cpu := by
  cases h with
  | nil p =>
    cases halone
    rfl
  | @cons τ ts r q hstep hrun => exact (Run.of_cons halone).1

/-- **Blocks over whole runs**: a run of whatever blocks has the meaning of the program exactly if no
direct jump of it goes through a linked exit to another address than its own. -/
theorem sameMeaning_iff (fpu : Fpu) (useGotoTb : BitVec 64 → BitVec 64 → Bool)
    (fetch : BitVec 64 → BitVec 32) {p q : Point} {ts : List Turn} (hentered : pcVal p.cpu = p.addr)
    (hrun : Run fpu useGotoTb p ts q) (hprog : Follows fetch ts) :
    SameMeaning fpu useGotoTb fetch p ts q ↔ ∀ τ ∈ ts, ¬ τ.Stale := by
  induction hrun with
  | nil p =>
    exact iff_of_true ⟨.nil _, by simp [Follows], by simp, faultsAtHome_of_entered hentered _⟩ (by simp)
  | @cons τ ts q r hstep hrun ih =>
    have hnext : pcVal q.cpu = q.addr ↔ ¬ τ.Stale := hstep.entered_iff hentered
    have hword : τ.word = fetch τ.point.addr := hprog τ List.mem_cons_self
    have hrest : Follows fetch ts := fun τ' hτ' => hprog τ' (List.mem_cons_of_mem τ hτ')
    rw [List.forall_mem_cons]
    constructor
    · intro h
      obtain ⟨-, q', halone, hruns⟩ := Run.of_cons h.run
      obtain rfl := hrun.start_alone hruns
      have hfresh : ¬ τ.Stale := fun hstale => hstep.not_alone hentered hstale halone
      have hsame : SameMeaning fpu useGotoTb fetch q ts r :=
        ⟨hruns, fun τ' hτ' => h.follows τ' (List.mem_cons_of_mem _ hτ'),
          fun τ' hτ' => h.faults τ' (List.mem_cons_of_mem _ hτ'), h.last⟩
      exact ⟨hfresh, (ih (hnext.mpr hfresh) hrest).mp hsame⟩
    · rintro ⟨hfresh, hts⟩
      have hsame := (ih (hnext.mpr hfresh) hrest).mpr hts
      refine ⟨?_, ?_, ?_, hsame.last⟩
      · exact Run.cons (τ := τ.alone) (hstep.alone hentered hfresh) hsame.run
      · rw [Follows, List.map_cons, List.forall_mem_cons]
        exact ⟨hword.trans (congrArg fetch hentered.symm), hsame.follows⟩
      · rw [List.forall_mem_cons]
        exact ⟨faultsAtHome_of_entered hentered _, hsame.faults⟩

end Blocks

/-! ## A jump in a block -/

/-- A program of jumps. -/
def jumpProgram : BitVec 64 → BitVec 32 := fun _ => 0x64000002

lemma follows_jumpProgram (x : Exit) : Follows jumpProgram [⟨jumpPoint, 0x64000002, x⟩] := by
  intro τ hτ
  rw [List.mem_singleton.mp hτ]
  rfl

/-- **A linked jump** ends on another CPU than the jump alone. -/
theorem not_sameMeaning_all : ¬ ∀ (fpu : Fpu) (useGotoTb : BitVec 64 → BitVec 64 → Bool)
    (fetch : BitVec 64 → BitVec 32) (p q : Point) (ts : List Turn), pcVal p.cpu = p.addr →
    Run fpu useGotoTb p ts q → Follows fetch ts → SameMeaning fpu useGotoTb fetch p ts q := by
  intro hall
  obtain ⟨q, hq⟩ : ∃ q, jumpDest .linked = some q := ⟨_, rfl⟩
  have hsame := hall .zero samePage jumpProgram jumpPoint q _ rfl (run_jumpPoint hq)
    (follows_jumpProgram .linked)
  obtain ⟨-, q', halone, hruns⟩ := Run.of_cons hsame.run
  obtain rfl := Run.start_alone (.nil q) hruns
  exact (step_jumpPoint hq).not_alone rfl ⟨rfl, .inl rfl, by decide⟩ halone

/-- The same jump when its exit is not linked. -/
theorem sameMeaning_jumpPoint : ∃ q, jumpDest .lookup = some q ∧
    (SameMeaning .zero samePage jumpProgram jumpPoint [⟨jumpPoint, 0x64000002, .lookup⟩] q ↔
      ∀ τ ∈ [Turn.mk jumpPoint 0x64000002 .lookup], ¬ τ.Stale) := by
  obtain ⟨q, hq⟩ : ∃ q, jumpDest .lookup = some q := ⟨_, rfl⟩
  exact ⟨q, hq, sameMeaning_iff .zero samePage jumpProgram rfl (run_jumpPoint hq)
    (follows_jumpProgram .lookup)⟩

end Dadao.Qemu
