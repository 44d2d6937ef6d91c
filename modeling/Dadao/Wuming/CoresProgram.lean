import Dadao.Wuming.Stage5Program

set_option relaxedAutoImplicit false
set_option autoImplicit false

/-!
# The two cores and one program

The same program on the one-stage core and on the five-stage core, each with memories of its own timing.
The one-stage core executes a word at a time, the five-stage core has up to five of them on their way; the
number of words that have left decode says which state of the one core is that of the other.

## Main definitions

* `Dadao.Wuming.Stage1.inOrder` — one word in the one-stage core.
* `Dadao.Wuming.SameWord` — a word that the two cores execute alike.

## Main results

* `Dadao.Wuming.Stage1.outcomes_of_quiet` — the outcomes of a run of the one-stage core are those of its
  words, one after another.
* `Dadao.Wuming.cores_agree` — the state of the five-stage core after as many words is the outcome of
  the last of them in the one-stage core.
-/

namespace Dadao

namespace Wuming

open Clocked

/-! ### Words in the one-stage core -/

namespace Stage1

variable {μ : Type} (bus : Bus μ) (evec : Cause → BitVec 64)

/-- One word in the one-stage core. -/
def inOrder (st : Arch × μ) : Arch × μ :=
  let o := single bus evec st.1 st.2
  (o.arch, o.mem)

/-- The program after a word is that of its outcome. -/
lemma next_atOnce (a : Arch) (m : μ) :
    (⟨a, (), m, false⟩ : Prog Unit μ).next (vectored evec) bus =
      ⟨(single bus evec a m).arch, (), (single bus evec a m).mem, false⟩ := by
  have hevent := event_atOnce bus evec a m
  have hedge : ((ready a m).step (vectored evec) bus instant).core.regInterruptEdge = false := by
    show (if stall (ready a m).core _ then false else false) = false
    exact ite_self false
  cases he : (ready a m).event (vectored evec) bus instant with
  | none => simp [he] at hevent
  | some e =>
    rw [he] at hevent
    have houtcome : e.outcome = single bus evec a m := Option.some.inj hevent
    have hstep : e.arch = ((ready a m).step (vectored evec) bus instant).core.toArch ∧
        e.mem = ((ready a m).step (vectored evec) bus instant).mem := by
      simp only [System.event] at he
      split_ifs at he
      all_goals
        have hmk := Option.some.inj he
        exact ⟨(congrArg Event.arch hmk).symm, (congrArg Event.mem hmk).symm⟩
    have harch : ((ready a m).step (vectored evec) bus instant).core.toArch = (single bus evec a m).arch :=
      hstep.1.symm.trans (congrArg Outcome.arch houtcome)
    have hmem : ((ready a m).step (vectored evec) bus instant).mem = (single bus evec a m).mem :=
      hstep.2.symm.trans (congrArg Outcome.mem houtcome)
    show (⟨((ready a m).step (vectored evec) bus instant).core.toArch, (), _, _⟩ : Prog Unit μ) = _
    rw [harch]
    exact congrArg₂ (Prog.mk _ ()) hmem hedge

/-- The outcomes of words whose answers come at once. -/
lemma outcomes_prog (a : Arch) (m : μ) (n : ℕ) :
    ((⟨a, (), m, false⟩ : Prog Unit μ).trace (vectored evec) bus n).map Event.outcome =
      (List.range n).map fun k =>
        single bus evec ((inOrder bus evec)^[k] (a, m)).1 ((inOrder bus evec)^[k] (a, m)).2 := by
  induction n generalizing a m with
  | zero => rfl
  | succ n ih =>
    have hevent := event_atOnce bus evec a m
    have hsystem : (⟨a, (), m, false⟩ : Prog Unit μ).system = ready a m := rfl
    cases he : (ready a m).event (vectored evec) bus instant with
    | none => simp [he] at hevent
    | some e =>
      rw [he] at hevent
      have houtcome : e.outcome = single bus evec a m := Option.some.inj hevent
      rw [Prog.trace, hsystem, he, next_atOnce, List.map_append, ih, List.range_succ_eq_map, List.map_cons,
        List.map_map]
      simp only [Option.toList_some, List.map_cons, List.map_nil, List.singleton_append, houtcome]
      rfl

variable {bus evec} in
/-- **The outcomes of a run of the one-stage core** with quiet waiting cycles are those of its words, one
after another. -/
lemma outcomes_of_quiet {a : Arch} {m : μ} {cs : List Timing}
    (hquiet : EveryCycle (System.step (vectored evec) bus) (System.Quiet (vectored evec) bus)
      (ready a m) cs) {k : ℕ} {e : Event μ}
    (he : ((ready a m).trace (vectored evec) bus cs)[k]? = some e) :
    e.outcome =
      single bus evec ((inOrder bus evec)^[k] (a, m)).1 ((inOrder bus evec)^[k] (a, m)).2 := by
  have hidle : (vectored evec).IdleKeeps := fun _ _ _ _ _ => rfl
  have hat : System.At bus (ready a m) ⟨a, (), m, false⟩ :=
    ⟨rfl, rfl, rfl, rfl, fun hwaiting => by cases hwaiting⟩
  obtain ⟨n, hn⟩ := hat.trace_eq hidle hquiet
  have hmap := congrArg (·[k]?) (outcomes_prog bus evec a m n)
  rw [hn] at he
  simp only [List.getElem?_map, he, Option.map_some] at hmap
  cases hrange : (List.range n)[k]? with
  | none => simp [hrange] at hmap
  | some j =>
    have hj : j = k := by
      rw [List.getElem?_eq_some_iff] at hrange
      obtain ⟨hlt, hget⟩ := hrange
      rw [← hget, List.getElem_range]
    rw [hrange, hj] at hmap
    exact Option.some.inj hmap

end Stage1

/-! ### The same program -/

section Programs

open Stage5 (Regs Machine Grants Suits harvard before wordAt)

/-- **A word that the two cores execute alike**: it does not read the base register 0, or both read the
same there, and it raises none of the exceptions that only the one-stage core has. -/
structure SameWord (a : Arch) (word : BitVec 32) : Prop where
  /-- The base register 0. -/
  rb0 : ReadsRb0 word = true → a.pc + 4 = 0
  /-- The exceptions. -/
  fault : NoExtraFault a word

variable {μ : Type} {prog : BitVec 64 → BitVec 32} {access : μ → MemReq → BitVec 64 × μ}
  {evec : Cause → BitVec 64} {st : Arch × μ}

/-- The two cores are in the same state before a word, if the words before it are executed alike. -/
lemma before_eq (hloads : LoadsIgnoreData (harvard prog access)) {k : ℕ}
    (h : ∀ j < k, Suits prog access evec st j ∧
      SameWord (before prog access evec st j).1 (wordAt prog access evec st j)) :
    (Stage1.inOrder (harvard prog access) evec)^[k] st = before prog access evec st k := by
  induction k with
  | zero => rfl
  | succ k ih =>
    obtain ⟨hsuits, hsame⟩ := h k (Nat.lt_succ_self k)
    have hsingle : Stage1.single (harvard prog access) evec (before prog access evec st k).1
        (before prog access evec st k).2 = Stage5.single (harvard prog access) evec
        (before prog access evec st k).1 (before prog access evec st k).2 :=
      single_eq hloads hsuits.plain hsame.rb0 hsame.fault
    rw [Function.iterate_succ_apply', ih fun j hj => h j (Nat.lt_succ_of_lt hj), Stage1.inOrder, hsingle,
      Stage5.before_add_one]
    rfl

/-- **The two cores execute a program alike**, each with any latencies of its memories. After a run of the
five-stage core in which some words have left decode, what is on its way settles to the outcome of the
last of them in any run of the one-stage core that comes to it, if these words and the next one suit the
pipeline and are executed alike. -/
theorem cores_agree (hloads : LoadsIgnoreData (harvard prog access)) (vector : BitVec 64) (r : Regs)
    (m : μ) (cs : List Stage1.Timing) (cs' : List Grants) :
    let a : Arch := ⟨vector, r.rd, r.rb, r.rf, ⟨0, fun _ => 0⟩⟩
    let n := events (Machine.step prog access) (Machine.leaves prog access) (Machine.init vector r m) cs'
    EveryCycle (Stage1.System.step (Stage1.vectored evec) (harvard prog access))
      (Stage1.System.Quiet (Stage1.vectored evec) (harvard prog access)) (Stage1.ready a m) cs →
    (∀ k ≤ n, Suits prog access evec (a, m) k ∧
      SameWord (before prog access evec (a, m) k).1 (wordAt prog access evec (a, m) k)) →
    ∀ k e, n = k + 1 →
      ((Stage1.ready a m).trace (Stage1.vectored evec) (harvard prog access) cs)[k]? = some e →
      e.exception = none ∧
        (run (Machine.step prog access) (Machine.init vector r m) cs').settled access =
          (e.arch, e.mem) := by
  intro a n hquiet hwords k e hn he
  have hsettled := (Stage5.run_settled evec hloads vector r m cs' fun j hj => (hwords j hj).1).1
  have houtcome := Stage1.outcomes_of_quiet hquiet he
  obtain ⟨hsuits, hsame⟩ := hwords k (by omega)
  have hbefore : (Stage1.inOrder (harvard prog access) evec)^[k] (a, m) =
      before prog access evec (a, m) k := before_eq hloads fun j hj => hwords j (by omega)
  have hsingle : Stage1.single (harvard prog access) evec (before prog access evec (a, m) k).1
      (before prog access evec (a, m) k).2 = Stage5.single (harvard prog access) evec
      (before prog access evec (a, m) k).1 (before prog access evec (a, m) k).2 :=
    single_eq hloads hsuits.plain hsame.rb0 hsame.fault
  rw [hbefore, hsingle] at houtcome
  -- the outcome of the last word is the state before the next one
  have hnext : before prog access evec (a, m) (k + 1) = (e.arch, e.mem) := by
    rw [Stage5.before_add_one]
    exact Prod.ext (congrArg Outcome.arch houtcome).symm (congrArg Outcome.mem houtcome).symm
  refine ⟨?_, ?_⟩
  · have hexception := congrArg Outcome.exception houtcome
    rw [(exception_single (harvard prog access) evec _ _).2] at hexception
    have hnone : e.exception.map Prod.fst = none := hexception.trans hsuits.fault
    simpa using hnone
  · rw [← hnext, ← hn]
    exact hsettled

instance (a : Arch) (word : BitVec 32) : Decidable (SameWord a word) :=
  decidable_of_iff
    ((ReadsRb0 word = true → a.pc + 4 = 0) ∧ Stage1.instMultiReg word = false ∧
      Stage1.instRaspExcp a word = false ∧ Stage1.instMisaligned a word false = false)
    ⟨fun h => ⟨h.1, h.2.1, h.2.2.1, h.2.2.2⟩,
      fun h => ⟨h.rb0, h.fault.multiReg, h.fault.rasp, h.fault.target⟩⟩

instance {κ : Type} (csr : Stage1.CsrFile κ) (bus : Stage1.Bus μ) (x : Stage1.System κ μ)
    (c : Stage1.Timing) : Decidable (Stage1.System.Quiet csr bus x c) :=
  inferInstanceAs (Decidable (_ → _))

/-- The loop on both cores: the fetch of the one waits in every other cycle, and the data memory of the
other. -/
theorem cores_agree_storeLoad :
    let a : Arch := ⟨0x10000, fun _ => 0, fun _ => 0, fun _ => 0, ⟨0, fun _ => 0⟩⟩
    let cs := (List.replicate 8 [Stage1.System.pause 0x10000000, Stage1.instant]).flatten
    let cs' : List Grants :=
      (List.replicate 12 [⟨true, true, false, 0, 0⟩, ⟨true, true, true, 0, 0⟩]).flatten
    ∀ e, ((Stage1.ready a 0).trace (Stage1.vectored fun _ => 0) (harvard Stage5.storeLoad Stage5.octa)
        cs)[6]? = some e →
      e.exception = none ∧
        (run (Machine.step Stage5.storeLoad Stage5.octa)
          (Machine.init 0x10000 ⟨fun _ => 0, fun _ => 0, fun _ => 0⟩ 0) cs').settled Stage5.octa =
          (e.arch, e.mem) := by
  intro a cs cs' e he
  refine cores_agree ?_ 0x10000 ⟨fun _ => 0, fun _ => 0, fun _ => 0⟩ 0 cs cs' ?_ ?_ 6 e ?_ he
  · rintro m req d hload
    simp [harvard, Stage5.octa, hload]
  · decide +kernel
  · decide +kernel
  · decide +kernel

end Programs

end Wuming

end Dadao
