import Dadao.Lib.Thread
import Dadao.Qemu.Sequence
import Mathlib.Data.List.Perm.Basic
import Mathlib.Logic.Function.Basic
import Mathlib.Logic.Relation

set_option relaxedAutoImplicit false
set_option autoImplicit false

/-!
# Load reserved and store conditional

Any number of virtual CPUs on a shared memory, interleaved operation by operation. `LRO` leaves the
address and the value it loaded in `load_res` and `load_val`; `SCO` compares its address with the one
and swaps if the memory still holds the other. That `load_res` is minus one stands for no reservation,
but it is zero after reset.

## Main definitions

* `Dadao.Qemu.System`, `Dadao.Qemu.Step`, `Dadao.Qemu.Reaches` — the CPUs and their runs.
* `Dadao.Qemu.reservation` — the reservation of a CPU by the instructions it has executed.
* `Dadao.Qemu.NoLostReservation` — an `SCO` succeeds on its reservation only.
* `Dadao.Qemu.Discipline.aimed`, `Dadao.Qemu.Discipline.counting` — the runs the results are about.

## Main results

* `Dadao.Qemu.CpuInv.step` — every step of every CPU keeps the invariant of each of them.
* `Dadao.Qemu.no_lost_update` — reservations are respected, and increments are counted.
-/

namespace Dadao.Qemu

open Tcg

/-! ## Instructions -/

/-- An operation that does not assign `load_res` or `load_val` and is no compare-and-swap. -/
def keepsReservation : Op Global → Bool
  | .mov d _ | .bin _ d _ _ | .movcond _ d _ _ _ _ | .setcond _ d _ _ | .qemuLd d _ _ =>
    d ≠ glob .loadRes ∧ d ≠ glob .loadVal
  | .wide _ d d' _ _ _ _ =>
    (d ≠ glob .loadRes ∧ d ≠ glob .loadVal) ∧ (d' ≠ glob .loadRes ∧ d' ≠ glob .loadVal)
  | .atomicCmpxchg .. => false
  | _ => true

/-- Any other instruction: plain loads and stores, arithmetic, branches. -/
structure PlainInsn extends Emitted where
  keeps : ops.all keepsReservation = true

/-- The instructions of a CPU. The variants of `SCO` emit the same operations. -/
inductive Insn where
  | lro (rel acq : Bool) (w : BitVec 32)
  | sco (w : BitVec 32)
  | plain (e : PlainInsn)

/-- What the translator emits. -/
def Insn.emitted : Insn → Option Emitted
  | .lro rel acq w => transLRO rel acq w
  | .sco w => transSCO w
  | .plain e => some e.toEmitted

/-- A plain store as an instruction. -/
def storeInsn (srcReg : ℕ → Global) (op : MemOp) (w : BitVec 32) : PlainInsn where
  toEmitted := insnStRrii srcReg op w
  keeps := by simp [insnStRrii, Emitted.next, keepsReservation]

/-! ## The system -/

/-- A CPU: its thread and the instruction it is inside of. -/
structure Cpu extends Thread Global where
  insn : Option Insn

/-- What is observed: a compare-and-swap as it happens, and an instruction at its end with the
registers it leaves. -/
inductive Event (ι : Type) where
  | cas (i : ι) (c : Cas)
  | retired (i : ι) (insn : Insn) (e : Env Global)

/-- The CPU of an event. -/
def Event.cpu {ι : Type} : Event ι → ι
  | .cas i _ => i
  | .retired i _ _ => i

/-- The shared memory, the CPUs, and the events so far, the newest first. -/
structure System (ι : Type) where
  mem : Memory
  cpu : ι → Cpu
  log : List (Event ι)

namespace System

variable {ι : Type} [DecidableEq ι]

/-- A CPU begins an instruction. -/
def start (s : System ι) (i : ι) (insn : Insn) : System ι :=
  let e := (s.cpu i).env
  let begun : Cpu := ⟨⟨e, insnOps (e.globals cpuPc) insn.emitted, none⟩, some insn⟩
  { s with cpu := Function.update s.cpu i begun }

/-- A CPU executes the next operation. -/
def exec (s : System ι) (i : ι) : System ι :=
  let r := (s.cpu i).step s.mem
  { mem := r.2
    cpu := Function.update s.cpu i ⟨r.1, (s.cpu i).insn⟩
    log := (((s.cpu i).cas s.mem).map (Event.cas i)).toList ++ s.log }

/-- A CPU comes to the end of an instruction. -/
def retire (s : System ι) (i : ι) (insn : Insn) : System ι :=
  { s with
    cpu := Function.update s.cpu i ⟨(s.cpu i).toThread, none⟩
    log := .retired i insn (s.cpu i).env :: s.log }

end System

/-! ## Reservations -/

/-- Where `LRO` and `SCO` of a CPU leave it: none executed yet, a reservation with the address and
the value returned, or none after an `SCO`. -/
inductive Reservation where
  | fresh
  | held (addr val : BitVec 64)
  | spent
  deriving DecidableEq

/-- An `LRO` that is legal and has a destination. -/
def LroEffective (w : BitVec 32) : Prop := fieldHd w ≠ 0 ∧ fieldHb w = 0 ∧ fieldHc w ≠ 0

/-- A legal `SCO`. -/
def ScoLegal (w : BitVec 32) : Prop := fieldHd w ≠ 0 ∧ fieldHb w ≠ 0

instance (w : BitVec 32) : Decidable (LroEffective w) := inferInstanceAs (Decidable (_ ∧ _))

instance (w : BitVec 32) : Decidable (ScoLegal w) := inferInstanceAs (Decidable (_ ∧ _))

/-- The reservation after an instruction that leaves the registers `e`. -/
def Reservation.after (r : Reservation) (e : Env Global) : Insn → Reservation
  | .lro _ _ w =>
    if LroEffective w then .held (e.globals (.rb (fieldHd w))) (e.globals (.rd (fieldHc w))) else r
  | .sco w => if ScoLegal w then .spent else r
  | .plain _ => r

section Log

variable {ι : Type} [DecidableEq ι]

/-- The reservation of a CPU by its events. -/
def reservation (i : ι) : List (Event ι) → Reservation
  | [] => .fresh
  | .retired j insn e :: log =>
    if j = i then (reservation i log).after e insn else reservation i log
  | .cas _ _ :: log => reservation i log

/-- The compare-and-swap of a CPU that is inside an instruction. -/
def openCas (i : ι) : List (Event ι) → Option Cas
  | [] => none
  | .retired j _ _ :: log => if j = i then none else openCas i log
  | .cas j c :: log => if j = i then some c else openCas i log

/-- An `SCO` that reports success. -/
def Event.succeeded : Event ι → Bool
  | .retired _ (.sco w) e => ScoLegal w ∧ e.globals (.rd (fieldHb w)) = 0
  | _ => false

/-- **Every `SCO` that reports success** made a compare-and-swap that stored at its address, and the
last `LRO` or `SCO` of the CPU before it was an `LRO` of the same address that returned the value the
memory held then. -/
def NoLostReservation (log : List (Event ι)) : Prop :=
  ∀ later i w e earlier, log = later ++ .retired i (.sco w) e :: earlier →
    (Event.retired i (.sco w) e : Event ι).succeeded = true →
    ∃ c, openCas i earlier = some c ∧ c.stored = true ∧ c.addr = e.globals (.rb (fieldHd w)) ∧
      reservation i earlier = .held c.addr c.old

end Log

/-! ## Runs -/

/-- The discipline of a run: when an instruction may begin, by the reservation and the registers of
its CPU, and where plain stores may go. -/
structure Discipline where
  start : Reservation → Env Global → Insn → Prop
  store : BitVec 64 → ℕ → Prop

/-- No discipline. -/
def Discipline.free : Discipline := ⟨fun _ _ _ => True, fun _ _ => True⟩

/-- An `SCO` without a reservation does not go to the address `load_res` then has: zero before the
first `LRO` or `SCO` of the CPU, minus one after an `SCO`. -/
def Aimed (r : Reservation) (e : Env Global) : Insn → Prop
  | .sco w => ScoLegal w → (r = .fresh → e.globals (.rb (fieldHd w)) ≠ 0) ∧
      (r = .spent → e.globals (.rb (fieldHd w)) ≠ -1)
  | _ => True

/-- The runs whose `SCO`s are aimed. -/
def Discipline.aimed : Discipline := ⟨Aimed, fun _ _ => True⟩

/-- What an `SCO` that finds its reservation valid stores is `val` of the address and the value the
`LRO` returned. -/
def Stores (val : BitVec 64 → BitVec 64 → BitVec 64 → Prop) (r : Reservation) (e : Env Global) :
    Insn → Prop
  | .sco w => ScoLegal w → ∀ v, r = .held (e.globals (.rb (fieldHd w))) v →
      val (e.globals (.rb (fieldHd w))) v
        (settle (.rd (fieldHc w)) (e.globals (.rd (fieldHc w))))
  | _ => True

/-- An increment of the octa at `cell`, or a store that does not touch it. -/
def Increments (cell a old new : BitVec 64) : Prop :=
  (a = cell ∧ new = old + 1) ∨ Memory.Apart a 8 cell 8

/-- The runs that change the octa at `cell` by `LRO`, add one, `SCO` only. -/
def Discipline.counting (cell : BitVec 64) : Discipline where
  start r e insn := Aimed r e insn ∧ Stores (Increments cell) r e insn
  store a n := Memory.Apart a n cell 8

variable {ι : Type} [DecidableEq ι]

/-- One step of one CPU. -/
inductive Step (D : Discipline) : System ι → System ι → Prop
  | start (s : System ι) (i : ι) (insn : Insn) (hidle : (s.cpu i).insn = none)
      (hstart : D.start (reservation i s.log) (s.cpu i).env insn) : Step D s (s.start i insn)
  | exec (s : System ι) (i : ι)
      (hstore : ∀ a n v, (s.cpu i).plainStore = some (a, n, v) → D.store a n) : Step D s (s.exec i)
  | retire (s : System ι) (i : ι) (insn : Insn) (hinsn : (s.cpu i).insn = some insn)
      (hops : (s.cpu i).ops = []) : Step D s (s.retire i insn)

/-- The systems a run reaches. -/
def Reaches (D : Discipline) : System ι → System ι → Prop := Relation.ReflTransGen (Step D)

/-- A system after reset: no instruction begun, and `load_res` zero on every CPU. -/
structure System.Reset (s : System ι) : Prop where
  log : s.log = []
  insn : ∀ i, (s.cpu i).insn = none
  ops : ∀ i, (s.cpu i).ops = []
  loadRes : ∀ i, (s.cpu i).env.globals .loadRes = 0

/-! ## One CPU -/

/-- What `load_res` and `load_val` hold between instructions. -/
def RegInv (e : Env Global) : Reservation → Prop
  | .fresh => e.globals .loadRes = 0
  | .held a v => e.globals .loadRes = a ∧ e.globals .loadVal = v
  | .spent => e.globals .loadRes = -1

/-- A compare-and-swap that stores is on the reserved address and finds the value reserved. -/
def Guard (val : BitVec 64 → BitVec 64 → BitVec 64 → Prop) (r : Reservation) (c : Cas) : Prop :=
  c.op = moTeuq ∧ (c.stored = true → r = .held c.addr c.old ∧ val c.addr c.old c.new)

/-- What an instruction leaves. -/
def Post (r : Reservation) (insn : Insn) (e : Env Global) (c : Option Cas) : Prop :=
  RegInv e (r.after e insn) ∧
  match insn with
  | .sco w =>
    (ScoLegal w ∧ e.globals (.rd (fieldHb w)) = 0 ↔ ∃ c', c = some c' ∧ c'.stored = true) ∧
    (ScoLegal w → ∀ c', c = some c' → c'.addr = e.globals (.rb (fieldHd w)) ∧
      (c'.stored = true → r = .held c'.addr c'.old))
  | _ => c = none

section Insns

variable {val : BitVec 64 → BitVec 64 → BitVec 64 → Prop} {r : Reservation} {e : Env Global}

/-- An operation that keeps the reservation. -/
lemma stepOp_keepsReservation {op : Op Global} (hop : keepsReservation op = true) (e : Env Global)
    (mem : Memory) : op.cas e mem = none ∧
      (stepOp op ⟨e, mem⟩).1.env.globals .loadRes = e.globals .loadRes ∧
      (stepOp op ⟨e, mem⟩).1.env.globals .loadVal = e.globals .loadVal := by
  have hwrite : ∀ (e : Env Global) (d : Var Global) (v : BitVec 64),
      d ≠ glob .loadRes ∧ d ≠ glob .loadVal →
      (e.write d v).globals .loadRes = e.globals .loadRes ∧
      (e.write d v).globals .loadVal = e.globals .loadVal := by
    intro e d v hd
    cases d with
    | global g =>
      simp only [ne_eq, glob, Var.global.injEq] at hd
      simp [Ne.symm hd.1, Ne.symm hd.2]
    | temp n => exact ⟨rfl, rfl⟩
    | const c => exact ⟨rfl, rfl⟩
  cases op with
  | mov d a => exact ⟨rfl, hwrite e d _ (by simpa [keepsReservation] using hop)⟩
  | bin f d a b => exact ⟨rfl, hwrite e d _ (by simpa [keepsReservation] using hop)⟩
  | wide f d d' al ah bl bh =>
    have hd : (d ≠ glob .loadRes ∧ d ≠ glob .loadVal) ∧ (d' ≠ glob .loadRes ∧ d' ≠ glob .loadVal) := by
      simpa [keepsReservation] using hop
    obtain ⟨hres, hval⟩ := hwrite e d _ hd.1
    obtain ⟨hres', hval'⟩ := hwrite (e.write d _) d' _ hd.2
    exact ⟨rfl, hres'.trans hres, hval'.trans hval⟩
  | movcond k d a b x y => exact ⟨rfl, hwrite e d _ (by simpa [keepsReservation] using hop)⟩
  | setcond k d a b => exact ⟨rfl, hwrite e d _ (by simpa [keepsReservation] using hop)⟩
  | qemuLd d a mo => exact ⟨rfl, hwrite e d _ (by simpa [keepsReservation] using hop)⟩
  | atomicCmpxchg d a x y mo => simp [keepsReservation] at hop
  | _ => exact ⟨rfl, rfl, rfl⟩

/-- The reservation is in `load_res` and `load_val`. -/
lemma RegInv.congr {e' : Env Global} (h : RegInv e r)
    (hres : e'.globals .loadRes = e.globals .loadRes)
    (hval : e'.globals .loadVal = e.globals .loadVal) : RegInv e' r := by
  cases r <;> simp only [RegInv] at h ⊢ <;> simp only [hres, hval, h, and_self]

/-- A list that keeps the reservation. -/
lemma wp_keeps {guard : Cas → Prop} {ops : List (Op Global)}
    (hops : ops.all keepsReservation = true) {Q : Env Global → Option Cas → Prop}
    (hQ : ∀ e, RegInv e r → Q e none) (he : RegInv e r) : Wp guard Q ops none e none := by
  refine wp_of_invariant (I := fun e => RegInv e r) ?_ ?_ none he
  · intro op hop e mem hinv
    obtain ⟨hcas, hres, hval⟩ :=
      stepOp_keepsReservation (List.all_eq_true.mp hops op hop) e mem
    exact ⟨hcas, hinv.congr hres hval⟩
  · rintro e c hinv rfl
    exact hQ e hinv

lemma tbStop_keepsReservation (pc : BitVec 64) (e : Emitted) :
    (tbStop pc e).all keepsReservation = true := by
  unfold tbStop
  split
  · rfl
  · rfl
  · split_ifs <;> rfl

/-- An instruction whose operations keep the reservation. -/
lemma insnOps_keepsReservation (pc : BitVec 64) {e : Emitted}
    (h : e.ops.all keepsReservation = true) :
    (insnOps pc (some e)).all keepsReservation = true := by
  rw [insnOps, List.all_append, List.all_append, Option.getD_some, h, tbStop_keepsReservation]
  rfl

/-- The prologue settles the registers. -/
lemma wp_insnPrologue {guard : Cas → Prop} {Q : Env Global → Option Cas → Prop} {c : Option Cas}
    {ops : List (Op Global)}
    (h : ∀ e' : Env Global, (∀ g, e'.globals g = settle g (e.globals g)) →
      Wp guard Q ops none e' c) : Wp guard Q (insnPrologue ++ ops) none e c := by
  simp only [insnPrologue, movi, List.cons_append, List.nil_append, wp_mov, wp_bin]
  refine h _ fun g => ?_
  exact runStraight_insnPrologue ⟨e, fun _ => 0⟩ g

/-- **`LRO`** takes a reservation. -/
lemma wp_lro (rel acq : Bool) (w : BitVec 32) (pc : BitVec 64) (he : RegInv e r) :
    Wp (Guard val r) (Post r (.lro rel acq w)) (insnOps pc (transLRO rel acq w)) none e none := by
  by_cases heff : LroEffective w
  · obtain ⟨hhd, hhb, hhc⟩ := heff
    have hdecode : ¬ (fieldHd w = 0 ∨ fieldHb w ≠ 0) := by simp [hhd, hhb]
    have hpost : ∀ e' : Env Global,
        e'.globals .loadRes = e'.globals (.rb (fieldHd w)) →
        e'.globals .loadVal = e'.globals (.rd (fieldHc w)) → Post r (.lro rel acq w) e' none := by
      intro e' hres hval
      refine ⟨?_, rfl⟩
      rw [Reservation.after, if_pos ⟨hhd, hhb, hhc⟩]
      exact ⟨hres, hval⟩
    rw [transLRO, if_neg hdecode, if_neg hhc, insnOps, List.append_assoc]
    refine wp_insnPrologue fun e₁ _ => ?_
    cases rel <;> cases acq <;>
      · simp only [movi, Emitted.next, tbStop, Option.getD_some, if_true, Bool.false_eq_true,
          if_false, List.cons_append, List.nil_append, List.append_nil, wp_mov, wp_mb, wp_qemuLd,
          wp_nil]
        intro mem
        refine hpost _ ?_ ?_ <;> simp [hhd]
  · have hkeep : (insnOps pc (transLRO rel acq w)).all keepsReservation = true := by
      by_cases h1 : fieldHd w = 0 ∨ fieldHb w ≠ 0
      · rw [transLRO, if_pos h1]
        rfl
      · have h2 : fieldHc w = 0 := by
          simp only [LroEffective] at heff
          tauto
        rw [transLRO, if_neg h1, if_pos h2]
        exact insnOps_keepsReservation pc rfl
    refine wp_keeps hkeep (fun e' he' => ⟨?_, rfl⟩) he
    rw [Reservation.after, if_neg heff]
    exact he'

/-- An aimed `SCO` whose address is in `load_res` has a reservation on it. -/
lemma held_of_loadRes {w : BitVec 32} (he : RegInv e r) (haimed : Aimed r e (.sco w))
    (hlegal : ScoLegal w) (hres : e.globals .loadRes = e.globals (.rb (fieldHd w))) :
    r = .held (e.globals (.rb (fieldHd w))) (e.globals .loadVal) := by
  obtain ⟨hfresh, hspent⟩ := haimed hlegal
  cases r with
  | fresh => exact absurd (hres.symm.trans he) (hfresh rfl)
  | held a v => rw [← hres, he.1, he.2]
  | spent => exact absurd (hres.symm.trans he) (hspent rfl)

/-- What a legal `SCO` leaves when it made the compare-and-swap `c`, or none. -/
lemma post_sco {w : BitVec 32} {c : Option Cas} (hlegal : ScoLegal w)
    (hres : e.globals .loadRes = -1)
    (hrd : e.globals (.rd (fieldHb w)) = 0 ↔ ∃ c', c = some c' ∧ c'.stored = true)
    (hcas : ∀ c', c = some c' → c'.addr = e.globals (.rb (fieldHd w)) ∧
      (c'.stored = true → r = .held c'.addr c'.old)) : Post r (.sco w) e c := by
  refine ⟨?_, ?_, fun _ => hcas⟩
  · rw [Reservation.after, if_pos hlegal]
    exact hres
  · rw [← hrd]
    exact and_iff_right hlegal

/-- The operations of an `SCO` behind its compare-and-swap. -/
lemma wp_sco_swapped {w : BitVec 32} {pc : BitVec 64} {c : Cas} {guard : Cas → Prop}
    (hlegal : ScoLegal w) (htemp : e.temps 0 = c.old)
    (hstored : c.stored = true ↔ c.old = e.globals .loadVal)
    (haddr : c.addr = e.globals (.rb (fieldHd w)))
    (hheld : c.stored = true → r = .held c.addr c.old) :
    Wp guard (Post r (.sco w))
      [.setcond .ne (.temp 1) (.temp 0) (glob .loadVal), .mov (glob (.rd (fieldHb w))) (.temp 1),
        .br 2, .setLabel 1, .mb, .mov (.temp 1) (.const 1), .mov (glob (.rd (fieldHb w))) (.temp 1),
        .setLabel 2, movi .loadRes (-1), movi cpuPc (pc + 4)] none e (some c) := by
  have hhd : fieldHd w ≠ 0 := hlegal.1
  have h12 : ¬ Op.setLabel 1 = (Op.setLabel 2 : Op Global) := by simp
  simp only [movi, wp_setcond, wp_mov, wp_br, wp_skip, reduceCtorEq, h12, if_false, if_true, wp_nil]
  refine post_sco hlegal (by simp) ?_ ?_
  · simp only [Env.write_global_globals, Env.read_temp, Env.write_temp_temps, reduceCtorEq,
      if_false, if_true, Env.read_global, Cond.holds, htemp, bne_iff_ne, Option.some.injEq,
      exists_eq_left', hstored]
    split_ifs with h
    · simp [h]
    · simpa using h
  · rintro c' ⟨⟩
    refine ⟨?_, hheld⟩
    rw [haddr]
    simp [hhd]

/-- **`SCO`** stores at most on its reservation and ends it. -/
lemma wp_sco (w : BitVec 32) (pc : BitVec 64) (he : RegInv e r) (haimed : Aimed r e (.sco w))
    (hstores : Stores val r e (.sco w)) :
    Wp (Guard val r) (Post r (.sco w)) (insnOps pc (transSCO w)) none e none := by
  by_cases hlegal : ScoLegal w
  · have hhd : fieldHd w ≠ 0 := hlegal.1
    have hhb : fieldHb w ≠ 0 := hlegal.2
    have hdecode : ¬ (fieldHd w = 0 ∨ fieldHb w = 0) := by simp [hhd, hhb]
    rw [transSCO, if_neg hdecode, insnOps, List.append_assoc]
    refine wp_insnPrologue fun e₁ he₁ => ?_
    have hres₁ : e₁.globals .loadRes = e.globals .loadRes := he₁ _
    have hval₁ : e₁.globals .loadVal = e.globals .loadVal := he₁ _
    have hrb₁ : e₁.globals (.rb (fieldHd w)) = e.globals (.rb (fieldHd w)) := he₁ _
    simp only [Option.getD_some, Emitted.next, tbStop, List.cons_append, List.nil_append, wp_mov,
      wp_brcond]
    by_cases heq : e₁.globals .loadRes = e₁.globals (.rb (fieldHd w))
    · -- the address is reserved, or `load_res` would hold a value the `SCO` does not aim at
      have hheld := held_of_loadRes he haimed hlegal (by rw [← hres₁, heq, hrb₁])
      have hvalue := hstores hlegal _ hheld
      rw [if_neg (by simp [Cond.holds, heq]), wp_atomicCmpxchg]
      intro mem
      simp only [Env.read_global, Env.write_temp_globals, heq, hrb₁, hval₁, he₁ (.rd _)]
      refine ⟨⟨trivial, rfl, ?_⟩, wp_sco_swapped hlegal rfl ?_ ?_ ?_⟩
      · intro hstored
        have hold : moTeuq.load mem (e.globals (.rb (fieldHd w))) = e.globals .loadVal := by
          simpa using hstored
        simp only [hold]
        exact ⟨hheld, hvalue⟩
      · simp [hval₁]
      · exact hrb₁.symm
      · intro hstored
        have hold : moTeuq.load mem (e.globals (.rb (fieldHd w))) = e.globals .loadVal := by
          simpa using hstored
        simp only [hold]
        exact hheld
    · have h12 : ¬ Op.setLabel 2 = (Op.setLabel 1 : Op Global) := by simp
      rw [if_pos (by simp [Cond.holds, heq])]
      simp only [movi, wp_skip, wp_mov, wp_mb, wp_setLabel, wp_nil, reduceCtorEq, h12, if_false,
        if_true]
      refine post_sco hlegal ?_ ?_ ?_
      · simp
      · simp
      · simp
  · have hkeep : (insnOps pc (transSCO w)).all keepsReservation = true := by
      rw [transSCO, if_pos (by simp only [ScoLegal] at hlegal; tauto)]
      rfl
    refine wp_keeps hkeep (fun e' he' => ⟨?_, ?_⟩) he
    · rw [Reservation.after, if_neg hlegal]
      exact he'
    · simp [hlegal]

/-- **Every instruction** meets its guard and leaves what it should. -/
lemma wp_insn {insn : Insn} (pc : BitVec 64) (he : RegInv e r) (haimed : Aimed r e insn)
    (hstores : Stores val r e insn) :
    Wp (Guard val r) (Post r insn) (insnOps pc insn.emitted) none e none := by
  cases insn with
  | lro rel acq w => exact wp_lro rel acq w pc he
  | sco w => exact wp_sco w pc he haimed hstores
  | plain p => exact wp_keeps (insnOps_keepsReservation pc p.keeps) (fun e' he' => ⟨he', rfl⟩) he

end Insns

/-! ## The system invariant -/

section Invariant

variable {val : BitVec 64 → BitVec 64 → BitVec 64 → Prop} {D : Discipline}

/-- What holds of a CPU: between instructions its registers carry the reservation, and inside one it
meets what the instruction has to do. -/
def CpuInv (val : BitVec 64 → BitVec 64 → BitVec 64 → Prop) (s : System ι) (i : ι) : Prop :=
  match (s.cpu i).insn with
  | none => (s.cpu i).ops = [] ∧ openCas i s.log = none ∧
      RegInv (s.cpu i).env (reservation i s.log)
  | some insn => (s.cpu i).Meets (Guard val (reservation i s.log))
      (Post (reservation i s.log) insn) (openCas i s.log)

/-- A CPU without operations does nothing. -/
lemma System.exec_of_nil {s : System ι} {i : ι} (h : (s.cpu i).ops = []) : s.exec i = s := by
  have hstep : (s.cpu i).step s.mem = ((s.cpu i).toThread, s.mem) := by
    unfold Thread.step
    rw [h]
  have hcas : (s.cpu i).cas s.mem = none := by
    unfold Thread.cas Thread.next
    rw [h]
    rfl
  simp only [System.exec, hstep, hcas, Option.map_none, Option.toList_none, List.nil_append]
  have hcpu : Function.update s.cpu i ⟨(s.cpu i).toThread, (s.cpu i).insn⟩ = s.cpu :=
    Function.update_eq_self i s.cpu
  rw [hcpu]

/-- The reservations after an operation. -/
lemma reservation_exec (s : System ι) (i j : ι) :
    reservation j (s.exec i).log = reservation j s.log := by
  unfold System.exec
  cases (s.cpu i).cas s.mem <;> rfl

/-- The compare-and-swaps after an operation. -/
lemma openCas_exec (s : System ι) (i j : ι) : openCas j (s.exec i).log =
    if i = j then ((s.cpu i).cas s.mem).or (openCas j s.log) else openCas j s.log := by
  unfold System.exec
  cases (s.cpu i).cas s.mem with
  | none => simp
  | some c => rfl

/-- **The invariant of a CPU is kept** by every step. -/
lemma CpuInv.step (hD : ∀ r e insn, D.start r e insn → Aimed r e insn ∧ Stores val r e insn)
    {s s' : System ι} (hstep : Step D s s') (h : ∀ i, CpuInv val s i) (j : ι) :
    CpuInv val s' j := by
  have hj := h j
  cases hstep with
  | start i insn hidle hstart =>
    by_cases hij : j = i
    · subst hij
      obtain ⟨haimed, hstores⟩ := hD _ _ _ hstart
      simp only [CpuInv, hidle] at hj
      simp only [CpuInv, System.start, Function.update_self, hj.2.1]
      exact wp_insn _ hj.2.2 haimed hstores
    · simpa only [CpuInv, System.start, Function.update_of_ne hij] using hj
  | exec i hstore =>
    by_cases hij : j = i
    · subst hij
      cases hinsn : (s.cpu j).insn with
      | none =>
        have hnil : (s.cpu j).ops = [] := by
          simp only [CpuInv, hinsn] at hj
          exact hj.1
        rw [System.exec_of_nil hnil]
        exact hj
      | some insn =>
        simp only [CpuInv, hinsn] at hj
        unfold CpuInv
        rw [reservation_exec, openCas_exec, if_pos rfl]
        simp only [System.exec, Function.update_self, hinsn]
        exact (hj.step s.mem).1
    · unfold CpuInv
      rw [reservation_exec, openCas_exec, if_neg (Ne.symm hij)]
      simpa only [CpuInv, System.exec, Function.update_of_ne hij] using hj
  | retire i insn hinsn hops =>
    by_cases hij : j = i
    · subst hij
      simp only [CpuInv, hinsn, Thread.Meets, hops, wp_nil] at hj
      simp only [CpuInv, System.retire, Function.update_self, openCas, reservation, if_true]
      exact ⟨hops, trivial, hj.1⟩
    · simpa only [CpuInv, System.retire, Function.update_of_ne hij, openCas, reservation,
        if_neg (Ne.symm hij)] using hj

/-- The invariant after reset. -/
lemma System.Reset.cpuInv {s : System ι} (h : s.Reset) (i : ι) : CpuInv val s i := by
  simp only [CpuInv, h.insn i, h.log]
  exact ⟨h.ops i, rfl, h.loadRes i⟩

/-- **The invariant holds along every run.** -/
lemma Reaches.cpuInv (hD : ∀ r e insn, D.start r e insn → Aimed r e insn ∧ Stores val r e insn)
    {s s' : System ι} (hreset : s.Reset) (h : Reaches D s s') : ∀ i, CpuInv val s' i := by
  induction h with
  | refl => exact hreset.cpuInv
  | tail _ hstep ih => exact CpuInv.step hD hstep ih

/-! ### Reservations -/

/-- A new event that is not an `SCO` without its reservation. -/
lemma NoLostReservation.cons {ev : Event ι} {log : List (Event ι)} (h : NoLostReservation log)
    (hev : ∀ i w e, ev = .retired i (.sco w) e → ev.succeeded = true →
      ∃ c, openCas i log = some c ∧ c.stored = true ∧ c.addr = e.globals (.rb (fieldHd w)) ∧
        reservation i log = .held c.addr c.old) : NoLostReservation (ev :: log) := by
  intro later i w e earlier hlog hsucc
  cases later with
  | nil =>
    obtain ⟨rfl, rfl⟩ := List.cons.inj hlog
    exact hev i w e rfl hsucc
  | cons first later =>
    obtain ⟨rfl, hrest⟩ := List.cons.inj hlog
    exact h later i w e earlier hrest hsucc

/-- **A step loses no reservation.** -/
lemma NoLostReservation.step {s s' : System ι} (hstep : Step D s s')
    (hinv : ∀ i, CpuInv val s i) (h : NoLostReservation s.log) : NoLostReservation s'.log := by
  cases hstep with
  | start i insn hidle hstart => exact h
  | exec i hstore =>
    unfold System.exec
    cases (s.cpu i).cas s.mem with
    | none => exact h
    | some c =>
      refine h.cons ?_
      rintro j w e ⟨⟩
  | retire i insn hinsn hops =>
    refine h.cons ?_
    rintro j w e hev hsucc
    obtain ⟨rfl, rfl, rfl⟩ := Event.retired.inj hev
    have hpost := hinv i
    simp only [CpuInv, hinsn, Thread.Meets, hops, wp_nil, Post] at hpost
    obtain ⟨-, hsuccess, hcas⟩ := hpost
    simp only [Event.succeeded, decide_eq_true_eq] at hsucc
    obtain ⟨c, hopen, hstored⟩ := hsuccess.mp hsucc
    obtain ⟨haddr, hheld⟩ := hcas hsucc.1 c hopen
    exact ⟨c, hopen, hstored, haddr, hheld hstored⟩

/-- **No run loses a reservation.** -/
lemma Reaches.noLostReservation
    (hD : ∀ r e insn, D.start r e insn → Aimed r e insn ∧ Stores val r e insn)
    {s s' : System ι} (hreset : s.Reset) (h : Reaches D s s') : NoLostReservation s'.log := by
  induction h with
  | refl =>
    intro later i w e earlier hlog
    rw [hreset.log] at hlog
    exact absurd hlog (by simp)
  | tail hrun hstep ih => exact ih.step hstep (Reaches.cpuInv hD hreset hrun)

end Invariant

/-! ## Counting -/

/-- An event at `cell`: a compare-and-swap that stored there. -/
def Event.storesAt (cell : BitVec 64) : Event ι → Bool
  | .cas _ c => c.stored = true ∧ c.addr = cell
  | .retired .. => false

/-- An `SCO` to `cell` that reports success. -/
def Event.succeededAt (cell : BitVec 64) (ev : Event ι) : Bool :=
  match ev with
  | .retired _ (.sco w) e => ev.succeeded && e.globals (.rb (fieldHd w)) == cell
  | _ => false

/-- The number of `SCO`s to `cell` that reported success. -/
def successes (cell : BitVec 64) (log : List (Event ι)) : ℕ := log.countP (Event.succeededAt cell)

/-- The number of stores at `cell` by an instruction of `i` that has not ended. -/
def openStores (cell : BitVec 64) (i : ι) (log : List (Event ι)) : ℕ :=
  (openCas i log).toList.countP fun c => c.stored = true ∧ c.addr = cell

/-- Events of one CPU. -/
def ofCpu (p : Event ι → Bool) (i : ι) (ev : Event ι) : Bool := ev.cpu == i && p ev

/-- Every store of a CPU at `cell` belongs to an `SCO` that succeeded or is not at its end. -/
def Balanced (cell : BitVec 64) (log : List (Event ι)) : Prop := ∀ i,
  log.countP (ofCpu (Event.storesAt cell) i) =
    log.countP (ofCpu (Event.succeededAt cell) i) + openStores cell i log

section Counting

variable {cell : BitVec 64}

/-- Two kinds of events that every CPU has equally many of. -/
lemma countP_eq_of_ofCpu {p q : Event ι → Bool} {log : List (Event ι)}
    (h : ∀ i, log.countP (ofCpu p i) = log.countP (ofCpu q i)) : log.countP p = log.countP q := by
  have hcount : ∀ (p : Event ι → Bool) (i : ι),
      List.count i ((log.filter p).map Event.cpu) = log.countP (ofCpu p i) := by
    intro p i
    rw [List.count, List.countP_map, List.countP_filter]
    rfl
  have hperm : ((log.filter p).map Event.cpu).Perm ((log.filter q).map Event.cpu) := by
    rw [List.perm_iff_count]
    intro i
    rw [hcount, hcount, h i]
  simpa only [List.length_map, List.countP_eq_length_filter] using hperm.length_eq

/-- A compare-and-swap joins the events. -/
lemma Balanced.cas {i : ι} {c : Cas} {log : List (Event ι)} (h : Balanced cell log)
    (hopen : openCas i log = none) : Balanced cell (.cas i c :: log) := by
  intro j
  have hj := h j
  by_cases hij : i = j
  · subst hij
    simp only [openStores, hopen, Option.toList_none, List.countP_nil, Nat.add_zero] at hj
    simp [List.countP_cons, ofCpu, Event.cpu, Event.storesAt, Event.succeededAt, openStores,
      openCas, hj]
  · simpa [List.countP_cons, ofCpu, Event.cpu, Event.storesAt, Event.succeededAt, openStores,
      openCas, hij] using hj

/-- An instruction that is at its end joins the events. -/
lemma Balanced.retired {i : ι} {insn : Insn} {e : Env Global} {log : List (Event ι)}
    (h : Balanced cell log)
    (hopen : openStores cell i log =
      if (Event.retired i insn e : Event ι).succeededAt cell then 1 else 0) :
    Balanced cell (.retired i insn e :: log) := by
  intro j
  have hj := h j
  by_cases hij : i = j
  · subst hij
    rw [hopen] at hj
    simp only [List.countP_cons, ofCpu, Event.cpu, Event.storesAt, openStores, openCas, if_true,
      beq_self_eq_true, Bool.true_and, Bool.and_false, Bool.false_eq_true, if_false, Nat.add_zero,
      Option.toList_none, List.countP_nil]
    exact hj
  · simpa [List.countP_cons, ofCpu, Event.cpu, Event.storesAt, openStores, openCas, hij] using hj

/-- What an instruction that is at its end has stored. -/
lemma Post.openStores {r : Reservation} {insn : Insn} {e : Env Global} {i : ι}
    {log : List (Event ι)} (h : Post r insn e (openCas i log)) : openStores cell i log =
      if (Event.retired i insn e : Event ι).succeededAt cell then 1 else 0 := by
  cases insn with
  | lro rel acq w =>
    have hnone : openCas i log = none := h.2
    simp [Qemu.openStores, hnone, Event.succeededAt]
  | plain p =>
    have hnone : openCas i log = none := h.2
    simp [Qemu.openStores, hnone, Event.succeededAt]
  | sco w =>
    obtain ⟨-, hsuccess, hcas⟩ := h
    simp only [Event.succeededAt, Event.succeeded, hsuccess, Qemu.openStores]
    cases hopen : openCas i log with
    | none => simp
    | some c =>
      by_cases hstored : c.stored = true
      · have hlegal : ScoLegal w := (hsuccess.mpr ⟨c, hopen, hstored⟩).1
        obtain ⟨haddr, -⟩ := hcas hlegal c hopen
        simp [hstored, haddr, List.countP_cons]
      · simp [hstored]

/-- The discipline of counting is one of aimed `SCO`s that increment. -/
lemma Discipline.counting_start (r : Reservation) (e : Env Global) (insn : Insn)
    (h : (Discipline.counting cell).start r e insn) :
    Aimed r e insn ∧ Stores (Increments cell) r e insn := h

/-- **Stores and successes balance** along every run. -/
lemma Reaches.balanced {s s' : System ι} (hreset : s.Reset)
    (h : Reaches (Discipline.counting cell) s s') : Balanced cell s'.log := by
  induction h with
  | refl =>
    intro i
    simp [hreset.log, openStores, openCas]
  | @tail b c hrun hstep ih =>
    have hinv := Reaches.cpuInv Discipline.counting_start hreset hrun
    cases hstep with
    | start i insn hidle hstart => exact ih
    | exec i hstore =>
      have hi := hinv i
      cases hinsn : (b.cpu i).insn with
      | none =>
        simp only [CpuInv, hinsn] at hi
        rw [System.exec_of_nil hi.1]
        exact ih
      | some insn =>
        simp only [CpuInv, hinsn] at hi
        unfold System.exec
        cases hcas : (b.cpu i).cas b.mem with
        | none => exact ih
        | some c => exact ih.cas ((hi.step b.mem).2 c hcas).1
    | retire i insn hinsn hops =>
      have hpost := hinv i
      simp only [CpuInv, hinsn, Thread.Meets, hops, wp_nil] at hpost
      exact ih.retired (Post.openStores hpost)

/-- The octa a compare-and-swap of `SCO` finds. -/
lemma load_moTeuq (mem : Memory) (a : BitVec 64) : moTeuq.load mem a = mem.load a 8 := rfl

/-- Accesses of the same octa are not apart. -/
lemma not_apart_self (a : BitVec 64) : ¬ Memory.Apart a 8 a 8 := by
  intro h
  have h0 := h 0 (by omega)
  simp [Memory.offsetFrom] at h0

/-- A compare-and-swap that increments the octa at the cell or does not touch it. -/
lemma load_cell_cas {mem : Memory} {c : Cas} (hold : c.old = mem.load c.addr 8)
    (hval : c.stored = true → Increments cell c.addr c.old c.new) :
    (if c.stored then mem.store c.addr 8 c.new else mem).load cell 8 =
      mem.load cell 8 + if c.stored = true ∧ c.addr = cell then 1 else 0 := by
  by_cases hstored : c.stored = true
  · rw [if_pos hstored]
    obtain ⟨haddr, hnew⟩ | hapart := hval hstored
    · rw [if_pos ⟨hstored, haddr⟩, hnew, hold, haddr]
      exact Memory.load_store_same mem cell _
    · have hne : c.addr ≠ cell := by
        rintro rfl
        exact not_apart_self _ hapart
      rw [if_neg (fun h => hne h.2), Memory.load_store_of_apart mem c.new hapart]
      exact (BitVec.add_zero _).symm
  · rw [if_neg hstored, if_neg (fun h => hstored h.1)]
    exact (BitVec.add_zero _).symm

/-- An operation of a CPU. -/
lemma load_cell_exec {s : System ι} {i : ι} (hinv : CpuInv (Increments cell) s i)
    (hstore : ∀ a n v, (s.cpu i).plainStore = some (a, n, v) → Memory.Apart a n cell 8) :
    (s.exec i).mem.load cell 8 = s.mem.load cell 8 +
      if ∃ c, (s.cpu i).cas s.mem = some c ∧ c.stored = true ∧ c.addr = cell then 1 else 0 := by
  cases hinsn : (s.cpu i).insn with
  | none =>
    simp only [CpuInv, hinsn] at hinv
    have hcas : (s.cpu i).cas s.mem = none := by
      unfold Thread.cas Thread.next
      rw [hinv.1]
      rfl
    rw [System.exec_of_nil hinv.1]
    simp [hcas]
  | some insn =>
    simp only [CpuInv, hinsn] at hinv
    have hmem : (s.exec i).mem = _ := Thread.step_mem (s.cpu i).toThread s.mem
    rw [hmem]
    cases hcas : (s.cpu i).cas s.mem with
    | none =>
      have hzero : s.mem.load cell 8 + 0 = s.mem.load cell 8 := BitVec.add_zero _
      simp only [reduceCtorEq, false_and, exists_false, if_false, hzero]
      cases hplain : (s.cpu i).plainStore with
      | none => rfl
      | some st =>
        obtain ⟨a, n, v⟩ := st
        exact Memory.load_store_of_apart s.mem v (hstore a n v hplain)
    | some c =>
      obtain ⟨-, hop, hval⟩ := (hinv.step s.mem).2 c hcas
      have hold := Thread.old_of_cas hcas
      rw [hop, load_moTeuq] at hold
      simp only [Option.some.injEq, exists_eq_left', hop]
      exact load_cell_cas hold fun hstored => (hval hstored).2

/-- The stores at the cell after an operation. -/
lemma countP_storesAt_exec (s : System ι) (i : ι) :
    (s.exec i).log.countP (Event.storesAt cell) = s.log.countP (Event.storesAt cell) +
      if ∃ c, (s.cpu i).cas s.mem = some c ∧ c.stored = true ∧ c.addr = cell then 1 else 0 := by
  unfold System.exec
  cases (s.cpu i).cas s.mem with
  | none => simp
  | some c => simp [List.countP_cons, Event.storesAt]

/-- **The octa at the cell** is incremented by every store at it. -/
lemma Reaches.load_cell {s s' : System ι} (hreset : s.Reset)
    (h : Reaches (Discipline.counting cell) s s') : s'.mem.load cell 8 =
      s.mem.load cell 8 + BitVec.ofNat 64 (s'.log.countP (Event.storesAt cell)) := by
  induction h with
  | refl => simp [hreset.log]
  | @tail b c hrun hstep ih =>
    cases hstep with
    | start i insn hidle hstart => exact ih
    | exec i hstore =>
      have hinv := Reaches.cpuInv Discipline.counting_start hreset hrun i
      rw [load_cell_exec hinv hstore, countP_storesAt_exec, ih, BitVec.ofNat_add, BitVec.add_assoc]
      split_ifs <;> rfl
    | retire i insn hinsn hops =>
      simpa only [System.retire, List.countP_cons, Event.storesAt, Bool.false_eq_true, if_false,
        Nat.add_zero] using ih

/-- **The count**: between instructions the octa has grown by the number of `SCO`s that
succeeded. -/
lemma Reaches.load_cell_of_idle {s s' : System ι} (hreset : s.Reset)
    (h : Reaches (Discipline.counting cell) s s') (hidle : ∀ i, (s'.cpu i).insn = none) :
    s'.mem.load cell 8 = s.mem.load cell 8 + BitVec.ofNat 64 (successes cell s'.log) := by
  have hbalanced : s'.log.countP (Event.storesAt cell) = successes cell s'.log := by
    refine countP_eq_of_ofCpu fun i => ?_
    have hinv := Reaches.cpuInv Discipline.counting_start hreset h i
    simp only [CpuInv, hidle i] at hinv
    rw [Reaches.balanced hreset h i, openStores, hinv.2.1]
    rfl
  rw [Reaches.load_cell hreset h, hbalanced]

end Counting

/-- The discipline of aimed `SCO`s asks nothing of what is stored. -/
lemma Discipline.aimed_start (r : Reservation) (e : Env Global) (insn : Insn)
    (h : Discipline.aimed.start r e insn) : Aimed r e insn ∧ Stores (fun _ _ _ => True) r e insn := by
  refine ⟨h, ?_⟩
  cases insn with
  | sco w => exact fun _ _ _ => trivial
  | _ => trivial

/-- **No update is lost.** In every run from reset in which no `SCO` without a reservation aims at the
address `load_res` has then, an `SCO` reports success only for a store it made on the reservation of
the last `LRO`, whose value the memory held then; and an octa that is changed by `LRO`, add one, `SCO`
only has grown, between instructions, by the number of `SCO`s that succeeded. -/
theorem no_lost_update {s s' : System ι} (hreset : s.Reset) :
    (Reaches Discipline.aimed s s' → NoLostReservation s'.log) ∧
    ∀ cell, Reaches (Discipline.counting cell) s s' → (∀ i, (s'.cpu i).insn = none) →
      s'.mem.load cell 8 = s.mem.load cell 8 + BitVec.ofNat 64 (successes cell s'.log) :=
  ⟨Reaches.noLostReservation Discipline.aimed_start hreset,
    fun _ h hidle => Reaches.load_cell_of_idle hreset h hidle⟩

/-! ## Concrete runs -/

/-- An operation that is no plain store. -/
def notStore : Op Global → Bool
  | .qemuSt .. => false
  | _ => true

/-- The next step of a CPU without plain stores. -/
lemma Thread.plainStore_of_notStore {t : Thread Global} (h : t.ops.all notStore = true) :
    t.plainStore = none := by
  obtain ⟨e, ops, skip⟩ := t
  cases ops with
  | nil => rfl
  | cons op ops =>
    cases skip with
    | some l => rfl
    | none =>
      rw [List.all_cons, Bool.and_eq_true] at h
      cases op with
      | qemuSt => exact absurd h.1 (by simp [notStore])
      | _ => rfl

/-- A step leaves operations that were there. -/
lemma Thread.step_notStore {t : Thread Global} (h : t.ops.all notStore = true) (mem : Memory) :
    (t.step mem).1.ops.all notStore = true := by
  obtain ⟨e, ops, skip⟩ := t
  cases ops with
  | nil => exact h
  | cons op ops =>
    rw [List.all_cons, Bool.and_eq_true] at h
    cases skip with
    | some l => exact h.2
    | none =>
      simp only [Thread.step]
      cases (stepOp op ⟨e, mem⟩).2 with
      | raise _ => rfl
      | _ => exact h.2

/-- A CPU executes `n` operations. -/
def System.execs (i : ι) : ℕ → System ι → System ι
  | 0, s => s
  | n + 1, s => execs i n (s.exec i)

/-- A CPU without plain stores goes on alone. -/
lemma reaches_execs (D : Discipline) (i : ι) (n : ℕ) {s : System ι}
    (h : (s.cpu i).ops.all notStore = true) : Reaches D s (s.execs i n) := by
  induction n generalizing s with
  | zero => exact .refl
  | succ n ih =>
    have hstep : Step D s (s.exec i) := .exec s i fun a k v hplain => by
      rw [Thread.plainStore_of_notStore h] at hplain
      exact absurd hplain (by simp)
    refine .head hstep (ih ?_)
    simp only [System.exec, Function.update_self]
    exact Thread.step_notStore h s.mem

/-- One instruction of a CPU, `n` operations long. -/
def System.runInsn (s : System ι) (i : ι) (insn : Insn) (n : ℕ) : System ι :=
  ((s.start i insn).execs i n).retire i insn

/-- One instruction of a CPU is a run. -/
lemma reaches_runInsn {D : Discipline} {s : System ι} {i : ι} {insn : Insn} {n : ℕ}
    (hidle : (s.cpu i).insn = none) (hstart : D.start (reservation i s.log) (s.cpu i).env insn)
    (hnot : ((s.start i insn).cpu i).ops.all notStore = true)
    (hinsn : (((s.start i insn).execs i n).cpu i).insn = some insn)
    (hops : (((s.start i insn).execs i n).cpu i).ops = []) :
    Reaches D s (s.runInsn i insn n) :=
  .head (.start s i insn hidle hstart)
    (.tail (reaches_execs D i n hnot) (.retire _ i insn hinsn hops))

/-- One CPU after reset, with zero in memory, an address in `rb1` and one in `rd3`. -/
def resetSystem (addr : BitVec 64) : System Unit where
  mem := fun _ => 0
  cpu := fun _ => ⟨⟨⟨fun g => if g = .rb 1 then addr else if g = .rd 3 then 1 else 0, fun _ => 0⟩,
    [], none⟩, none⟩
  log := []

/-- `LRO` of `rb1` into `rd2`. -/
def lroWord : BitVec 32 := 0x70800081

/-- `SCO` of `rd3` to `rb1`, with its result in `rd4`. -/
def scoWord : BitVec 32 := 0x70A040C1

/-- The system after an `LRO`. -/
def lroSystem : System Unit := (resetSystem 64).runInsn () (.lro false false lroWord) 8

/-- The system after an `LRO` and an `SCO`. -/
def scoSystem : System Unit := lroSystem.runInsn () (.sco scoWord) 16

lemma resetSystem_reset (addr : BitVec 64) : (resetSystem addr).Reset :=
  ⟨rfl, fun _ => rfl, fun _ => rfl, fun _ => rfl⟩

lemma reservation_lroSystem : reservation () lroSystem.log = .held 64 0 := by decide +kernel

lemma reaches_scoSystem : Reaches (Discipline.counting 64) (resetSystem 64) scoSystem := by
  have hlro : Reaches (Discipline.counting 64) (resetSystem 64) lroSystem := by
    refine reaches_runInsn rfl ⟨trivial, trivial⟩ ?_ rfl ?_
    · decide +kernel
    · decide +kernel
  refine hlro.trans (reaches_runInsn rfl ⟨?_, ?_⟩ ?_ rfl ?_)
  · rw [reservation_lroSystem]
    exact fun _ => ⟨by simp, by simp⟩
  · rw [reservation_lroSystem]
    intro _ v hv
    obtain ⟨haddr, hval⟩ := Reservation.held.inj hv
    have hnew : settle (.rd (fieldHc scoWord))
        ((lroSystem.cpu ()).env.globals (.rd (fieldHc scoWord))) = 1 := by decide +kernel
    rw [hnew, ← haddr, ← hval]
    exact .inl ⟨rfl, rfl⟩
  · decide +kernel
  · decide +kernel

/-- A run that counts is aimed. -/
lemma Reaches.aimed {cell : BitVec 64} {s s' : System ι}
    (h : Reaches (Discipline.counting cell) s s') : Reaches Discipline.aimed s s' := by
  refine Relation.ReflTransGen.mono ?_ _ _ h
  intro a b hstep
  cases hstep with
  | start i insn hidle hstart => exact .start _ i insn hidle hstart.1
  | exec i hstore => exact .exec _ i fun _ _ _ _ => trivial
  | retire i insn hinsn hops => exact .retire _ i insn hinsn hops

theorem no_lost_update_lro_sco : NoLostReservation scoSystem.log ∧
    successes 64 scoSystem.log = 1 ∧ scoSystem.mem.load 64 8 = (resetSystem 64).mem.load 64 8 + 1 := by
  obtain ⟨hlost, hcount⟩ := @no_lost_update Unit _ _ scoSystem (resetSystem_reset 64)
  have hone : successes 64 scoSystem.log = 1 := by decide +kernel
  refine ⟨hlost reaches_scoSystem.aimed, hone, ?_⟩
  rw [hcount 64 reaches_scoSystem fun _ => rfl, hone]
  rfl

/-- **The zero after reset is no sentinel**: an `SCO` to address zero succeeds without an `LRO`. -/
theorem sco_succeeds_without_lro : ∃ s s' : System Unit, s.Reset ∧ Reaches Discipline.free s s' ∧
    ¬ NoLostReservation s'.log := by
  refine ⟨resetSystem 0, (resetSystem 0).runInsn () (.sco scoWord) 16, resetSystem_reset 0, ?_, ?_⟩
  · refine reaches_runInsn rfl trivial ?_ rfl ?_
    · decide +kernel
    · decide +kernel
  · intro h
    obtain ⟨c, -, -, -, hheld⟩ := h [] () scoWord _ _ rfl (by decide +kernel)
    have hfresh : reservation () (((resetSystem 0).start () (.sco scoWord)).execs () 16).log =
        .fresh := by decide +kernel
    rw [hfresh] at hheld
    exact absurd hheld (by simp)

end Dadao.Qemu
