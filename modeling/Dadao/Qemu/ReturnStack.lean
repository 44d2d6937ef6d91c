import Dadao.Qemu.Translate
import Mathlib.Data.BitVec
import Mathlib.Data.List.GetD
import Mathlib.Tactic.Ring

set_option relaxedAutoImplicit false
set_option autoImplicit false

/-!
# The return address stack

What `push_return_address` and `pop_return_address` do to a stack of return addresses. The newest
entries are in `ra[63]`, `ra[62]`, …, with zeros below them; when `ra[1]` is taken a push spills it
to memory below `rasp`, and a pop with no entry in registers refills from there.

## Main definitions

* `Dadao.Qemu.Holds` — registers and memory hold two lists of entries, the newer one in registers.
* `Dadao.Qemu.HoldsStack` — a machine holds a stack.
* `Dadao.Qemu.HasRoom` — the spill area fits and stays off address zero.
* `Dadao.Qemu.ReturnsAsCalled` — what is asked of a run of calls and returns.

## Main results

* `Dadao.Qemu.exec_push`, `Dadao.Qemu.exec_pop` — push and pop, operation by operation.
* `Dadao.Qemu.Action.run_holdsStack` — one step of a run.
* `Dadao.Qemu.ret_matches_call` — every return of a nested run goes to the address behind its call.
* `Dadao.Qemu.ret_raises_below_eight` — not so once `rasp` has come down to zero, which reads as
  not set.
-/

namespace Dadao.Qemu

open Tcg

/-! ## The shift register -/

/-- The moves of a push: every entry goes one down. -/
def shiftUp (n : ℕ) : List (Op Global) :=
  (List.range n).map fun i => .mov (glob (.ra (i + 1))) (glob (.ra (i + 2)))

/-- The moves of a pop: every entry goes one up. -/
def shiftDown (n : ℕ) : List (Op Global) :=
  (List.range n).map fun i => .mov (glob (.ra (63 - i))) (glob (.ra (62 - i)))

lemma shiftUp_straight (n : ℕ) : (shiftUp n).all Op.isStraight = true := by
  simp [shiftUp, Op.isStraight]

lemma shiftDown_straight (n : ℕ) : (shiftDown n).all Op.isStraight = true := by
  simp [shiftDown, Op.isStraight]

/-- One more move at the end of a straight list. -/
lemma runStraight_concat (ops : List (Op Global)) (op : Op Global) (s : Machine Global) :
    runStraight (ops ++ [op]) s = (stepOp op (runStraight ops s)).1 := by
  simp [runStraight]

lemma shiftUp_succ (n : ℕ) :
    shiftUp (n + 1) = shiftUp n ++ [.mov (glob (.ra (n + 1))) (glob (.ra (n + 2)))] := by
  simp [shiftUp, List.range_succ]

lemma shiftDown_succ (n : ℕ) :
    shiftDown (n + 1) = shiftDown n ++ [.mov (glob (.ra (63 - n))) (glob (.ra (62 - n)))] := by
  simp [shiftDown, List.range_succ]

/-- The registers after the first `n` moves of a push. -/
lemma runStraight_shiftUp (n : ℕ) (s : Machine Global) :
    (runStraight (shiftUp n) s).mem = s.mem ∧
    (∀ j, (runStraight (shiftUp n) s).env.globals (.ra j) =
      if 1 ≤ j ∧ j ≤ n then s.env.globals (.ra (j + 1)) else s.env.globals (.ra j)) := by
  induction n with
  | zero => exact ⟨rfl, fun j => by rw [if_neg (by omega)]; rfl⟩
  | succ n ih =>
    rw [shiftUp_succ, runStraight_concat]
    refine ⟨ih.1, fun j => ?_⟩
    simp only [stepOp, Machine.write_env, Env.write_global_globals, Env.read_global, ih.2,
      Global.ra.injEq]
    by_cases hj : j = n + 1
    · subst hj
      rw [if_pos rfl, if_neg (by omega), if_pos (by omega)]
    · rw [if_neg hj]
      congr 1
      simp only [eq_iff_iff]
      omega

/-- The registers after the first `n` moves of a pop. -/
lemma runStraight_shiftDown (n : ℕ) (hn : n ≤ 62) (s : Machine Global) :
    (runStraight (shiftDown n) s).mem = s.mem ∧
    (runStraight (shiftDown n) s).env.globals .jmpPc = s.env.globals .jmpPc ∧
    (∀ j, (runStraight (shiftDown n) s).env.globals (.ra j) =
      if 63 - n < j ∧ j ≤ 63 then s.env.globals (.ra (j - 1)) else s.env.globals (.ra j)) := by
  induction n with
  | zero => exact ⟨rfl, rfl, fun j => by rw [if_neg (by omega)]; rfl⟩
  | succ n ih =>
    obtain ⟨hmem, hjmp, hra⟩ := ih (by omega)
    rw [shiftDown_succ, runStraight_concat]
    refine ⟨hmem, hjmp, fun j => ?_⟩
    simp only [stepOp, Machine.write_env, Env.write_global_globals, Env.read_global, hra,
      Global.ra.injEq]
    by_cases hj : j = 63 - n
    · subst hj
      rw [if_pos rfl, if_neg (by omega), if_pos (by omega)]
      congr 2
      omega
    · rw [if_neg hj]
      congr 1
      simp only [eq_iff_iff]
      omega

/-! ## Push and pop -/

/-- The operations of a push up to the moves. -/
def pushHead : List (Op Global) :=
  [.brcond .eq (glob (.ra 1)) (.const 0) 0,
    .brcond .ne (glob cpuRasp) (.const 0) 1,
    .exception excpTrip,
    .setLabel 1,
    .bin .add (glob cpuRasp) (glob cpuRasp) (.const (-8)),
    .qemuSt (glob (.ra 1)) (glob cpuRasp) moTeuq,
    .setLabel 0]

/-- The machine after a spill of `ra[1]`. -/
def spillState (s : Machine Global) : Machine Global :=
  { env := s.env.write (glob cpuRasp) (s.env.globals cpuRasp + -8)
    mem := s.mem.store (s.env.globals cpuRasp + -8) 8 (s.env.globals (.ra 1)) }

/-- The head of a push: nothing while `ra[1]` is free, else a spill. -/
lemma exec_pushHead (s : Machine Global) (rest : List (Op Global)) :
    exec (pushHead ++ rest) none s =
      if s.env.globals (.ra 1) = 0 then exec rest none s
      else if s.env.globals cpuRasp = 0 then .raised excpTrip s
      else exec rest none (spillState s) := by
  simp only [pushHead, List.cons_append, List.nil_append, exec_brcond, Cond.holds, Env.read_global,
    Env.read_const, beq_iff_eq, bne_iff_ne]
  by_cases h1 : s.env.globals (.ra 1) = 0
  · rw [if_pos h1, if_pos h1]
    simp [exec]
  · rw [if_neg h1, if_neg h1]
    by_cases h2 : s.env.globals cpuRasp = 0
    · rw [if_neg (not_not.mpr h2), if_pos h2]
      rfl
    · rw [if_pos h2, if_neg h2]
      simp [exec, stepOp, spillState, Machine.write, moTeuq, BinOp.eval]

/-- A push is its head, the moves and the return address. -/
lemma pushReturnAddress_eq (pc : BitVec 64) :
    pushReturnAddress pc = pushHead ++ (shiftUp 62 ++ [movi (.ra 63) (pc + 4)]) := by
  simp [pushReturnAddress, pushHead, shiftUp]

/-- The machine after the moves of a push and the assignment of `ra[63]`. -/
def pushState (pc : BitVec 64) (s : Machine Global) : Machine Global :=
  (runStraight (shiftUp 62) s).write (glob (.ra 63)) (pc + 4)

/-- **A push** moves the registers down, after a spill when they are full. -/
lemma exec_pushReturnAddress (pc : BitVec 64) (s : Machine Global) (rest : List (Op Global)) :
    exec (pushReturnAddress pc ++ rest) none s =
      if s.env.globals (.ra 1) = 0 then exec rest none (pushState pc s)
      else if s.env.globals cpuRasp = 0 then .raised excpTrip s
      else exec rest none (pushState pc (spillState s)) := by
  have htail : ∀ s, exec (shiftUp 62 ++ ([movi (.ra 63) (pc + 4)] ++ rest)) none s =
      exec rest none (pushState pc s) := by
    intro s
    rw [exec_append_straight (shiftUp_straight 62)]
    simp only [List.cons_append, List.nil_append, movi, exec, stepOp, Env.read_const, pushState]
  rw [pushReturnAddress_eq, List.append_assoc, exec_pushHead, List.append_assoc, htail, htail]

/-- The operations of a pop up to the moves. -/
def popHead : List (Op Global) :=
  [.brcond .ne (glob (.ra 63)) (.const 0) 0,
    .brcond .ne (glob cpuRasp) (.const 0) 1,
    .exception excpTrip,
    .setLabel 1,
    .qemuLd (glob .jmpPc) (glob cpuRasp) moTeuq,
    .bin .add (glob cpuRasp) (glob cpuRasp) (.const 8),
    .br 2,
    .setLabel 0,
    .mov (glob .jmpPc) (glob (.ra 63))]

lemma popReturnAddress_eq :
    popReturnAddress =
      popHead ++ (shiftDown 62 ++ [.mov (glob (.ra 1)) (.const 0), .setLabel 2]) := by
  simp [popReturnAddress, popHead, shiftDown]

/-- The machine after a refill from memory. -/
def refillState (s : Machine Global) : Machine Global :=
  (s.write (glob .jmpPc) (s.mem.load (s.env.globals cpuRasp) 8)).write (glob cpuRasp)
    (s.env.globals cpuRasp + 8)

/-- The machine after a pop of the registers. -/
def popState (s : Machine Global) : Machine Global :=
  (runStraight (shiftDown 62) (s.write (glob .jmpPc) (s.env.globals (.ra 63)))).write
    (glob (.ra 1)) 0

/-- The head of a pop: `ra[63]`, or an octa from memory when the registers are empty. -/
lemma exec_popHead (s : Machine Global) (tail : List (Op Global)) :
    exec (popHead ++ tail) none s =
      if s.env.globals (.ra 63) ≠ 0 then
        exec tail none (s.write (glob .jmpPc) (s.env.globals (.ra 63)))
      else if s.env.globals cpuRasp = 0 then .raised excpTrip s
      else exec tail (some 2) (refillState s) := by
  simp only [popHead, List.cons_append, List.nil_append, exec_brcond, Cond.holds, Env.read_global,
    Env.read_const, bne_iff_ne]
  by_cases h1 : s.env.globals (.ra 63) = 0
  · rw [if_neg (not_not.mpr h1), if_neg (not_not.mpr h1)]
    by_cases h2 : s.env.globals cpuRasp = 0
    · rw [if_neg (not_not.mpr h2), if_pos h2]
      rfl
    · rw [if_pos h2, if_neg h2]
      simp [exec, stepOp, refillState, Machine.write, moTeuq, MemOp.load, BinOp.eval]
  · rw [if_pos h1, if_pos h1]
    simp [exec, stepOp]

/-- **A pop** takes `ra[63]`, or refills from memory when the registers are empty. -/
lemma exec_popReturnAddress (s : Machine Global) (rest : List (Op Global)) :
    exec (popReturnAddress ++ rest) none s =
      if s.env.globals (.ra 63) ≠ 0 then exec rest none (popState s)
      else if s.env.globals cpuRasp = 0 then .raised excpTrip s
      else exec rest none (refillState s) := by
  have hskip : ∀ s, exec (shiftDown 62 ++ ([.mov (glob (.ra 1)) (.const 0), .setLabel 2] ++ rest))
      (some 2) s = exec rest none s := by
    intro s
    rw [exec_append_skip (by simp [shiftDown])]
    simp [exec]
  have hrest : ∀ s, exec (shiftDown 62 ++ ([.mov (glob (.ra 1)) (.const 0), .setLabel 2] ++ rest))
      none s = exec rest none ((runStraight (shiftDown 62) s).write (glob (.ra 1)) 0) := by
    intro s
    rw [exec_append_straight (shiftDown_straight 62)]
    simp [exec, stepOp]
  rw [popReturnAddress_eq, List.append_assoc, List.append_assoc, exec_popHead, hskip, hrest,
    popState]

/-! ## Operations that leave the stack alone -/

/-- A straight operation that assigns no `ra` register and does not store. -/
def keepsRa : Op Global → Bool
  | .mov (.global (.ra _)) _ | .bin _ (.global (.ra _)) _ _ | .movcond _ (.global (.ra _)) _ _ _ _
  | .setcond _ (.global (.ra _)) _ _ | .qemuLd (.global (.ra _)) _ _
  | .wide _ (.global (.ra _)) _ _ _ _ _ | .wide _ _ (.global (.ra _)) _ _ _ _ => false
  | .qemuSt .. | .atomicCmpxchg .. | .brcond .. | .br _ | .exception _ => false
  | _ => true

lemma isStraight_of_keepsRa {op : Op Global} (h : keepsRa op = true) : op.isStraight = true := by
  cases op <;> simp_all [keepsRa, Op.isStraight]

/-- An assignment to anything but an `ra` register. -/
lemma write_ra {s : Machine Global} {d : Var Global} {v : BitVec 64} (j : ℕ)
    (h : ∀ i, d ≠ .global (.ra i)) :
    (s.write d v).env.globals (.ra j) = s.env.globals (.ra j) := by
  cases d with
  | global g =>
    rw [Machine.write_env, Env.write_global_globals, if_neg]
    intro hg
    exact h j (by rw [hg])
  | temp n => rfl
  | const c => rfl

lemma stepOp_keepsRa {op : Op Global} (h : keepsRa op = true) (s : Machine Global) :
    (stepOp op s).1.mem = s.mem ∧
      ∀ j, (stepOp op s).1.env.globals (.ra j) = s.env.globals (.ra j) := by
  cases op <;> simp only [keepsRa, Bool.false_eq_true] at h
  case mov d a =>
    exact ⟨rfl, fun j => write_ra j fun i hd => by simp [hd] at h⟩
  case bin f d a b =>
    exact ⟨rfl, fun j => write_ra j fun i hd => by simp [hd] at h⟩
  case wide f d d' al ah bl bh =>
    refine ⟨rfl, fun j => ?_⟩
    have hlow : ∀ i, d ≠ .global (.ra i) := fun i hd => by simp [hd] at h
    have hhigh : ∀ i, d' ≠ .global (.ra i) := by
      rintro i rfl
      cases d with
      | global g => cases g <;> simp at h
      | _ => simp at h
    exact (write_ra j hhigh).trans (write_ra j hlow)
  case movcond c d a b x y =>
    exact ⟨rfl, fun j => write_ra j fun i hd => by simp [hd] at h⟩
  case setcond c d a b =>
    exact ⟨rfl, fun j => write_ra j fun i hd => by simp [hd] at h⟩
  case qemuLd d a op =>
    exact ⟨rfl, fun j => write_ra j fun i hd => by simp [hd] at h⟩
  case setLabel l => exact ⟨rfl, fun j => rfl⟩
  case mb => exact ⟨rfl, fun j => rfl⟩

/-- A list of such operations leaves the stack alone. -/
lemma runStraight_keepsRa {ops : List (Op Global)} (h : ops.all keepsRa = true)
    (s : Machine Global) : (runStraight ops s).mem = s.mem ∧
      ∀ j, (runStraight ops s).env.globals (.ra j) = s.env.globals (.ra j) := by
  induction ops generalizing s with
  | nil => exact ⟨rfl, fun j => rfl⟩
  | cons op ops ih =>
    simp only [List.all_cons, Bool.and_eq_true] at h
    obtain ⟨hmem, hra⟩ := ih h.2 (stepOp op s).1
    obtain ⟨hmem', hra'⟩ := stepOp_keepsRa h.1 s
    exact ⟨hmem.trans hmem', fun j => (hra j).trans (hra' j)⟩

/-! ## The stack behind the registers and the spill area -/

/-- The octa `k` entries below the initial stack pointer. -/
def spillAddr (rasp0 : BitVec 64) (k : ℕ) : BitVec 64 := rasp0 - BitVec.ofNat 64 (8 * k)

/-- One entry further down. -/
lemma spillAddr_succ (rasp0 : BitVec 64) (k : ℕ) :
    spillAddr rasp0 (k + 1) = spillAddr rasp0 k + -8 := by
  have h8 : BitVec.ofNat 64 (8 * 1) = 8 := rfl
  rw [spillAddr, spillAddr, Nat.mul_add, BitVec.ofNat_add, h8]
  ring

/-- The entries spilled below `rasp0`, the newest first. -/
def Spilled (mem : Memory) (rasp0 : BitVec 64) : List (BitVec 64) → Prop
  | [] => True
  | a :: M => mem.load (spillAddr rasp0 (M.length + 1)) 8 = a ∧ Spilled mem rasp0 M

/-- The registers hold the newest entries `R`, contiguous at the top with zeros below them, and
memory the older entries `M`. -/
structure Holds (rasp0 : BitVec 64) (ra : ℕ → BitVec 64) (mem : Memory)
    (R M : List (BitVec 64)) : Prop where
  length_le : R.length ≤ 63
  ne_zero : ∀ a ∈ R, a ≠ 0
  regs : ∀ i < 63, ra (63 - i) = R.getD i 0
  rasp : ra 0 = spillAddr rasp0 M.length
  spilled : Spilled mem rasp0 M

/-- Spilled octas do not overlap as long as they fit the address space. -/
lemma spillAddr_apart (rasp0 : BitVec 64) {p q : ℕ} (hq0 : 1 ≤ q) (hq : q < p) (hp : p ≤ 2 ^ 61) :
    Memory.Apart (spillAddr rasp0 p) 8 (spillAddr rasp0 q) 8 := by
  intro i hi
  have hpq : BitVec.ofNat 64 (8 * p) = BitVec.ofNat 64 (8 * q) + BitVec.ofNat 64 (8 * (p - q)) := by
    rw [← BitVec.ofNat_add]
    congr 1
    omega
  have hoff : spillAddr rasp0 q + BitVec.ofNat 64 i - spillAddr rasp0 p =
      BitVec.ofNat 64 (8 * (p - q) + i) := by
    rw [spillAddr, spillAddr, hpq, BitVec.ofNat_add]
    ring
  rw [Memory.offsetFrom, hoff, BitVec.toNat_ofNat, Nat.mod_eq_of_lt (by omega)]
  omega

/-- A store one entry further down leaves the spilled entries alone. -/
lemma Spilled.store {mem : Memory} {rasp0 : BitVec 64} {M : List (BitVec 64)} {p : ℕ}
    (v : BitVec 64) (h : Spilled mem rasp0 M) (hM : M.length < p) (hp : p ≤ 2 ^ 61) :
    Spilled (mem.store (spillAddr rasp0 p) 8 v) rasp0 M := by
  induction M with
  | nil => trivial
  | cons a M ih =>
    simp only [List.length_cons] at hM
    refine ⟨?_, ih h.2 (by omega)⟩
    rw [Memory.load_store_of_apart _ _ (spillAddr_apart rasp0 (by omega) hM hp)]
    exact h.1

/-- The addresses of the first `d` octas below `rasp0`. -/
def InSpillArea (rasp0 : BitVec 64) (d : ℕ) (x : BitVec 64) : Prop :=
  ∃ k i, 1 ≤ k ∧ k ≤ d ∧ i < 8 ∧ x = spillAddr rasp0 k + BitVec.ofNat 64 i

/-- The spilled entries depend on the spill area only. -/
lemma Spilled.congr {mem mem' : Memory} {rasp0 : BitVec 64} {M : List (BitVec 64)} {d : ℕ}
    (h : Spilled mem rasp0 M) (hM : M.length ≤ d)
    (hmem : ∀ x, InSpillArea rasp0 d x → mem' x = mem x) : Spilled mem' rasp0 M := by
  induction M with
  | nil => trivial
  | cons a M ih =>
    simp only [List.length_cons] at hM
    refine ⟨?_, ih h.2 (by omega)⟩
    rw [← h.1]
    exact Memory.load_congr fun i hi => hmem _ ⟨M.length + 1, i, by omega, hM, hi, rfl⟩

section Steps

variable {rasp0 : BitVec 64} {ra ra' : ℕ → BitVec 64} {mem : Memory} {R M : List (BitVec 64)}
variable {v : BitVec 64}

/-- `ra[1]` is free exactly while fewer than 63 entries are in registers. -/
lemma Holds.ra_one (h : Holds rasp0 ra mem R M) : ra 1 = 0 ↔ R.length < 63 := by
  have h1 : ra 1 = R.getD 62 0 := h.regs 62 (by omega)
  rw [h1]
  constructor
  · intro hz
    by_contra hlen
    have hlt : 62 < R.length := by omega
    rw [List.getD_eq_getElem _ _ hlt] at hz
    exact h.ne_zero _ (List.getElem_mem hlt) hz
  · intro hlen
    exact List.getD_eq_default _ _ (by omega)

/-- `ra[63]` is the newest entry in registers. -/
lemma Holds.ra_top (h : Holds rasp0 ra mem R M) : ra 63 = R.getD 0 0 := h.regs 0 (by omega)

/-- A push into free registers. -/
lemma Holds.push (h : Holds rasp0 ra mem R M) (hR : R.length < 63) (hv : v ≠ 0)
    (hra : ∀ j, 1 ≤ j → j ≤ 62 → ra' j = ra (j + 1)) (htop : ra' 63 = v) (hrasp : ra' 0 = ra 0) :
    Holds rasp0 ra' mem (v :: R) M where
  length_le := by
    rw [List.length_cons]
    omega
  ne_zero := by
    intro a ha
    rcases List.mem_cons.mp ha with rfl | ha
    · exact hv
    · exact h.ne_zero a ha
  regs := by
    intro i hi
    cases i with
    | zero => simpa using htop
    | succ i =>
      rw [hra _ (by omega) (by omega), List.getD_cons_succ, ← h.regs i (by omega)]
      congr 1
      omega
  rasp := hrasp.trans h.rasp
  spilled := h.spilled

/-- A push into full registers: the oldest register entry is spilled. -/
lemma Holds.push_spill (h : Holds rasp0 ra mem R M) (hR : R.length = 63) (hv : v ≠ 0)
    (hM : M.length + 1 ≤ 2 ^ 61)
    (hra : ∀ j, 1 ≤ j → j ≤ 62 → ra' j = ra (j + 1)) (htop : ra' 63 = v)
    (hrasp : ra' 0 = ra 0 + -8) :
    Holds rasp0 ra' (mem.store (ra 0 + -8) 8 (ra 1)) (v :: R.take 62) (ra 1 :: M) where
  length_le := by simp
  ne_zero := by
    intro a ha
    rcases List.mem_cons.mp ha with rfl | ha
    · exact hv
    · exact h.ne_zero a (List.mem_of_mem_take ha)
  regs := by
    intro i hi
    cases i with
    | zero => simpa using htop
    | succ i =>
      have hlt : i < (R.take 62).length := by simp; omega
      rw [hra _ (by omega) (by omega), List.getD_cons_succ, List.getD_eq_getElem _ _ hlt,
        List.getElem_take, ← List.getD_eq_getElem R 0 (by omega), ← h.regs i (by omega)]
      congr 1
      omega
  rasp := by rw [hrasp, h.rasp, List.length_cons, spillAddr_succ]
  spilled := by
    rw [h.rasp, ← spillAddr_succ]
    exact ⟨Memory.load_store_same _ _ _, h.spilled.store _ (by omega) hM⟩

/-- The entries after a spill are the same stack with the new one on top. -/
lemma Holds.spill_stack (h : Holds rasp0 ra mem R M) (hR : R.length = 63) :
    v :: R.take 62 ++ ra 1 :: M = v :: (R ++ M) := by
  have h1 : ra 1 = R.getD 62 0 := h.regs 62 (by omega)
  have hdrop : R.drop 62 = [ra 1] := by
    rw [h1, List.getD_eq_getElem _ _ (by omega), List.drop_eq_getElem_cons (by omega),
      List.drop_eq_nil_of_le (by omega)]
  conv_rhs => rw [← List.take_append_drop 62 R, hdrop]
  simp

/-- A pop from registers. -/
lemma Holds.pop (h : Holds rasp0 ra mem (v :: R) M)
    (hra : ∀ j, 2 ≤ j → j ≤ 63 → ra' j = ra (j - 1)) (hone : ra' 1 = 0) (hrasp : ra' 0 = ra 0) :
    Holds rasp0 ra' mem R M where
  length_le := by
    have := h.length_le
    simp only [List.length_cons] at this
    omega
  ne_zero := fun a ha => h.ne_zero a (List.mem_cons_of_mem _ ha)
  regs := by
    intro i hi
    have hlen := h.length_le
    simp only [List.length_cons] at hlen
    by_cases h62 : i = 62
    · subst h62
      rw [show 63 - 62 = 1 from rfl, hone, List.getD_eq_default _ _ (by omega)]
    · have hreg := h.regs (i + 1) (by omega)
      rw [List.getD_cons_succ] at hreg
      rw [hra _ (by omega) (by omega), ← hreg]
      congr 1
  rasp := hrasp.trans h.rasp
  spilled := h.spilled

/-- A refill with empty registers. -/
lemma Holds.refill (h : Holds rasp0 ra mem [] (v :: M)) (hra : ∀ j, 1 ≤ j → ra' j = ra j)
    (hrasp : ra' 0 = ra 0 + 8) : Holds rasp0 ra' mem [] M ∧ mem.load (ra 0) 8 = v := by
  refine ⟨⟨by simp, by simp, ?_, ?_, h.spilled.2⟩, ?_⟩
  · intro i hi
    rw [hra _ (by omega)]
    exact h.regs i hi
  · rw [hrasp, h.rasp, List.length_cons, spillAddr_succ]
    ring
  · rw [h.rasp]
    exact h.spilled.1

end Steps

/-! ## Instructions -/

/-- The `ra` registers of a machine. -/
def raOf (s : Machine Global) (j : ℕ) : BitVec 64 := s.env.globals (.ra j)

/-- A machine holds a stack: at most `d` of its entries are in memory. -/
def HoldsStack (rasp0 : BitVec 64) (d : ℕ) (s : Machine Global) (σ : List (BitVec 64)) : Prop :=
  ∃ R M, σ = R ++ M ∧ M.length ≤ d ∧ Holds rasp0 (raOf s) s.mem R M

/-- The spill area of `d` entries fits the address space and does not reach down to address zero,
where the stack pointer would read as not set. -/
def HasRoom (rasp0 : BitVec 64) (d : ℕ) : Prop :=
  d ≤ 2 ^ 61 ∧ ¬ (8 ∣ rasp0.toNat ∧ rasp0.toNat ≤ 8 * d)

/-- With room for the spilled entries the stack pointer never reads as not set. -/
lemma HasRoom.spillAddr_ne_zero {rasp0 : BitVec 64} {d k : ℕ} (h : HasRoom rasp0 d) (hk : k ≤ d) :
    spillAddr rasp0 k ≠ 0 := by
  intro hz
  have heq : rasp0 = BitVec.ofNat 64 (8 * k) := by
    rw [spillAddr] at hz
    exact sub_eq_zero.mp hz
  have hd := h.1
  have hnat : rasp0.toNat = 8 * k % 2 ^ 64 := by rw [heq, BitVec.toNat_ofNat]
  apply h.2
  omega

/-- The operations of an instruction around its push or pop. -/
lemma exec_keepsRa_append {ops : List (Op Global)} (h : ops.all keepsRa = true)
    (s : Machine Global) (rest : List (Op Global)) :
    ∃ s', exec (ops ++ rest) none s = exec rest none s' ∧ s'.mem = s.mem ∧ raOf s' = raOf s := by
  have hstraight : ops.all Op.isStraight = true :=
    List.all_eq_true.mpr fun op hop => isStraight_of_keepsRa (List.all_eq_true.mp h op hop)
  obtain ⟨hmem, hra⟩ := runStraight_keepsRa h s
  exact ⟨_, exec_append_straight hstraight s, hmem, funext hra⟩

lemma insnPrologue_keepsRa : insnPrologue.all keepsRa = true := by decide

lemma tbStop_keepsRa (pc : BitVec 64) (e : Emitted) : (tbStop pc e).all keepsRa = true := by
  unfold tbStop
  split
  · rfl
  · rfl
  · split_ifs <;> rfl

/-- The operations of a return before its pop. -/
def retHead (w : BitVec 32) : List (Op Global) :=
  insnPrologue ++ if fieldHa w ≠ 0 then [movi (.rd (fieldHa w)) (fieldImms 18 w)] else []

lemma retHead_keepsRa (w : BitVec 32) : (retHead w).all keepsRa = true := by
  unfold retHead
  split_ifs <;> rfl

lemma insnOps_transRET (pc : BitVec 64) (w : BitVec 32) :
    insnOps pc (some (transRET w)) =
      retHead w ++ (popReturnAddress ++ [.mov (glob cpuPc) (glob .jmpPc)]) := by
  simp [insnOps, transRET, Emitted.jump, retHead, tbStop]

/-- The registers after the moves of a push. -/
lemma raOf_pushState (pc : BitVec 64) (s : Machine Global) (j : ℕ) :
    raOf (pushState pc s) j =
      if j = 63 then pc + 4 else if 1 ≤ j ∧ j ≤ 62 then raOf s (j + 1) else raOf s j := by
  rw [raOf, pushState, Machine.write_env, Env.write_global_globals, (runStraight_shiftUp 62 s).2]
  simp only [Global.ra.injEq, raOf]

lemma pushState_mem (pc : BitVec 64) (s : Machine Global) : (pushState pc s).mem = s.mem := by
  rw [pushState, Machine.write_mem, (runStraight_shiftUp 62 s).1]

/-- The registers after a pop. -/
lemma raOf_popState (s : Machine Global) (j : ℕ) :
    raOf (popState s) j =
      if j = 1 then 0 else if 1 < j ∧ j ≤ 63 then raOf s (j - 1) else raOf s j := by
  rw [raOf, popState, Machine.write_env, Env.write_global_globals,
    (runStraight_shiftDown 62 (by omega) _).2.2]
  simp [raOf]

lemma popState_mem (s : Machine Global) : (popState s).mem = s.mem := by
  rw [popState, Machine.write_mem, (runStraight_shiftDown 62 (by omega) _).1, Machine.write_mem]

lemma popState_jmpPc (s : Machine Global) :
    (popState s).env.globals .jmpPc = s.env.globals (.ra 63) := by
  rw [popState, Machine.write_env, Env.write_global_globals, if_neg (by simp),
    (runStraight_shiftDown 62 (by omega) _).2.1]
  simp

lemma raOf_spillState (s : Machine Global) (j : ℕ) :
    raOf (spillState s) j = if j = 0 then raOf s 0 + -8 else raOf s j := by
  simp [raOf, spillState]

lemma raOf_refillState (s : Machine Global) (j : ℕ) :
    raOf (refillState s) j = if j = 0 then raOf s 0 + 8 else raOf s j := by
  simp [raOf, refillState]

/-- A pop with entries in registers, whatever the stack pointer is. -/
lemma exec_pop_regs {rasp0 : BitVec 64} {s : Machine Global} {a : BitVec 64}
    {R M : List (BitVec 64)} (h : Holds rasp0 (raOf s) s.mem (a :: R) M) (rest : List (Op Global)) :
    ∃ s', exec (popReturnAddress ++ rest) none s = exec rest none s' ∧
      s'.env.globals .jmpPc = a ∧ Holds rasp0 (raOf s') s'.mem R M := by
  have htop : s.env.globals (.ra 63) = a := h.ra_top
  have ha : s.env.globals (.ra 63) ≠ 0 := by
    rw [htop]
    exact h.ne_zero a (by simp)
  rw [exec_popReturnAddress, if_pos ha]
  refine ⟨popState s, rfl, (popState_jmpPc s).trans htop, ?_⟩
  rw [popState_mem]
  refine h.pop ?_ ?_ ?_
  · intro j h1 h2
    rw [raOf_popState, if_neg (by omega), if_pos (by omega)]
  · rw [raOf_popState, if_pos rfl]
  · rw [raOf_popState, if_neg (by omega), if_neg (by omega)]

section Exec

variable {rasp0 : BitVec 64} {d : ℕ} {s : Machine Global} {σ : List (BitVec 64)}
variable (hs : HoldsStack rasp0 d s σ)

include hs

/-- **A push** puts the return address on top of the stack. -/
lemma exec_push (hd : d ≤ 2 ^ 61) (hset : ∀ k < d, spillAddr rasp0 k ≠ 0) (pc : BitVec 64)
    (hpc : pc + 4 ≠ 0) (hdepth : σ.length + 1 ≤ 63 + d) (rest : List (Op Global)) :
    ∃ s', exec (pushReturnAddress pc ++ rest) none s = exec rest none s' ∧
      HoldsStack rasp0 d s' ((pc + 4) :: σ) := by
  obtain ⟨R, M, rfl, hM, h⟩ := hs
  rw [exec_pushReturnAddress]
  by_cases hlen : R.length < 63
  · have hone : s.env.globals (.ra 1) = 0 := h.ra_one.mpr hlen
    rw [if_pos hone]
    refine ⟨pushState pc s, rfl, (pc + 4) :: R, M, rfl, hM, ?_⟩
    rw [pushState_mem]
    refine h.push hlen hpc ?_ ?_ ?_
    · intro j h1 h2
      rw [raOf_pushState, if_neg (by omega), if_pos ⟨h1, h2⟩]
    · rw [raOf_pushState, if_pos rfl]
    · rw [raOf_pushState, if_neg (by omega), if_neg (by omega)]
  · have hR : R.length = 63 := by
      have := h.length_le
      omega
    have hone : ¬ s.env.globals (.ra 1) = 0 := fun hz => hlen (h.ra_one.mp hz)
    have hdepth' : M.length + 1 ≤ d := by
      rw [List.length_append] at hdepth
      omega
    have hrasp : ¬ s.env.globals cpuRasp = 0 := by
      rw [show s.env.globals cpuRasp = spillAddr rasp0 M.length from h.rasp]
      exact hset _ hdepth'
    rw [if_neg hone, if_neg hrasp]
    refine ⟨pushState pc (spillState s), rfl, (pc + 4) :: R.take 62, raOf s 1 :: M, ?_,
      by simpa using hdepth', ?_⟩
    · rw [h.spill_stack hR]
    rw [pushState_mem]
    refine h.push_spill hR hpc (hdepth'.trans hd) ?_ ?_ ?_
    · intro j h1 h2
      rw [raOf_pushState, if_neg (by omega), if_pos ⟨h1, h2⟩, raOf_spillState, if_neg (by omega)]
    · rw [raOf_pushState, if_pos rfl]
    · rw [raOf_pushState, if_neg (by omega), if_neg (by omega), raOf_spillState, if_pos rfl]

/-- **A pop** takes the top of the stack. -/
lemma exec_pop (hroom : HasRoom rasp0 d) {a : BitVec 64} {τ : List (BitVec 64)} (hσ : σ = a :: τ)
    (rest : List (Op Global)) :
    ∃ s', exec (popReturnAddress ++ rest) none s = exec rest none s' ∧
      s'.env.globals .jmpPc = a ∧ HoldsStack rasp0 d s' τ := by
  obtain ⟨R, M, hRM, hM, h⟩ := hs
  cases R with
  | nil =>
    have htop : s.env.globals (.ra 63) = 0 := h.ra_top
    obtain rfl : M = a :: τ := by rw [← hσ, hRM, List.nil_append]
    have hrasp : ¬ s.env.globals cpuRasp = 0 := by
      rw [show s.env.globals cpuRasp = spillAddr rasp0 _ from h.rasp]
      exact hroom.spillAddr_ne_zero hM
    have hrefill : Holds rasp0 (raOf (refillState s)) s.mem [] τ ∧ s.mem.load (raOf s 0) 8 = a :=
      h.refill (fun j hj => by rw [raOf_refillState, if_neg (by omega)])
        (by rw [raOf_refillState, if_pos rfl])
    rw [exec_popReturnAddress, if_neg (not_not.mpr htop), if_neg hrasp]
    refine ⟨refillState s, rfl, ?_, [], τ, rfl, ?_, hrefill.1⟩
    · simp only [refillState, Machine.write_env, Env.write_global_globals, reduceCtorEq, if_false,
        if_true]
      exact hrefill.2
    · rw [List.length_cons] at hM
      omega
  | cons b R =>
    obtain ⟨rfl, rfl⟩ : b = a ∧ R ++ M = τ := by
      rw [hσ, List.cons_append] at hRM
      simpa [eq_comm] using hRM
    obtain ⟨s', hexec, hjmp, hholds⟩ := exec_pop_regs h rest
    exact ⟨s', hexec, hjmp, R, M, rfl, hM, hholds⟩

end Exec

/-! ## Runs of calls and returns -/

/-- Anything else the CPU or another party does between calls and returns: it leaves the return
address registers, their stack pointer and the spill area alone. -/
structure Bystander (rasp0 : BitVec 64) (d : ℕ) where
  run : Machine Global → Machine Global
  ra_eq : ∀ s j, raOf (run s) j = raOf s j
  mem_eq : ∀ s x, InSpillArea rasp0 d x → (run s).mem x = s.mem x

/-- A step of a run: a call, a return, or something else. -/
inductive Action (rasp0 : BitVec 64) (d : ℕ) where
  | calli (pc : BitVec 64) (w : BitVec 32)
  | callr (pc : BitVec 64) (w : BitVec 32)
  | ret (pc : BitVec 64) (w : BitVec 32)
  | other (b : Bystander rasp0 d)

variable {rasp0 : BitVec 64} {d : ℕ}

/-- What an action does to the machine. -/
def Action.run : Action rasp0 d → Machine Global → Outcome Global
  | .calli pc w, s => exec (insnOps pc (some (transCALLi pc w))) none s
  | .callr pc w, s => exec (insnOps pc (some (transCALLr pc w))) none s
  | .ret pc w, s => exec (insnOps pc (some (transRET w))) none s
  | .other b, s => .done (b.run s)

/-- What an action does to the stack of return addresses. -/
def Action.stack : Action rasp0 d → List (BitVec 64) → List (BitVec 64)
  | .calli pc _, σ => (pc + 4) :: σ
  | .callr pc _, σ => (pc + 4) :: σ
  | .ret _ _, σ => σ.tail
  | .other _, σ => σ

/-- Where a return has to go. -/
def Action.target : Action rasp0 d → List (BitVec 64) → Option (BitVec 64)
  | .ret _ _, σ => σ.head?
  | _, _ => none

/-- The runs in question: no return without its call, no return address zero, and a nesting depth
of at most `63 + d`; `n` calls are open already. -/
def Nested : List (Action rasp0 d) → ℕ → Prop
  | [], _ => True
  | .calli pc _ :: as, n => pc + 4 ≠ 0 ∧ n + 1 ≤ 63 + d ∧ Nested as (n + 1)
  | .callr pc _ :: as, n => pc + 4 ≠ 0 ∧ n + 1 ≤ 63 + d ∧ Nested as (n + 1)
  | .ret _ _ :: as, n => 0 < n ∧ Nested as (n - 1)
  | .other _ :: as, n => Nested as n

/-- Every action ends without an exception, every return goes to the address its call pushed, and
whenever no call is open the stack pointer has its initial value. -/
def ReturnsAsCalled : List (Action rasp0 d) → Machine Global → List (BitVec 64) → Prop
  | [], s, σ => σ = [] → raOf s 0 = rasp0
  | a :: as, s, σ => (σ = [] → raOf s 0 = rasp0) ∧
    ∃ s', a.run s = .done s' ∧ (∀ t, a.target σ = some t → s'.env.globals cpuPc = t) ∧
      ReturnsAsCalled as s' (a.stack σ)

/-- The stack depends on the registers and the spill area only. -/
lemma HoldsStack.congr {s s' : Machine Global} {σ : List (BitVec 64)}
    (h : HoldsStack rasp0 d s σ) (hra : ∀ j, raOf s' j = raOf s j)
    (hmem : ∀ x, InSpillArea rasp0 d x → s'.mem x = s.mem x) : HoldsStack rasp0 d s' σ := by
  obtain ⟨R, M, hσ, hM, hholds⟩ := h
  have hra' : raOf s' = raOf s := funext hra
  refine ⟨R, M, hσ, hM, hholds.length_le, hholds.ne_zero, ?_, ?_, ?_⟩
  · rw [hra']
    exact hholds.regs
  · rw [hra']
    exact hholds.rasp
  · exact hholds.spilled.congr hM hmem

/-- With no call open the stack pointer has its initial value. -/
lemma HoldsStack.rasp_eq {s : Machine Global} {σ : List (BitVec 64)}
    (h : HoldsStack rasp0 d s σ) (hσ : σ = []) : raOf s 0 = rasp0 := by
  obtain ⟨R, M, hRM, _, hholds⟩ := h
  have hM : M = [] := by
    rw [hσ] at hRM
    exact (List.append_eq_nil_iff.mp hRM.symm).2
  rw [hholds.rasp, hM]
  simp [spillAddr]

/-- The operations of an instruction around its push or pop keep the stack. -/
lemma exec_append_holdsStack {ops : List (Op Global)} (hops : ops.all keepsRa = true)
    {s : Machine Global} {σ : List (BitVec 64)} (h : HoldsStack rasp0 d s σ)
    (rest : List (Op Global)) : ∃ s', exec (ops ++ rest) none s = exec rest none s' ∧
      HoldsStack rasp0 d s' σ := by
  obtain ⟨s', hexec, hmem, hra⟩ := exec_keepsRa_append hops s rest
  refine ⟨s', hexec, h.congr (fun j => by rw [hra]) (fun x _ => by rw [hmem])⟩

section Instructions

variable {s : Machine Global} {σ : List (BitVec 64)}

/-- **A call** pushes the address behind it. -/
lemma exec_call (hs : HoldsStack rasp0 d s σ) (hd : d ≤ 2 ^ 61)
    (hset : ∀ k < d, spillAddr rasp0 k ≠ 0) {pc : BitVec 64} {e : Emitted}
    {jump : List (Op Global)} (he : e.ops = pushReturnAddress pc ++ jump)
    (hjump : jump.all keepsRa = true) (hpc : pc + 4 ≠ 0) (hdepth : σ.length + 1 ≤ 63 + d) :
    ∃ s', exec (insnOps pc (some e)) none s = .done s' ∧
      HoldsStack rasp0 d s' ((pc + 4) :: σ) := by
  have hops : insnOps pc (some e) =
      insnPrologue ++ (pushReturnAddress pc ++ ((jump ++ tbStop pc e) ++ [])) := by
    simp [insnOps, he]
  have hend : (jump ++ tbStop pc e).all keepsRa = true := by
    rw [List.all_append, hjump, tbStop_keepsRa]
    rfl
  obtain ⟨s₁, hexec₁, hs₁⟩ := exec_append_holdsStack insnPrologue_keepsRa hs
    (pushReturnAddress pc ++ ((jump ++ tbStop pc e) ++ []))
  obtain ⟨s₂, hexec₂, hs₂⟩ := exec_push hs₁ hd hset pc hpc hdepth ((jump ++ tbStop pc e) ++ [])
  obtain ⟨s₃, hexec₃, hs₃⟩ := exec_append_holdsStack hend hs₂ []
  exact ⟨s₃, by rw [hops, hexec₁, hexec₂, hexec₃, exec], hs₃⟩

/-- The call through an immediate. -/
lemma exec_calli (hs : HoldsStack rasp0 d s σ) (hd : d ≤ 2 ^ 61)
    (hset : ∀ k < d, spillAddr rasp0 k ≠ 0) {pc : BitVec 64} (w : BitVec 32) (hpc : pc + 4 ≠ 0)
    (hdepth : σ.length + 1 ≤ 63 + d) :
    ∃ s', exec (insnOps pc (some (transCALLi pc w))) none s = .done s' ∧
      HoldsStack rasp0 d s' ((pc + 4) :: σ) := by
  have he : (transCALLi pc w).ops = pushReturnAddress pc ++ (transJUMPi pc w).ops := rfl
  exact exec_call hs hd hset he rfl hpc hdepth

/-- The call through registers. -/
lemma exec_callr (hs : HoldsStack rasp0 d s σ) (hd : d ≤ 2 ^ 61)
    (hset : ∀ k < d, spillAddr rasp0 k ≠ 0) {pc : BitVec 64} (w : BitVec 32) (hpc : pc + 4 ≠ 0)
    (hdepth : σ.length + 1 ≤ 63 + d) :
    ∃ s', exec (insnOps pc (some (transCALLr pc w))) none s = .done s' ∧
      HoldsStack rasp0 d s' ((pc + 4) :: σ) := by
  have he : (transCALLr pc w).ops = pushReturnAddress pc ++ (transJUMPr w).ops := rfl
  exact exec_call hs hd hset he rfl hpc hdepth

/-- **A return** goes to the top of the stack and drops it. -/
lemma exec_ret (hs : HoldsStack rasp0 d s σ) (hroom : HasRoom rasp0 d) {a : BitVec 64}
    {τ : List (BitVec 64)} (hσ : σ = a :: τ) (pc : BitVec 64) (w : BitVec 32) :
    ∃ s', exec (insnOps pc (some (transRET w))) none s = .done s' ∧
      s'.env.globals cpuPc = a ∧ HoldsStack rasp0 d s' τ := by
  obtain ⟨s₁, hexec₁, hs₁⟩ := exec_append_holdsStack (retHead_keepsRa w) hs
    (popReturnAddress ++ [.mov (glob cpuPc) (glob .jmpPc)])
  obtain ⟨s₂, hexec₂, hjmp, hs₂⟩ := exec_pop hs₁ hroom hσ [.mov (glob cpuPc) (glob .jmpPc)]
  refine ⟨s₂.write (glob cpuPc) a, ?_, ?_, ?_⟩
  · rw [insnOps_transRET, hexec₁, hexec₂, ← hjmp]
    rfl
  · simp
  · refine hs₂.congr (fun j => write_ra j ?_) (fun x _ => rfl)
    simp

end Instructions

/-! ## Runs -/

/-- **Every step** of a run meets its part and leaves the rest of the run a stack to go on with. -/
lemma Action.run_holdsStack {s : Machine Global} {σ : List (BitVec 64)}
    (hroom : HasRoom rasp0 d) (hs : HoldsStack rasp0 d s σ) {a : Action rasp0 d}
    {as : List (Action rasp0 d)} (hnest : Nested (a :: as) σ.length) :
    ∃ s', a.run s = .done s' ∧ (∀ t, a.target σ = some t → s'.env.globals cpuPc = t) ∧
      HoldsStack rasp0 d s' (a.stack σ) ∧ Nested as (a.stack σ).length := by
  have hset : ∀ k < d, spillAddr rasp0 k ≠ 0 := fun k hk => hroom.spillAddr_ne_zero hk.le
  cases a with
  | calli pc w =>
    obtain ⟨hpc, hdepth, hnest⟩ := hnest
    obtain ⟨s', hexec, hs'⟩ := exec_calli hs hroom.1 hset w hpc hdepth
    exact ⟨s', hexec, by simp [Action.target], hs', hnest⟩
  | callr pc w =>
    obtain ⟨hpc, hdepth, hnest⟩ := hnest
    obtain ⟨s', hexec, hs'⟩ := exec_callr hs hroom.1 hset w hpc hdepth
    exact ⟨s', hexec, by simp [Action.target], hs', hnest⟩
  | ret pc w =>
    obtain ⟨hpos, hnest⟩ := hnest
    cases σ with
    | nil => simp at hpos
    | cons b τ =>
      obtain ⟨s', hexec, hpc, hs'⟩ := exec_ret hs hroom rfl pc w
      refine ⟨s', hexec, ?_, hs', by simpa [Action.stack] using hnest⟩
      intro t ht
      rw [hpc]
      simpa [Action.target] using ht
  | other b =>
    exact ⟨b.run s, rfl, by simp [Action.target], hs.congr (b.ra_eq s) (b.mem_eq s), hnest⟩

/-- **Every run** returns as it calls, from any machine that holds a stack. -/
lemma returnsAsCalled_of_holdsStack (hroom : HasRoom rasp0 d) (as : List (Action rasp0 d))
    {s : Machine Global} {σ : List (BitVec 64)} (hs : HoldsStack rasp0 d s σ)
    (hnest : Nested as σ.length) : ReturnsAsCalled as s σ := by
  induction as generalizing s σ with
  | nil => exact hs.rasp_eq
  | cons a as ih =>
    obtain ⟨s', hrun, htarget, hs', hnest'⟩ := Action.run_holdsStack hroom hs hnest
    exact ⟨hs.rasp_eq, s', hrun, htarget, ih hs' hnest'⟩

/-- Cleared registers hold the empty stack. -/
lemma holdsStack_nil {s : Machine Global} (hclear : ∀ i, 1 ≤ i → i ≤ 63 → raOf s i = 0)
    (hrasp : raOf s 0 = rasp0) : HoldsStack rasp0 d s [] := by
  refine ⟨[], [], rfl, by simp, by simp, by simp, ?_, ?_, trivial⟩
  · intro i hi
    rw [hclear _ (by omega) (by omega)]
    rfl
  · rw [hrasp]
    simp [spillAddr]

/-- **The return address stack is unbounded as far as the spill area has room.** From cleared
registers, every return of a nested run goes to the address behind its call, and whenever as many
returns as calls are done the stack pointer is where it was. -/
theorem ret_matches_call (hroom : HasRoom rasp0 d) (s : Machine Global)
    (hclear : ∀ i, 1 ≤ i → i ≤ 63 → raOf s i = 0) (hrasp : raOf s 0 = rasp0)
    (as : List (Action rasp0 d)) (hnest : Nested as 0) : ReturnsAsCalled as s [] :=
  returnsAsCalled_of_holdsStack hroom as (holdsStack_nil hclear hrasp) hnest

/-- Nested runs can be recognised. -/
instance decidableNested : (as : List (Action rasp0 d)) → (n : ℕ) → Decidable (Nested as n)
  | [], _ => isTrue trivial
  | .calli _ _ :: as, n =>
    have := decidableNested as (n + 1)
    inferInstanceAs (Decidable (_ ∧ _ ∧ Nested as (n + 1)))
  | .callr _ _ :: as, n =>
    have := decidableNested as (n + 1)
    inferInstanceAs (Decidable (_ ∧ _ ∧ Nested as (n + 1)))
  | .ret _ _ :: as, n =>
    have := decidableNested as (n - 1)
    inferInstanceAs (Decidable (_ ∧ Nested as (n - 1)))
  | .other _ :: as, n => decidableNested as n

/-- A machine with cleared registers and memory and a stack pointer. -/
def clearedMachine (rasp0 : BitVec 64) : Machine Global where
  env := { globals := fun g => if g = cpuRasp then rasp0 else 0, temps := fun _ => 0 }
  mem := fun _ => 0

/-- Recursion to depth 64 at one call site and back: the oldest return address goes through
memory. -/
def deepRun (rasp0 : BitVec 64) : List (Action rasp0 1) :=
  List.replicate 64 (.calli 0x1000 0x6c000000) ++ List.replicate 64 (.ret 0x2000 0x6e000000)

/-- The deep run with its stack at `0x8000`. -/
theorem ret_matches_call_deepRun :
    HasRoom 0x8000 1 ∧ Nested (deepRun 0x8000) 0 ∧
      ReturnsAsCalled (deepRun 0x8000) (clearedMachine 0x8000) [] := by
  have hroom : HasRoom 0x8000 1 := ⟨by decide, by decide⟩
  have hnest : Nested (deepRun 0x8000) 0 := by decide +kernel
  refine ⟨hroom, hnest, ret_matches_call hroom _ ?_ rfl _ hnest⟩
  intro i h1 _
  simp only [raOf, clearedMachine, Global.ra.injEq]
  rw [if_neg (by omega)]

/-! ## A stack pointer that comes down to zero -/

section Calls

variable {s : Machine Global}

/-- A run that returns as it calls through its first calls. -/
lemma ReturnsAsCalled.calls {pc : BitVec 64} {w : BitVec 32} {n : ℕ} {σ : List (BitVec 64)}
    {as : List (Action rasp0 d)} (hd : d ≤ 2 ^ 61) (hset : ∀ k < d, spillAddr rasp0 k ≠ 0)
    (hpc : pc + 4 ≠ 0) (hs : HoldsStack rasp0 d s σ) (hdepth : n + σ.length ≤ 63 + d)
    (h : ReturnsAsCalled (List.replicate n (.calli pc w) ++ as) s σ) :
    ∃ s', HoldsStack rasp0 d s' (List.replicate n (pc + 4) ++ σ) ∧
      ReturnsAsCalled as s' (List.replicate n (pc + 4) ++ σ) := by
  induction n generalizing s σ with
  | zero => exact ⟨s, hs, h⟩
  | succ n ih =>
    obtain ⟨-, s', hrun, -, h'⟩ := h
    obtain ⟨s'', hexec, hs'⟩ := exec_calli hs hd hset w hpc (by omega)
    obtain rfl : s' = s'' := by
      have heq := hrun.symm.trans hexec
      injection heq
    have hcons : List.replicate (n + 1) (pc + 4) ++ σ =
        List.replicate n (pc + 4) ++ ((pc + 4) :: σ) := by
      rw [List.replicate_succ', List.append_assoc]
      rfl
    rw [hcons]
    exact ih hs' (by rw [List.length_cons]; omega) h'

/-- A return from registers, whatever the stack pointer is. -/
lemma exec_ret_regs {a : BitVec 64} {R M : List (BitVec 64)}
    (h : Holds rasp0 (raOf s) s.mem (a :: R) M) (pc : BitVec 64) (w : BitVec 32) :
    ∃ s', exec (insnOps pc (some (transRET w))) none s = .done s' ∧
      Holds rasp0 (raOf s') s'.mem R M := by
  obtain ⟨s₁, hexec₁, hmem, hra⟩ := exec_keepsRa_append (retHead_keepsRa w) s
    (popReturnAddress ++ [.mov (glob cpuPc) (glob .jmpPc)])
  rw [← hmem, ← hra] at h
  obtain ⟨s₂, hexec₂, hjmp, h₂⟩ := exec_pop_regs h [.mov (glob cpuPc) (glob .jmpPc)]
  refine ⟨s₂.write (glob cpuPc) a, ?_, ?_⟩
  · rw [insnOps_transRET, hexec₁, hexec₂, ← hjmp]
    rfl
  · have hra₂ : raOf (s₂.write (glob cpuPc) a) = raOf s₂ := funext fun j => write_ra j (by simp)
    rw [hra₂]
    exact h₂

/-- A run that returns as it calls through its first returns from registers. -/
lemma ReturnsAsCalled.rets {pc : BitVec 64} {w : BitVec 32} {R M : List (BitVec 64)}
    {as : List (Action rasp0 d)} (hs : Holds rasp0 (raOf s) s.mem R M)
    (h : ReturnsAsCalled (List.replicate R.length (.ret pc w) ++ as) s (R ++ M)) :
    ∃ s', Holds rasp0 (raOf s') s'.mem [] M ∧ ReturnsAsCalled as s' M := by
  induction R generalizing s with
  | nil => exact ⟨s, hs, h⟩
  | cons a R ih =>
    obtain ⟨-, s', hrun, -, h'⟩ := h
    obtain ⟨s'', hexec, hs'⟩ := exec_ret_regs hs pc w
    obtain rfl : s' = s'' := by
      have heq := hrun.symm.trans hexec
      injection heq
    exact ih hs' h'

/-- A return with no entry in registers and no stack pointer raises. -/
lemma exec_ret_unset {M : List (BitVec 64)} (h : Holds rasp0 (raOf s) s.mem [] M)
    (hrasp : spillAddr rasp0 M.length = 0) (pc : BitVec 64) (w : BitVec 32) :
    ∃ s', exec (insnOps pc (some (transRET w))) none s = .raised excpTrip s' := by
  obtain ⟨s₁, hexec₁, hmem, hra⟩ := exec_keepsRa_append (retHead_keepsRa w) s
    (popReturnAddress ++ [.mov (glob cpuPc) (glob .jmpPc)])
  rw [← hra] at h
  have htop : s₁.env.globals (.ra 63) = 0 := h.ra_top
  have hzero : s₁.env.globals cpuRasp = 0 := h.rasp.trans hrasp
  refine ⟨s₁, ?_⟩
  rw [insnOps_transRET, hexec₁, exec_popReturnAddress, if_neg (not_not.mpr htop), if_pos hzero]

end Calls

/-- **The spill area must not reach down to address zero.** With the stack pointer at eight, the
64th call spills to address zero and its return finds the stack pointer not set. -/
theorem ret_raises_below_eight :
    (8 : BitVec 64) ≠ 0 ∧ Nested (deepRun 8) 0 ∧
      ¬ ReturnsAsCalled (deepRun 8) (clearedMachine 8) [] := by
  refine ⟨by decide, by decide +kernel, ?_⟩
  intro h
  have hclear : HoldsStack 8 1 (clearedMachine 8) [] := by
    refine holdsStack_nil ?_ rfl
    intro i h1 _
    simp only [raOf, clearedMachine, Global.ra.injEq]
    rw [if_neg (by omega)]
  have hset : ∀ k < 1, spillAddr 8 k ≠ 0 := by decide
  obtain ⟨s, ⟨R, M, hσ, hM, hs⟩, h⟩ := h.calls (by omega) hset (by decide) hclear (by simp)
  have hlen : R.length + M.length = 64 := by
    rw [← List.length_append, ← hσ]
    simp
  have hR := hs.length_le
  have hR63 : R.length = 63 := by omega
  have hreplicate : List.replicate 64 (.ret 0x2000 0x6e000000 : Action 8 1) =
      List.replicate R.length (.ret 0x2000 0x6e000000) ++ [.ret 0x2000 0x6e000000] := by
    rw [hR63]
    rfl
  rw [hσ, hreplicate] at h
  -- the registers are popped, the one entry in memory is left
  obtain ⟨s', hs', h'⟩ := h.rets hs
  have hzero : spillAddr 8 M.length = 0 := by
    rw [show M.length = 1 by omega]
    decide
  obtain ⟨-, s₂, hrun, -⟩ := h'
  obtain ⟨s₃, hraised⟩ := exec_ret_unset hs' hzero 0x2000 0x6e000000
  have heq := hrun.symm.trans hraised
  injection heq

end Dadao.Qemu
