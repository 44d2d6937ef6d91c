import Dadao.Lib.Object
import Dadao.Qemu.Translate
import Mathlib.Data.BitVec
import Mathlib.Tactic.IntervalCases

set_option relaxedAutoImplicit false
set_option autoImplicit false

/-!
# The atomic operations of the kernel

The inline assembly of `atomic.h`, run by any number of CPUs on one `atomic64_t` and interleaved
instruction by instruction. The operand `"+Rb" (v->counter)` is a register that the compiler loads
with the value of the counter before the assembly and stores back after it; `lro` and `sco` take that
value for an address.

## Main definitions

* `Dadao.Linux.Atomic64.Call`, `Dadao.Linux.Atomic64.Call.template` — the operations and their text.
* `Dadao.Linux.Atomic64.Step`, `Dadao.Linux.Atomic64.Run` — the CPUs and their runs.
* `Dadao.Linux.Atomic64.Atomic` — what the operations are for.

## Main results

* `Dadao.Linux.Atomic64.exec_lro`, `Dadao.Linux.Atomic64.exec_sco` — the reservation instructions are
  those of the emulator.
* `Dadao.Linux.Atomic64.atomic_run` — runs of calls that change neither the counter nor what it points
  to.
-/

namespace Dadao.Linux.Atomic64

/-! ## The assembly -/

/-- The operators `op` and `asm_op` of the macros. -/
inductive AluOp where
  | add | sub | and | orr | xor
  deriving DecidableEq, Repr

/-- The value of an operator. -/
def AluOp.eval : AluOp → BitVec 64 → BitVec 64 → BitVec 64
  | .add => (· + ·)
  | .sub => (· - ·)
  | .and => (· &&& ·)
  | .orr => (· ||| ·)
  | .xor => (· ^^^ ·)

/-- The suffixes of `lro` and `sco`. -/
inductive Order where
  | nn | nr | an | ar
  deriving DecidableEq, Repr

/-- The labels `218b` and `219f`. -/
inductive Label where
  | back | out
  deriving DecidableEq, Repr

/-- The instructions, with their operands by number in the template. Three registers of `lro` and `sco`
are the destination or status, the data, and the operand that is bound to `v->counter`. -/
inductive Insn where
  | lro (o : Order) (dst : ℕ)
  | alu (op : AluOp) (dst x y : ℕ)
  | addi (dst x : ℕ) (imm : BitVec 64)
  | sco (o : Order) (status src : ℕ)
  | brnz (x : ℕ) (l : Label)
  | brnp (x : ℕ) (l : Label)
  | breq (x y : ℕ) (l : Label)
  | brne (x y : ℕ) (l : Label)
  | fence
  deriving DecidableEq, Repr

/-- A line of a template. Two instructions without a line break between them are one statement. -/
inductive Line where
  | insn (x : Insn)
  | joined (x y : Insn)

/-- The assembler takes a statement of one instruction; after the operands of the first of two it
finds junk at the end of the line. -/
def Line.assemble : Line → Option Insn
  | .insn x => some x
  | .joined _ _ => none

/-! ## The operations -/

/-- The operators of `ATOMIC64_OP_RETURN`. -/
inductive Arith where
  | add | sub
  deriving DecidableEq, Repr

/-- As an operator. -/
def Arith.alu : Arith → AluOp
  | .add => .add
  | .sub => .sub

/-- The forms `_relaxed`, `_acquire`, `_release` and the one without a suffix. -/
inductive Form where
  | relaxed | acquire | release | full
  deriving DecidableEq, Repr

/-- The argument `acq`. -/
def Form.acq : Form → Order
  | .acquire => .an
  | _ => .nn

/-- The argument `rel`. -/
def Form.rel : Form → Order
  | .release | .full => .nr
  | _ => .nn

/-- A call of an operation, with its arguments. -/
inductive Call where
  | op (o : AluOp) (a : BitVec 64)
  | opReturn (o : Arith) (f : Form) (a : BitVec 64)
  | fetchOp (o : AluOp) (f : Form) (a : BitVec 64)
  | decIfPositive
  | fetchAddUnless (a u : BitVec 64)
  | xchg (f : Form) (new : BitVec 64)
  | cmpxchg (f : Form) (old new : BitVec 64)
  deriving DecidableEq

namespace Call

/-- The template between the labels `218` and `219`. -/
def template : Call → List Line
  | op o _ => [.insn (.lro .nn 0), .insn (.alu o 0 0 3), .insn (.sco .nn 1 0), .insn (.brnz 1 .back)]
  | opReturn o f _ =>
    [.insn (.lro f.acq 0), .insn (.alu o.alu 0 0 3), .insn (.sco f.rel 1 0), .insn (.brnz 1 .back)]
  | fetchOp o f _ =>
    [.insn (.lro f.acq 0), .insn (.alu o 1 0 4), .insn (.sco f.rel 2 1), .insn (.brnz 2 .back)]
  | decIfPositive =>
    [.insn (.lro .nn 0), .joined (.brnp 0 .out) (.addi 1 0 (-1)), .insn (.sco .nr 1 1),
      .insn (.brnz 1 .back), .insn .fence]
  | fetchAddUnless _ _ =>
    [.insn (.lro .nn 0), .insn (.breq 0 4 .out), .insn (.alu .add 1 0 3), .insn (.sco .nr 1 1),
      .insn (.brnz 1 .back), .insn .fence]
  | xchg f _ => [.insn (.lro f.acq 0), .insn (.sco f.rel 1 3), .insn (.brnz 1 .back)]
  | cmpxchg f _ _ =>
    [.insn (.lro f.acq 0), .insn (.brne 0 3 .out), .insn (.sco f.rel 1 4), .insn (.brnz 1 .back)]

/-- The instructions, if the assembler takes the template. -/
def code (c : Call) : Option (List Insn) := c.template.mapM Line.assemble

/-- The input operands. -/
def input : Call → ℕ → Option (BitVec 64)
  | op _ a, 3 => some a
  | opReturn _ _ a, 3 => some a
  | fetchOp _ _ a, 4 => some a
  | fetchAddUnless a _, 3 => some a
  | fetchAddUnless _ u, 4 => some u
  | xchg _ new, 3 => some new
  | cmpxchg _ old _, 3 => some old
  | cmpxchg _ _ new, 4 => some new
  | _, _ => none

/-- What the function returns, by the operands after the assembly. -/
def ret : Call → (ℕ → BitVec 64) → Option (BitVec 64)
  | op _ _, _ => none
  | decIfPositive, r => some (r 0 - 1)
  | _, r => some (r 0)

/-- The counter after the operation. -/
def next : Call → BitVec 64 → BitVec 64
  | op o a, v => o.eval v a
  | opReturn o _ a, v => o.alu.eval v a
  | fetchOp o _ a, v => o.eval v a
  | decIfPositive, v => if (0#64).slt v then v - 1 else v
  | fetchAddUnless a u, v => if v = u then v else v + a
  | xchg _ new, _ => new
  | cmpxchg _ old new, v => if v = old then new else v

/-- What the operation promises to return: the new value, the old one, or the old one less one. -/
def result : Call → BitVec 64 → Option (BitVec 64)
  | op _ _, _ => none
  | opReturn o _ a, v => some (o.alu.eval v a)
  | decIfPositive, v => some (v - 1)
  | _, v => some v

end Call

/-- **The assembler takes every template but that of `dec_if_positive`.** -/
lemma Call.code_isSome_iff (c : Call) : c.code.isSome ↔ c ≠ .decIfPositive := by
  cases c <;> simp [Call.code, Call.template, Line.assemble]

/-- Decrementing a counter that is not negative leaves one that is not. -/
lemma Call.next_decIfPositive (v : BitVec 64) (h : 0 ≤ v.toInt) :
    0 ≤ (Call.decIfPositive.next v).toInt := by
  rw [Call.next]
  split_ifs with hpos
  · rw [BitVec.slt_iff_toInt_lt, BitVec.toInt_zero] at hpos
    have hlt := v.toInt_lt
    rw [BitVec.toInt_sub, Int.bmod_eq_of_le] <;> simp <;> omega
  · exact h

/-- The operations on one `atomic64_t` as an atomic object. -/
def object : Object (BitVec 64) Call (Option (BitVec 64)) := ⟨Call.next, Call.result⟩

/-! ## Instructions -/

/-- The registers of a CPU: the operands of the template that hold values, the one that is bound to
`v->counter`, and the reservation. -/
structure Regs where
  val : ℕ → BitVec 64
  counter : BitVec 64
  loadRes : BitVec 64
  loadVal : BitVec 64

/-- Assign an operand. -/
def Regs.set (r : Regs) (k : ℕ) (v : BitVec 64) : Regs :=
  { r with val := Function.update r.val k v }

/-- One instruction: the registers and the memory after it, and the label it branches to. -/
def Insn.exec (x : Insn) (r : Regs) (mem : Memory) : Regs × Memory × Option Label :=
  match x with
  | .lro _ dst =>
    let v := mem.load r.counter 8
    ({ r.set dst v with loadRes := r.counter, loadVal := v }, mem, none)
  | .alu op dst x y => (r.set dst (op.eval (r.val x) (r.val y)), mem, none)
  | .addi dst x imm => (r.set dst (r.val x + imm), mem, none)
  | .sco _ status src =>
    let kept := r.loadRes = r.counter ∧ mem.load r.counter 8 = r.loadVal
    ({ r.set status (if kept then 0 else 1) with loadRes := -1 },
      if kept then mem.store r.counter 8 (r.val src) else mem, none)
  | .brnz x l => (r, mem, if r.val x ≠ 0 then some l else none)
  | .brnp x l => (r, mem, if (0#64).slt (r.val x) then none else some l)
  | .breq x y l => (r, mem, if r.val x = r.val y then some l else none)
  | .brne x y l => (r, mem, if r.val x ≠ r.val y then some l else none)
  | .fence => (r, mem, none)

section Emulator

open Qemu Tcg

/-- The registers of the emulator hold those of a CPU: the operands are in the registers `ρ`, and `rb hd`
is bound to `v->counter`. -/
structure Holds (ρ : ℕ → ℕ) (hd : ℕ) (m : Machine Global) (r : Regs) : Prop where
  val : ∀ k, m.env.globals (.rd (ρ k)) = r.val k
  counter : m.env.globals (.rb hd) = r.counter
  loadRes : m.env.globals .loadRes = r.loadRes
  loadVal : m.env.globals .loadVal = r.loadVal

variable {ρ : ℕ → ℕ} {hd : ℕ} {m : Machine Global} {r : Regs}

/-- An assignment to the register of an operand. -/
lemma Holds.set (h : Holds ρ hd m r) (hinj : Function.Injective ρ) {m' : Machine Global} {k : ℕ}
    {r' : Regs} (hval : ∀ n, m'.env.globals (.rd n) =
      if n = ρ k then r'.val k else m.env.globals (.rd n))
    (hother : ∀ j, j ≠ k → r'.val j = r.val j)
    (hcounter : m'.env.globals (.rb hd) = m.env.globals (.rb hd)) (hsame : r'.counter = r.counter)
    (hres : m'.env.globals .loadRes = r'.loadRes) (hload : m'.env.globals .loadVal = r'.loadVal) :
    Holds ρ hd m' r' where
  val j := by
    rw [hval]
    by_cases hj : j = k
    · rw [hj, if_pos rfl]
    · rw [if_neg fun hρ => hj (hinj hρ), h.val, hother j hj]
  counter := by rw [hcounter, h.counter, hsame]
  loadRes := hres
  loadVal := hload

/-- Another operand is left alone. -/
lemma Regs.set_val_of_ne (r : Regs) {j k : ℕ} (h : j ≠ k) (v : BitVec 64) :
    (r.set k v).val j = r.val j := by
  rw [Regs.set]
  exact Function.update_of_ne h v r.val

/-- **`lro` is `LRO` of the emulator**, with any of its barriers. -/
lemma exec_lro (h : Holds ρ hd m r) (hinj : Function.Injective ρ) {w : BitVec 32} {dst : ℕ}
    (hhb : fieldHb w = 0) (hhc : fieldHc w = ρ dst) (hhd : fieldHd w = hd) (hdst : ρ dst ≠ 0)
    (hbase : hd ≠ 0) (rel acq : Bool) (o : Order) :
    ∃ ops m', transLRO rel acq w = some (.next ops) ∧ Tcg.exec ops none m = .done m' ∧
      Holds ρ hd m' ((Insn.lro o dst).exec r m.mem).1 ∧
      m'.mem = ((Insn.lro o dst).exec r m.mem).2.1 := by
  rw [transLRO, hhb, hhc, hhd, if_neg (by simp [hbase]), if_neg hdst]
  refine ⟨_, _, rfl, exec_straight (by cases rel <;> cases acq <;> rfl) m, ?_, ?_⟩
  · refine h.set (k := dst) hinj (fun n => ?_) (fun j hj => Regs.set_val_of_ne r hj _) ?_ rfl ?_ ?_ <;>
      cases rel <;> cases acq <;>
        simp [stepOp, MemOp.load, moTeuq, h.counter, Insn.exec, Regs.set]
  · cases rel <;> cases acq <;> rfl

/-- **`sco` is `SCO` of the emulator.** -/
lemma exec_sco (h : Holds ρ hd m r) (hinj : Function.Injective ρ) {w : BitVec 32} {status src : ℕ}
    (hhb : fieldHb w = ρ status) (hhc : fieldHc w = ρ src) (hhd : fieldHd w = hd)
    (hstatus : ρ status ≠ 0) (hbase : hd ≠ 0) (o : Order) :
    ∃ ops m', transSCO w = some (.next ops) ∧ Tcg.exec ops none m = .done m' ∧
      Holds ρ hd m' ((Insn.sco o status src).exec r m.mem).1 ∧
      m'.mem = ((Insn.sco o status src).exec r m.mem).2.1 := by
  rw [transSCO, hhb, hhc, hhd, if_neg (by simp [hbase, hstatus])]
  by_cases haddr : r.loadRes = r.counter
  · refine ⟨_, runStraight [.mov (.temp 0) (glob (.rb hd)),
      .atomicCmpxchg (.temp 0) (glob .loadRes) (glob .loadVal) (glob (.rd (ρ src))) moTeuq,
      .setcond .ne (.temp 1) (.temp 0) (glob .loadVal), .mov (glob (.rd (ρ status))) (.temp 1),
      movi .loadRes (-1)] m, rfl, ?_, ?_, ?_⟩
    · refine (exec_brcond _ _ _ _ _ _).trans (if_neg ?_)
      simp [Cond.holds, h.loadRes, h.counter, haddr]
    · refine h.set (k := status) hinj (fun n => ?_) (fun j hj => Regs.set_val_of_ne r hj _)
        ?_ rfl ?_ ?_
      · simp [stepOp, MemOp.load, moTeuq, h.loadRes, h.loadVal, haddr, Cond.holds, Insn.exec, Regs.set,
          movi]
      all_goals simp [stepOp, MemOp.load, moTeuq, h.loadVal, h.counter, Insn.exec, Regs.set, movi]
    · simp [stepOp, MemOp.load, moTeuq, h.loadRes, h.counter, h.loadVal, h.val, haddr, Insn.exec, movi]
  · refine ⟨_, runStraight [.mov (.temp 0) (glob (.rb hd)), .mb, .mov (.temp 1) (.const 1),
      .mov (glob (.rd (ρ status))) (.temp 1), movi .loadRes (-1)] m, rfl, ?_, ?_, ?_⟩
    · refine (exec_brcond _ _ _ _ _ _).trans (if_pos ?_)
      simp [Cond.holds, h.loadRes, h.counter, haddr]
    · refine h.set (k := status) hinj (fun n => ?_) (fun j hj => Regs.set_val_of_ne r hj _)
        ?_ rfl ?_ ?_
      all_goals simp [stepOp, h.loadVal, h.counter, haddr, Insn.exec, Regs.set, movi]
    · simp [stepOp, haddr, Insn.exec, movi]

/-- The operation an operator is carried out by. -/
def AluOp.binOp : AluOp → BinOp
  | .add => .add
  | .sub => .sub
  | .and => .and
  | .orr => .or
  | .xor => .xor

/-- **The operators are instructions of the emulator**: `and`, `orr` and `xor`, and `add` and `sub` with
`rd0` for the upper half. -/
lemma exec_alu (h : Holds ρ hd m r) (hinj : Function.Injective ρ) (op : AluOp) {w : BitVec 32}
    {dst x y : ℕ} (hha : fieldHa w = 0) (hhb : fieldHb w = ρ dst) (hhc : fieldHc w = ρ x)
    (hhd : fieldHd w = ρ y) (hdst : ρ dst ≠ 0) :
    ∃ ops m', (match op with
        | .add => transADDrd w
        | .sub => transSUBrd w
        | .and => transAND w
        | .orr => transORR w
        | .xor => transXOR w) = .next ops ∧ Tcg.exec ops none m = .done m' ∧
      Holds ρ hd m' ((Insn.alu op dst x y).exec r m.mem).1 ∧ m'.mem = m.mem := by
  refine ⟨[.bin op.binOp (glob (.rd (ρ dst))) (glob (.rd (ρ x))) (glob (.rd (ρ y)))], _, ?_,
    exec_straight rfl m, ?_, rfl⟩
  · cases op <;>
      simp [transADDrd, transSUBrd, transAND, transORR, transXOR, insnAlg1Rrrr, insnLogicOrrr, hha, hhb,
        hhc, hhd, hdst, rdOf, AluOp.binOp]
  · have heval : op.binOp.eval = op.eval := by cases op <;> rfl
    refine h.set (k := dst) hinj (fun n => ?_) (fun j hj => Regs.set_val_of_ne r hj _) ?_ rfl ?_ ?_
    all_goals simp [stepOp, heval, h.val, h.loadRes, h.loadVal, Insn.exec, Regs.set]

end Emulator

/-! ## Runs -/

/-- What a CPU is doing: something else, the beginning of a call, the instruction `n` of its code. -/
inductive Task where
  | idle
  | called (c : Call)
  | inside (c : Call) (n : ℕ)

/-- A CPU. -/
structure Cpu extends Regs where
  task : Task

/-- The registers with which the assembly begins: the input operands, anything in the output operands,
and the value of the counter in the operand that is bound to it. -/
def Call.bind (c : Call) (r : Regs) (v : BitVec 64) (junk : ℕ → BitVec 64) : Regs :=
  { r with val := fun k => (c.input k).getD (junk k), counter := v }

/-- The instruction a label stands before. -/
def Label.target (code : List Insn) : Label → ℕ
  | .back => 0
  | .out => code.length

/-- The instruction after one. -/
def follow (code : List Insn) (n : ℕ) : Option Label → ℕ
  | none => n + 1
  | some l => l.target code

/-- The memory, the CPUs, and the calls and returns so far, the newest first. -/
structure System (ι : Type) where
  mem : Memory
  cpu : ι → Cpu
  log : List (Object.Event ι Call (Option (BitVec 64)))

section Runs

variable {ι : Type} [DecidableEq ι]

/-- A step of a CPU, with the counter at the address `v`: a call that `ok` admits, the load of the
operands, an instruction, and the store of the operand and the return. -/
inductive Step (v : BitVec 64) (ok : Memory → Call → Prop) : System ι → System ι → Prop
  | call {s : System ι} {i : ι} {c : Call} {code : List Insn} (htask : (s.cpu i).task = .idle)
      (hcode : c.code = some code) (hok : ok s.mem c) : Step v ok s
        ⟨s.mem, Function.update s.cpu i ⟨(s.cpu i).toRegs, .called c⟩, .called i c :: s.log⟩
  | load {s : System ι} {i : ι} {c : Call} (junk : ℕ → BitVec 64)
      (htask : (s.cpu i).task = .called c) : Step v ok s
        ⟨s.mem, Function.update s.cpu i
          ⟨c.bind (s.cpu i).toRegs (s.mem.load v 8) junk, .inside c 0⟩, s.log⟩
  | insn {s : System ι} {i : ι} {c : Call} {n : ℕ} {code : List Insn} {x : Insn}
      (htask : (s.cpu i).task = .inside c n) (hcode : c.code = some code) (hx : code[n]? = some x) :
      Step v ok s ⟨(x.exec (s.cpu i).toRegs s.mem).2.1, Function.update s.cpu i
        ⟨(x.exec (s.cpu i).toRegs s.mem).1,
          .inside c (follow code n (x.exec (s.cpu i).toRegs s.mem).2.2)⟩, s.log⟩
  | ret {s : System ι} {i : ι} {c : Call} {n : ℕ} {code : List Insn}
      (htask : (s.cpu i).task = .inside c n) (hcode : c.code = some code) (hn : n = code.length) :
      Step v ok s ⟨s.mem.store v 8 (s.cpu i).counter, Function.update s.cpu i ⟨(s.cpu i).toRegs, .idle⟩,
          .returned i c (c.ret (s.cpu i).val) :: s.log⟩

/-- Any number of steps. -/
def Run (v : BitVec 64) (ok : Memory → Call → Prop) : System ι → System ι → Prop :=
  Relation.ReflTransGen (Step v ok)

/-- No CPU is inside a call, and there was none. -/
structure Start (s : System ι) : Prop where
  task : ∀ i, (s.cpu i).task = .idle
  log : s.log = []

/-- **Atomic operations**: the calls and returns are a history of the atomic object whose value is the
counter, and no other memory has changed. -/
def Atomic (v : BitVec 64) (s₀ s : System ι) : Prop :=
  object.Explains (s₀.mem.load v 8) (s.mem.load v 8) s.log ∧
    ∀ x, 8 ≤ Memory.offsetFrom v x → s.mem x = s₀.mem x

/-- A call that neither changes the counter nor the octa at the address the counter holds, and returns
the same for both. -/
structure Harmless (v : BitVec 64) (mem : Memory) (c : Call) : Prop where
  counter : c.next (mem.load v 8) = mem.load v 8
  pointee : c.next (mem.load (mem.load v 8) 8) = mem.load (mem.load v 8) 8
  result : c.result (mem.load (mem.load v 8) 8) = c.result (mem.load v 8)

/-! ## Calls without effect -/

/-- The operands before the instruction `n`, of a call that loads `w`. -/
def Call.Reached (w : BitVec 64) (n : ℕ) (r : ℕ → BitVec 64) : Call → Prop
  | .op o a => (n = 1 → r 0 = w) ∧ (2 ≤ n → r 0 = o.eval w a)
  | .opReturn o _ a => (n = 1 → r 0 = w) ∧ (2 ≤ n → r 0 = o.alu.eval w a)
  | .fetchOp o _ a => (1 ≤ n → r 0 = w) ∧ (n = 2 → r 1 = o.eval w a)
  | .decIfPositive => True
  | .fetchAddUnless a u =>
    (1 ≤ n → r 0 = w) ∧ (n = 2 → w ≠ u) ∧ (n = 3 → w ≠ u ∧ r 1 = w + a)
  | .xchg _ _ => 1 ≤ n → r 0 = w
  | .cmpxchg _ old _ => (1 ≤ n → r 0 = w) ∧ (n = 2 → w = old)

/-- The registers before the instruction `n`, of a call that loads `w`. -/
structure Expects (c : Call) (w : BitVec 64) (n : ℕ) (r : Regs) : Prop where
  input : ∀ k v, c.input k = some v → r.val k = v
  reached : c.Reached w n r.val

/-- The registers at the beginning. -/
lemma expects_bind (c : Call) (w : BitVec 64) (r : Regs) (v : BitVec 64) (junk : ℕ → BitVec 64) :
    Expects c w 0 (c.bind r v junk) where
  input k v hv := by simp [Call.bind, hv]
  reached := by cases c <;> simp [Call.Reached]

/-- What the function returns. -/
lemma Expects.ret {c : Call} {w : BitVec 64} {code : List Insn} {r : Regs}
    (h : Expects c w code.length r) (hcode : c.code = some code) : c.ret r.val = c.result w := by
  have hreached := h.reached
  cases c <;> simp [Call.code, Call.template, Line.assemble] at hcode <;> subst hcode <;>
    simp_all [Call.Reached, Call.ret, Call.result]

/-- The operand an instruction assigns. -/
def Insn.dst : Insn → Option ℕ
  | .lro _ k | .alu _ k _ _ | .addi k _ _ | .sco _ k _ => some k
  | _ => none

/-- The operands an instruction leaves alone. -/
lemma Insn.exec_val_of_ne (x : Insn) (r : Regs) (mem : Memory) {k : ℕ} (h : x.dst ≠ some k) :
    (x.exec r mem).1.val k = r.val k := by
  have hset (j : ℕ) (v : BitVec 64) (hj : some j ≠ some k) : (r.set j v).val k = r.val k :=
    Regs.set_val_of_ne r (fun hk => hj (congrArg some hk.symm)) v
  cases x with
  | lro o dst => exact hset _ _ h
  | sco o status src => exact hset _ _ h
  | alu op dst x y => exact hset _ _ h
  | addi dst x imm => exact hset _ _ h
  | _ => rfl

/-- No instruction assigns the operand that is bound to the counter. -/
lemma Insn.exec_counter (x : Insn) (r : Regs) (mem : Memory) :
    (x.exec r mem).1.counter = r.counter := by
  cases x <;> rfl

/-- An instruction that does not store, or stores what is there. -/
lemma Insn.exec_mem {x : Insn} {r : Regs} {mem : Memory}
    (h : ∀ o status src, x = .sco o status src → r.val src = mem.load r.counter 8) :
    (x.exec r mem).2.1 = mem := by
  cases x with
  | sco o status src =>
    rw [Insn.exec, h o status src rfl, Memory.store_load_same]
    exact ite_self mem
  | _ => rfl

/-- The templates assign no input operand. -/
lemma Call.input_dst {c : Call} {code : List Insn} (hcode : c.code = some code) {x : Insn}
    (hx : x ∈ code) {k : ℕ} (hk : x.dst = some k) : c.input k = none := by
  cases c <;> simp [Call.code, Call.template, Line.assemble] at hcode <;> subst hcode <;>
    simp only [List.mem_cons, List.not_mem_nil, or_false] at hx <;>
    rcases hx with rfl | rfl | rfl | rfl | rfl | rfl <;> cases hk <;> rfl

/-- The data of `sco` is the new value. -/
lemma Expects.data {c : Call} {w : BitVec 64} {code : List Insn} {n : ℕ} {r : Regs} {o : Order}
    {status src : ℕ} (h : Expects c w n r) (hcode : c.code = some code)
    (hx : code[n]? = some (.sco o status src)) : r.val src = c.next w := by
  obtain ⟨hinput, hreached⟩ := h
  cases c <;> simp [Call.code, Call.template, Line.assemble] at hcode <;> subst hcode <;>
    rcases n with _ | _ | _ | _ | _ | _ | n <;> simp at hx <;>
    obtain ⟨rfl, rfl, rfl⟩ := hx <;>
    simp_all [Call.Reached, Call.next, Call.input]

/-- **One instruction** of a call that leaves what it loads as it is. -/
lemma Expects.exec {c : Call} {w : BitVec 64} {code : List Insn} {n : ℕ} {r : Regs} {x : Insn}
    {mem : Memory} (h : Expects c w n r) (hcode : c.code = some code) (hx : code[n]? = some x)
    (hw : mem.load r.counter 8 = w) :
    Expects c w (follow code n (x.exec r mem).2.2) (x.exec r mem).1 where
  input k v hk := by
    have hdst : x.dst ≠ some k := fun hdst => by
      rw [Call.input_dst hcode (List.mem_of_getElem? hx) hdst] at hk
      cases hk
    rw [x.exec_val_of_ne r mem hdst, h.input k v hk]
  reached := by
    obtain ⟨hinput, hreached⟩ := h
    cases c <;> simp [Call.code, Call.template, Line.assemble] at hcode <;> subst hcode <;>
      rcases n with _ | _ | _ | _ | _ | _ | n <;> simp at hx <;> subst hx <;>
      simp_all [Call.Reached, Call.input, Insn.exec, follow, Regs.set, Label.target, AluOp.eval]
    all_goals split_ifs <;> simp_all

/-- A CPU and the phase of its call in the object, while the memory is `mem`. -/
def Stands (v : BitVec 64) (mem : Memory) (cpu : Cpu) (phase : Object.Phase Call (Option (BitVec 64))) :
    Prop :=
  match cpu.task with
  | .idle => phase = .idle
  | .called c => phase = .waiting c ∧ Harmless v mem c
  | .inside c n => phase = .waiting c ∧ Harmless v mem c ∧ cpu.counter = mem.load v 8 ∧
    Expects c (mem.load cpu.counter 8) n cpu.toRegs

/-- The states of a run of calls without effect, and the states of the object they stand for. -/
structure Sim (v : BitVec 64) (mem : Memory) (s : System ι)
    (a : Object.State ι (BitVec 64) Call (Option (BitVec 64))) : Prop where
  memory : s.mem = mem
  value : a.value = mem.load v 8
  log : a.log = s.log
  stands : ∀ i, Stands v mem (s.cpu i) (a.phase i)

variable {v : BitVec 64} {mem : Memory}

/-- A CPU moves and the others do not. -/
lemma stands_update {cpu : ι → Cpu} {phase : ι → Object.Phase Call (Option (BitVec 64))} {i : ι}
    {c : Cpu} {p : Object.Phase Call (Option (BitVec 64))} (hcpu : ∀ j, Stands v mem (cpu j) (phase j))
    (hc : Stands v mem c p) (j : ι) :
    Stands v mem (Function.update cpu i c j) (Function.update phase i p j) := by
  by_cases hj : j = i
  · rw [hj, Function.update_self, Function.update_self]
    exact hc
  · rw [Function.update_of_ne hj, Function.update_of_ne hj]
    exact hcpu j

/-- A CPU moves inside a call. -/
lemma stands_update_same {cpu : ι → Cpu} {phase : ι → Object.Phase Call (Option (BitVec 64))} {i : ι}
    {c : Cpu} (hcpu : ∀ j, Stands v mem (cpu j) (phase j)) (hc : Stands v mem c (phase i)) (j : ι) :
    Stands v mem (Function.update cpu i c j) (phase j) := by
  have hupdate := stands_update (i := i) hcpu hc j
  rwa [Function.update_eq_self] at hupdate

/-- **A step of a call without effect** is steps of the object: the call takes effect as it returns. -/
lemma Sim.step {s s' : System ι} {a : Object.State ι (BitVec 64) Call (Option (BitVec 64))}
    (h : Sim v mem s a) (hstep : Step v (Harmless v) s s') :
    ∃ a', object.Reaches a a' ∧ Sim v mem s' a' := by
  obtain ⟨hmem, hvalue, hlog, hstands⟩ := h
  subst hmem
  cases hstep with
  | @call i c code htask hcode hok =>
    have hi := hstands i
    simp only [Stands, htask] at hi
    exact ⟨_, .single (.call c hi), rfl, hvalue, congrArg _ hlog, stands_update hstands ⟨rfl, hok⟩⟩
  | @load i c junk htask =>
    have hi := hstands i
    simp only [Stands, htask] at hi
    exact ⟨a, .refl, rfl, hvalue, hlog, stands_update_same hstands
      ⟨hi.1, hi.2, rfl, expects_bind c _ _ _ junk⟩⟩
  | @insn i c n code x htask hcode hx =>
    have hi := hstands i
    simp only [Stands, htask] at hi
    obtain ⟨hphase, hharmless, hcounter, hexpects⟩ := hi
    have hsame : (x.exec (s.cpu i).toRegs s.mem).2.1 = s.mem := by
      refine Insn.exec_mem fun o status src hsco => ?_
      rw [hexpects.data hcode (hsco ▸ hx), hcounter]
      exact hharmless.pointee
    refine ⟨a, .refl, hsame, hvalue, hlog, stands_update_same hstands ⟨hphase, hharmless, ?_, ?_⟩⟩
    · rw [Insn.exec_counter, hcounter]
    · rw [Insn.exec_counter]
      exact hexpects.exec hcode hx rfl
  | @ret i c n code htask hcode hn =>
    subst hn
    have hi := hstands i
    simp only [Stands, htask] at hi
    obtain ⟨hphase, hharmless, hcounter, hexpects⟩ := hi
    have hret : c.ret (s.cpu i).val = object.result c a.value := by
      rw [hexpects.ret hcode, hcounter, hvalue]
      exact hharmless.result
    refine ⟨_, Object.Reaches.returned hphase, ?_, ?_, ?_, stands_update hstands rfl⟩
    · rw [hcounter, Memory.store_load_same]
    · rw [hvalue]
      exact hharmless.counter
    · rw [hret, hlog]

/-- **Runs of calls without effect are atomic.** A call that changes what it loads, or the octa at that
address, changes another octa than the counter. -/
theorem atomic_run {s₀ s : System ι} (hstart : Start s₀) (hrun : Run v (Harmless v) s₀ s) :
    Atomic v s₀ s := by
  have h₀ : Sim v s₀.mem s₀ (Object.start ι Call _ (s₀.mem.load v 8)) :=
    ⟨rfl, rfl, hstart.log.symm, fun i => by simp only [Stands, hstart.task i, Object.start]⟩
  obtain ⟨a, hreach, hsim⟩ := Object.simulates_run
    (fun s s' a (h : Sim v s₀.mem s a) (hs : Step v (Harmless v) s s') => h.step hs) h₀ hrun
  refine ⟨⟨a.phase, ?_⟩, fun x _ => by rw [hsim.memory]⟩
  have hvalue : s.mem.load v 8 = a.value := by rw [hsim.memory, hsim.value]
  rw [hvalue, ← hsim.log]
  exact hreach

end Runs

/-- One CPU that does nothing, and cleared memory. -/
def idleSystem : System Unit :=
  ⟨fun _ => 0, fun _ => ⟨⟨fun _ => 0, 0, 0, 0⟩, .idle⟩, []⟩

/-- An exchange of a zero for a zero, to its return. -/
theorem atomic_run_xchg : ∃ s : System Unit,
    s.log = [.returned () (.xchg .relaxed 0) (some 0), .called () (.xchg .relaxed 0)] ∧
      Atomic 0x1000 idleSystem s := by
  have hharmless : Harmless 0x1000 idleSystem.mem (.xchg .relaxed 0) := ⟨rfl, rfl, rfl⟩
  refine ⟨_, ?_, atomic_run (show Start idleSystem from ⟨fun _ => rfl, rfl⟩)
    (.head (.call (i := ()) rfl rfl hharmless) (.head (.load (i := ()) (fun _ => 0) rfl)
      (.head (.insn (i := ()) rfl rfl rfl) (.head (.insn (i := ()) rfl rfl rfl)
        (.head (.insn (i := ()) rfl rfl rfl) (.head (.ret (i := ()) rfl rfl rfl) .refl))))))⟩
  rfl

/-- **Adding one to a counter that is zero** writes the octa at address zero. -/
theorem not_atomic_all : ¬ ∀ (v : BitVec 64) (s₀ s : System Unit), Start s₀ →
    Run v (fun _ _ => True) s₀ s → Atomic v s₀ s := by
  intro h
  obtain ⟨-, hmem⟩ := h 0x1000 idleSystem _ ⟨fun _ => rfl, rfl⟩
    (.head (.call (i := ()) (c := .op .add 1) rfl rfl trivial)
      (.head (.load (i := ()) (fun _ => 0) rfl) (.head (.insn (i := ()) rfl rfl rfl)
        (.head (.insn (i := ()) rfl rfl rfl) (.head (.insn (i := ()) rfl rfl rfl) .refl)))))
  exact absurd (hmem 0 (by decide)) (by decide)

end Dadao.Linux.Atomic64
