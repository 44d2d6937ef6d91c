import Dadao.Lib.Memory
import Mathlib.Data.Int.Notation
import Mathlib.Tactic.SplitIfs

set_option relaxedAutoImplicit false
set_option autoImplicit false

/-!
# The intermediate code of a dynamic translator

The operations a front end emits for a guest instruction, over 64-bit values, and what executing
them does to the globals and temporaries of a virtual CPU and to memory. The type `G` of globals is
a parameter. Labels are local to the emitted list and branches go forward only, so that a branch
is a search for its label in the rest of the list.

## Main definitions

* `Dadao.Tcg.Op` — the operations.
* `Dadao.Tcg.stepOp` — one operation that is not skipped.
* `Dadao.Tcg.exec` — a whole list.

## Main results

* `Dadao.Tcg.exec_append_straight` — lists without branches are executed in place.
* `Dadao.Tcg.exec_append_skip` — lists without the label looked for are passed over.
-/

namespace Dadao.Tcg

/-- A value of the intermediate code: a global, a temporary or a constant. -/
inductive Var (G : Type) where
  | global (g : G)
  | temp (n : ℕ)
  | const (c : BitVec 64)
  deriving DecidableEq

/-- The conditions of comparisons; the plain orders are signed. -/
inductive Cond where
  | eq | ne | lt | ge | gt | le | ltu | geu | gtu | leu
  deriving DecidableEq, Repr

/-- Whether a condition holds of two values. -/
def Cond.holds : Cond → BitVec 64 → BitVec 64 → Bool
  | .eq, a, b => a == b
  | .ne, a, b => a != b
  | .lt, a, b => a.slt b
  | .ge, a, b => !a.slt b
  | .gt, a, b => b.slt a
  | .le, a, b => !b.slt a
  | .ltu, a, b => a.ult b
  | .geu, a, b => !a.ult b
  | .gtu, a, b => b.ult a
  | .leu, a, b => !b.ult a

/-- The binary operations. -/
inductive BinOp where
  | add | sub | and | or | xor
  | shl | shr | sar
  | div | divu | rem | remu
  deriving DecidableEq, Repr

/-- The value of a binary operation. The amount of a shift counts modulo 64, as the constant folding
of the intermediate code and its interpreter take it. -/
def BinOp.eval : BinOp → BitVec 64 → BitVec 64 → BitVec 64
  | .add => (· + ·)
  | .sub => (· - ·)
  | .and => (· &&& ·)
  | .or => (· ||| ·)
  | .xor => (· ^^^ ·)
  | .shl => fun a b => a <<< (b.toNat % 64)
  | .shr => fun a b => a >>> (b.toNat % 64)
  | .sar => fun a b => a.sshiftRight (b.toNat % 64)
  | .div => BitVec.sdiv
  | .divu => BitVec.udiv
  | .rem => BitVec.srem
  | .remu => BitVec.umod

/-- The operations with a result of 128 bits. -/
inductive WideOp where
  | add2 | sub2 | muls2 | mulu2
  deriving DecidableEq, Repr

/-- The value of an operation with a result of 128 bits: its operands are pairs of a high and a low
half, of which a product takes the low ones. -/
def WideOp.eval (f : WideOp) (ah al bh bl : BitVec 64) : BitVec 128 :=
  match f with
  | .add2 => (ah ++ al) + (bh ++ bl)
  | .sub2 => (ah ++ al) - (bh ++ bl)
  | .muls2 => al.signExtend 128 * bl.signExtend 128
  | .mulu2 => al.setWidth 128 * bl.setWidth 128

/-- A memory access: the number of bytes and whether a load extends the sign. -/
structure MemOp where
  bytes : ℕ
  signed : Bool
  deriving DecidableEq, Repr

/-- The value of a load: the bytes, extended to 64 bits. -/
def MemOp.load (op : MemOp) (m : Memory) (a : BitVec 64) : BitVec 64 :=
  if op.signed then ((m.load a op.bytes).setWidth (8 * op.bytes)).signExtend 64
  else m.load a op.bytes

/-- The operations of the intermediate code. -/
inductive Op (G : Type) where
  | mov (d s : Var G)
  | bin (op : BinOp) (d a b : Var G)
  | wide (op : WideOp) (dl dh al ah bl bh : Var G)
  | movcond (c : Cond) (d a b x y : Var G)
  | setcond (c : Cond) (d a b : Var G)
  | brcond (c : Cond) (a b : Var G) (l : ℕ)
  | br (l : ℕ)
  | setLabel (l : ℕ)
  | qemuLd (d addr : Var G) (op : MemOp)
  | qemuSt (s addr : Var G) (op : MemOp)
  | atomicCmpxchg (d addr cmp new : Var G) (op : MemOp)
  | mb
  | exception (excp : ℕ)
  deriving DecidableEq

/-- The variables of an operation. -/
def Op.vars {G : Type} : Op G → List (Var G)
  | .mov d a => [d, a]
  | .bin _ d a b | .setcond _ d a b => [d, a, b]
  | .wide _ dl dh al ah bl bh => [dl, dh, al, ah, bl, bh]
  | .movcond _ d a b x y => [d, a, b, x, y]
  | .brcond _ a b _ | .qemuLd a b _ | .qemuSt a b _ => [a, b]
  | .atomicCmpxchg d a x y _ => [d, a, x, y]
  | .br _ | .setLabel _ | .mb | .exception _ => []

/-- An operation that assigns a global or writes the memory. -/
def Op.hasEffect {G : Type} : Op G → Bool
  | .mov (.global _) _ | .bin _ (.global _) _ _ | .setcond _ (.global _) _ _
  | .movcond _ (.global _) _ _ _ _ | .qemuLd (.global _) _ _
  | .wide _ (.global _) _ _ _ _ _ | .wide _ _ (.global _) _ _ _ _
  | .qemuSt .. | .atomicCmpxchg .. => true
  | _ => false

attribute [local simp] Op.hasEffect

/-- A variable over other globals. -/
@[simp] def Var.map {G H : Type} (f : G → H) : Var G → Var H
  | .global g => .global (f g)
  | .temp n => .temp n
  | .const c => .const c

/-- An operation over other globals. -/
@[simp] def Op.map {G H : Type} (f : G → H) : Op G → Op H
  | .mov d a => .mov (d.map f) (a.map f)
  | .bin op d a b => .bin op (d.map f) (a.map f) (b.map f)
  | .wide op dl dh al ah bl bh =>
    .wide op (dl.map f) (dh.map f) (al.map f) (ah.map f) (bl.map f) (bh.map f)
  | .movcond c d a b x y => .movcond c (d.map f) (a.map f) (b.map f) (x.map f) (y.map f)
  | .setcond c d a b => .setcond c (d.map f) (a.map f) (b.map f)
  | .brcond c a b l => .brcond c (a.map f) (b.map f) l
  | .br l => .br l
  | .setLabel l => .setLabel l
  | .qemuLd d addr op => .qemuLd (d.map f) (addr.map f) op
  | .qemuSt v addr op => .qemuSt (v.map f) (addr.map f) op
  | .atomicCmpxchg d addr cmp new op => .atomicCmpxchg (d.map f) (addr.map f) (cmp.map f) (new.map f) op
  | .mb => .mb
  | .exception excp => .exception excp

/-- The globals and temporaries of a virtual CPU. -/
structure Env (G : Type) where
  globals : G → BitVec 64
  temps : ℕ → BitVec 64

section Semantics

variable {G : Type}

/-- The value of a variable. -/
def Env.read (e : Env G) : Var G → BitVec 64
  | .global g => e.globals g
  | .temp n => e.temps n
  | .const c => c

@[simp] lemma Env.read_global (e : Env G) (g : G) : e.read (.global g) = e.globals g := rfl

@[simp] lemma Env.read_temp (e : Env G) (n : ℕ) : e.read (.temp n) = e.temps n := rfl

@[simp] lemma Env.read_const (e : Env G) (c : BitVec 64) : e.read (.const c) = c := rfl

variable [DecidableEq G]

/-- Assign a variable; constants are not assigned. -/
def Env.write (e : Env G) (d : Var G) (v : BitVec 64) : Env G :=
  match d with
  | .global g => { e with globals := fun g' => if g' = g then v else e.globals g' }
  | .temp n => { e with temps := fun n' => if n' = n then v else e.temps n' }
  | .const _ => e

@[simp] lemma Env.write_global_globals (e : Env G) (g g' : G) (v : BitVec 64) :
    (e.write (.global g) v).globals g' = if g' = g then v else e.globals g' := rfl

@[simp] lemma Env.write_global_temps (e : Env G) (g : G) (v : BitVec 64) :
    (e.write (.global g) v).temps = e.temps := rfl

@[simp] lemma Env.write_temp_globals (e : Env G) (n : ℕ) (v : BitVec 64) :
    (e.write (.temp n) v).globals = e.globals := rfl

@[simp] lemma Env.write_temp_temps (e : Env G) (n n' : ℕ) (v : BitVec 64) :
    (e.write (.temp n) v).temps n' = if n' = n then v else e.temps n' := rfl

/-- A virtual CPU together with memory. -/
structure Machine (G : Type) where
  env : Env G
  mem : Memory

/-- What follows an operation: the next one, the one after a label, or an exception. -/
inductive Control where
  | next
  | skip (l : ℕ)
  | raise (excp : ℕ)
  deriving DecidableEq

/-- Assign a variable of the CPU. -/
def Machine.write (s : Machine G) (d : Var G) (v : BitVec 64) : Machine G :=
  { s with env := s.env.write d v }

@[simp] lemma Machine.write_env (s : Machine G) (d : Var G) (v : BitVec 64) :
    (s.write d v).env = s.env.write d v := rfl

@[simp] lemma Machine.write_mem (s : Machine G) (d : Var G) (v : BitVec 64) :
    (s.write d v).mem = s.mem := rfl

/-- The other globals keep their values. -/
lemma Machine.globals_write_of_ne (s : Machine G) {g g' : G} (h : g' ≠ g) (v : BitVec 64) :
    (s.write (.global g) v).env.globals g' = s.env.globals g' := if_neg h

/-- Of two assignments to a global the second stays. -/
lemma Machine.write_write (s : Machine G) (g : G) (v v' : BitVec 64) :
    (s.write (.global g) v).write (.global g) v' = s.write (.global g) v' := by
  have hglobals : (fun g' => if g' = g then v' else if g' = g then v else s.env.globals g') =
      fun g' => if g' = g then v' else s.env.globals g' := by
    funext g'
    by_cases hg : g' = g
    · rw [if_pos hg, if_pos hg]
    · rw [if_neg hg, if_neg hg, if_neg hg]
  simp only [Machine.write, Env.write, hglobals]

/-- One operation. -/
def stepOp (op : Op G) (s : Machine G) : Machine G × Control :=
  match op with
  | .mov d a => (s.write d (s.env.read a), .next)
  | .bin f d a b => (s.write d (f.eval (s.env.read a) (s.env.read b)), .next)
  | .wide f dl dh al ah bl bh =>
    let v := f.eval (s.env.read ah) (s.env.read al) (s.env.read bh) (s.env.read bl)
    ((s.write dl (v.setWidth 64)).write dh ((v >>> 64).setWidth 64), .next)
  | .movcond c d a b x y =>
    (s.write d (if c.holds (s.env.read a) (s.env.read b) then s.env.read x else s.env.read y), .next)
  | .setcond c d a b => (s.write d (if c.holds (s.env.read a) (s.env.read b) then 1 else 0), .next)
  | .brcond c a b l => (s, if c.holds (s.env.read a) (s.env.read b) then .skip l else .next)
  | .br l => (s, .skip l)
  | .setLabel _ => (s, .next)
  | .qemuLd d a op => (s.write d (op.load s.mem (s.env.read a)), .next)
  | .qemuSt v a op => ({ s with mem := s.mem.store (s.env.read a) op.bytes (s.env.read v) }, .next)
  | .atomicCmpxchg d a cmp new op =>
    let old := op.load s.mem (s.env.read a)
    let mem := if old = s.env.read cmp then s.mem.store (s.env.read a) op.bytes (s.env.read new)
      else s.mem
    ({ env := s.env.write d old, mem }, .next)
  | .mb => (s, .next)
  | .exception e => (s, .raise e)

/-- The end of a list of operations. -/
inductive Outcome (G : Type) where
  | done (s : Machine G)
  | raised (excp : ℕ) (s : Machine G)

/-- Execute a list; `skip` is the label that is being looked for. -/
def exec : List (Op G) → Option ℕ → Machine G → Outcome G
  | [], _, s => .done s
  | op :: ops, some l, s => if op = .setLabel l then exec ops none s else exec ops (some l) s
  | op :: ops, none, s =>
    match stepOp op s with
    | (s', .next) => exec ops none s'
    | (s', .skip l) => exec ops (some l) s'
    | (s', .raise e) => .raised e s'

attribute [local simp] stepOp exec

/-- A conditional branch. -/
lemma exec_brcond (c : Cond) (a b : Var G) (l : ℕ) (ops : List (Op G)) (s : Machine G) :
    exec (.brcond c a b l :: ops) none s =
      if c.holds (s.env.read a) (s.env.read b) then exec ops (some l) s else exec ops none s := by
  by_cases h : c.holds (s.env.read a) (s.env.read b) = true
  · rw [exec, stepOp, if_pos h, if_pos h]
  · rw [exec, stepOp, if_neg h, if_neg h]

/-! ## Straight lists -/

/-- An operation that goes on to the next one. -/
def Op.isStraight : Op G → Bool
  | .brcond .. | .br _ | .exception _ => false
  | _ => true

/-- A straight operation has no other effect on control. -/
lemma stepOp_straight {op : Op G} (h : op.isStraight = true) (s : Machine G) :
    (stepOp op s).2 = .next := by
  cases op <;> simp_all [Op.isStraight, stepOp]

/-- The machine after a straight list. -/
def runStraight (ops : List (Op G)) (s : Machine G) : Machine G :=
  ops.foldl (fun s op => (stepOp op s).1) s

@[simp] lemma runStraight_nil (s : Machine G) : runStraight [] s = s := rfl

@[simp] lemma runStraight_cons (op : Op G) (ops : List (Op G)) (s : Machine G) :
    runStraight (op :: ops) s = runStraight ops (stepOp op s).1 := rfl

@[simp] lemma runStraight_append (ops ops' : List (Op G)) (s : Machine G) :
    runStraight (ops ++ ops') s = runStraight ops' (runStraight ops s) := List.foldl_append

/-- **A straight list is executed in place.** -/
lemma exec_append_straight {ops rest : List (Op G)} (h : ops.all Op.isStraight = true)
    (s : Machine G) : exec (ops ++ rest) none s = exec rest none (runStraight ops s) := by
  induction ops generalizing s with
  | nil => rfl
  | cons op ops ih =>
    simp only [List.all_cons, Bool.and_eq_true] at h
    have hstep : stepOp op s = ((stepOp op s).1, .next) := by
      rw [← stepOp_straight h.1 s]
    rw [List.cons_append, exec, hstep]
    exact ih h.2 _

/-- A straight list on its own. -/
lemma exec_straight {ops : List (Op G)} (h : ops.all Op.isStraight = true) (s : Machine G) :
    exec ops none s = .done (runStraight ops s) := by
  have hexec : exec (ops ++ []) none s = exec [] none (runStraight ops s) :=
    exec_append_straight h s
  rw [List.append_nil] at hexec
  rw [hexec, exec]

/-- A list without the label is skipped. -/
lemma exec_append_skip {ops rest : List (Op G)} {l : ℕ} (h : ops.all (· ≠ .setLabel l) = true)
    (s : Machine G) : exec (ops ++ rest) (some l) s = exec rest (some l) s := by
  induction ops with
  | nil => rfl
  | cons op ops ih =>
    simp only [List.all_cons, Bool.and_eq_true, decide_eq_true_eq] at h
    rw [List.cons_append, exec, if_neg h.1]
    exact ih h.2

/-- An exception that is raised is one of the operations. -/
lemma exec_raised {ops : List (Op G)} {l : Option ℕ} {s s' : Machine G} {e : ℕ}
    (h : exec ops l s = .raised e s') : .exception e ∈ ops := by
  induction ops generalizing l s with
  | nil => simp [exec] at h
  | cons op ops ih =>
    cases l with
    | some l =>
      rw [exec] at h
      split_ifs at h
      · exact List.mem_cons_of_mem op (ih h)
      · exact List.mem_cons_of_mem op (ih h)
    | none =>
      cases op with
      | exception excp =>
        simp only [exec, stepOp, Outcome.raised.injEq] at h
        rw [h.1]
        exact List.mem_cons_self
      | brcond c a b l =>
        rw [exec_brcond] at h
        split_ifs at h
        · exact List.mem_cons_of_mem _ (ih h)
        · exact List.mem_cons_of_mem _ (ih h)
      | _ => exact List.mem_cons_of_mem _ (ih h)

end Semantics

end Dadao.Tcg
