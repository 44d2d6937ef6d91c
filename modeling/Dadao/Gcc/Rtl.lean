import Dadao.Gcc.Instructions

set_option relaxedAutoImplicit false
set_option autoImplicit false

/-!
# Patterns of the machine description

The parts of a `define_insn` that decide what is printed and what it stands for: the RTL expressions, the
predicate and the constraints of each operand, and the template. The operands are those after register
allocation.

## Main definitions

* `Dadao.Gcc.Operand`, `Dadao.Gcc.Address` — operands of an insn.
* `Dadao.Gcc.DefineInsn` — a pattern.
* `Dadao.Gcc.DefineInsn.print` — the statements it prints.
* `Dadao.Gcc.DefineInsn.Legal` — the operands it is allowed to have.
* `Dadao.Gcc.DefineInsn.Correct` — the statements do what the RTL says.
-/

namespace Dadao.Gcc

open Qemu

/-! ## Operands -/

/-- An `rd` register that can be an operand: `rd0` is the constant zero, and `rd7` is the scratch register
of the templates. -/
def isRd (n : ℕ) : Bool := n < 64 && n != 0 && n != 7

/-- An `rb` register that can be an operand: `rb0` is the program counter. -/
def isRb (n : ℕ) : Bool := n < 64 && n != 0

/-- An address; the sum of two registers has either order. -/
inductive Address where
  | base (b : ℕ)
  | offset (b : ℕ) (v : ℤ)
  | index (b d : ℕ)
  | indirect (b : ℕ) (a : Address)
  deriving DecidableEq

/-- An operand of an insn. -/
inductive Operand where
  | reg (file : RegFile) (n : ℕ)
  | constInt (v : ℤ)
  | mem (a : Address)
  deriving DecidableEq

/-- `satisfies_constraint_Id`. -/
def satisfiesId (v : ℤ) : Bool := -0x800 ≤ v && v ≤ 0x7FF

/-- `satisfies_constraint_It`. -/
def satisfiesIt (v : ℤ) : Bool := -0x20000 ≤ v && v ≤ 0x1FFFF

/-- `satisfies_constraint_Js`. -/
def satisfiesJs (v : ℤ) : Bool := 0 ≤ v && v ≤ 0x1F

/-- `satisfies_constraint_Jd`. -/
def satisfiesJd (v : ℤ) : Bool := 0 ≤ v && v ≤ 4095

/-- A `HOST_WIDE_INT`. -/
def isHostWideInt (v : ℤ) : Bool := -2 ^ 63 ≤ v && v < 2 ^ 63

/-- `dd_legitimate_address_p`, with strict checking. -/
def Address.legitimate : Address → Bool
  | .base b => isRb b
  | .offset b v => isRb b && satisfiesId v
  | .index b d => isRb b && isRd d
  | .indirect b a => isRb b && a.legitimate

/-- `dd_load_legitimate_address_rbrd`. -/
def Address.isIndex : Address → Bool
  | .index .. => true
  | _ => false

/-- The address of an operand in memory that is in memory itself. -/
def Address.isIndirect : Address → Bool
  | .indirect .. => true
  | _ => false

/-- The address. -/
def Address.value (s : State) : Address → BitVec 64
  | .base b => s.reg .rb b
  | .offset b v => s.reg .rb b + BitVec.ofInt 64 v
  | .index b d => s.reg .rb b + s.reg .rd d
  | .indirect b a => s.reg .rb b + s.mem.load (a.value s) 8

/-- The value of an operand. -/
def Operand.value (s : State) : Operand → BitVec 64
  | .reg file n => s.reg file n
  | .constInt v => BitVec.ofInt 64 v
  | .mem a => s.mem.load (a.value s) 8

/-- Assign an operand; the address is that of the state `old`. -/
def Operand.assign (old s : State) (v : BitVec 64) : Operand → State
  | .reg file n => s.set file n v
  | .mem a => { s with mem := s.mem.store (a.value old) 8 v }
  | .constInt _ => s

/-- `dd_print_operand_address`; `none` for `fatal_insn`. -/
def Address.print : Address → Option (List Opnd)
  | .base b => some [rb b, .num 0]
  | .offset b v => some [rb b, .num v]
  | .index b d => some [rb b, rd d]
  | .indirect .. => none

/-- `dd_print_operand`. -/
def Operand.print : Operand → Option (List Opnd)
  | .reg file n => some [.reg file n]
  | .constInt v => some [.num v]
  | .mem a => a.print

/-! ## RTL -/

/-- An expression over the operands, by their numbers. -/
inductive Rtx where
  | operand (k : ℕ)
  | plus (x y : Rtx) | minus (x y : Rtx) | mult (x y : Rtx)
  | div (x y : Rtx) | mod (x y : Rtx) | udiv (x y : Rtx) | umod (x y : Rtx)
  | and (x y : Rtx) | ior (x y : Rtx) | xor (x y : Rtx)
  | ashift (x y : Rtx) | ashiftrt (x y : Rtx) | lshiftrt (x y : Rtx)
  | neg (x : Rtx) | not (x : Rtx)

/-- The value of an expression. -/
def Rtx.value (ops : ℕ → BitVec 64) : Rtx → BitVec 64
  | .operand k => ops k
  | .plus x y => x.value ops + y.value ops
  | .minus x y => x.value ops - y.value ops
  | .mult x y => x.value ops * y.value ops
  | .div x y => (x.value ops).sdiv (y.value ops)
  | .mod x y => (x.value ops).srem (y.value ops)
  | .udiv x y => (x.value ops).udiv (y.value ops)
  | .umod x y => (x.value ops).umod (y.value ops)
  | .and x y => x.value ops &&& y.value ops
  | .ior x y => x.value ops ||| y.value ops
  | .xor x y => x.value ops ^^^ y.value ops
  | .ashift x y => x.value ops <<< (y.value ops).toNat
  | .ashiftrt x y => (x.value ops).sshiftRight (y.value ops).toNat
  | .lshiftrt x y => x.value ops >>> (y.value ops).toNat
  | .neg x => -x.value ops
  | .not x => ~~~x.value ops

/-- The values an expression is defined for: no division by zero and no shift by more than 63. -/
def Rtx.Defined (ops : ℕ → BitVec 64) : Rtx → Prop
  | .operand _ => True
  | .plus x y | .minus x y | .mult x y | .and x y | .ior x y | .xor x y => x.Defined ops ∧ y.Defined ops
  | .div x y | .mod x y | .udiv x y | .umod x y => x.Defined ops ∧ y.Defined ops ∧ y.value ops ≠ 0
  | .ashift x y | .ashiftrt x y | .lshiftrt x y =>
    x.Defined ops ∧ y.Defined ops ∧ (y.value ops).toNat < 64
  | .neg x | .not x => x.Defined ops

/-! ## Operands of a pattern -/

/-- The predicates. -/
inductive Predicate where
  | rdClassOperand | rbClassOperand | memoryOperand | constIntOperand | immediateOperand
  | ddSign18Operand | ddRdS18Operand | ddRdLsOperand | ddRdU6Operand
  deriving DecidableEq

/-- `rd_class_operand`. -/
def isRdClass : Operand → Bool
  | .reg .rd n => isRd n
  | _ => false

/-- `rb_class_operand`. -/
def isRbClass : Operand → Bool
  | .reg .rb n => isRb n
  | _ => false

/-- A constant that meets a test. -/
def isConst (p : ℤ → Bool) : Operand → Bool
  | .constInt v => isHostWideInt v && p v
  | _ => false

/-- An operand in memory whose address meets a test. -/
def isMem (p : Address → Bool) : Operand → Bool
  | .mem a => a.legitimate && p a
  | _ => false

/-- The operands a predicate accepts. -/
def Predicate.accepts : Predicate → Operand → Bool
  | .rdClassOperand, o => isRdClass o
  | .rbClassOperand, o => isRbClass o
  | .memoryOperand, o => isMem (fun _ => true) o
  | .constIntOperand, o | .immediateOperand, o => isConst (fun _ => true) o
  | .ddSign18Operand, o => isConst satisfiesIt o
  | .ddRdS18Operand, o => isRdClass o || isConst satisfiesIt o
  | .ddRdLsOperand, o => isRdClass o || isConst (fun v => !satisfiesIt v) o
  | .ddRdU6Operand, o => isRdClass o || isConst satisfiesJs o

/-- The constraints. -/
inductive Constraint where
  | Rd | Rb | i | It | Js | Wg | m
  deriving DecidableEq

/-- The operands a constraint matches. -/
def Constraint.allows : Constraint → Operand → Bool
  | .Rd, o => isRdClass o
  | .Rb, o => isRbClass o
  | .i, o => isConst (fun _ => true) o
  | .It, o => isConst satisfiesIt o
  | .Js, o => isConst satisfiesJs o
  | .Wg, o => isMem Address.isIndex o
  | .m, o => isMem (fun _ => true) o

/-- `match_operand`: the predicate and the constraints of each alternative, of which one must match; none
for an operand without constraints. -/
structure MatchOperand where
  predicate : Predicate
  constraint : List (List Constraint)

/-- A part of a template. -/
inductive Piece where
  | operand (k : ℕ)
  | neg (k : ℕ)
  | reg (n : ℕ)
  | num (v : ℤ)

/-- A line of a template: the mnemonic and its operands. -/
abbrev Line := String × List Piece

/-- **A pattern**, `define_insn`: what is set, the scratch operands, the operands, whether the first input
has the modifier `%`, and the template of an alternative. -/
structure DefineInsn where
  sets : List (ℕ × Rtx)
  scratch : List ℕ
  operands : List MatchOperand
  commutative : Bool
  output : ℕ → (ℕ → Operand) → List Line

namespace DefineInsn

variable (p : DefineInsn) (ops : ℕ → Operand)

/-- Whether the operands fit the constraints of an alternative. -/
def fits (alt : ℕ) : Bool :=
  p.operands.zipIdx.all fun m =>
    m.1.constraint.isEmpty || (m.1.constraint.getD alt []).any (Constraint.allows · (ops m.2))

/-- `which_alternative`, the first one that the operands fit. -/
def whichAlternative : Option ℕ := [0, 1].find? (p.fits ops)

/-- A piece as it is printed; `%n` prints the negated constant. -/
def printPiece : Piece → Option (List Opnd)
  | .operand k => (ops k).print
  | .neg k =>
    match ops k with
    | .constInt v => some [.num (-v)]
    | _ => none
  | .reg n => some [rd n]
  | .num v => some [.num v]

/-- A line as it is printed. -/
def printLine (l : Line) : Option Stmt := do
  return ⟨l.1, (← l.2.mapM (printPiece ops)).flatten⟩

/-- **The statements that are printed**; `none` for an internal error. -/
def print : Option (List Stmt) := do
  (p.output (← p.whichAlternative ops) ops).mapM (printLine ops)

/-- The operand of the RTL that operand `k` of the template is; `%` permits that the first two inputs are
exchanged. -/
def rtlOperand (swapped : Bool) (k : ℕ) : ℕ :=
  if swapped then if k = 1 then 2 else if k = 2 then 1 else k else k

/-- The values of the operands of the RTL. -/
def values (swapped : Bool) (s : State) (k : ℕ) : BitVec 64 := (ops (rtlOperand swapped k)).value s

/-- **What the RTL says**: all sets are made from the values in the old state. -/
def effect (swapped : Bool) (s : State) : State :=
  p.sets.foldl (fun t set => (ops set.1).assign s t (set.2.value (values ops swapped s))) s

/-- The states the RTL is defined for. -/
def Defined (swapped : Bool) (s : State) : Prop :=
  ∀ set ∈ p.sets, set.2.Defined (values ops swapped s)

/-- The registers that may be changed besides: the scratch register of the templates and declared scratches. -/
def Scratch (file : RegFile) (n : ℕ) : Prop :=
  (file = .rd ∧ n = 7) ∨ ∃ k ∈ p.scratch, ops k = .reg file n

/-- A state that is as the RTL says, but for the scratch registers. -/
def Post (swapped : Bool) (s s' : State) : Prop :=
  s'.mem = (p.effect ops swapped s).mem ∧
    ∀ file n, ¬ p.Scratch ops file n → s'.reg file n = (p.effect ops swapped s).reg file n

/-- **The operands a pattern can have**: its predicates accept them and they fit an alternative, two
outputs are not the same, and inputs can be exchanged unless the second one is a constant. -/
structure Legal (swapped : Bool) : Prop where
  accepts : ∀ m ∈ p.operands.zipIdx, m.1.predicate.accepts (ops m.2) = true
  fits : (p.whichAlternative ops).isSome = true
  outputs : (p.sets.map (fun set => ops set.1) ++ p.scratch.map ops).Nodup
  swap : swapped = true → p.commutative = true ∧ ¬ ∃ v, ops 2 = .constInt v

/-- **A pattern is right** for operands: what is printed is accepted by the assembler and does what the RTL
says. -/
def Correct (swapped : Bool) : Prop :=
  ∃ stmts, p.print ops = some stmts ∧
    Achieves (p.Defined ops swapped) stmts (p.Post ops swapped)

end DefineInsn

end Dadao.Gcc
