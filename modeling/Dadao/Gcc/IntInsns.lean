import Dadao.Gcc.Rtl

set_option relaxedAutoImplicit false
set_option autoImplicit false

/-!
# The integer patterns

The patterns of `dadao-rd.md` and `dadao-rb.md` on 64-bit integers and pointers. The two that load the
address of a symbol print `setrd` and `setrb` with a symbol, for which `Dadao.Bfd.SetSymbol` is the code.

## Main definitions

* `Dadao.Gcc.IntInsn` — the patterns.
* `Dadao.Gcc.IntInsn.define` — their definitions.
* `Dadao.Gcc.IntInsn.Meets` — the operands they are right for.
* `Dadao.Gcc.SymbolInsn` — the two with a symbol.
-/

namespace Dadao.Gcc

open Qemu

/-- `RD_ARITH`. -/
inductive RdArith where
  | and | ior | xor
  deriving DecidableEq

/-- `RD_SHIFT`. -/
inductive RdShift where
  | ashift | ashiftrt | lshiftrt
  deriving DecidableEq

/-- The patterns. -/
inductive IntInsn where
  | rd2rd | arith (code : RdArith) | ddLdimmConst
  | ddAddrdMem | ddAddrdConst | ddAddrdRegls | ddAddrd
  | ddSubrdMem | ddSubrdConst | ddSubrdRegls
  | muldi3 | divmoddi4 | udivmoddi4 | shift (code : RdShift) | negdi2 | oneCmpldi2 | nor
  | movRb2rb | movRd2rb | movRb2rd | addrbRd | subrbRd | addrbImm | subrbImm | addrbCtry | subrbCtry
  | ddLdRb | ddStRb | ddLdrbimm | addrb2rd | subrb2rd | addrb2rdLardeScale
  deriving DecidableEq

/-! ## Parts of patterns -/

/-- An operand with constraint `Rd`, in a pattern with `n` alternatives. -/
def rdOperand (n : ℕ) : MatchOperand := ⟨.rdClassOperand, List.replicate n [.Rd]⟩

/-- An operand with constraint `Rb`. -/
def rbOperand (n : ℕ) : MatchOperand := ⟨.rbClassOperand, List.replicate n [.Rb]⟩

/-- An operand in memory, at an index or not. -/
def memOperand : MatchOperand := ⟨.memoryOperand, [[.Wg], [.m]]⟩

/-- Whether a constant is not one of twelve bits, as the templates test it. -/
def isLong : Operand → Bool
  | .constInt v => v > 0x7ff || v < -0x800
  | _ => false

/-- Whether an operand is a constant. -/
def isConstInt : Operand → Bool
  | .constInt _ => true
  | _ => false

/-- An operation on `rd` registers whose second input is in memory, by way of the destination. -/
def rdMem (rtx : Rtx → Rtx → Rtx) (mnemonic : String) : DefineInsn where
  sets := [(0, rtx (.operand 1) (.operand 2))]
  scratch := []
  operands := [rdOperand 2, rdOperand 2, memOperand]
  commutative := true
  output alt _ :=
    [if alt = 0 then ("ldmo", [.operand 0, .operand 2, .num 1]) else ("ldo", [.operand 0, .operand 2]),
      (mnemonic, [.reg 0, .operand 0, .operand 1, .operand 0])]

/-- An addition or subtraction of a constant; a long one goes by way of `rd7`. -/
def addConst (rtx : Rtx → Rtx → Rtx) (input : MatchOperand) (const : ℕ → Piece)
    (add : List Piece → List Piece) : DefineInsn where
  sets := [(0, rtx (.operand 1) (.operand 2))]
  scratch := []
  operands := [input, input, ⟨.ddSign18Operand, [[.i]]⟩]
  commutative := true
  output _ ops :=
    if isLong (ops 2) then
      [("setrd", [.reg 7, const 2]), ("add", add [.operand 0, .operand 1, .reg 7])]
    else [("addi", [.operand 0, .operand 1, const 2])]

/-- An addition or subtraction of a register or of a constant that is not one of eighteen bits. -/
def addRegls (rtx : Rtx → Rtx → Rtx) (mnemonic : String) (const : ℕ → Piece) : DefineInsn where
  sets := [(0, rtx (.operand 1) (.operand 2))]
  scratch := []
  operands := [rdOperand 2, rdOperand 2, ⟨.ddRdLsOperand, [[.Rd], [.i]]⟩]
  commutative := true
  output alt _ :=
    if alt = 0 then [(mnemonic, [.reg 0, .operand 0, .operand 1, .operand 2])]
    else [("setrd", [.reg 7, const 2]), ("add", [.reg 0, .operand 0, .operand 1, .reg 7])]

/-- Quotient and remainder. -/
def divmod (div mod : Rtx → Rtx → Rtx) (mnemonic : String) : DefineInsn where
  sets := [(0, div (.operand 1) (.operand 2)), (3, mod (.operand 1) (.operand 2))]
  scratch := []
  operands := [rdOperand 1, rdOperand 1, rdOperand 1, rdOperand 1]
  commutative := false
  output _ _ := [(mnemonic, [.operand 3, .operand 0, .operand 1, .operand 2])]

/-- A move of one register. -/
def move (dest src : MatchOperand) (mnemonic : String) : DefineInsn where
  sets := [(0, .operand 1)]
  scratch := []
  operands := [dest, src]
  commutative := false
  output _ _ := [(mnemonic, [.operand 0, .operand 1, .num 1])]

/-- An instruction on two inputs, printed in this order. -/
def binary (rtx : Rtx) (operands : List MatchOperand) (commutative : Bool) (line : Line) : DefineInsn where
  sets := [(0, rtx)]
  scratch := []
  operands
  commutative
  output _ _ := [line]

/-! ## The patterns -/

/-- `rd_arith_insn`. -/
def RdArith.insn : RdArith → String
  | .and => "and"
  | .ior => "orr"
  | .xor => "xor"

/-- The expression with the code. -/
def RdArith.rtx : RdArith → Rtx → Rtx → Rtx
  | .and => .and
  | .ior => .ior
  | .xor => .xor

/-- `rd_shift_insn`. -/
def RdShift.insn : RdShift → String
  | .ashift => "shlu"
  | .ashiftrt => "shrs"
  | .lshiftrt => "shru"

/-- The expression with the code. -/
def RdShift.rtx : RdShift → Rtx → Rtx → Rtx
  | .ashift => .ashift
  | .ashiftrt => .ashiftrt
  | .lshiftrt => .lshiftrt

/-- `muldi3`: the upper half goes to a scratch operand. -/
def muldi3 : DefineInsn where
  sets := [(0, .mult (.operand 1) (.operand 2))]
  scratch := [3]
  operands := [rdOperand 1, rdOperand 1, rdOperand 1, rdOperand 1]
  commutative := true
  output _ _ := [("mulu", [.operand 3, .operand 0, .operand 1, .operand 2])]

/-- `*nor`. -/
def nor : DefineInsn where
  sets := [(0, .and (.not (.operand 1)) (.not (.operand 2)))]
  scratch := []
  operands := [rdOperand 1, rdOperand 1, rdOperand 1]
  commutative := true
  output _ _ := [("orr", [.operand 0, .operand 1, .operand 2]), ("xnor", [.operand 0, .operand 0, .reg 0])]

/-- `addrb_rd`. -/
def addrbRd : DefineInsn where
  sets := [(0, .plus (.operand 1) (.operand 2))]
  scratch := []
  operands := [rbOperand 2, rbOperand 2, ⟨.ddRdLsOperand, [[.Rd], [.i]]⟩]
  commutative := true
  output alt _ :=
    if alt = 0 then [("add", [.operand 0, .operand 1, .operand 2])]
    else [("setrd", [.reg 7, .operand 2]), ("add", [.operand 0, .operand 1, .reg 7])]

/-- `dd_ld_rb`. -/
def ddLdRb : DefineInsn where
  sets := [(0, .operand 1)]
  scratch := []
  operands := [rbOperand 2, memOperand]
  commutative := false
  output alt _ :=
    if alt = 0 then [("ldmo", [.operand 0, .operand 1, .num 1])] else [("ldo", [.operand 0, .operand 1])]

/-- `dd_st_rb`. -/
def ddStRb : DefineInsn where
  sets := [(0, .operand 1)]
  scratch := []
  operands := [memOperand, rbOperand 2]
  commutative := false
  output alt _ :=
    if alt = 0 then [("stmo", [.operand 1, .operand 0, .num 1])] else [("sto", [.operand 1, .operand 0])]

/-- `addrb2rd`. -/
def addrb2rd : DefineInsn where
  sets := [(0, .plus (.operand 1) (.operand 2))]
  scratch := []
  operands := [rdOperand 2, rbOperand 2, ⟨.ddRdS18Operand, [[.It], [.Rd]]⟩]
  commutative := true
  output _ ops :=
    if isConstInt (ops 2) then
      if isLong (ops 2) then
        [("setrd", [.reg 7, .operand 2]), ("rb2rd", [.operand 0, .operand 1, .num 1]),
          ("add", [.reg 0, .operand 0, .operand 0, .reg 7])]
      else [("rb2rd", [.operand 0, .operand 1, .num 1]), ("addi", [.operand 0, .operand 0, .operand 2])]
    else [("rb2rd", [.operand 0, .operand 1, .num 1]),
      ("add", [.reg 0, .operand 0, .operand 0, .operand 2])]

/-- `subrb2rd`. -/
def subrb2rd : DefineInsn where
  sets := [(0, .minus (.operand 1) (.operand 2))]
  scratch := []
  operands := [rdOperand 2, rbOperand 2, ⟨.ddRdS18Operand, [[.It], [.Rd]]⟩]
  commutative := true
  output _ ops :=
    if isConstInt (ops 2) then
      if isLong (ops 2) then
        [("setrd", [.reg 7, .operand 2]), ("rb2rd", [.operand 0, .operand 1, .num 1]),
          ("sub", [.reg 0, .operand 0, .operand 0, .operand 2])]
      else [("rb2rd", [.operand 0, .operand 1, .num 1]), ("addi", [.operand 0, .operand 0, .neg 2])]
    else [("rb2rd", [.operand 0, .operand 1, .num 1]),
      ("sub", [.reg 0, .operand 0, .operand 0, .operand 2])]

/-- `addrb2rd_larde_scale`. -/
def addrb2rdLardeScale : DefineInsn where
  sets := [(0, .plus (.operand 1) (.operand 2))]
  scratch := []
  operands := [rdOperand 1, rbOperand 1, ⟨.constIntOperand, [[.i]]⟩]
  commutative := false
  output _ _ := [("rb2rd", [.operand 0, .operand 1, .num 1]), ("setrd", [.reg 7, .operand 2]),
    ("add", [.reg 0, .operand 0, .reg 7, .operand 0])]

/-- **The definition of a pattern.** -/
def IntInsn.define : IntInsn → DefineInsn
  | .rd2rd => move (rdOperand 1) (rdOperand 1) "rd2rd"
  | .arith code => binary (code.rtx (.operand 1) (.operand 2)) [rdOperand 1, rdOperand 1, rdOperand 1] true
      (code.insn, [.operand 0, .operand 1, .operand 2])
  | .ddLdimmConst => binary (.operand 1) [rdOperand 1, ⟨.constIntOperand, [[.i]]⟩] false
      ("setrd", [.operand 0, .operand 1])
  | .ddAddrdMem => rdMem .plus "add"
  | .ddAddrdConst => addConst .plus (rdOperand 1) .operand (.reg 0 :: ·)
  | .ddAddrdRegls => addRegls .plus "add" .operand
  | .ddAddrd => binary (.plus (.operand 1) (.operand 2)) [rdOperand 1, rdOperand 1, rdOperand 1] true
      ("add", [.reg 0, .operand 0, .operand 1, .operand 2])
  | .ddSubrdMem => rdMem .minus "sub"
  | .ddSubrdConst => addConst .minus (rdOperand 1) .neg (.reg 0 :: ·)
  | .ddSubrdRegls => addRegls .minus "sub" .neg
  | .muldi3 => Gcc.muldi3
  | .divmoddi4 => divmod .div .mod "divs"
  | .udivmoddi4 => divmod .udiv .umod "divu"
  | .shift code => binary (code.rtx (.operand 1) (.operand 2))
      [rdOperand 1, rdOperand 1, ⟨.ddRdU6Operand, [[.Js, .Rd]]⟩] false
      (code.insn, [.operand 0, .operand 1, .operand 2])
  | .negdi2 => binary (.neg (.operand 1)) [rdOperand 1, rdOperand 1] false
      ("sub", [.reg 0, .operand 0, .reg 0, .operand 1])
  | .oneCmpldi2 => binary (.not (.operand 1)) [rdOperand 1, rdOperand 1] false
      ("xnor", [.operand 0, .operand 1, .reg 0])
  | .nor => Gcc.nor
  | .movRb2rb => move (rbOperand 1) (rbOperand 1) "rb2rb"
  | .movRd2rb => move (rbOperand 1) (rdOperand 1) "rd2rb"
  | .movRb2rd => move (rdOperand 1) (rbOperand 1) "rb2rd"
  | .addrbRd => Gcc.addrbRd
  | .subrbRd => binary (.minus (.operand 1) (.operand 2)) [rbOperand 1, rbOperand 1, rdOperand 1] true
      ("sub", [.operand 0, .operand 1, .operand 2])
  | .addrbImm => addConst .plus (rbOperand 1) .operand id
  | .subrbImm => addConst .minus (rbOperand 1) .neg id
  | .addrbCtry => binary (.plus (.operand 1) (.operand 2)) [rbOperand 1, rdOperand 1, rbOperand 1] true
      ("add", [.operand 0, .operand 2, .operand 1])
  | .subrbCtry => binary (.minus (.operand 1) (.operand 2)) [rbOperand 1, rdOperand 1, rbOperand 1] true
      ("sub", [.operand 0, .operand 2, .operand 1])
  | .ddLdRb => Gcc.ddLdRb
  | .ddStRb => Gcc.ddStRb
  | .ddLdrbimm => binary (.operand 1) [rbOperand 1, ⟨.immediateOperand, []⟩] false
      ("setrb", [.operand 0, .operand 1])
  | .addrb2rd => Gcc.addrb2rd
  | .subrb2rd => Gcc.subrb2rd
  | .addrb2rdLardeScale => Gcc.addrb2rdLardeScale

/-- **When a pattern is right**, by its operands and whether the inputs are exchanged. -/
def IntInsn.Meets (i : IntInsn) (ops : ℕ → Operand) (swapped : Bool) : Prop :=
  match i with
  | .ddAddrdMem => ops 0 ≠ ops 1 ∧ ∀ b a, ops 2 ≠ .mem (.indirect b a)
  | .ddSubrdMem => ops 0 ≠ ops 1 ∧ (∀ b a, ops 2 ≠ .mem (.indirect b a)) ∧ swapped = false
  | .ddSubrdConst | .subrbImm => ops 2 ≠ .constInt (-0x800)
  | .ddSubrdRegls => swapped = true → ops 1 = ops 2
  | .subrbRd => swapped = false
  | .subrbCtry => swapped = true
  | .ddLdRb => ∀ b a, ops 1 ≠ .mem (.indirect b a)
  | .ddStRb => ∀ b a, ops 0 ≠ .mem (.indirect b a)
  | .addrb2rd => ops 0 ≠ ops 2
  | .subrb2rd => (∀ v, ops 2 = .constInt v → -0x800 < v ∧ v ≤ 0x7FF) ∧ ops 0 ≠ ops 2 ∧ swapped = false
  | _ => True

/-! ## Symbols -/

/-- The patterns that load the address of a symbol. -/
inductive SymbolInsn where
  | ddLdimmSymbolic | ddLdrbimm
  deriving DecidableEq

/-- The destinations the predicate and the constraints allow. -/
def SymbolInsn.accepts : SymbolInsn → Operand → Bool
  | .ddLdimmSymbolic, o => isRdClass o || isRbClass o
  | .ddLdrbimm, o => isRbClass o

/-- `REGNO`. -/
def Operand.regno : Operand → ℕ
  | .reg file n => (fileBase file).toNat + n
  | _ => 0

end Dadao.Gcc
