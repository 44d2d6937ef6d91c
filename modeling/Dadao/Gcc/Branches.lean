import Dadao.Gcc.IntCorrect

set_option relaxedAutoImplicit false
set_option autoImplicit false

/-!
# Compare and branch

A comparison leaves `1`, `0` or `-1` in a register; the register allocator may move the condition around,
through memory too; a branch on the register ends it. Which instruction does each of these is decided in a
different place of `dadao-cc.md` and `dadao-rf.md`.

## Main definitions

* `Dadao.Gcc.cmpInsn` — the pattern of a comparison.
* `Dadao.Gcc.printMovcc` — `*movcc_expanded`.
* `Dadao.Gcc.IntBranch`, `Dadao.Gcc.FloatBranch` — a comparison, the way of its condition and the branch.

## Main results

* `Dadao.Gcc.does_hops` — what arrives of a condition.
* `Dadao.Gcc.does_compare`, `Dadao.Gcc.brCond_order` — comparisons and branches fit each other.
* `Dadao.Gcc.cbranch_right_iff` — when branches are taken as the comparison says.
-/

namespace Dadao.Gcc

open Opcodes Gas Qemu Tcg

/-! ## Comparison codes -/

/-- `ordered_comparison_operator`. -/
inductive IntCode where
  | eq | ne | lt | le | gt | ge | ltu | leu | gtu | geu
  deriving DecidableEq

/-- `ccff_comparison_operator`. -/
inductive FloatCode where
  | eq | ne | lt | le | gt | ge | ordered | unordered
  deriving DecidableEq

/-- `FloatRelation`. -/
inductive FloatRelation where
  | less | equal | greater | unordered
  deriving DecidableEq

/-- The codes for which the expander takes `CCUUmode`. -/
def IntCode.isUnsigned : IntCode → Bool
  | .ltu | .leu | .gtu | .geu => true
  | _ => false

/-- `ccss_type_insn` and `ccuu_type_insn`. -/
def IntCode.insn : IntCode → String
  | .eq => "z"
  | .ne => "nz"
  | .lt | .ltu => "n"
  | .le | .leu => "np"
  | .gt | .gtu => "p"
  | .ge | .geu => "nn"

/-- The order a comparison is about. -/
def less (unsigned : Bool) (x y : BitVec 64) : Bool := if unsigned then x.ult y else x.slt y

/-- Whether a comparison holds. -/
def IntCode.holds (code : IntCode) (x y : BitVec 64) : Bool :=
  match code with
  | .eq => x == y
  | .ne => x != y
  | .lt | .ltu => less code.isUnsigned x y
  | .le | .leu => !less code.isUnsigned y x
  | .gt | .gtu => less code.isUnsigned y x
  | .ge | .geu => !less code.isUnsigned x y

/-- Whether a comparison of floating-point numbers holds. -/
def FloatCode.holds : FloatCode → FloatRelation → Bool
  | .eq, r => r == .equal
  | .ne, r => r != .equal
  | .lt, r => r == .less
  | .le, r => r == .less || r == .equal
  | .gt, r => r == .greater
  | .ge, r => r == .greater || r == .equal
  | .ordered, r => r != .unordered
  | .unordered, r => r == .unordered

/-! ## Comparisons -/

/-- `dd_rd_s12_operand`. -/
def isRdS12 (o : Operand) : Bool := isRdClass o || isConst satisfiesId o

/-- `dd_rd_u12_operand`. -/
def isRdU12 (o : Operand) : Bool := isRdClass o || isConst satisfiesJd o

/-- The patterns. -/
inductive CmpInsn where
  | cmpss | cmpss2 | cmpuu
  deriving DecidableEq

/-- The first pattern whose predicate accepts the second operand. -/
def cmpInsn (code : IntCode) (op2 : Operand) : Option CmpInsn :=
  if code.isUnsigned then if isRdU12 op2 then some .cmpuu else none
  else if isRdS12 op2 then some .cmpss
  else if isConst (fun _ => true) op2 then some .cmpss2
  else none

/-- The operands `cbranchdi4` accepts have a pattern. -/
lemma cmpInsn_isSome (code : IntCode) {op2 : Operand} (h : isRdU12 op2 = true) :
    (cmpInsn code op2).isSome = true := by
  unfold cmpInsn
  rcases Bool.or_eq_true_iff.mp h with hrd | hconst
  · have hs12 : isRdS12 op2 = true := by simp [isRdS12, hrd]
    split_ifs <;> simp_all
  · obtain ⟨v, rfl, hv, -⟩ := isConst_iff.mp hconst
    have hany : isConst (fun _ => true) (.constInt v) = true := by simp [isConst, hv]
    split_ifs <;> simp_all

/-- The template of a comparison. -/
def CmpInsn.output : CmpInsn → List Line
  | .cmpss => [("cmps", [.operand 0, .operand 1, .operand 2])]
  | .cmpss2 => [("setrd", [.operand 0, .operand 2]), ("cmps", [.operand 0, .operand 1, .operand 0])]
  | .cmpuu => [("cmpu", [.operand 0, .operand 1, .operand 2])]

/-- `__DDAEE_FLOAT_TETRA_QNAN__` and `__DDAEE_FLOAT_OCTA_QNAN__`. -/
def qnan (double : Bool) : BitVec 64 := if double then 0x7ff8000000000000 else 0x7fc00000

/-- `FCMP_real`; `cmpfunc` is the comparison of the floating-point library. -/
def fcmpReal (cmpfunc : BitVec 64 → BitVec 64 → FloatRelation) (nanval arg1 arg2 : BitVec 64) : BitVec 64 :=
  match cmpfunc arg1 arg2 with
  | .greater => 1
  | .equal => 0
  | .less => -1
  | .unordered => nanval

/-! ## Moves of the condition -/

/-- The alternatives of `*movcc_expanded`. -/
def movccExpanded : List (Constraint × Constraint × Line) := [
  (.Rd, .Rd, ("orr", [.operand 0, .operand 1, .reg 0])),
  (.Rb, .Rd, ("rd2rb", [.operand 0, .operand 1, .num 1])),
  (.Rd, .Rb, ("rb2rd", [.operand 0, .operand 1, .num 1])),
  (.Rd, .m, ("ldtu", [.operand 0, .operand 1])),
  (.m, .Rd, ("stt", [.operand 1, .operand 0]))]

/-- The alternative that the operands fit. -/
def movccAlternative (dest src : Operand) : Option (Constraint × Constraint × Line) :=
  movccExpanded.find? fun alt => alt.1.allows dest && alt.2.1.allows src

/-- The statement that moves the condition. -/
def printMovcc (dest src : Operand) : Option Stmt := do
  DefineInsn.printLine (fun k => if k = 0 then dest else src) (← movccAlternative dest src).2.2

/-- The condition in a place; in memory it has four bytes. -/
def Operand.cc (s : State) : Operand → BitVec 64
  | .reg file n => s.reg file n
  | .mem a => s.mem.load (a.value s) 4
  | .constInt v => BitVec.ofInt 64 v

/-- A move to a place, and the code before it. -/
structure Hop where
  before : List Stmt
  dest : Operand

/-- Code that leaves the condition in its place alone. -/
def Leaves (stmts : List Stmt) (place : Operand) : Prop :=
  ∃ f, Does always stmts f ∧ ∀ s : State, s.IsView → place.cc (f s) = place.cc s

/-- **The way of a condition** from a place: each move has an alternative. -/
def Carries (place : Operand) : List Hop → Prop
  | [] => True
  | h :: hops => Leaves h.before place ∧ (movccAlternative h.dest place).isSome ∧ Carries h.dest hops

/-- The last place. -/
def lastPlace (place : Operand) : List Hop → Operand
  | [] => place
  | h :: hops => lastPlace h.dest hops

/-- The statements of the way. -/
def printHops (place : Operand) : List Hop → Option (List Stmt)
  | [] => some []
  | h :: hops => do return h.before ++ (← printMovcc h.dest place) :: (← printHops h.dest hops)

/-- The condition is in memory in between. -/
def spilled (hops : List Hop) : Bool := hops.any fun h => isMem (fun _ => true) h.dest

/-- A place that `stt` and `ldtu` can address: not `rb` and `rd`, not a pointer in memory. -/
def Addressable (place : Operand) : Prop := ∀ a, place = .mem a → a.isIndex = false ∧ a.isIndirect = false

/-! ## Branches -/

/-- **A branch behind statements goes to its label if and only if `taken`**, wherever the label is. -/
def BranchesTo (stmts : List Stmt) (mnemonic : String) (n : ℕ) (m : Machine Elem) (taken : Prop) : Prop :=
  ∀ g v, InRange .imms18 v → ∃ ws w, assemble g stmts = some ws ∧
    assemble g [⟨mnemonic, [rd n, .num v]⟩] = some [w] ∧
    ∃ m₁ m₂, Straight ws m m₁ ∧ Executes w m₁ (.done m₂) ∧
      (taken → m₂.env.globals .pc = m₁.env.globals .pc + BitVec.ofInt 64 v * 4) ∧
      (¬ taken → m₂.env.globals .pc = m₁.env.globals .pc + 4)

/-- A comparison of integers and the branch on it: the code, the condition and the operands, the way of the
condition to register `last`, and the code before the branch. -/
structure IntBranch where
  code : IntCode
  ops : ℕ → Operand
  hops : List Hop
  last : ℕ
  before : List Stmt

namespace IntBranch

variable (b : IntBranch)

/-- The statements before the branch. -/
def print : Option (List Stmt) := do
  let cmp ← (← cmpInsn b.code (b.ops 2)).output.mapM (DefineInsn.printLine b.ops)
  return cmp ++ (← printHops (b.ops 0) b.hops) ++ b.before

/-- Operands the patterns accept; the condition gets to `last` and stays there. -/
structure Legal : Prop where
  dest : isRdClass (b.ops 0) = true
  op1 : isRdClass (b.ops 1) = true
  op2 : (cmpInsn b.code (b.ops 2)).isSome = true
  carries : Carries (b.ops 0) b.hops
  last : lastPlace (b.ops 0) b.hops = .reg .rd b.last ∧ isRd b.last = true
  before : Leaves b.before (.reg .rd b.last)

/-- The branch is taken if and only if the comparison holds of the operands. -/
def Right (m : Machine Elem) : Prop :=
  ∃ stmts, b.print = some stmts ∧ BranchesTo stmts ("br" ++ b.code.insn) b.last m
    (b.code.holds ((b.ops 1).value (view m)) ((b.ops 2).value (view m)) = true)

/-- The constant is loaded into the register of the first operand. -/
def clobbers : Bool := cmpInsn b.code (b.ops 2) == some .cmpss2 && b.ops 0 == b.ops 1

/-- **When the branch is right**, by the operands. -/
def Meets (s : State) : Prop :=
  (∀ h ∈ b.hops, Addressable h.dest) ∧
    if b.clobbers then b.code.holds ((b.ops 1).value s) ((b.ops 2).value s) =
      b.code.holds ((b.ops 2).value s) ((b.ops 2).value s)
    else spilled b.hops = true → less b.code.isUnsigned ((b.ops 1).value s) ((b.ops 2).value s) = true →
      b.code = .eq ∨ b.code = .ne

end IntBranch

/-- The codes for which `brp` is right, by the relation of the operands. -/
def brpCodes (spill double : Bool) : FloatRelation → List FloatCode
  | .greater => [.ne, .gt, .ge, .ordered]
  | .equal => [.ne, .lt, .gt, .unordered]
  | .less => if spill then [.ne, .lt, .le, .ordered] else [.eq, .gt, .ge, .unordered]
  | .unordered => if spill && double then [.eq, .lt, .le, .gt, .ge, .ordered] else [.ne, .unordered]

/-- A comparison of floating-point numbers and the branch on it. -/
structure FloatBranch where
  code : FloatCode
  double : Bool
  dest : ℕ
  op1 : ℕ
  op2 : ℕ
  hops : List Hop
  last : ℕ
  before : List Stmt

namespace FloatBranch

variable (b : FloatBranch)

/-- `*fcmp_<mode>`. -/
def printFcmp : Stmt :=
  ⟨(if b.double then "fo" else "ft") ++ "qcmp", [rd b.dest, .reg .rf b.op1, .reg .rf b.op2]⟩

/-- The statements between the comparison and the branch. -/
def print : Option (List Stmt) := do return (← printHops (.reg .rd b.dest) b.hops) ++ b.before

/-- Operands the patterns accept; the condition gets to `last` and stays there. -/
structure Legal : Prop where
  dest : isRd b.dest = true
  ops : b.op1 < 64 ∧ b.op2 < 64
  carries : Carries (.reg .rd b.dest) b.hops
  last : lastPlace (.reg .rd b.dest) b.hops = .reg .rd b.last ∧ isRd b.last = true
  before : Leaves b.before (.reg .rd b.last)

/-- The comparison is accepted, and from the state behind it the branch of `*br_ccff` is taken if and only
if the comparison holds of the operands. -/
def Right (m : Machine Elem) (r : FloatRelation) : Prop :=
  (∀ g, (assemble g [b.printFcmp]).isSome = true) ∧
    ∃ stmts, b.print = some stmts ∧ BranchesTo stmts "brp" b.last m (b.code.holds r = true)

/-- **When the branch is right**, by the relation of the operands. -/
def Meets (r : FloatRelation) : Prop := (∀ h ∈ b.hops, Addressable h.dest) ∧ b.code ∈ brpCodes (spilled b.hops) b.double r

end FloatBranch

/-! ## The way of a condition -/

/-- What four bytes of memory keep of a value. -/
def kept (v : BitVec 64) : BitVec 64 := (v.setWidth 32).setWidth 64

@[simp] lemma kept_kept (v : BitVec 64) : kept (kept v) = kept v := by
  apply BitVec.eq_of_toNat_eq
  simp [kept]

/-- A spilled condition is read back without its sign. -/
lemma load_store_kept (m : Memory) (a v : BitVec 64) : (m.store a 4 v).load a 4 = kept v := by
  apply BitVec.eq_of_toNat_eq
  rw [Memory.toNat_load_store m a v (by omega), kept, BitVec.toNat_setWidth, BitVec.toNat_setWidth]
  omega

lemma kept_load (m : Memory) (a : BitVec 64) : kept (m.load a 4) = m.load a 4 := by
  have hlt := Memory.load_lt m a 4 (by omega)
  apply BitVec.eq_of_toNat_eq
  rw [kept, BitVec.toNat_setWidth, BitVec.toNat_setWidth]
  omega

/-- The places of an alternative. -/
lemma movccAlternative_cases {dest src : Operand} (h : (movccAlternative dest src).isSome = true) :
    (∃ a b, dest = .reg .rd a ∧ src = .reg .rd b ∧ isRd a = true ∧ isRd b = true) ∨
    (∃ a b, dest = .reg .rb a ∧ src = .reg .rd b ∧ isRb a = true ∧ isRd b = true) ∨
    (∃ a b, dest = .reg .rd a ∧ src = .reg .rb b ∧ isRd a = true ∧ isRb b = true) ∨
    (∃ a ad, dest = .reg .rd a ∧ src = .mem ad ∧ isRd a = true ∧ ad.legitimate = true) ∨
    (∃ ad b, dest = .mem ad ∧ src = .reg .rd b ∧ ad.legitimate = true ∧ isRd b = true) := by
  cases dest with
  | reg f a =>
    cases src with
    | reg f' b =>
      cases f <;> cases f' <;>
        simp_all [movccAlternative, movccExpanded, Constraint.allows, isRdClass, isRbClass, isMem]
    | mem ad =>
      cases f <;>
        simp_all [movccAlternative, movccExpanded, Constraint.allows, isRdClass, isRbClass, isMem]
    | constInt v => simp [movccAlternative, movccExpanded, Constraint.allows, isRdClass, isRbClass, isMem] at h
  | mem ad =>
    cases src with
    | reg f' b =>
      cases f' <;>
        simp_all [movccAlternative, movccExpanded, Constraint.allows, isRdClass, isRbClass, isMem]
    | _ => simp [movccAlternative, movccExpanded, Constraint.allows, isRdClass, isRbClass, isMem] at h
  | constInt v => simp [movccAlternative, movccExpanded, Constraint.allows, isRdClass, isRbClass, isMem] at h

/-- Statements lead from views to views. -/
lemma Does.isView {stmts : List Stmt} {f : State → State} (h : Does always stmts f) {s : State}
    (hs : s.IsView) : (f s).IsView := by
  obtain ⟨m, rfl⟩ := hs.exists_view
  obtain ⟨ws, -, hrun⟩ := h fun _ => .const 0
  obtain ⟨m', -, hview⟩ := hrun m trivial
  rw [← hview]
  exact isView_view m'

/-- What arrives in a place. -/
def arrives (place : Operand) (v : BitVec 64) : BitVec 64 :=
  if isMem (fun _ => true) place then kept v else v

/-- **One move of a condition.** -/
lemma does_movcc {dest src : Operand} (h : (movccAlternative dest src).isSome = true)
    (hdest : Addressable dest) (hsrc : Addressable src) :
    ∃ st f, printMovcc dest src = some st ∧ Does always [st] f ∧
      ∀ s : State, s.IsView → dest.cc (f s) = arrives dest (src.cc s) := by
  have hzero : InRange .imms12 0 := by rw [inRange_imms12]; omega
  have hoffset {b : ℕ} {v : ℤ} (hlegit : (Address.offset b v).legitimate = true) :
      isRb b = true ∧ InRange .imms12 v := by
    obtain ⟨hb, hv⟩ : isRb b = true ∧ satisfiesId v = true := by simpa [Address.legitimate] using hlegit
    refine ⟨hb, ?_⟩
    rw [inRange_imms12]
    simpa [satisfiesId] using hv
  rcases movccAlternative_cases h with ⟨a, b, rfl, rfl, ha, hb⟩ | ⟨a, b, rfl, rfl, ha, hb⟩ |
    ⟨a, b, rfl, rfl, ha, hb⟩ | ⟨a, ad, rfl, rfl, ha, hlegit⟩ | ⟨ad, b, rfl, rfl, hlegit, hb⟩
  · obtain ⟨ha', ha0, -⟩ := isRd_iff.mp ha
    obtain ⟨hb', -⟩ := isRd_iff.mp hb
    refine ⟨_, _, ?_, does_arith .ior (c := 0) ha0 ha' hb' (by omega), fun s hs => ?_⟩
    · simp [printMovcc, movccAlternative, movccExpanded, Constraint.allows, isRdClass, ha, hb,
        DefineInsn.printLine, DefineInsn.printPiece, Operand.print, RdArith.insn]
    · simp [Operand.cc, arrives, isMem, RdArith.rtx, Rtx.value, hs.rd]
  · obtain ⟨ha', ha0⟩ := isRb_iff.mp ha
    obtain ⟨hb', -⟩ := isRd_iff.mp hb
    refine ⟨_, _, ?_, does_rd2rb ha0 ha' hb', fun s hs => ?_⟩
    · simp [printMovcc, movccAlternative, movccExpanded, Constraint.allows, isRdClass, isRbClass, ha, hb,
        DefineInsn.printLine, DefineInsn.printPiece, Operand.print]
    · simp [Operand.cc, arrives, isMem]
  · obtain ⟨ha', ha0, -⟩ := isRd_iff.mp ha
    obtain ⟨hb', hb0⟩ := isRb_iff.mp hb
    refine ⟨_, _, ?_, does_rb2rd ha0 ha' hb0 hb', fun s hs => ?_⟩
    · simp [printMovcc, movccAlternative, movccExpanded, Constraint.allows, isRdClass, isRbClass, ha, hb,
        DefineInsn.printLine, DefineInsn.printPiece, Operand.print]
    · simp [Operand.cc, arrives, isMem]
  · obtain ⟨ha', ha0, -⟩ := isRd_iff.mp ha
    have hfind : movccAlternative (.reg .rd a) (.mem ad) =
        some (.Rd, .m, ("ldtu", [.operand 0, .operand 1])) := by
      simp [movccAlternative, movccExpanded, Constraint.allows, isRdClass, isRbClass, isMem, ha, hlegit]
    cases ad with
    | base b =>
      obtain ⟨hb', hb0⟩ := isRb_iff.mp hlegit
      refine ⟨_, _, ?_, does_ldtu ha0 ha' hb0 hb' hzero, fun s hs => ?_⟩
      · simp [printMovcc, hfind, DefineInsn.printLine, DefineInsn.printPiece, Operand.print, Address.print]
      · simp [Operand.cc, arrives, isMem, Address.value]
    | offset b v =>
      obtain ⟨hb, hv⟩ := hoffset hlegit
      obtain ⟨hb', hb0⟩ := isRb_iff.mp hb
      refine ⟨_, _, ?_, does_ldtu ha0 ha' hb0 hb' hv, fun s hs => ?_⟩
      · simp [printMovcc, hfind, DefineInsn.printLine, DefineInsn.printPiece, Operand.print, Address.print]
      · simp [Operand.cc, arrives, isMem, Address.value]
    | index b d => simpa [Address.isIndex] using hsrc _ rfl
    | indirect b a' => simpa [Address.isIndirect] using hsrc _ rfl
  · obtain ⟨hb', -⟩ := isRd_iff.mp hb
    have hfind : movccAlternative (.mem ad) (.reg .rd b) =
        some (.m, .Rd, ("stt", [.operand 1, .operand 0])) := by
      simp [movccAlternative, movccExpanded, Constraint.allows, isRdClass, isRbClass, isMem, hb, hlegit]
    cases ad with
    | base c =>
      obtain ⟨hc, hc0⟩ := isRb_iff.mp hlegit
      refine ⟨_, _, ?_, does_stt hb' hc0 hc hzero, fun s hs => ?_⟩
      · simp [printMovcc, hfind, DefineInsn.printLine, DefineInsn.printPiece, Operand.print, Address.print]
      · simp [Operand.cc, arrives, isMem, hlegit, Address.value, load_store_kept]
    | offset c v =>
      obtain ⟨hc, hv⟩ := hoffset hlegit
      obtain ⟨hc', hc0⟩ := isRb_iff.mp hc
      refine ⟨_, _, ?_, does_stt hb' hc0 hc' hv, fun s hs => ?_⟩
      · simp [printMovcc, hfind, DefineInsn.printLine, DefineInsn.printPiece, Operand.print, Address.print]
      · simp [Operand.cc, arrives, isMem, hlegit, Address.value, load_store_kept]
    | index b d => simpa [Address.isIndex] using hdest _ rfl
    | indirect b a' => simpa [Address.isIndirect] using hdest _ rfl

/-- **The way of a condition**: its value arrives, or what four bytes of memory keep of it. -/
lemma does_hops {hops : List Hop} {place : Operand} (h : Carries place hops) (hplace : Addressable place)
    (haddr : ∀ h ∈ hops, Addressable h.dest) :
    ∃ stmts f, printHops place hops = some stmts ∧ Does always stmts f ∧ ∀ s : State, s.IsView →
      (lastPlace place hops).cc (f s) =
        if spilled hops then kept (place.cc s) else place.cc s := by
  induction hops generalizing place with
  | nil => exact ⟨[], id, rfl, does_nil, fun s _ => by simp [lastPlace, spilled]⟩
  | cons h' hops ih =>
    obtain ⟨⟨f₀, hdoes₀, hleaves⟩, halt, hcarries⟩ := h
    obtain ⟨st, f₁, hst, hdoes₁, hmove⟩ := does_movcc halt (haddr h' (List.mem_cons_self ..)) hplace
    obtain ⟨stmts, f₂, hstmts, hdoes₂, hrest⟩ := ih hcarries (haddr h' (List.mem_cons_self ..))
      fun k hk => haddr k (List.mem_cons_of_mem _ hk)
    refine ⟨h'.before ++ st :: stmts, _, by simp [printHops, hst, hstmts],
      hdoes₀.append (hdoes₁.cons hdoes₂ fun _ _ => trivial) fun _ _ => trivial, fun s hs => ?_⟩
    have hs₀ := hdoes₀.isView hs
    simp only [lastPlace, Function.comp_apply, hrest _ (hdoes₁.isView hs₀), hmove _ hs₀, hleaves s hs]
    cases hm : isMem (fun _ => true) h'.dest <;> cases hsp : spilled hops <;>
      simp_all [spilled, arrives]

/-- A place that cannot be addressed is rejected by the assembler or not printed at all. -/
lemma printHops_rejected {hops : List Hop} {place : Operand} (h : Carries place hops)
    (hbad : ∃ h ∈ hops, ¬ Addressable h.dest) (g : ℕ → ExpressionS) {stmts : List Stmt}
    (hprint : printHops place hops = some stmts) : ∃ st ∈ stmts, st.assemble g = none := by
  induction hops generalizing place stmts with
  | nil => simp at hbad
  | cons h' hops ih =>
    obtain ⟨-, halt, hcarries⟩ := h
    cases hst : printMovcc h'.dest place with
    | none => simp [printHops, hst] at hprint
    | some st =>
      cases hrest : printHops h'.dest hops with
      | none => simp [printHops, hrest] at hprint
      | some rest =>
        obtain rfl : h'.before ++ st :: rest = stmts := by simpa [printHops, hst, hrest] using hprint
        obtain ⟨k, hk, hbad⟩ := hbad
        rcases List.mem_cons.mp hk with rfl | hk
        · refine ⟨st, by simp, ?_⟩
          simp only [Addressable, not_forall] at hbad
          obtain ⟨ad, hdest, hbad⟩ := hbad
          rcases movccAlternative_cases halt with ⟨a, b, hd, -⟩ | ⟨a, b, hd, -⟩ | ⟨a, b, hd, -⟩ |
            ⟨a, ad, hd, -⟩ | ⟨ad', b, hd, rfl, hlegit, hb⟩
          iterate 4 simp [hdest] at hd
          obtain rfl : ad = ad' := by simpa [hdest] using hd
          have hfind : movccAlternative (.mem ad) (.reg .rd b) =
              some (.m, .Rd, ("stt", [.operand 1, .operand 0])) := by
            simp [movccAlternative, movccExpanded, Constraint.allows, isRdClass, isRbClass, isMem, hb, hlegit]
          rw [hdest, printMovcc, hfind] at hst
          cases ad with
          | index c d =>
            obtain rfl : ⟨"stt", [rd b, rb c, rd d]⟩ = st := by
              simpa [DefineInsn.printLine, DefineInsn.printPiece, Operand.print, Address.print] using hst
            exact index_rejected g (.inr rfl) b c d
          | indirect c a' =>
            simp [DefineInsn.printLine, DefineInsn.printPiece, Operand.print, Address.print] at hst
          | _ => simp [Address.isIndex, Address.isIndirect] at hbad
        · obtain ⟨st', hmem, hnone⟩ := ih hcarries ⟨k, hk, hbad⟩ hrest
          exact ⟨st', by simp [hmem], hnone⟩

/-! ## The branch -/

/-- The displacement of a branch. -/
lemma signExtend_imms18 {v : ℤ} (h : InRange .imms18 v) :
    (BitVec.ofNat 18 (fieldOf .imms18 v / 4096 * 2 ^ 12 + fieldOf .imms18 v / 64 % 64 * 2 ^ 6 +
      fieldOf .imms18 v % 64)).signExtend 64 = BitVec.ofInt 64 v := by
  simp only [InRange, operandSigned, operandWidth, if_true] at h
  have hfield : ((fieldOf .imms18 v / 4096 * 2 ^ 12 + fieldOf .imms18 v / 64 % 64 * 2 ^ 6 +
      fieldOf .imms18 v % 64 : ℕ) : ℤ) = v % 262144 := by
    simp only [fieldOf, operandWidth]
    omega
  apply BitVec.eq_of_toInt_eq
  rw [BitVec.toInt_signExtend_of_le (by omega), BitVec.toInt_ofNat', hfield, BitVec.toInt_ofInt,
    Int.bmod_def, Int.bmod_def]
  omega

/-- The condition of a branch instruction. -/
def IntCode.brCond : IntCode → Cond
  | .eq => .eq
  | .ne => .ne
  | .lt | .ltu => .lt
  | .le | .leu => .le
  | .gt | .gtu => .gt
  | .ge | .geu => .ge

/-- The row of a branch instruction. -/
def IntCode.row (code : IntCode) : DadaoOpcode :=
  match code with
  | .eq => ⟨"brz", 2, 42, 0, .rd, .imms18, .none, .none, .condbranch⟩
  | .ne => ⟨"brnz", 2, 43, 0, .rd, .imms18, .none, .none, .condbranch⟩
  | .lt | .ltu => ⟨"brn", 2, 40, 0, .rd, .imms18, .none, .none, .condbranch⟩
  | .le | .leu => ⟨"brnp", 2, 45, 0, .rd, .imms18, .none, .none, .condbranch⟩
  | .gt | .gtu => ⟨"brp", 2, 44, 0, .rd, .imms18, .none, .none, .condbranch⟩
  | .ge | .geu => ⟨"brnn", 2, 41, 0, .rd, .imms18, .none, .none, .condbranch⟩

lemma IntCode.row_spec (code : IntCode) : code.row ∈ gccRows ∧ PlainName code.row.name ∧
    "br" ++ code.insn = code.row.name ∧ operandKinds code.row = [fileKind .rd, .imms18] ∧ code.row.opFa ≠ .op := by
  cases code <;> decide

/-- The translation of a branch instruction. -/
lemma IntCode.disas (code : IntCode) {w : BitVec 32} (h : (w >>> 24).toNat = code.row.majorOpcode.toNat)
    (pc : BitVec 64) : disasDadao pc w = some (some (insnBrRiii code.brCond pc w)) := by
  cases code <;> (rw [disasDadao, h]; rfl)

/-- **A printed branch** is accepted and taken if the register meets its condition. -/
lemma executes_br (code : IntCode) {n : ℕ} (hn : n < 64) {v : ℤ} (hv : InRange .imms18 v)
    (g : ℕ → ExpressionS) :
    ∃ w, assemble g [⟨"br" ++ code.insn, [rd n, .num v]⟩] = some [w] ∧
      ∀ m, ∃ m', Executes w m (.done m') ∧ m'.env.globals .pc = m.env.globals .pc +
        if code.brCond.holds ((view m).reg .rd n) 0 then BitVec.ofInt 64 v * 4 else 4 := by
  obtain ⟨hrow, hname, hmnemonic, hkinds, hop⟩ := code.row_spec
  have hlt := fieldOf_lt .imms18 v
  have hwidth : operandWidth .imms18 = 18 := rfl
  rw [hwidth] at hlt
  have hmajor : code.row.majorOpcode.toNat < 2 ^ 8 ∧ PlainOpcode code.row.majorOpcode.toNat := by
    cases code <;> simp [IntCode.row, PlainOpcode]
  have hf := fields_quad _ hmajor.1 hn (b := fieldOf .imms18 v / 4096) (c := fieldOf .imms18 v / 64 % 64)
    (d := fieldOf .imms18 v % 64) (by omega) (by omega) (by omega)
  refine ⟨_, by rw [hmnemonic]; exact assemble_riii hrow hname hkinds hop hn hv g, fun m => ?_⟩
  obtain ⟨m', hexec, -, hpc⟩ := branches_riii hf (hf.plain hmajor.2) (code.disas hf.opcode) m
  rw [signExtend_imms18 hv] at hpc
  exact ⟨m', hexec, hpc⟩

/-- Where a branch goes is decided by its register. -/
lemma branchesTo_iff (code : IntCode) {stmts : List Stmt} {f : State → State} (hdoes : Does always stmts f)
    {n : ℕ} (hn : n < 64) (m : Machine Elem) (taken : Prop) :
    BranchesTo stmts ("br" ++ code.insn) n m taken ↔
      (code.brCond.holds ((f (view m)).reg .rd n) 0 = true ↔ taken) := by
  constructor
  · intro h
    have hzero : InRange .imms18 0 := by decide
    obtain ⟨ws, w, hws, hw, m₁, m₂, hrun, hexec, htaken, hnot⟩ := h (fun _ => .const 0) 0 hzero
    obtain ⟨ws', hws', hrun'⟩ := hdoes fun _ => .const 0
    obtain ⟨w', hw', hbr⟩ := executes_br code hn hzero fun _ => .const 0
    obtain rfl : ws = ws' := Option.some.inj (hws.symm.trans hws')
    obtain rfl : w = w' := by simpa using hw.symm.trans hw'
    obtain ⟨m₁', hstraight, hview⟩ := hrun' m trivial
    obtain rfl := hrun.unique hstraight
    obtain ⟨m₂', hexec', hpc⟩ := hbr m₁
    have hout := hexec.unique hexec'
    simp only [Outcome.done.injEq] at hout
    subst hout
    rw [hview] at hpc
    have hne : ∀ pc : BitVec 64, pc + BitVec.ofInt 64 0 * 4 ≠ pc + 4 := by
      intro pc heq
      simp at heq
    cases hcond : code.brCond.holds ((f (view m)).reg .rd n) 0 with
    | true =>
      rw [hcond, if_pos rfl] at hpc
      refine iff_of_true rfl (by_contra fun hcon => hne (m₁.env.globals .pc) ?_)
      exact hpc.symm.trans (hnot hcon)
    | false =>
      rw [hcond, if_neg (by simp)] at hpc
      refine iff_of_false (by simp) fun hcon => hne (m₁.env.globals .pc) ?_
      exact (htaken hcon).symm.trans hpc
  · intro h g v hv
    obtain ⟨ws, hws, hrun⟩ := hdoes g
    obtain ⟨w, hw, hbr⟩ := executes_br code hn hv g
    obtain ⟨m₁, hstraight, hview⟩ := hrun m trivial
    obtain ⟨m₂, hexec, hpc⟩ := hbr m₁
    rw [hview] at hpc
    refine ⟨ws, w, hws, hw, m₁, m₂, hstraight, hexec, fun htaken => ?_, fun hnot => ?_⟩
    · rw [hpc, if_pos (h.mpr htaken)]
    · rw [hpc, if_neg (h.not.mpr hnot)]

/-- Statements of which one is rejected lead to no branch. -/
lemma not_branchesTo {stmts : List Stmt} {st : Stmt} (hmem : st ∈ stmts)
    (hst : st.assemble (fun _ => .const 0) = none) (mnemonic : String) (n : ℕ) (m : Machine Elem)
    (taken : Prop) : ¬ BranchesTo stmts mnemonic n m taken := by
  intro h
  obtain ⟨ws, w, hws, -⟩ := h (fun _ => .const 0) 0 (by decide)
  simp [assemble_eq_none_of_mem hmem hst] at hws

/-! ## Integers -/

/-- The result of a comparison. -/
def order (unsigned : Bool) (x y : BitVec 64) : BitVec 64 :=
  if less unsigned x y then -1 else if less unsigned y x then 1 else 0

lemma less_self (unsigned : Bool) (x : BitVec 64) : less unsigned x x = false := by
  cases unsigned <;> simp [less, BitVec.slt, BitVec.ult]

lemma less_asymm {unsigned : Bool} {x y : BitVec 64} (h : less unsigned x y = true) :
    less unsigned y x = false := by
  cases unsigned
  · simp only [less, BitVec.slt, Bool.false_eq_true, if_false, decide_eq_true_eq, decide_eq_false_iff_not] at h ⊢
    omega
  · simp only [less, BitVec.ult, if_true, decide_eq_true_eq, decide_eq_false_iff_not] at h ⊢
    omega

lemma eq_of_not_less {unsigned : Bool} {x y : BitVec 64} (h : less unsigned x y = false)
    (h' : less unsigned y x = false) : x = y := by
  cases unsigned
  · simp only [less, BitVec.slt, Bool.false_eq_true, if_false, decide_eq_false_iff_not] at h h'
    exact BitVec.eq_of_toInt_eq (by omega)
  · simp only [less, BitVec.ult, if_true, decide_eq_false_iff_not] at h h'
    exact BitVec.eq_of_toNat_eq (by omega)

/-- What branches make of the result of a comparison. -/
lemma brCond_order (code : IntCode) (x y : BitVec 64) :
    code.brCond.holds (order code.isUnsigned x y) 0 = code.holds x y := by
  have hone : (-1 : BitVec 64).slt 0 = true ∧ (0 : BitVec 64).slt (-1) = false ∧
    (1 : BitVec 64).slt 0 = false ∧ (0 : BitVec 64).slt 1 = true ∧ (0 : BitVec 64).slt 0 = false := by decide
  obtain ⟨hn, hn', hp, hp', hz⟩ := hone
  cases hxy : less code.isUnsigned x y with
  | true =>
    have hyx := less_asymm hxy
    have hne : x ≠ y := by
      rintro rfl
      simp [less_self] at hxy
    cases code <;> simp_all [order, IntCode.brCond, Cond.holds, IntCode.holds]
  | false =>
    cases hyx : less code.isUnsigned y x with
    | true =>
      have hne : x ≠ y := by
        rintro rfl
        simp [less_self] at hyx
      cases code <;> simp_all [order, IntCode.brCond, Cond.holds, IntCode.holds]
    | false =>
      obtain rfl := eq_of_not_less hxy hyx
      cases code <;> simp_all [order, IntCode.brCond, Cond.holds, IntCode.holds]

/-- A result that has been in memory is right unless it is `-1` and the sign matters. -/
lemma brCond_kept_iff (code : IntCode) (x y : BitVec 64) :
    (code.brCond.holds (kept (order code.isUnsigned x y)) 0 = code.holds x y) ↔
      (less code.isUnsigned x y = true → code = .eq ∨ code = .ne) := by
  rw [← brCond_order]
  have hkept : kept (-1) = 0xFFFFFFFF ∧ kept 1 = 1 ∧ kept 0 = 0 := by decide
  obtain ⟨hn, hp, hz⟩ := hkept
  unfold order
  cases hxy : less code.isUnsigned x y with
  | true =>
    simp only [if_true, hn, true_implies]
    cases code <;> decide
  | false =>
    simp only [Bool.false_eq_true, if_false, false_implies, iff_true]
    cases less code.isUnsigned y x with
    | true => rw [if_pos rfl, hp]
    | false => rw [if_neg (by simp), hz]

section Compare

variable {code : IntCode} {ops : ℕ → Operand}

/-- A constant of a comparison without sign. -/
lemma inRange_immu12 {v : ℤ} : InRange .immu12 v ↔ 0 ≤ v ∧ v ≤ 4095 := by
  simp only [InRange, operandSigned, operandWidth, Bool.false_eq_true, if_false]
  omega

/-- **A printed comparison** leaves the order of its operands; a long constant is loaded before the first
operand is read. -/
lemma does_compare {a b : ℕ} (h0 : ops 0 = .reg .rd a) (h1 : ops 1 = .reg .rd b) (ha : isRd a = true)
    (hb : isRd b = true) {k : CmpInsn} (hk : cmpInsn code (ops 2) = some k) :
    ∃ stmts f, k.output.mapM (DefineInsn.printLine ops) = some stmts ∧ Does always stmts f ∧
      ∀ s : State, (f s).reg .rd a = order code.isUnsigned
        (if k = .cmpss2 ∧ a = b then (ops 2).value s else s.reg .rd b) ((ops 2).value s) := by
  obtain ⟨ha', ha0, -⟩ := isRd_iff.mp ha
  obtain ⟨hb', -⟩ := isRd_iff.mp hb
  unfold cmpInsn at hk
  split_ifs at hk with hu h12 hs12 hconst
  · obtain rfl : CmpInsn.cmpuu = k := Option.some.inj hk
    rcases Bool.or_eq_true_iff.mp h12 with hrd | hconst
    · obtain ⟨c, h2, hc, -⟩ := isRdClass_iff.mp hrd
      refine ⟨_, _, ?_, does_cmpu ha0 ha' hb' hc, fun s => ?_⟩
      · simp [CmpInsn.output, DefineInsn.printLine, DefineInsn.printPiece, h0, h1, h2, Operand.print]
      · simp [hu, order, less, h2, Operand.value]
    · obtain ⟨v, h2, -, hv⟩ := isConst_iff.mp hconst
      have hv' : InRange .immu12 v := by
        rw [inRange_immu12]
        simpa [satisfiesJd] using hv
      refine ⟨_, _, ?_, does_cmpu_num ha0 ha' hb' hv', fun s => ?_⟩
      · simp [CmpInsn.output, DefineInsn.printLine, DefineInsn.printPiece, h0, h1, h2, Operand.print]
      · simp [hu, order, less, h2, Operand.value]
  · obtain rfl : CmpInsn.cmpss = k := Option.some.inj hk
    rcases Bool.or_eq_true_iff.mp hs12 with hrd | hconst
    · obtain ⟨c, h2, hc, -⟩ := isRdClass_iff.mp hrd
      refine ⟨_, _, ?_, does_cmps ha0 ha' hb' hc, fun s => ?_⟩
      · simp [CmpInsn.output, DefineInsn.printLine, DefineInsn.printPiece, h0, h1, h2, Operand.print]
      · simp [hu, order, less, h2, Operand.value]
    · obtain ⟨v, h2, -, hv⟩ := isConst_iff.mp hconst
      have hv' : InRange .imms12 v := by
        rw [inRange_imms12]
        simpa [satisfiesId] using hv
      refine ⟨_, _, ?_, does_cmps_num ha0 ha' hb' hv', fun s => ?_⟩
      · simp [CmpInsn.output, DefineInsn.printLine, DefineInsn.printPiece, h0, h1, h2, Operand.print]
      · simp [hu, order, less, h2, Operand.value]
  · obtain rfl : CmpInsn.cmpss2 = k := Option.some.inj hk
    obtain ⟨v, h2, -⟩ := isConst_iff.mp hconst
    refine ⟨_, _, ?_, (does_setrd ha0 ha' v).cons (does_cmps ha0 ha' hb' ha') fun _ _ => trivial, fun s => ?_⟩
    · simp [CmpInsn.output, DefineInsn.printLine, DefineInsn.printPiece, h0, h1, h2, Operand.print]
    · by_cases hab : a = b
      · simp [hu, order, less, h2, Operand.value, hab]
      · simp [hu, order, less, h2, Operand.value, hab, Ne.symm hab]

end Compare

/-- The first operand is overwritten by the constant. -/
lemma IntBranch.clobbers_iff {b : IntBranch} {a c : ℕ} (h0 : b.ops 0 = .reg .rd a)
    (h1 : b.ops 1 = .reg .rd c) {k : CmpInsn} (hk : cmpInsn b.code (b.ops 2) = some k) :
    b.clobbers = true ↔ k = .cmpss2 ∧ a = c := by
  simp [clobbers, hk, h0, h1]

/-- **Integer comparisons.** The branch is taken if and only if the comparison holds, if and only if the
operands and the way of the condition are as `Meets` says. -/
lemma IntBranch.right_iff {b : IntBranch} (h : b.Legal) (m : Machine Elem) : b.Right m ↔ b.Meets (view m) := by
  obtain ⟨a, h0, ha⟩ := isRdClass_iff.mp h.dest
  obtain ⟨c, h1, hc⟩ := isRdClass_iff.mp h.op1
  obtain ⟨k, hk⟩ := Option.isSome_iff_exists.mp h.op2
  obtain ⟨hlast, hrd⟩ := h.last
  obtain ⟨hn, -⟩ := isRd_iff.mp hrd
  obtain ⟨f₂, hdoes₂, hleaves⟩ := h.before
  obtain ⟨cmp, f₀, hcmp, hdoes₀, horder⟩ := does_compare h0 h1 (isRd_iff.mpr ha) (isRd_iff.mpr hc) hk
  by_cases haddr : ∀ h ∈ b.hops, Addressable h.dest
  · have hplace : Addressable (b.ops 0) := by simp [Addressable, h0]
    obtain ⟨moves, f₁, hmoves, hdoes₁, hway⟩ := does_hops h.carries hplace haddr
    have hprint : b.print = some (cmp ++ moves ++ b.before) := by
      simp [print, hk, hcmp, hmoves]
    have hdoes := (hdoes₀.append hdoes₁ fun _ _ => trivial).append hdoes₂ fun _ _ => trivial
    have hright : b.Right m ↔ BranchesTo (cmp ++ moves ++ b.before) ("br" ++ b.code.insn) b.last m
        (b.code.holds ((b.ops 1).value (view m)) ((b.ops 2).value (view m)) = true) := by
      rw [Right, hprint]
      exact ⟨fun ⟨stmts, hstmts, hto⟩ => Option.some.inj hstmts ▸ hto, fun hto => ⟨_, rfl, hto⟩⟩
    have hs₀ := hdoes₀.isView (isView_view m)
    have hreg := hleaves _ (hdoes₁.isView hs₀)
    have hway' := hway _ hs₀
    rw [hlast, h0] at hway'
    simp only [Operand.cc, horder] at hreg hway'
    rw [hright, branchesTo_iff b.code hdoes hn, ← Bool.eq_iff_iff]
    have hx : (b.ops 1).value (view m) = (view m).reg .rd c := by rw [h1, Operand.value]
    simp only [Function.comp_apply, hreg, hway', Meets, clobbers_iff h0 h1 hk, hx]
    generalize (b.ops 2).value (view m) = y
    by_cases hclob : k = .cmpss2 ∧ a = c
    · have hzero : order b.code.isUnsigned y y = 0 := by simp [order, less_self]
      have hkept : kept 0 = 0 := by decide
      have hsame := brCond_order b.code y y
      rw [hzero] at hsame
      simp only [if_pos hclob, hzero, hkept, ite_self, hsame]
      exact ⟨fun heq => ⟨haddr, heq.symm⟩, fun hmeets => hmeets.2.symm⟩
    · simp only [if_neg hclob]
      cases hsp : spilled b.hops with
      | false =>
        simp only [Bool.false_eq_true, if_false, brCond_order, false_implies, and_true, true_iff]
        exact haddr
      | true =>
        rw [if_pos rfl, brCond_kept_iff]
        exact ⟨fun hless => ⟨haddr, fun _ => hless⟩, fun hmeets => hmeets.2 rfl⟩
  · refine iff_of_false ?_ fun hmeets => haddr hmeets.1
    rintro ⟨stmts, hprint, hto⟩
    simp only [not_forall] at haddr
    obtain ⟨hop, hmem, hbad⟩ := haddr
    cases hmoves : printHops (b.ops 0) b.hops with
    | none => simp [print, hk, hmoves] at hprint
    | some moves =>
      obtain rfl : cmp ++ moves ++ b.before = stmts := by simpa [print, hk, hcmp, hmoves] using hprint
      obtain ⟨st, hst, hnone⟩ := printHops_rejected h.carries ⟨hop, hmem, hbad⟩ (fun _ => .const 0) hmoves
      exact not_branchesTo (by simp [hst]) hnone _ _ _ _ hto

/-! ## Floating-point numbers -/

/-- The row of a comparison. -/
def FloatBranch.row (double : Bool) : DadaoOpcode :=
  if double then ⟨"foqcmp", 3, 80, 40, .op, .rd, .rf, .rf, .normal⟩
  else ⟨"ftqcmp", 3, 80, 32, .op, .rd, .rf, .rf, .normal⟩

/-- The comparison is accepted. -/
lemma FloatBranch.assemble_printFcmp {b : FloatBranch} (h : b.Legal) (g : ℕ → ExpressionS) :
    (assemble g [b.printFcmp]).isSome = true := by
  obtain ⟨hdest, -⟩ := isRd_iff.mp h.dest
  have hops := h.ops
  have hrow : row b.double ∈ gccRows ∧ PlainName (row b.double).name ∧
      (row b.double).name = (if b.double then "fo" else "ft") ++ "qcmp" ∧
      operandKinds (row b.double) = [fileKind .rd, fileKind .rf, fileKind .rf] := by
    cases b.double <;> decide
  obtain ⟨hmem, hname, hmnemonic, hkinds⟩ := hrow
  have hst := assemble_of_row [b.dest, b.op1, b.op2] hmem hname.1
    (show [rd b.dest, .reg .rf b.op1, .reg .rf b.op2].map Opnd.exp = _ from ?_) ?_ (hname.exceeds _) g
  · rw [printFcmp, ← hmnemonic, hst]
    rfl
  · simp only [operands, hkinds, List.map_cons, List.map_nil, List.zipWith_cons_cons, List.zipWith_nil_left,
      exp_reg]
  · simp only [hkinds, List.forall₂_cons, List.forall₂_nil_left_iff, inRange_fileKind, hdest, hops, true_and]

/-- `brp` of the result of a comparison, which may have been in memory. -/
lemma brp_fcmpReal_iff (code : FloatCode) (double spill : Bool)
    (cmpfunc : BitVec 64 → BitVec 64 → FloatRelation) (x y : BitVec 64) :
    (Cond.gt.holds (if spill then kept (fcmpReal cmpfunc (qnan double) x y)
      else fcmpReal cmpfunc (qnan double) x y) 0 = code.holds (cmpfunc x y)) ↔
      code ∈ brpCodes spill double (cmpfunc x y) := by
  unfold fcmpReal
  generalize cmpfunc x y = r
  cases spill <;> cases double <;> cases r <;> cases code <;> decide

/-- **Comparisons of floating-point numbers.** -/
lemma FloatBranch.right_iff {b : FloatBranch} (h : b.Legal)
    (cmpfunc : BitVec 64 → BitVec 64 → FloatRelation) (x y : BitVec 64) {m : Machine Elem}
    (hm : (view m).reg .rd b.dest = fcmpReal cmpfunc (qnan b.double) x y) :
    b.Right m (cmpfunc x y) ↔ b.Meets (cmpfunc x y) := by
  obtain ⟨hlast, hrd⟩ := h.last
  obtain ⟨hn, -⟩ := isRd_iff.mp hrd
  obtain ⟨f₂, hdoes₂, hleaves⟩ := h.before
  by_cases haddr : ∀ h ∈ b.hops, Addressable h.dest
  · obtain ⟨moves, f₁, hmoves, hdoes₁, hway⟩ := does_hops h.carries (by simp [Addressable]) haddr
    have hdoes := hdoes₁.append hdoes₂ fun _ _ => trivial
    have hright : b.Right m (cmpfunc x y) ↔ BranchesTo (moves ++ b.before) ("br" ++ IntCode.gt.insn) b.last m
        (b.code.holds (cmpfunc x y) = true) := by
      constructor
      · rintro ⟨-, stmts, hstmts, hto⟩
        obtain rfl : moves ++ b.before = stmts := by simpa [print, hmoves] using hstmts
        exact hto
      · exact fun hto => ⟨assemble_printFcmp h, _, by simp [print, hmoves], hto⟩
    have hreg := hleaves _ (hdoes₁.isView (isView_view m))
    have hway' := hway _ (isView_view m)
    rw [hlast] at hway'
    simp only [Operand.cc, hm] at hreg hway'
    rw [hright, branchesTo_iff .gt hdoes hn, ← Bool.eq_iff_iff, Function.comp_apply, hreg, hway']
    rw [IntCode.brCond, brp_fcmpReal_iff, Meets]
    exact ⟨fun hcode => ⟨haddr, hcode⟩, fun hmeets => hmeets.2⟩
  · refine iff_of_false ?_ fun hmeets => haddr hmeets.1
    rintro ⟨-, stmts, hprint, hto⟩
    simp only [not_forall] at haddr
    obtain ⟨hop, hmem, hbad⟩ := haddr
    cases hmoves : printHops (.reg .rd b.dest) b.hops with
    | none => simp [print, hmoves] at hprint
    | some moves =>
      obtain rfl : moves ++ b.before = stmts := by simpa [print, hmoves] using hprint
      obtain ⟨st, hst, hnone⟩ := printHops_rejected h.carries ⟨hop, hmem, hbad⟩ (fun _ => .const 0) hmoves
      exact not_branchesTo (by simp [hst]) hnone _ _ _ _ hto

/-- **Compare and branch.** The branch behind a comparison is taken exactly when the comparison holds if and
only if the operands, their relation and the way of the condition are as `Meets` says. -/
theorem cbranch_right_iff (b : IntBranch) (fb : FloatBranch)
    (cmpfunc : BitVec 64 → BitVec 64 → FloatRelation) (s : State) (m : Machine Elem) :
    (b.Legal → (b.Right m ↔ b.Meets (view m))) ∧
      (fb.Legal → (view m).reg .rd fb.dest =
        fcmpReal cmpfunc (qnan fb.double) (s.reg .rf fb.op1) (s.reg .rf fb.op2) →
      (fb.Right m (cmpfunc (s.reg .rf fb.op1) (s.reg .rf fb.op2)) ↔
        fb.Meets (cmpfunc (s.reg .rf fb.op1) (s.reg .rf fb.op2)))) :=
  ⟨fun h => IntBranch.right_iff h m, fun h hm => FloatBranch.right_iff h cmpfunc _ _ hm⟩

/-- The comparison of positive finite numbers, which are ordered as their patterns of bits are. -/
def positiveCompare (x y : BitVec 64) : FloatRelation :=
  if x.ult y then .less else if y.ult x then .greater else .equal

/-- A machine with a value in `rd17`. -/
def machineRd17 (v : BitVec 64) : Machine Elem :=
  ⟨⟨fun e => if e = .reg .rd 17 then v else 0, fun _ => 0⟩, fun _ => 0⟩

/-- The state with `1.0` in `rf16` and `2.0` in `rf17`. -/
def oneAndTwo : State where
  reg f i := if f = .rf then if i = 16 then 0x3ff0000000000000 else 0x4000000000000000 else 0
  mem := fun _ => 0

/-- `rd16 < 5`, with the condition in `rd17`. -/
def branchLt5 : IntBranch := ⟨.lt, opsOf [.reg .rd 17, .reg .rd 16, .constInt 5], [], 17, []⟩

/-- A comparison of `rf17` and `rf16`, and one of `rf16` and `rf17`, with the condition in `rd17`. -/
def branchFloat (code : FloatCode) (op1 op2 : ℕ) : FloatBranch := ⟨code, true, 17, op1, op2, [], 17, []⟩

lemma legal_branchLt5 : branchLt5.Legal :=
  ⟨by decide, by decide, by decide, trivial, ⟨rfl, by decide⟩, ⟨id, does_nil, fun _ _ => rfl⟩⟩

lemma legal_branchFloat (code : FloatCode) {op1 op2 : ℕ} (h : op1 < 64 ∧ op2 < 64) :
    (branchFloat code op1 op2).Legal :=
  ⟨by simp [branchFloat, isRd], h, trivial, ⟨rfl, by simp [branchFloat, isRd]⟩,
    ⟨id, does_nil, fun _ _ => rfl⟩⟩

lemma view_machineRd17 (v : BitVec 64) : (view (machineRd17 v)).reg .rd 17 = v := by
  simp [view, viewReg, machineRd17]

/-- `rd16 < 5`, and `2.0 > 1.0`. -/
theorem cbranch_right_iff_lt5 : branchLt5.Right (machineRd17 1) ∧
    (branchFloat .gt 17 16).Right (machineRd17 1) .greater := by
  obtain ⟨hint, hfloat⟩ :=
    cbranch_right_iff branchLt5 (branchFloat .gt 17 16) positiveCompare oneAndTwo (machineRd17 1)
  constructor
  · exact (hint legal_branchLt5).mpr ⟨by simp [branchLt5], by decide⟩
  · exact (hfloat (legal_branchFloat .gt (by decide)) (view_machineRd17 1)).mpr ⟨by simp [branchFloat], by decide⟩

/-- **`brp` is printed for `1.0 < 2.0`**, and the branch is not taken. -/
theorem branchFloat_lt_not_right : (branchFloat .lt 16 17).Legal ∧
    (view (machineRd17 (-1))).reg .rd 17 = fcmpReal positiveCompare (qnan true)
      (oneAndTwo.reg .rf 16) (oneAndTwo.reg .rf 17) ∧
    ¬ (branchFloat .lt 16 17).Right (machineRd17 (-1)) .less := by
  have hlegal := legal_branchFloat .lt (show 16 < 64 ∧ 17 < 64 by decide)
  have hvalue : (view (machineRd17 (-1))).reg .rd 17 = fcmpReal positiveCompare (qnan true)
      (oneAndTwo.reg .rf 16) (oneAndTwo.reg .rf 17) := view_machineRd17 (-1)
  refine ⟨hlegal, hvalue, fun hright => ?_⟩
  have hmeets := (FloatBranch.right_iff hlegal positiveCompare (oneAndTwo.reg .rf 16) (oneAndTwo.reg .rf 17)
    hvalue).mp hright
  exact absurd hmeets.2 (by decide)

end Dadao.Gcc
