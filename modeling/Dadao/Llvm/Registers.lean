import Dadao.Lib.Naming
import Dadao.Llvm.CodeEmitter

set_option relaxedAutoImplicit false
set_option autoImplicit false

/-!
# Registers and their names

The registers of `DadaoRegisterInfo.td` with the hardware registers they stand for, the register classes
and the reserved registers. Some hardware registers have two names, and no overlap is declared for them:
`DwarfRegAlias` is about debugging only. The names `RDZERO`, `RBSP`, `RBFP`, `RAVV` and `RASP` are
reserved, like the numbered registers they stand for; `RDRV`, `RBIP`, `RBGP`, `RBTP` and `RBCA` are not.

## Main definitions

* `Dadao.Llvm.hardware` — the hardware register of a name.
* `Dadao.Llvm.Allocatable` — the registers an allocator may choose.
* `Dadao.Llvm.aliases` — the second names.

## Main results

* `Dadao.Llvm.registers_faithful_iff` — when programs over the names mean the same on the hardware.
* `Dadao.Llvm.allocatable_alias` — the second name that an allocator may choose with the first.
-/

namespace Dadao.Llvm

open Naming

/-! ## Names, classes and reserved registers -/

/-- The register files. -/
inductive HwFile where
  | rd | rb | ra
  deriving DecidableEq, Repr

/-- The file of a register: `DadaoRegData`, `DadaoRegBase` or `DadaoRegRAddr`. -/
def fileOf : Register → HwFile
  | .rd _ | .rdzero | .rdrv | .rdcc => .rd
  | .rb _ | .rbip | .rbsp | .rbfp | .rbgp | .rbtp | .rbca => .rb
  | .ra _ | .ravv | .rasp => .ra

/-- **The hardware register** of a name. -/
def hardware (r : Register) : HwFile × ℕ := (fileOf r, getDadaoRegisterNumbering r)

/-- `sequence`. -/
def regSequence (reg : BitVec 6 → Register) (first last : ℕ) : List Register :=
  (List.range' first (last + 1 - first)).map fun i => reg (BitVec.ofNat 6 i)

/-- `GPRD`. -/
def gprd : List Register :=
  regSequence .rd 16 31 ++ regSequence .rd 32 63 ++ regSequence .rd 8 14 ++ [.rd 31, .rdrv, .rd 7, .rd 6,
    .rd 5, .rd 4, .rd 3, .rd 2, .rd 1, .rd 0, .rdzero]

/-- `GPRB`. -/
def gprb : List Register :=
  regSequence .rb 16 31 ++ regSequence .rb 32 63 ++ regSequence .rb 8 15 ++ [.rb 7, .rbca, .rb 6, .rb 5,
    .rb 4, .rbtp, .rb 3, .rbgp, .rb 2, .rbfp, .rb 1, .rbsp, .rb 0, .rbip]

/-- `GPRA`, which is not allocatable. -/
def gpra : List Register := [.ra 0, .ravv] ++ regSequence .ra 1 62 ++ [.ra 63, .rasp]

/-- `getReservedRegs`; a range leaves out its end. -/
def getReservedRegs : List Register :=
  regSequence .rd 0 7 ++ regSequence .rb 0 7 ++ [.rdzero, .rbsp, .rbfp, .ravv, .rasp]

/-- A register that an allocator may choose: of an allocatable class and not reserved. -/
def Allocatable (r : Register) : Prop := r ∈ gprd ++ gprb ∧ r ∉ getReservedRegs

instance (r : Register) : Decidable (Allocatable r) := inferInstanceAs (Decidable (_ ∧ _))

/-- A program whose registers an allocator may have chosen. -/
def Allocated {P : Type} (prog : Program Register P) : Prop :=
  ∀ p, ∀ r ∈ (prog.insn p).uses ++ (prog.insn p).defs, Allocatable r

/-- The second names, each with the numbered register. -/
def aliases : List (Register × Register) :=
  [(.rd 0, .rdzero), (.rd 31, .rdrv), (.rd 7, .rdcc), (.rb 0, .rbip), (.rb 1, .rbsp), (.rb 2, .rbfp),
    (.rb 3, .rbgp), (.rb 4, .rbtp), (.rb 7, .rbca), (.ra 0, .ravv), (.ra 63, .rasp)]

/-! ## Two names of one register -/

/-- **Names of one hardware register** are the listed ones. -/
lemma hardware_eq_iff {r r' : Register} :
    hardware r = hardware r' ↔ r = r' ∨ (r, r') ∈ aliases ∨ (r', r) ∈ aliases := by
  cases r <;> cases r' <;>
    simp [hardware, fileOf, getDadaoRegisterNumbering, aliases, ← BitVec.toNat_inj, eq_comm]

/-- **The second name that can be chosen** with the first is `RDRV`, for `RD31`. -/
theorem allocatable_alias {r r' : Register} (h : Allocatable r) (h' : Allocatable r') (hne : r ≠ r')
    (heq : hardware r = hardware r') : (r, r') = (.rd 31, .rdrv) ∨ (r', r) = (.rd 31, .rdrv) := by
  have hchosen : ∀ x ∈ aliases, Allocatable x.1 → Allocatable x.2 → x = (.rd 31, .rdrv) := by decide
  rcases hardware_eq_iff.mp heq with rfl | hmem | hmem
  · exact absurd rfl hne
  · exact .inl (hchosen _ hmem h h')
  · exact .inr (hchosen _ hmem h' h)

/-! ## Programs -/

/-- **The names are faithful** to the hardware exactly if no reachable instruction assigns a hardware
register under one name while another name of it is live. -/
theorem registers_faithful_iff {P : Type} [DecidableEq P] (prog : Program Register P) :
    Faithful (BitVec 64) hardware prog ↔
      ∀ p, Reachable prog p → ∀ q ∈ (prog.insn p).succs, ∀ r, Live prog r q →
        ∀ d, lastDef hardware (prog.insn p).defs (hardware r) = some d →
          (r, d) ∉ aliases ∧ (d, r) ∉ aliases := by
  have hself : ∀ x ∈ aliases, x.1 ≠ x.2 := by decide
  rw [faithful_iff (show (0 : BitVec 64) ≠ 1 by decide)]
  refine forall₂_congr fun p _ => forall₂_congr fun q _ => forall₂_congr fun r _ => ?_
  refine forall₂_congr fun d hlast => ⟨?_, fun hnot => ?_⟩
  · rintro rfl
    exact ⟨fun hmem => hself _ hmem rfl, fun hmem => hself _ hmem rfl⟩
  · rcases hardware_eq_iff.mp (lastDef_spec hlast).2 with heq | hmem | hmem
    · exact heq
    · exact absurd hmem hnot.2
    · exact absurd hmem hnot.1

/-- Two values at once, in `RD31` and in `RDRV`, of which the first is used. -/
def twoValues : Program Register ℕ where
  insn
    | 0 => ⟨[], [.rd 31], [1]⟩
    | 1 => ⟨[], [.rdrv], [2]⟩
    | 2 => ⟨[.rd 31], [], []⟩
    | _ => ⟨[], [], []⟩
  entry := 0

/-- **Two values in one register**: an allocator may choose `RD31` and `RDRV` at the same time. -/
theorem not_registers_faithful_all : ¬ ∀ prog : Program Register ℕ, Allocated prog →
    Faithful (BitVec 64) hardware prog := by
  intro hall
  have hallocated : Allocated twoValues := by
    intro p r hr
    have hpair : r = .rd 31 ∨ r = .rdrv := by
      rcases p with _ | _ | _ | p <;> simp [twoValues] at hr <;> simp [hr]
    rcases hpair with rfl | rfl <;> decide
  have hreach : Reachable twoValues 1 := Relation.ReflTransGen.single (by simp [twoValues])
  have hlive : Live twoValues (.rd 31) 2 := .use (by simp [twoValues])
  have hlast : lastDef hardware (twoValues.insn 1).defs (hardware (.rd 31)) = some .rdrv := by decide
  exact not_faithful_of_clash hreach (by simp [twoValues]) hlive hlast (by decide)
    (show (0 : BitVec 64) ≠ 1 by decide) (hall twoValues hallocated)

end Dadao.Llvm
