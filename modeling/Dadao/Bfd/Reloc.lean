import Dadao.Lib.Memory
import Mathlib.Algebra.Group.Nat.Defs
import Mathlib.Algebra.Ring.Int.Defs
import Mathlib.Data.Int.Notation
import Mathlib.Data.Nat.Notation

set_option relaxedAutoImplicit false
set_option autoImplicit false

/-!
# Relocations

A model of the relocation functions of `bfd/elf64-dadao.c`. The contents of a section are bytes by
offset, little endian, and a relocation returns the new contents with its status. The overflow
check of BFD is a parameter that carries its documented meaning.

## Main definitions

* `Dadao.Bfd.RelocType`, `Dadao.Bfd.RelocType.bitsize` — the relocations the backend performs
  itself and their entries in the howto table.
* `Dadao.Bfd.ddFillAbs` — `dd_fill_abs`.
* `Dadao.Bfd.dadaoElfPerformRelocation` — `dadao_elf_perform_relocation`.
* `Dadao.Bfd.dadaoFinalLinkRelocate` — `dadao_final_link_relocate`.
-/

namespace Dadao.Bfd

/-! ## Instruction words -/

/-- `MATCH_ORWRD`. -/
def insnOrwRd : BitVec 32 := 0x14000000

/-- `MATCH_ANDNWRD`. -/
def insnAndnwRd : BitVec 32 := 0x15000000

/-- `MATCH_SETZWRD`. -/
def insnSetzwRd : BitVec 32 := 0x16000000

/-- `MATCH_SETOW`. -/
def insnSetowRd : BitVec 32 := 0x17000000

/-- `MATCH_ORWRB`. -/
def insnOrwRb : BitVec 32 := 0x4c000000

/-- `MATCH_SETZWRB`. -/
def insnSetzwRb : BitVec 32 := 0x4e000000

/-- `MATCH_SETW`. -/
def insnSetw : BitVec 32 := 0x54000000

/-- `MATCH_SWYM`. -/
def insnSwym : BitVec 32 := 0x10000000

/-! ## Section contents -/

/-- `bfd_get_32`: a word of the contents, as a `bfd_vma`. -/
def bfdGet32 (contents : Memory) (off : BitVec 64) : BitVec 64 := contents.load off 4

/-- `bfd_put_32`: the low 32 bits of a value. -/
def bfdPut32 (contents : Memory) (off val : BitVec 64) : Memory := contents.store off 4 val

/-- The word at an offset. -/
def wordAt (contents : Memory) (off : BitVec 64) : BitVec 32 := (bfdGet32 contents off).setWidth 32

/-! ## The howto table -/

/-- The relocations `dadao_final_link_relocate` hands to `dadao_elf_perform_relocation`. -/
inductive RelocType where
  | abs | brcc | brcc12 | call | jump | hi18 | lo12
  deriving DecidableEq, Repr

/-- The `bitsize` of a relocation in `elf_dadao_howto_table`. -/
def RelocType.bitsize : RelocType → ℕ
  | .abs => 16
  | .brcc => 20
  | .brcc12 => 14
  | .call => 26
  | .jump => 26
  | .hi18 => 32
  | .lo12 => 32

/-- The statuses the backend returns, `bfd_reloc_ok` and `bfd_reloc_notsupported`. -/
inductive RelocStatus where
  | ok | notsupported
  deriving DecidableEq, Repr

/-- `bfd_check_overflow` with `complain_overflow_bitfield`, no right shift and 64-bit addresses: a
bitfield of `n` bits stores `-2 ^ n` to `2 ^ n - 1`. -/
structure CheckOverflow where
  ok : ℕ → BitVec 64 → Bool
  ok_iff : ∀ n v, n ≤ 63 → (ok n v = true ↔ -2 ^ n ≤ v.toInt ∧ v.toInt < 2 ^ n)

/-- The check by its documented meaning. -/
def CheckOverflow.documented : CheckOverflow where
  ok n v := decide (-2 ^ n ≤ v.toInt ∧ v.toInt < 2 ^ n)
  ok_iff := fun _ _ _ => decide_eq_true_iff

/-! ## `dd_fill_abs` -/

/-- The wyde of an address at bit `16 * i`. -/
def wydeOf (addr : BitVec 64) (i : ℕ) : BitVec 32 := (addr >>> (16 * i) &&& 0xffff#64).setWidth 32

/-- `DADAO_WYDE_WL`, `DADAO_WYDE_WK`, `DADAO_WYDE_WJ` and `DADAO_WYDE_WH`. -/
def wydePos (i : ℕ) : BitVec 32 := BitVec.ofNat 32 i <<< 16

/-- The arguments of `dd_fill_abs` but for the contents, and the value its local `insn_type` has
before it is assigned. -/
structure FillAbs where
  opcode : BitVec 32
  reg : BitVec 32
  addr : BitVec 64
  datap : BitVec 64
  junk : BitVec 32

/-- The follow-up opcode; `insn_type` is not assigned for any other opcode. -/
def FillAbs.insnType (f : FillAbs) : BitVec 32 :=
  if f.opcode = insnSetzwRb then insnOrwRb
  else if f.opcode = insnSetzwRd then insnOrwRd
  else if f.opcode = insnSetowRd then insnAndnwRd
  else f.junk

/-- The instruction for wyde `i`, with `tmp` bytes filled so far. -/
def FillAbs.word (f : FillAbs) (tmp i : ℕ) : BitVec 32 :=
  (if tmp = 0 then f.opcode else f.insnType) ||| f.reg ||| wydePos i ||| wydeOf f.addr i

/-- Fill in the instruction for wyde `i` unless the wyde is zero. -/
def FillAbs.fillWyde (f : FillAbs) (i : ℕ) (st : Memory × ℕ) : Memory × ℕ :=
  if wydeOf f.addr i ≠ 0 then
    (bfdPut32 st.1 (f.datap + BitVec.ofNat 64 st.2) ((f.word st.2 i).setWidth 64), st.2 + 4)
  else st

/-- `dd_fill_abs`: the contents and the number of bytes filled. -/
def ddFillAbs (f : FillAbs) (contents : Memory) : Memory × ℕ :=
  let st := f.fillWyde 3 (f.fillWyde 2 (f.fillWyde 1 (f.fillWyde 0 (contents, 0))))
  if st.2 = 0 then (bfdPut32 st.1 f.datap ((f.word 0 0).setWidth 64), 4) else st

/-! ## The relocation -/

/-- `DD_X`. -/
def ddX (x : BitVec 64) (s n : ℕ) : BitVec 64 := x >>> s &&& (1#64 <<< n - 1)

/-- `ENCODE_ITYPE_IMM`. -/
def encodeItypeImm (x : BitVec 64) : BitVec 64 := ddX x 0 12 <<< 18

/-- The branches and jumps: check the alignment and the range, then `patch` the word. -/
def patchPcRelative (ov : CheckOverflow) (bitsize : ℕ) (patch : BitVec 64 → BitVec 64)
    (contents : Memory) (datap value : BitVec 64) : RelocStatus × Memory :=
  if value &&& 3 ≠ 0 then (.notsupported, contents)
  else if ov.ok bitsize value then
    (.ok, bfdPut32 contents datap (patch (bfdGet32 contents datap)))
  else (.notsupported, contents)

/-- `dadao_elf_perform_relocation`. -/
def dadaoElfPerformRelocation (ov : CheckOverflow) (junk : BitVec 32) (type : RelocType)
    (contents : Memory) (datap addr value : BitVec 64) : RelocStatus × Memory :=
  let insnOrigin := bfdGet32 contents datap
  match type with
  | .abs =>
    if ov.ok type.bitsize addr then (.ok, bfdPut32 contents datap (insnOrigin ||| addr))
    else
      let f : FillAbs :=
        { opcode := (insnOrigin &&& 0xff000000#64).setWidth 32
          reg := (insnOrigin &&& 0x00fc0000#64).setWidth 32
          addr, datap, junk }
      (.ok, (ddFillAbs f contents).1)
  | .brcc =>
    patchPcRelative ov type.bitsize
      (fun insn => insn &&& 0xff000000#64 ||| value >>> 2 &&& 0x3ffff#64) contents datap value
  | .brcc12 =>
    patchPcRelative ov type.bitsize
      (fun insn => insn &&& 0xff000000#64 ||| value >>> 2 &&& 0xfff#64) contents datap value
  | .call =>
    patchPcRelative ov type.bitsize
      (fun insn => insn ||| value >>> 2 &&& 0xffffff#64) contents datap value
  | .jump =>
    patchPcRelative ov type.bitsize
      (fun insn => insn ||| value >>> 2 &&& 0xffffff#64) contents datap value
  | .hi18 =>
    let value := addr >>> 12 - (addr - value) >>> 12
    (.ok, bfdPut32 contents datap (insnOrigin ||| ddX value 0 18))
  | .lo12 => (.ok, bfdPut32 contents datap (insnOrigin ||| encodeItypeImm addr >>> 18))

/-- Where an input section is placed: the address of its output section and its offset there. -/
structure Placement where
  vma : BitVec 64
  outputOffset : BitVec 64
  deriving DecidableEq, Repr

/-- The address of the instruction a relocation patches, the one before `r_offset`. -/
def Placement.insnAddr (p : Placement) (rOffset : BitVec 64) : BitVec 64 :=
  p.vma + p.outputOffset + rOffset - 4

/-- `dadao_final_link_relocate`, for the relocations the backend performs itself. -/
def dadaoFinalLinkRelocate (ov : CheckOverflow) (junk : BitVec 32) (type : RelocType)
    (p : Placement) (contents : Memory) (rOffset rAddend relocation : BitVec 64) :
    RelocStatus × Memory :=
  let addrAbs := relocation + rAddend
  let addrRel := addrAbs - (p.vma + p.outputOffset + rOffset) + 4
  dadaoElfPerformRelocation ov junk type contents (rOffset - 4) addrAbs addrRel

end Dadao.Bfd
