import Dadao.Lib.Integers
import Dadao.Qemu.Insns
import Dadao.Qemu.Reads

set_option relaxedAutoImplicit false
set_option autoImplicit false

/-!
# Integer instructions

The integer instructions by their mathematical definitions, and that their translations give these results
for any choice of registers, also where a destination is one of the sources.

## Main definitions

* `Dadao.Qemu.IntegerInsn` — the results of an instruction, in terms of what it reads.
* `Dadao.Qemu.integerInsn` — the integer instructions by their words.

## Main results

* `Dadao.Qemu.integerInsn_correct` — the destinations get the results, and no other register changes.
-/

namespace Dadao.Qemu

open Tcg Integers

/-! ## Definitions of the instructions -/

/-- A result: a register and the value it gets from the state before. -/
structure Result where
  file : RegFile
  reg : ℕ
  value : State → BitVec 64

/-- Assign a register that is not register 0. -/
def State.put (s : State) (file : RegFile) (i : ℕ) (v : BitVec 64) : State :=
  if i = 0 then s else s.set file i v

/-- **An integer instruction**: its results, and the states it has them in. -/
structure IntegerInsn where
  results : List Result
  defined : State → Prop := always

namespace IntegerInsn

/-- The results differ in their registers, or all but one of these are register 0. -/
def Distinct (i : IntegerInsn) : Prop :=
  i.results.Pairwise fun r r' => r.reg ≠ r'.reg ∨ r.reg = 0 ∨ r'.reg = 0

/-- The state with the results in their registers. -/
def after (i : IntegerInsn) (s : State) : State :=
  i.results.foldl (fun t r => t.put r.file r.reg (r.value s)) s

end IntegerInsn

/-- How a word is read as an integer. -/
abbrev Reading := BitVec 64 → ℤ

/-- As a signed integer. -/
def signed : Reading := BitVec.toInt

/-- As an unsigned integer. -/
def unsigned : Reading := fun v => v.toNat

variable (w : BitVec 32)

/-- The value of the `rd` register that a field names. -/
def rdv (field : BitVec 32 → ℕ) (s : State) : BitVec 64 := s.reg .rd (field w)

/-- The value of the `rb` register that a field names. -/
def rbv (field : BitVec 32 → ℕ) (s : State) : BitVec 64 := s.reg .rb (field w)

/-- Sums, differences and products: the upper half in `ha`, the lower one in `hb`. -/
def halves (read : Reading) (f : ℤ → ℤ → ℤ) : IntegerInsn where
  results := [
    ⟨.rd, fieldHa w, fun s => high (f (read (rdv w fieldHc s)) (read (rdv w fieldHd s)))⟩,
    ⟨.rd, fieldHb w, fun s => low (f (read (rdv w fieldHc s)) (read (rdv w fieldHd s)))⟩]

/-- Divisions: the remainder in `ha`, the quotient in `hb`. -/
def division (read : Reading) (quot rem : ℤ → ℤ → ℤ) (defined : BitVec 64 → BitVec 64 → Prop) :
    IntegerInsn where
  results := [
    ⟨.rd, fieldHa w, fun s => low (rem (read (rdv w fieldHc s)) (read (rdv w fieldHd s)))⟩,
    ⟨.rd, fieldHb w, fun s => low (quot (read (rdv w fieldHc s)) (read (rdv w fieldHd s)))⟩]
  defined := fun s => defined (rdv w fieldHc s) (rdv w fieldHd s)

/-- An instruction with one result. -/
def single (file : RegFile) (reg : ℕ) (value : State → BitVec 64) : IntegerInsn where
  results := [⟨file, reg, value⟩]

/-- An operation of the `rd` registers `hc` and `hd`. -/
def bitwise (f : BitVec 64 → BitVec 64 → BitVec 64) : IntegerInsn :=
  single .rd (fieldHb w) fun s => f (rdv w fieldHc s) (rdv w fieldHd s)

/-- A sum or difference of an address and a displacement. -/
def address (f : ℤ → ℤ → ℤ) : IntegerInsn :=
  single .rb (fieldHb w) fun s => low (f (signed (rbv w fieldHc s)) (signed (rdv w fieldHd s)))

/-- A sum with an immediate. -/
def addImmediate (file : RegFile) : IntegerInsn :=
  single file (fieldHa w) fun s =>
    low (signed (s.reg file (fieldHb w)) + ((w.setWidth 12).toInt : ℤ))

/-- `-1`, `0` or `1`, by the order of two integers. -/
def threeWay (a b : ℤ) : BitVec 64 := if a < b then -1 else if b < a then 1 else 0

/-- A comparison of two registers. -/
def compare (read : Reading) (file : RegFile) : IntegerInsn :=
  single .rd (fieldHb w) fun s =>
    threeWay (read (s.reg file (fieldHc w))) (read (s.reg file (fieldHd w)))

/-- A comparison with an immediate. -/
def compareImmediate (read : Reading) (imm : ℤ) : IntegerInsn :=
  single .rd (fieldHa w) fun s => threeWay (read (rdv w fieldHb s)) imm

/-- The definition of a shift or an extension by an amount. -/
abbrev Shift := BitVec 64 → ℕ → BitVec 64

/-- To the left. -/
def shiftLeft : Shift := fun x n => low (unsigned x * 2 ^ n)

/-- To the right, unsigned. -/
def shiftRightUnsigned : Shift := fun x n => low (unsigned x / 2 ^ n)

/-- To the right, signed. -/
def shiftRightSigned : Shift := fun x n => low (signed x / 2 ^ n)

/-- The sign extended from the bits that are left. -/
def extendSign : Shift := fun x n => low ((unsigned x).bmod (2 ^ (64 - n)))

/-- Zero extended from the bits that are left. -/
def extendZero : Shift := fun x n => low (unsigned x % 2 ^ (64 - n))

/-- A shift by the amount in a register. -/
def shiftRegister (f : Shift) : IntegerInsn where
  results := [⟨.rd, fieldHb w, fun s => f (rdv w fieldHc s) (rdv w fieldHd s).toNat⟩]
  defined := fun s => (rdv w fieldHd s).toNat < 64

/-- A shift by an immediate. -/
def shiftImmediate (f : Shift) : IntegerInsn :=
  single .rd (fieldHb w) fun s => f (rdv w fieldHc s) (w.setWidth 6).toNat

/-- A choice by the sign of `ha`. -/
def chooseSign (p : ℤ → Bool) : IntegerInsn :=
  single .rd (fieldHb w) fun s =>
    if p (signed (rdv w fieldHa s)) then rdv w fieldHc s else rdv w fieldHd s

/-- A choice by the equality of `ha` and `hb`: `hd`, or what is in `hc`. -/
def chooseEqual (equal : Bool) : IntegerInsn :=
  single .rd (fieldHc w) fun s =>
    if decide (rdv w fieldHa s = rdv w fieldHb s) = equal then rdv w fieldHd s else rdv w fieldHc s

/-- The immediate of 16 bits. -/
def immediate16 : ℕ := (w.setWidth 16).toNat

/-- The immediate at its wyde position. -/
def atWyde : BitVec 64 := BitVec.ofNat 64 (immediate16 w * 2 ^ (16 * fieldWw w))

/-- The instructions on one wyde of a register. -/
def wyde (file : RegFile) (f : BitVec 64 → BitVec 64) : IntegerInsn :=
  single file (fieldHa w) fun s => f (s.reg file (fieldHa w))

/-- `setow`: ones, but for the immediate at its wyde position. -/
def setow : IntegerInsn :=
  wyde w .rd fun _ => BitVec.ofNat 64 (2 ^ 64 - 1 - (2 ^ 16 - 1 - immediate16 w) * 2 ^ (16 * fieldWw w))

/-- `adrp`: the page of the instruction and a number of pages. -/
def adrp : IntegerInsn :=
  single .rb (fieldHa w) fun s =>
    low (unsigned (s.reg .rb 0) / 2 ^ 12 * 2 ^ 12 + (w.setWidth 18).toInt * 2 ^ 12)

/-- A divisor that is not zero. -/
def NonzeroDivisor (_ y : BitVec 64) : Prop := y ≠ 0

/-- A divisor that is not zero, and not `-1` for the least dividend. -/
def SignedDivisor (x y : BitVec 64) : Prop := y ≠ 0 ∧ ¬ (x = BitVec.intMin 64 ∧ y = -1)

/-- The integer instructions with opcode byte `0x10`. -/
def integerMinor10 : Option IntegerInsn :=
  match fieldHa w with
  | 0x08 => some (bitwise w (· &&& ·))
  | 0x09 => some (bitwise w (· ||| ·))
  | 0x0a => some (bitwise w (· ^^^ ·))
  | 0x0b => some (bitwise w fun x y => ~~~(x ^^^ y))
  | 0x11 => some (shiftRegister w shiftLeft)
  | 0x12 => some (shiftRegister w shiftRightSigned)
  | 0x13 => some (shiftRegister w shiftRightUnsigned)
  | 0x14 => some (shiftRegister w extendSign)
  | 0x15 => some (shiftRegister w extendZero)
  | 0x19 => some (shiftImmediate w shiftLeft)
  | 0x1a => some (shiftImmediate w shiftRightSigned)
  | 0x1b => some (shiftImmediate w shiftRightUnsigned)
  | 0x1c => some (shiftImmediate w extendSign)
  | 0x1d => some (shiftImmediate w extendZero)
  | 0x24 => some (compare w signed .rd)
  | 0x25 => some (compare w unsigned .rd)
  | 0x2d => some (compare w unsigned .rb)
  | 0x2e => some (address w (· + ·))
  | 0x2f => some (address w (· - ·))
  | _ => none

/-- **The integer instructions**, by their words. -/
def integerInsn : Option IntegerInsn :=
  match (w >>> 24).toNat with
  | 0x10 => integerMinor10 w
  | 0x12 => some (compareImmediate w signed (w.setWidth 12).toInt)
  | 0x13 => some (compareImmediate w unsigned (w.setWidth 12).toNat)
  | 0x14 => some (wyde w .rd (· ||| atWyde w))
  | 0x15 => some (wyde w .rd (· &&& ~~~ atWyde w))
  | 0x16 => some (wyde w .rd fun _ => atWyde w)
  | 0x17 => some (setow w)
  | 0x18 => some (single .rd (fieldHa w) fun s => rdv w fieldHb s &&& (w.setWidth 12).setWidth 64)
  | 0x19 => some (addImmediate w .rd)
  | 0x1a => some (halves w signed (· + ·))
  | 0x1b => some (halves w signed (· - ·))
  | 0x1c => some (halves w signed (· * ·))
  | 0x1d => some (halves w unsigned (· * ·))
  | 0x1e => some (division w signed Int.tdiv Int.tmod SignedDivisor)
  | 0x1f => some (division w unsigned (· / ·) (· % ·) NonzeroDivisor)
  | 0x20 => some (chooseSign w (· < 0))
  | 0x22 => some (chooseSign w (· = 0))
  | 0x24 => some (chooseSign w (0 < ·))
  | 0x26 => some (chooseEqual w true)
  | 0x27 => some (chooseEqual w false)
  | 0x48 => some (adrp w)
  | 0x49 => some (addImmediate w .rb)
  | 0x4c => some (wyde w .rb (· ||| atWyde w))
  | 0x4d => some (wyde w .rb (· &&& ~~~ atWyde w))
  | 0x4e => some (wyde w .rb fun _ => atWyde w)
  | _ => none

/-! ## The families -/

section Families

variable {w} (hw : Plain w)

@[simp] lemma State.put_zero (s : State) (file : RegFile) (v : BitVec 64) : s.put file 0 v = s := if_pos rfl

/-- Assigning a register. -/
lemma reads_write_put (m : Machine Elem) {file : RegFile} {i : ℕ} (hi : i ≠ 0) (v : BitVec 64) :
    reads (m.write (.global (.reg file i)) v) = (reads m).put file i v := by
  rw [reads_write_reg m hi, State.put, if_neg hi]

@[simp] lemma after_single (file : RegFile) (reg : ℕ) (value : State → BitVec 64) (s : State) :
    (single file reg value).after s = s.put file reg (value s) := rfl

include hw

/-- **One operation** into a register that is not register 0, and nothing otherwise. -/
lemma acts_single {file : RegFile} {reg : ℕ} {value : State → BitVec 64}
    {ops : BitVec 64 → List (Op Global)}
    (hdisas : ∀ pc, disasDadao pc w = some (some (.next (if reg = 0 then [] else ops pc))))
    (hops : ∀ pc, (ops pc).all Op.isStraight = true)
    (hf : ∀ m, Settled m → reg ≠ 0 →
      reads (runStraight ((ops (m.env.globals .pc)).map (Op.map Global.elem)) m) =
        (reads m).set file reg (value (reads m))) :
    Acts always w (single file reg value).after := by
  refine acts_next hw.1 hw.2 hdisas (fun pc => ?_) fun m hm => ?_
  · by_cases h : reg = 0
    · rw [if_pos h]
      rfl
    · rw [if_neg h]
      exact hops pc
  · by_cases h : reg = 0
    · subst h
      simp
    · rw [if_neg h, hf m hm h, after_single, State.put, if_neg h]

lemma acts_insnLogicOrrr {f : BinOp} (hdisas : ∀ pc, disasDadao pc w = some (some (insnLogicOrrr f w))) :
    Acts always w (single .rd (fieldHb w) fun s => f.eval (rdv w fieldHc s) (rdv w fieldHd s)).after := by
  refine acts_single hw (fun pc => by rw [hdisas, insnLogicOrrr, ite_not]) (fun _ => rfl) fun m hm h => ?_
  simp [rdOf, stepOp, reads_write_reg m h, hm.read, rdv]

lemma acts_insnLogicOrri {f : BinOp} (hdisas : ∀ pc, disasDadao pc w = some (some (insnLogicOrri f w))) :
    Acts always w (single .rd (fieldHb w) fun s => f.eval (rdv w fieldHc s) (fieldImmu 6 w)).after := by
  refine acts_single hw (fun pc => by rw [hdisas, insnLogicOrri, ite_not]) (fun _ => rfl) fun m hm h => ?_
  simp [rdOf, stepOp, reads_write_reg m h, hm.read, rdv]

lemma acts_transXNOR (hdisas : ∀ pc, disasDadao pc w = some (some (transXNOR w))) :
    Acts always w (bitwise w fun x y => ~~~(x ^^^ y)).after := by
  have hones (v : BitVec 64) : v ^^^ 0xffffffffffffffff#64 = ~~~v := BitVec.xor_allOnes
  refine acts_single hw (fun pc => hdisas pc) (fun _ => rfl) fun m hm h => ?_
  simp [rdOf, stepOp, reads_write_reg _ h, hm.read, rdv, BinOp.eval, hones]

/-- The amount is copied before the destination is assigned. -/
lemma acts_insnExtOrrr {f : BinOp} (hdisas : ∀ pc, disasDadao pc w = some (some (insnExtOrrr f w))) :
    Acts always w (single .rd (fieldHb w) fun s =>
      f.eval (BinOp.shl.eval (rdv w fieldHc s) (rdv w fieldHd s)) (rdv w fieldHd s)).after := by
  refine acts_single hw (fun pc => hdisas pc) (fun _ => rfl) fun m hm h => ?_
  simp [rdOf, stepOp, reads_write_reg _ h, hm.read, rdv]

lemma acts_insnExtOrri {f : BinOp} (hdisas : ∀ pc, disasDadao pc w = some (some (insnExtOrri f w))) :
    Acts always w (single .rd (fieldHb w) fun s =>
      f.eval (BinOp.shl.eval (rdv w fieldHc s) (fieldImmu 6 w)) (fieldImmu 6 w)).after := by
  refine acts_single hw (fun pc => hdisas pc) (fun _ => rfl) fun m hm h => ?_
  simp [rdOf, stepOp, reads_write_reg _ h, hm.read, rdv]

/-- What the two operations of a comparison give. -/
def order (k : Cond) (x y : BitVec 64) : BitVec 64 := if k.holds y x then -1 else if k.holds x y then 1 else 0

lemma acts_insnCmpOrrr (file : RegFile) {src : ℕ → Global} (hsrc : ∀ i, (src i).elem = .reg file i) {k : Cond}
    (hdisas : ∀ pc, disasDadao pc w = some (some (insnCmpOrrr src k w))) :
    Acts always w (single .rd (fieldHb w) fun s =>
      order k (s.reg file (fieldHc w)) (s.reg file (fieldHd w))).after := by
  refine acts_single hw (fun pc => hdisas pc) (fun _ => rfl) fun m hm h => ?_
  simp [rdOf, stepOp, reads_write_reg _ h, hm.read, order, hsrc]

lemma acts_insnCmpRrii {imm : BitVec 64} {k : Cond}
    (hdisas : ∀ pc, disasDadao pc w = some (some (insnCmpRrii imm k w))) :
    Acts always w (single .rd (fieldHa w) fun s => order k (rdv w fieldHb s) imm).after := by
  refine acts_single hw (fun pc => hdisas pc) (fun _ => rfl) fun m hm h => ?_
  simp [rdOf, stepOp, reads_write_reg _ h, hm.read, order, rdv]
  rfl

lemma acts_insnAlg1Orrr {f : BinOp} (hdisas : ∀ pc, disasDadao pc w = some (some (insnAlg1Orrr f w))) :
    Acts always w (single .rb (fieldHb w) fun s => f.eval (rbv w fieldHc s) (rdv w fieldHd s)).after := by
  refine acts_single hw (fun pc => hdisas pc) (fun _ => rfl) fun m hm h => ?_
  simp [rdOf, rbOf, stepOp, reads_write_reg _ h, hm.read, rdv, rbv]

lemma acts_insnAlg1Rrii (file : RegFile) {reg : ℕ → Global} (hreg : ∀ i, (reg i).elem = .reg file i)
    (hdisas : ∀ pc, disasDadao pc w = some (some (insnAlg1Rrii reg w))) :
    Acts always w (single file (fieldHa w) fun s => s.reg file (fieldHb w) + fieldImms 12 w).after := by
  refine acts_single hw (fun pc => hdisas pc) (fun _ => rfl) fun m hm h => ?_
  simp [stepOp, reads_write_reg _ h, hm.read, BinOp.eval, hreg]

lemma acts_transANDI (hdisas : ∀ pc, disasDadao pc w = some (some (transANDI w))) :
    Acts always w (single .rd (fieldHa w) fun s => rdv w fieldHb s &&& fieldImmu 12 w).after := by
  refine acts_single hw (fun pc => hdisas pc) (fun _ => rfl) fun m hm h => ?_
  simp [rdOf, stepOp, reads_write_reg _ h, hm.read, BinOp.eval, rdv]

lemma acts_insnCset1Rrrr {k : Cond} (hdisas : ∀ pc, disasDadao pc w = some (some (insnCset1Rrrr k w))) :
    Acts always w (single .rd (fieldHb w) fun s =>
      if k.holds (rdv w fieldHa s) 0 then rdv w fieldHc s else rdv w fieldHd s).after := by
  refine acts_single hw (fun pc => hdisas pc) (fun _ => rfl) fun m hm h => ?_
  have hzero : m.env.globals (.reg .rd 0) = 0 := hm.rd
  simp [rdOf, stepOp, reads_write_reg _ h, hm.read, rdv, hzero]
  rfl

lemma acts_insnCset2Rrrr {k : Cond} (hdisas : ∀ pc, disasDadao pc w = some (some (insnCset2Rrrr k w))) :
    Acts always w (single .rd (fieldHc w) fun s =>
      if k.holds (rdv w fieldHa s) (rdv w fieldHb s) then rdv w fieldHd s else rdv w fieldHc s).after := by
  refine acts_single hw (fun pc => hdisas pc) (fun _ => rfl) fun m hm h => ?_
  simp [rdOf, stepOp, reads_write_reg _ h, hm.read, rdv]
  rfl

lemma acts_insnOrwRwii (file : RegFile) {reg : ℕ → Global} (hreg : ∀ i, (reg i).elem = .reg file i)
    (hdisas : ∀ pc, disasDadao pc w = some (some (insnOrwRwii reg w))) :
    Acts always w (wyde w file (· ||| wydeArg w)).after := by
  refine acts_single hw (fun pc => hdisas pc) (fun _ => rfl) fun m hm h => ?_
  simp [stepOp, reads_write_reg _ h, hm.read, BinOp.eval, hreg]

lemma acts_insnAndnwRwii (file : RegFile) {reg : ℕ → Global} (hreg : ∀ i, (reg i).elem = .reg file i)
    (hdisas : ∀ pc, disasDadao pc w = some (some (insnAndnwRwii reg w))) :
    Acts always w (wyde w file (· &&& ~~~ wydeArg w)).after := by
  refine acts_single hw (fun pc => hdisas pc) (fun _ => rfl) fun m hm h => ?_
  simp [stepOp, reads_write_reg _ h, hm.read, BinOp.eval, hreg]

lemma acts_insnSetzwRwii (file : RegFile) {reg : ℕ → Global} (hreg : ∀ i, (reg i).elem = .reg file i)
    (hdisas : ∀ pc, disasDadao pc w = some (some (insnSetzwRwii reg w))) :
    Acts always w (wyde w file fun _ => wydeArg w).after := by
  refine acts_single hw (fun pc => hdisas pc) (fun _ => rfl) fun m hm h => ?_
  simp [movi, stepOp, reads_write_reg _ h, hreg]

lemma acts_transSETOW (hdisas : ∀ pc, disasDadao pc w = some (some (transSETOW w))) :
    Acts always w (wyde w .rd fun _ => wydeArg w ||| ~~~(0xFFFF#64 <<< (fieldWw w * 16))).after := by
  refine acts_single hw (fun pc => hdisas pc) (fun _ => rfl) fun m hm h => ?_
  simp [movi, stepOp, reads_write_reg _ h]

lemma acts_transADRP (hdisas : ∀ pc, disasDadao pc w = some (some (transADRP pc w))) :
    Acts always w (single .rb (fieldHa w) fun s =>
      (s.reg .rb 0 &&& ~~~ 0xFFF#64) + (fieldImms 18 w <<< 12)).after := by
  refine acts_single hw (fun pc => hdisas pc) (fun _ => rfl) fun m hm h => ?_
  simp [stepOp, reads_write_reg _ h, BinOp.eval]

omit hw in
/-- Assignments of different registers, or of register 0, in either order. -/
lemma State.put_comm (s : State) (file : RegFile) {i j : ℕ} (h : i ≠ j ∨ i = 0 ∨ j = 0) (v v' : BitVec 64) :
    (s.put file i v).put file j v' = (s.put file j v').put file i v := by
  by_cases hi : i = 0
  · rw [hi, State.put_zero, State.put_zero]
  · by_cases hj : j = 0
    · rw [hj, State.put_zero, State.put_zero]
    · have hne : i ≠ j := by omega
      simp only [State.put, if_neg hi, if_neg hj, State.set, State.mk.injEq, and_true]
      funext f k
      by_cases hk : f = file ∧ k = j
      · rw [if_pos hk, if_neg fun hk' => hne (by omega), if_pos hk]
      · rw [if_neg hk, if_neg hk]

omit hw in
/-- Assigning a temporary to a register that is not register 0. -/
lemma reads_movTemp (m : Machine Elem) (i n : ℕ) :
    reads (runStraight ((if i ≠ 0 then [(.mov (glob (.rd i)) (.temp n) : Op Global)] else []).map
      (Op.map Global.elem)) m) = (reads m).put .rd i (m.env.temps n) ∧
    (runStraight ((if i ≠ 0 then [(.mov (glob (.rd i)) (.temp n) : Op Global)] else []).map
      (Op.map Global.elem)) m).env.temps = m.env.temps := by
  by_cases h : i = 0
  · simp [h]
  · simp [h, stepOp, reads_write_put m h]

omit hw in
/-- `ha` first. -/
lemma reads_movHaHb (m : Machine Elem) : reads (runStraight ((movHaHb w).map (Op.map Global.elem)) m) =
    ((reads m).put .rd (fieldHa w) (m.env.temps 2)).put .rd (fieldHb w) (m.env.temps 1) := by
  rw [movHaHb, List.map_append, runStraight_append, (reads_movTemp _ _ _).1, (reads_movTemp _ _ _).1,
    (reads_movTemp _ _ _).2]

omit hw in
lemma isStraight_movHaHb : (movHaHb w).all Op.isStraight = true := by
  by_cases ha : fieldHa w = 0 <;> by_cases hb : fieldHb w = 0 <;> simp [movHaHb, ha, hb, Op.isStraight]

/-- An instruction with one result in `ha` and one in `hb`. -/
def pair (w : BitVec 32) (upper lower : State → BitVec 64) (defined : State → Prop := always) :
    IntegerInsn where
  results := [⟨.rd, fieldHa w, upper⟩, ⟨.rd, fieldHb w, lower⟩]
  defined := defined

omit hw in
lemma pair_after (upper lower : State → BitVec 64) (defined : State → Prop) (s : State) :
    (pair w upper lower defined).after s =
      (s.put .rd (fieldHa w) (upper s)).put .rd (fieldHb w) (lower s) := rfl

omit hw in
/-- The sign of a value, in every bit. -/
lemma eval_sar (x : BitVec 64) : BinOp.sar.eval x 63 = x.sshiftRight 63 := by
  have hmod : (63#64).toNat % 64 = 63 := by decide
  rw [BinOp.eval]
  exact congrArg x.sshiftRight hmod

omit hw in
/-- A sum or difference of 128 bits, in temporaries. -/
lemma runStraight_wide {m : Machine Elem} (hm : Settled m) (c : BitVec 64) (g : WideOp) :
    let m' := runStraight (([.bin .sar (.temp 1) (rdOf fieldHc w) (.const c),
      .bin .sar (.temp 2) (rdOf fieldHd w) (.const c),
      .wide g (.temp 1) (.temp 2) (rdOf fieldHc w) (.temp 1) (rdOf fieldHd w) (.temp 2)] :
        List (Op Global)).map (Op.map Global.elem)) m
    let v := g.eval (BinOp.sar.eval (rdv w fieldHc (reads m)) c) (rdv w fieldHc (reads m))
      (BinOp.sar.eval (rdv w fieldHd (reads m)) c) (rdv w fieldHd (reads m))
    reads m' = reads m ∧ m'.env.temps 1 = v.setWidth 64 ∧ m'.env.temps 2 = (v >>> 64).setWidth 64 := by
  refine ⟨rfl, ?_, ?_⟩
  · rw [rdv, rdv, ← hm.read, ← hm.read]
    rfl
  · rw [rdv, rdv, ← hm.read, ← hm.read]
    rfl

lemma acts_insnAlg1Rrrr {f : BinOp} {g : WideOp}
    (hdisas : ∀ pc, disasDadao pc w = some (some (insnAlg1Rrrr f g w)))
    (hdistinct : fieldHa w ≠ fieldHb w ∨ fieldHa w = 0 ∨ fieldHb w = 0)
    (hf : ∀ x y, (g.eval (x.sshiftRight 63) x (y.sshiftRight 63) y).setWidth 64 = f.eval x y) :
    Acts always w (pair w
      (fun s => ((g.eval ((rdv w fieldHc s).sshiftRight 63) (rdv w fieldHc s)
        ((rdv w fieldHd s).sshiftRight 63) (rdv w fieldHd s)) >>> 64).setWidth 64)
      (fun s => (g.eval ((rdv w fieldHc s).sshiftRight 63) (rdv w fieldHc s)
        ((rdv w fieldHd s).sshiftRight 63) (rdv w fieldHd s)).setWidth 64)).after := by
  refine acts_next hw.1 hw.2 hdisas (fun pc => ?_) fun m hm => ?_
  · by_cases ha : fieldHa w = 0 <;> by_cases hb : fieldHb w = 0 <;> simp [ha, hb, Op.isStraight]
  · rw [pair_after]
    by_cases h : fieldHa w = 0 ∧ fieldHb w ≠ 0
    · rw [if_pos h, h.1, State.put_zero, hf]
      simp [rdOf, stepOp, reads_write_put m h.2, hm.read, rdv]
    · obtain ⟨hreads, hlower, hupper⟩ := runStraight_wide (w := w) hm 63 g
      rw [eval_sar, eval_sar] at hlower hupper
      rw [if_neg h, List.map_append, List.map_append, runStraight_append, runStraight_append,
        (reads_movTemp _ _ _).1, (reads_movTemp _ _ _).1, (reads_movTemp _ _ _).2, hreads, hlower, hupper,
        State.put_comm _ _ (by tauto)]

lemma acts_insnMulRrrr {g : WideOp} (hdisas : ∀ pc, disasDadao pc w = some (some (insnMulRrrr g w))) :
    Acts always w (pair w
      (fun s => (g.eval 0 (rdv w fieldHc s) 0 (rdv w fieldHd s) >>> 64).setWidth 64)
      (fun s => (g.eval 0 (rdv w fieldHc s) 0 (rdv w fieldHd s)).setWidth 64)).after := by
  refine acts_next hw.1 hw.2 hdisas (fun pc => ?_) fun m hm => ?_
  · rw [List.all_append, isStraight_movHaHb]
    rfl
  · rw [pair_after, List.map_append, runStraight_append, reads_movHaHb]
    simp [rdOf, stepOp, hm.read, rdv]

/-- A division by a divisor that is not zero. -/
lemma acts_insnDivRrrr {f g : BinOp} (hdisas : ∀ pc, disasDadao pc w = some (some (insnDivRrrr f g w)))
    {defined : State → Prop} (hdefined : ∀ s, defined s → rdv w fieldHd s ≠ 0) :
    Acts defined w (pair w (fun s => g.eval (rdv w fieldHc s) (rdv w fieldHd s))
      (fun s => f.eval (rdv w fieldHc s) (rdv w fieldHd s)) defined).after := by
  have hinsn (pc : BitVec 64) : disasInsn 0 pc w = some (insnDivRrrr f g w).translation := by
    rw [disasInsn, hw.1]
    simp only
    rw [hw.2, hdisas]
    rfl
  have hstraight : ((([.bin f (.temp 1) (rdOf fieldHc w) (rdOf fieldHd w),
      .bin g (.temp 2) (rdOf fieldHc w) (rdOf fieldHd w)] : List (Op Global)) ++ movHaHb w).map
        (Op.map Global.elem)).all Op.isStraight = true := by
    rw [all_isStraight_map, List.all_append, isStraight_movHaHb]
    rfl
  refine acts_of_exec (fun pc => ⟨0, _, hinsn pc, mapM_toOp_op _, rfl⟩) fun m hm hd =>
    ⟨runStraight ((([.bin f (.temp 1) (rdOf fieldHc w) (rdOf fieldHd w),
      .bin g (.temp 2) (rdOf fieldHc w) (rdOf fieldHd w)] : List (Op Global)) ++ movHaHb w).map
        (Op.map Global.elem)) m, fun rest => ?_, ?_⟩
  · have hskip : (m.env.globals (.reg .rd (fieldHd w)) != m.env.globals (.reg .rd 0)) = true := by
      rw [hm.read, hm.rd]
      simpa [rdv] using hdefined _ hd
    rw [← exec_append_straight hstraight]
    simp only [insnDivRrrr, Emitted.next, List.cons_append, List.nil_append, List.map_cons, Op.map, Var.map]
    rw [exec_brcond, if_pos (by simpa [Cond.holds] using hskip)]
    rfl
  · rw [pair_after, List.map_append, runStraight_append, reads_movHaHb]
    simp [rdOf, stepOp, hm.read, rdv]

end Families

/-! ## The definitions -/

section Definitions

variable {w} {pre pre' : State → Prop} {f g : State → State}

/-- The same results in the states they are meant for. -/
lemma Acts.congr (h : Acts pre w f) (hpre : ∀ s, pre' s → pre s) (hfg : ∀ s, pre' s → f s = g s) :
    Acts pre' w g := by
  intro m hm
  obtain ⟨m', hexec, hreads⟩ := h m (hpre _ hm)
  exact ⟨m', hexec, by rw [hreads, hfg _ hm]⟩

/-- The same value in the register. -/
lemma Acts.single_congr {file : RegFile} {reg : ℕ} {value value' : State → BitVec 64}
    (h : Acts always w (single file reg value).after) (hvalue : ∀ s, pre s → value s = value' s) :
    Acts pre w (single file reg value').after :=
  h.congr (fun _ _ => trivial) fun s hs => by rw [after_single, after_single, hvalue s hs]

/-- The same values in both registers. -/
lemma Acts.pair_congr {upper lower upper' lower' : State → BitVec 64}
    (h : Acts pre w (pair w upper lower pre).after) (hupper : ∀ s, upper s = upper' s)
    (hlower : ∀ s, lower s = lower' s) : Acts pre w (pair w upper' lower' pre).after :=
  h.congr (fun _ hs => hs) fun s _ => by rw [pair_after, pair_after, hupper, hlower]

lemma toInt_fieldImms (n : ℕ) (hn : n ≤ 64) : (fieldImms n w).toInt = (w.setWidth n).toInt :=
  BitVec.toInt_signExtend_of_le hn

lemma toNat_fieldImmu (n : ℕ) (hn : n ≤ 64) : (fieldImmu n w).toNat = (w.setWidth n).toNat := by
  have hlt := (w.setWidth n).isLt
  have hle : 2 ^ n ≤ 2 ^ 64 := Nat.pow_le_pow_right (by omega) hn
  rw [fieldImmu, BitVec.toNat_setWidth, Nat.mod_eq_of_lt (by omega)]

lemma toNat_fieldImmu6_lt : (w.setWidth 6).toNat < 64 := (w.setWidth 6).isLt

/-- What a comparison of signed values gives. -/
lemma order_gt (x y : BitVec 64) : order .gt x y = threeWay (signed x) (signed y) := by
  simp only [order, Cond.holds, threeWay, signed, BitVec.slt, decide_eq_true_eq]
  rfl

/-- What a comparison of unsigned values gives. -/
lemma order_gtu (x y : BitVec 64) : order .gtu x y = threeWay (unsigned x) (unsigned y) := by
  simp only [order, Cond.holds, threeWay, unsigned, BitVec.ult, decide_eq_true_eq, Int.ofNat_lt]

/-- The operation of a shift has its definition for the amounts of six bits. -/
lemma shl_eq (x : BitVec 64) {y : BitVec 64} (hy : y.toNat < 64) :
    BinOp.shl.eval x y = shiftLeft x y.toNat := by
  simp only [BinOp.eval, shiftLeft, unsigned, Nat.mod_eq_of_lt hy]
  rw [shiftLeft_eq, Int.natCast_mul, Int.natCast_pow]
  rfl

lemma shr_eq (x : BitVec 64) {y : BitVec 64} (hy : y.toNat < 64) :
    BinOp.shr.eval x y = shiftRightUnsigned x y.toNat := by
  simp only [BinOp.eval, shiftRightUnsigned, unsigned, Nat.mod_eq_of_lt hy]
  rw [ushiftRight_eq, Int.natCast_ediv, Int.natCast_pow]
  rfl

lemma sar_eq (x : BitVec 64) {y : BitVec 64} (hy : y.toNat < 64) :
    BinOp.sar.eval x y = shiftRightSigned x y.toNat := by
  simp only [BinOp.eval, shiftRightSigned, signed, Nat.mod_eq_of_lt hy]
  rw [sshiftRight_eq]

lemma shl_sar_eq (x : BitVec 64) {y : BitVec 64} (hy : y.toNat < 64) :
    BinOp.sar.eval (BinOp.shl.eval x y) y = extendSign x y.toNat := by
  simp only [BinOp.eval, extendSign, unsigned, Nat.mod_eq_of_lt hy]
  rw [shiftLeft_sshiftRight x hy]

lemma shl_shr_eq (x : BitVec 64) {y : BitVec 64} (hy : y.toNat < 64) :
    BinOp.shr.eval (BinOp.shl.eval x y) y = extendZero x y.toNat := by
  simp only [BinOp.eval, extendZero, unsigned, Nat.mod_eq_of_lt hy]
  rw [shiftLeft_ushiftRight x hy, Int.natCast_emod, Int.natCast_pow]
  rfl

lemma fieldWw_lt : fieldWw w < 4 := by
  rw [fieldWw, Bits.toNat_and_mask _ _ 2 rfl]
  omega

/-- The immediate that is or-ed, cleared or set. -/
lemma wydeArg_eq : wydeArg w = atWyde w := by
  have himm : (fieldImmu16 w).toNat = immediate16 w := by
    rw [fieldImmu16, immediate16, BitVec.toNat_setWidth, Bits.toNat_and_mask _ _ 16 rfl,
      BitVec.toNat_setWidth]
    omega
  apply BitVec.eq_of_toNat_eq
  rw [wydeArg, BitVec.toNat_shiftLeft, Nat.shiftLeft_eq, himm, atWyde, BitVec.toNat_ofNat, Nat.mul_comm 16]

/-- Ones around the immediate. -/
lemma setow_eq : wydeArg w ||| ~~~(0xFFFF#64 <<< (fieldWw w * 16)) =
    BitVec.ofNat 64 (2 ^ 64 - 1 - (2 ^ 16 - 1 - immediate16 w) * 2 ^ (16 * fieldWw w)) := by
  have himm : immediate16 w < 2 ^ 16 := (w.setWidth 16).isLt
  have hww : fieldWw w < 4 := fieldWw_lt
  have hdisjoint : wydeArg w &&& ~~~(0xFFFF#64 <<< (fieldWw w * 16)) = 0 := by
    have hfield : fieldImmu16 w = fieldImmu16 w &&& 0xFFFF#64 := by
      apply BitVec.eq_of_toNat_eq
      rw [Bits.toNat_and_mask _ _ 16 rfl, fieldImmu16, BitVec.toNat_setWidth, Bits.toNat_and_mask _ _ 16 rfl]
      omega
    rw [wydeArg, hfield, BitVec.shiftLeft_and_distrib, BitVec.and_assoc, BitVec.and_not_self]
    exact BitVec.and_zero
  have hmask : (0xFFFF#64 <<< (fieldWw w * 16)).toNat = (2 ^ 16 - 1) * 2 ^ (16 * fieldWw w) := by
    obtain h | h | h | h : fieldWw w = 0 ∨ fieldWw w = 1 ∨ fieldWw w = 2 ∨ fieldWw w = 3 := by omega
    all_goals
      rw [h]
      rfl
  rw [← BitVec.add_eq_or_of_and_eq_zero _ _ hdisjoint, wydeArg_eq, atWyde]
  apply BitVec.eq_of_toNat_eq
  rw [BitVec.toNat_add, BitVec.toNat_not, hmask, BitVec.toNat_ofNat, BitVec.toNat_ofNat]
  obtain h | h | h | h : fieldWw w = 0 ∨ fieldWw w = 1 ∨ fieldWw w = 2 ∨ fieldWw w = 3 := by omega
  all_goals
    rw [h]
    omega

/-- The address of a page. -/
lemma adrp_eq (pc : BitVec 64) : (pc &&& ~~~ 0xFFF#64) + (fieldImms 18 w <<< 12) =
    low (unsigned pc / 2 ^ 12 * 2 ^ 12 + (w.setWidth 18).toInt * 2 ^ 12) := by
  have hpage : pc &&& ~~~ 0xFFF#64 = low (unsigned pc / 2 ^ 12 * 2 ^ 12) := by
    apply BitVec.eq_of_toNat_eq
    have hlt := pc.isLt
    rw [Bits.toNat_and_high _ _ 12 (by decide) (by omega), low, BitVec.toNat_ofInt, unsigned]
    omega
  have hpages : fieldImms 18 w <<< 12 = low ((w.setWidth 18).toInt * 2 ^ 12) := by
    have htwo : BitVec.twoPow 64 12 = BitVec.ofInt 64 (2 ^ 12) := by decide
    have hfield : (w.setWidth 18).toInt = (fieldImms 18 w).toInt := (toInt_fieldImms 18 (by omega)).symm
    rw [low, hfield, BitVec.ofInt_mul, BitVec.ofInt_toInt, BitVec.shiftLeft_eq_mul_twoPow, htwo]
  rw [hpage, hpages, low, low, low, BitVec.ofInt_add]

end Definitions

/-! ## All instructions -/

section All

variable {w} {i : IntegerInsn}

lemma addImmediate_eq (x : BitVec 64) :
    x + fieldImms 12 w = low (signed x + ((w.setWidth 12).toInt : ℤ)) := by
  rw [add_eq, toInt_fieldImms 12 (by omega)]
  rfl

/-- The operands of the 128-bit operations, with their signs as upper halves. -/
lemma add2_eq (x y : BitVec 64) : WideOp.add2.eval (x.sshiftRight 63) x (y.sshiftRight 63) y =
    BitVec.ofInt 128 (x.toInt + y.toInt) := by
  rw [WideOp.eval, sign_append, sign_append, BitVec.ofInt_add]

lemma sub2_eq (x y : BitVec 64) : WideOp.sub2.eval (x.sshiftRight 63) x (y.sshiftRight 63) y =
    BitVec.ofInt 128 (x.toInt - y.toInt) := by
  rw [WideOp.eval, sign_append, sign_append, Int.sub_eq_add_neg, BitVec.ofInt_add, BitVec.ofInt_neg,
    BitVec.sub_eq_add_neg]

lemma muls2_eq (x y : BitVec 64) : WideOp.muls2.eval 0 x 0 y = BitVec.ofInt 128 (x.toInt * y.toInt) := by
  rw [WideOp.eval, BitVec.ofInt_mul]
  rfl

lemma mulu2_eq (x y : BitVec 64) : WideOp.mulu2.eval 0 x 0 y = BitVec.ofInt 128 (x.toNat * y.toNat) := by
  rw [WideOp.eval, setWidth_eq, setWidth_eq, BitVec.ofInt_mul]

lemma choose_lt (x y z : BitVec 64) :
    (if Cond.lt.holds x 0 then y else z) = if decide (signed x < 0) then y else z := by
  by_cases h : signed x < 0
  · rw [if_pos (by simpa [Cond.holds, BitVec.slt, signed] using h), if_pos (decide_eq_true h)]
  · rw [if_neg (by simpa [Cond.holds, BitVec.slt, signed] using h), if_neg (by simpa using h)]

lemma choose_eq (x y z : BitVec 64) :
    (if Cond.eq.holds x 0 then y else z) = if decide (signed x = 0) then y else z := by
  have h : x = 0 ↔ x.toInt = 0 := ⟨fun h => by rw [h]; rfl, fun h => BitVec.eq_of_toInt_eq h⟩
  simp [Cond.holds, signed, ← h]

lemma choose_gt (x y z : BitVec 64) :
    (if Cond.gt.holds x 0 then y else z) = if decide (0 < signed x) then y else z := by
  by_cases h : 0 < signed x
  · rw [if_pos (by simpa [Cond.holds, BitVec.slt, signed] using h), if_pos (decide_eq_true h)]
  · rw [if_neg (by simpa [Cond.holds, BitVec.slt, signed] using h), if_neg (by simpa using h)]

lemma chooseEqual_eq (x x' y z : BitVec 64) :
    (if Cond.eq.holds x x' then y else z) = if decide (x = x') = true then y else z := by
  simp [Cond.holds]

lemma chooseEqual_ne (x x' y z : BitVec 64) :
    (if Cond.ne.holds x x' then y else z) = if decide (x = x') = false then y else z := by
  simp [Cond.holds]

/-- The integer instructions are translated on their own. -/
lemma plain_of_integerInsn (h : integerInsn w = some i) : Plain w := by
  unfold integerInsn at h
  split at h
  case h_1 hop =>
    refine plain_of_minor10 hop fun hmem => ?_
    unfold integerMinor10 at h
    split at h
    all_goals simp_all
  all_goals rename_i hop
  all_goals try simp only [reduceCtorEq] at h
  all_goals exact plain_of_opcode (by simp [hop, PlainOpcode])

/-- **One instruction with opcode byte `0x10`.** -/
lemma acts_minor10 (hw : Plain w) (hop : (w >>> 24).toNat = 0x10) (h : integerMinor10 w = some i) :
    Acts i.defined w i.after := by
  have hminor (pc : BitVec 64) : disasDadao pc w = disasMinor10 pc w := by simp only [disasDadao, hop]
  have h6 : (fieldImmu 6 w).toNat < 64 := by
    rw [toNat_fieldImmu 6 (by omega)]
    exact toNat_fieldImmu6_lt
  unfold integerMinor10 at h
  split at h <;> simp only [reduceCtorEq, Option.some.injEq] at h <;> subst h <;> rename_i ha
  · exact acts_insnLogicOrrr (f := .and) hw fun pc => by
      rw [hminor, disasMinor10, ha]
      rfl
  · exact acts_insnLogicOrrr (f := .or) hw fun pc => by
      rw [hminor, disasMinor10, ha]
      rfl
  · exact acts_insnLogicOrrr (f := .xor) hw fun pc => by
      rw [hminor, disasMinor10, ha]
      rfl
  · exact acts_transXNOR hw fun pc => by
      rw [hminor, disasMinor10, ha]
      rfl
  · exact (acts_insnLogicOrrr (f := .shl) hw fun pc => by
      rw [hminor, disasMinor10, ha]
      rfl).single_congr
      fun s hs => shl_eq _ hs
  · exact (acts_insnLogicOrrr (f := .sar) hw fun pc => by
      rw [hminor, disasMinor10, ha]
      rfl).single_congr
      fun s hs => sar_eq _ hs
  · exact (acts_insnLogicOrrr (f := .shr) hw fun pc => by
      rw [hminor, disasMinor10, ha]
      rfl).single_congr
      fun s hs => shr_eq _ hs
  · exact (acts_insnExtOrrr (f := .sar) hw fun pc => by
      rw [hminor, disasMinor10, ha]
      rfl).single_congr
      fun s hs => shl_sar_eq _ hs
  · exact (acts_insnExtOrrr (f := .shr) hw fun pc => by
      rw [hminor, disasMinor10, ha]
      rfl).single_congr
      fun s hs => shl_shr_eq _ hs
  · exact (acts_insnLogicOrri (f := .shl) hw fun pc => by
      rw [hminor, disasMinor10, ha]
      rfl).single_congr
      fun s _ => by rw [shl_eq _ h6, toNat_fieldImmu 6 (by omega)]
  · exact (acts_insnLogicOrri (f := .sar) hw fun pc => by
      rw [hminor, disasMinor10, ha]
      rfl).single_congr
      fun s _ => by rw [sar_eq _ h6, toNat_fieldImmu 6 (by omega)]
  · exact (acts_insnLogicOrri (f := .shr) hw fun pc => by
      rw [hminor, disasMinor10, ha]
      rfl).single_congr
      fun s _ => by rw [shr_eq _ h6, toNat_fieldImmu 6 (by omega)]
  · exact (acts_insnExtOrri (f := .sar) hw fun pc => by
      rw [hminor, disasMinor10, ha]
      rfl).single_congr
      fun s _ => by rw [shl_sar_eq _ h6, toNat_fieldImmu 6 (by omega)]
  · exact (acts_insnExtOrri (f := .shr) hw fun pc => by
      rw [hminor, disasMinor10, ha]
      rfl).single_congr
      fun s _ => by rw [shl_shr_eq _ h6, toNat_fieldImmu 6 (by omega)]
  · exact (acts_insnCmpOrrr hw .rd Global.elem_rd fun pc => by
      rw [hminor, disasMinor10, ha]
      rfl).single_congr fun s _ => order_gt _ _
  · exact (acts_insnCmpOrrr hw .rd Global.elem_rd fun pc => by
      rw [hminor, disasMinor10, ha]
      rfl).single_congr fun s _ => order_gtu _ _
  · exact (acts_insnCmpOrrr hw .rb Global.elem_rb fun pc => by
      rw [hminor, disasMinor10, ha]
      rfl).single_congr fun s _ => order_gtu _ _
  · exact (acts_insnAlg1Orrr (f := .add) hw fun pc => by
      rw [hminor, disasMinor10, ha]
      rfl).single_congr fun s _ => add_eq _ _
  · exact (acts_insnAlg1Orrr (f := .sub) hw fun pc => by
      rw [hminor, disasMinor10, ha]
      rfl).single_congr fun s _ => sub_eq _ _

/-- **One instruction**, with results in different registers. -/
lemma acts_integerInsn (h : integerInsn w = some i) (hdistinct : i.Distinct) : Acts i.defined w i.after := by
  have hw : Plain w := plain_of_integerInsn h
  unfold integerInsn at h
  split at h <;> try simp only [reduceCtorEq, Option.some.injEq] at h
  all_goals rename_i hop
  all_goals try subst h
  · exact acts_minor10 hw hop h
  · exact (acts_insnCmpRrii hw fun pc => by
      rw [disasDadao, hop]
      rfl).single_congr
      fun s _ => by rw [order_gt, ← toInt_fieldImms 12 (by omega)]; rfl
  · exact (acts_insnCmpRrii hw fun pc => by
      rw [disasDadao, hop]
      rfl).single_congr
      fun s _ => by rw [order_gtu, unsigned, unsigned, toNat_fieldImmu 12 (by omega)]
  · rw [← wydeArg_eq]
    exact acts_insnOrwRwii hw .rd Global.elem_rd fun pc => by
      rw [disasDadao, hop]
      rfl
  · rw [← wydeArg_eq]
    exact acts_insnAndnwRwii hw .rd Global.elem_rd fun pc => by
      rw [disasDadao, hop]
      rfl
  · rw [← wydeArg_eq]
    exact acts_insnSetzwRwii hw .rd Global.elem_rd fun pc => by
      rw [disasDadao, hop]
      rfl
  · exact (acts_transSETOW hw fun pc => by
      rw [disasDadao, hop]
      rfl).single_congr fun s _ => setow_eq
  · exact acts_transANDI hw fun pc => by
      rw [disasDadao, hop]
      rfl
  · exact (acts_insnAlg1Rrii hw .rd Global.elem_rd fun pc => by
      rw [disasDadao, hop]
      rfl).single_congr fun s _ => addImmediate_eq _
  · exact (acts_insnAlg1Rrrr hw (f := .add) (g := .add2) (fun pc => by
      rw [disasDadao, hop]
      rfl) (by simpa [IntegerInsn.Distinct, halves] using hdistinct)
      fun x y => by rw [add2_eq, low_wide, ← add_eq]; rfl).pair_congr
      (fun s => by rw [add2_eq, high_wide]; rfl) fun s => by rw [add2_eq, low_wide]; rfl
  · exact (acts_insnAlg1Rrrr hw (f := .sub) (g := .sub2) (fun pc => by
      rw [disasDadao, hop]
      rfl) (by simpa [IntegerInsn.Distinct, halves] using hdistinct)
      fun x y => by rw [sub2_eq, low_wide, ← sub_eq]; rfl).pair_congr
      (fun s => by rw [sub2_eq, high_wide]; rfl) fun s => by rw [sub2_eq, low_wide]; rfl
  · exact (acts_insnMulRrrr hw (fun pc => by
      rw [disasDadao, hop]
      rfl)).pair_congr
      (fun s => by rw [muls2_eq, high_wide]; rfl) fun s => by rw [muls2_eq, low_wide]; rfl
  · exact (acts_insnMulRrrr hw (fun pc => by
      rw [disasDadao, hop]
      rfl)).pair_congr
      (fun s => by rw [mulu2_eq, high_wide]; rfl) fun s => by rw [mulu2_eq, low_wide]; rfl
  · exact (acts_insnDivRrrr (f := .div) (g := .rem) hw (fun pc => by
      rw [disasDadao, hop]
      rfl) fun s hs => hs.1).pair_congr
      (fun s => srem_eq _ _) fun s => sdiv_eq _ _
  · exact (acts_insnDivRrrr (f := .divu) (g := .remu) hw (fun pc => by
      rw [disasDadao, hop]
      rfl) fun s hs => hs).pair_congr
      (fun s => umod_eq _ _) fun s => udiv_eq _ _
  · exact (acts_insnCset1Rrrr hw fun pc => by
      rw [disasDadao, hop]
      rfl).single_congr fun s _ => choose_lt _ _ _
  · exact (acts_insnCset1Rrrr hw fun pc => by
      rw [disasDadao, hop]
      rfl).single_congr fun s _ => choose_eq _ _ _
  · exact (acts_insnCset1Rrrr hw fun pc => by
      rw [disasDadao, hop]
      rfl).single_congr fun s _ => choose_gt _ _ _
  · exact (acts_insnCset2Rrrr hw fun pc => by
      rw [disasDadao, hop]
      rfl).single_congr fun s _ => chooseEqual_eq _ _ _ _
  · exact (acts_insnCset2Rrrr hw fun pc => by
      rw [disasDadao, hop]
      rfl).single_congr fun s _ => chooseEqual_ne _ _ _ _
  · exact (acts_transADRP hw fun pc => by
      rw [disasDadao, hop]
      rfl).single_congr fun s _ => adrp_eq _
  · exact (acts_insnAlg1Rrii hw .rb Global.elem_rb fun pc => by
      rw [disasDadao, hop]
      rfl).single_congr fun s _ => addImmediate_eq _
  · rw [← wydeArg_eq]
    exact acts_insnOrwRwii hw .rb Global.elem_rb fun pc => by
      rw [disasDadao, hop]
      rfl
  · rw [← wydeArg_eq]
    exact acts_insnAndnwRwii hw .rb Global.elem_rb fun pc => by
      rw [disasDadao, hop]
      rfl
  · rw [← wydeArg_eq]
    exact acts_insnSetzwRwii hw .rb Global.elem_rb fun pc => by
      rw [disasDadao, hop]
      rfl

/-- **Integer results do not depend on coincidences of registers.** In every state in which an instruction is
defined, its destinations get the values of its definition at the registers before it, and no other
register and no memory changes, but that the program counter goes on. -/
theorem integerInsn_correct (h : integerInsn w = some i) (hdistinct : i.Distinct) (m : Machine Elem)
    (hdefined : i.defined (reads m)) : ∃ m', Executes w m (.done m') ∧
      reads m' = (i.after (reads m)).set .rb 0 (m.env.globals .pc + 4) :=
  acts_integerInsn h hdistinct m hdefined

end All

/-- The machine with ones everywhere but in the memory. -/
def machineOnes : Machine Elem := ⟨⟨fun _ => 1, fun _ => 1⟩, fun _ => 0⟩

/-- `add rd1, rd2, rd1, rd2`, with both destinations among the sources. -/
theorem integerInsn_correct_add : ∃ m', Executes 0x1a042042#32 machineOnes (.done m') ∧
    reads m' = ((halves 0x1a042042#32 signed (· + ·)).after (reads machineOnes)).set .rb 0 (1 + 4) :=
  integerInsn_correct rfl (by simp [IntegerInsn.Distinct, halves]; decide) machineOnes trivial

end Dadao.Qemu
