import Dadao.Lib.Loop
import Dadao.Qemu.Translate

set_option relaxedAutoImplicit false
set_option autoImplicit false

/-!
# Instructions on several registers

The translation functions that walk over registers, with their loops as the source has them: the
count and the indices are `int`s, an illegal count is reported by emitting an exception, and the
loop is entered all the same. Together with the instructions that call a floating point helper they
complete the decoder to all words.

## Main definitions

* `Dadao.Qemu.Elem` — a TCG global as an element of a C array, at any index.
* `Dadao.Qemu.Multi.trans` — the loops.
* `Dadao.Qemu.multiOf`, `Dadao.Qemu.helperInsn` — the decoder of these instructions.
* `Dadao.Qemu.translateInsn` — the translation of a word.
-/

namespace Dadao.Qemu

open Tcg

/-! ## Emissions -/

/-- The register files. -/
inductive RegFile where
  | rd | rb | rf | ra
  deriving DecidableEq, Repr

/-- A TCG global as the translator names it: an element of `cpu_rd`, `cpu_rb`, `cpu_rf` or `cpu_ra`,
whose index is an `int`, or a global of its own. -/
inductive Elem where
  | reg (file : RegFile) (i : ℤ)
  | jmpPc | loadRes | loadVal
  deriving DecidableEq, Repr

/-- An element that exists. -/
def Elem.InRange : Elem → Prop
  | .reg _ i => 0 ≤ i ∧ i < 64
  | _ => True

/-- A global as an element. -/
def Global.elem : Global → Elem
  | .rd i => .reg .rd i
  | .rb i => .reg .rb i
  | .rf i => .reg .rf i
  | .ra i => .reg .ra i
  | .jmpPc => .jmpPc
  | .loadRes => .loadRes
  | .loadVal => .loadVal

/-- The floating point helpers. -/
inductive Helper where
  | ftcls | focls | ft2fo | fo2ft
  | ft2it | ft2io | ft2ut | ft2uo | it2ft | io2ft | ut2ft | uo2ft
  | fo2it | fo2io | fo2ut | fo2uo | it2fo | io2fo | ut2fo | uo2fo
  | ftadd | ftsub | ftmul | ftdiv | ftrem | foadd | fosub | fomul | fodiv | forem
  | ftsgnj | ftsgnn | fosgnj | fosgnn | ftmadd | fomadd | ftroot | foroot | ftlog | folog
  | ftqcmp | ftscmp | foqcmp | foscmp
  deriving DecidableEq, Repr

/-- What the translator emits: an operation on globals, an operation on array elements, or the call
of a helper. -/
inductive Emission where
  | op (o : Op Global)
  | elemOp (o : Op Elem)
  | helper (fn : Helper) (d : Elem) (args : List Elem)

/-- The globals among variables. -/
def globalsOf {G : Type} (vs : List (Var G)) : List G :=
  vs.filterMap fun v => match v with
    | .global g => some g
    | _ => none

/-- The array elements an emission names. -/
def Emission.elems : Emission → List Elem
  | .op o => (globalsOf o.vars).map Global.elem
  | .elemOp o => globalsOf o.vars
  | .helper _ d args => d :: args

/-- An emission that changes a register or the memory. -/
def Emission.hasEffect : Emission → Bool
  | .op o => o.hasEffect
  | .elemOp o => o.hasEffect
  | .helper .. => true

/-- The illegal-instruction exception. -/
def Emission.isIllegal : Emission → Bool
  | .op o => o = .exception excpIlli
  | _ => false

/-- What is emitted for an instruction. -/
structure Translation where
  emitted : List Emission
  isJmp : DisasJump
  jmpPcImm : BitVec 64

/-- The translation of an instruction without a loop and without a helper. -/
def Emitted.translation (e : Emitted) : Translation := ⟨e.ops.map .op, e.isJmp, e.jmpPcImm⟩

/-- `gen_exception_illegal_instruction` where the source calls it and goes on. -/
def illegalWhen (p : Prop) [Decidable p] (pc : BitVec 64) : List Emission :=
  if p then (illegalInstruction pc).ops.map .op else []

/-- The translation of an instruction that goes on after reporting itself illegal. -/
def Translation.unless (p : Prop) [Decidable p] (emitted : List Emission) : Translation :=
  ⟨emitted, if p then .noreturn else .next, -1⟩

/-! ## The loops -/

/-- An instruction on several registers: its kind, its register files, its memory access or its
helper. -/
inductive Multi where
  | ldm (dest : RegFile) (op : MemOp)
  | stm (src : RegFile) (op : MemOp)
  | r2r (src dest : RegFile)
  | fcvt (fn : Helper) (src dest : RegFile)
  deriving DecidableEq, Repr

/-- An array element as a value. -/
abbrev elem (file : RegFile) (i : ℤ) : Var Elem := .global (.reg file i)

/-- The body of the loop of `INSN_LDM_RRRI` for register `ha`. -/
def ldmBody (dest : RegFile) (op : MemOp) (ha : ℤ) : List Emission :=
  [.elemOp (.qemuLd (.temp 1) (.temp 0) op)] ++
  (if ha ≠ 0 ∨ dest = .rf ∨ dest = .ra then [.elemOp (.mov (elem dest ha) (.temp 1))] else []) ++
  [.elemOp (.bin .add (.temp 0) (.temp 0) (.const (BitVec.ofNat 64 op.bytes)))]

/-- The body of the loop of `INSN_STM_RRRI` for register `ha`. -/
def stmBody (src : RegFile) (op : MemOp) (ha : ℤ) : List Emission :=
  [.elemOp (.qemuSt (elem src ha) (.temp 0) op),
    .elemOp (.bin .add (.temp 0) (.temp 0) (.const (BitVec.ofNat 64 op.bytes)))]

/-- The body of the loop of `INSN_R2R_ORRI` for registers `hb` and `hc`. -/
def r2rBody (src dest : RegFile) (hb hc : ℤ) : List Emission :=
  if hb ≠ 0 ∨ dest = .rf ∨ dest = .ra then [.elemOp (.mov (elem dest hb) (elem src hc))] else []

/-- The body of the loop of `INSN_FCVT_ORRI` for registers `hb` and `hc`. -/
def fcvtBody (fn : Helper) (src dest : RegFile) (hb hc : ℤ) : List Emission :=
  if hb ≠ 0 then [.helper fn (.reg dest hb) [.reg src hc]] else []

/-- The loop over one register: `ha++, immu6--` while `immu6 != 0`. -/
def walkUp (body : ℤ → List Emission) (fuel : ℕ) (ha immu6 : ℤ) : Option (List Emission) :=
  Loop.doWhile (fun s => body s.1) (fun s => (s.1 + 1, s.2 - 1)) (fun s => s.2 ≠ 0) fuel (ha, immu6)

/-- The loop over two registers: `hb--, hc--` or `hb++, hc++`, by their order, and `immu6--`, while
`immu6 != 0`. It starts at the other end if `hb > hc`. -/
def walkTwo (body : ℤ → ℤ → List Emission) (fuel : ℕ) (hb hc immu6 : ℤ) :
    Option (List Emission) :=
  Loop.doWhile (fun s => body s.1 s.2.1)
    (fun s => if s.1 > s.2.1 then (s.1 - 1, s.2.1 - 1, s.2.2 - 1)
      else (s.1 + 1, s.2.1 + 1, s.2.2 - 1))
    (fun s => s.2.2 ≠ 0) fuel
    (if hb > hc then (hb + (immu6 - 1), hc + (immu6 - 1), immu6) else (hb, hc, immu6))

/-- `INSN_LDM_RRRI` and `INSN_STM_RRRI`. -/
def insnMemRrri (body : ℤ → List Emission) (fuel : ℕ) (pc : BitVec 64) (w : BitVec 32) :
    Option Translation :=
  (walkUp body fuel (fieldHa w) (fieldHd w)).map fun emitted =>
    .unless (fieldHd w = 0 ∨ fieldHa w + fieldHd w > 64)
      (illegalWhen (fieldHd w = 0) pc ++ illegalWhen (fieldHa w + fieldHd w > 64) pc ++
        [.op (.bin .add (.temp 0) (rbOf fieldHb w) (rdOf fieldHc w))] ++ emitted)

/-- `INSN_R2R_ORRI` and `INSN_FCVT_ORRI`. -/
def insnRegOrri (body : ℤ → ℤ → List Emission) (fuel : ℕ) (pc : BitVec 64) (w : BitVec 32) :
    Option Translation :=
  (walkTwo body fuel (fieldHb w) (fieldHc w) (fieldHd w)).map fun emitted =>
    .unless (fieldHd w = 0 ∨ fieldHb w + fieldHd w > 64 ∨ fieldHc w + fieldHd w > 64)
      (illegalWhen (fieldHd w = 0) pc ++ illegalWhen (fieldHb w + fieldHd w > 64) pc ++
        illegalWhen (fieldHc w + fieldHd w > 64) pc ++ emitted)

/-- The translation of an instruction on several registers; `none` when the fuel is used up. -/
def Multi.trans (m : Multi) (fuel : ℕ) (pc : BitVec 64) (w : BitVec 32) : Option Translation :=
  match m with
  | .ldm dest op => insnMemRrri (ldmBody dest op) fuel pc w
  | .stm src op => insnMemRrri (stmBody src op) fuel pc w
  | .r2r src dest => insnRegOrri (r2rBody src dest) fuel pc w
  | .fcvt fn src dest => insnRegOrri (fcvtBody fn src dest) fuel pc w

/-- `trans_LDMBS`. -/
def transLDMBS : Multi := .ldm .rd ⟨1, true⟩

/-- `trans_LDMBU`. -/
def transLDMBU : Multi := .ldm .rd ⟨1, false⟩

/-- `trans_LDMWS`. -/
def transLDMWS : Multi := .ldm .rd ⟨2, true⟩

/-- `trans_LDMWU`. -/
def transLDMWU : Multi := .ldm .rd ⟨2, false⟩

/-- `trans_LDMTS`. -/
def transLDMTS : Multi := .ldm .rd ⟨4, true⟩

/-- `trans_LDMTU`. -/
def transLDMTU : Multi := .ldm .rd ⟨4, false⟩

/-- `trans_LDMT`. -/
def transLDMT : Multi := .ldm .rf ⟨4, false⟩

/-- `trans_LDMOrd`. -/
def transLDMOrd : Multi := .ldm .rd moTeuq

/-- `trans_LDMOrb`. -/
def transLDMOrb : Multi := .ldm .rb moTeuq

/-- `trans_LDMOrf`. -/
def transLDMOrf : Multi := .ldm .rf moTeuq

/-- `trans_LDMOra`. -/
def transLDMOra : Multi := .ldm .ra moTeuq

/-- `trans_STMB`. -/
def transSTMB : Multi := .stm .rd ⟨1, false⟩

/-- `trans_STMW`. -/
def transSTMW : Multi := .stm .rd ⟨2, false⟩

/-- `trans_STMTrd`. -/
def transSTMTrd : Multi := .stm .rd ⟨4, false⟩

/-- `trans_STMTrf`. -/
def transSTMTrf : Multi := .stm .rf ⟨4, false⟩

/-- `trans_STMOrd`. -/
def transSTMOrd : Multi := .stm .rd moTeuq

/-- `trans_STMOrb`. -/
def transSTMOrb : Multi := .stm .rb moTeuq

/-- `trans_STMOrf`. -/
def transSTMOrf : Multi := .stm .rf moTeuq

/-- `trans_STMOra`. -/
def transSTMOra : Multi := .stm .ra moTeuq

/-- `trans_RD2RD`. -/
def transRD2RD : Multi := .r2r .rd .rd

/-- `trans_RD2RB`. -/
def transRD2RB : Multi := .r2r .rd .rb

/-- `trans_RB2RD`. -/
def transRB2RD : Multi := .r2r .rb .rd

/-- `trans_RB2RB`. -/
def transRB2RB : Multi := .r2r .rb .rb

/-- `trans_RD2RF`. -/
def transRD2RF : Multi := .r2r .rd .rf

/-- `trans_RF2RD`. -/
def transRF2RD : Multi := .r2r .rf .rd

/-- `trans_RF2RF`. -/
def transRF2RF : Multi := .r2r .rf .rf

/-- `trans_RD2RA`. -/
def transRD2RA : Multi := .r2r .rd .ra

/-- `trans_RA2RD`. -/
def transRA2RD : Multi := .r2r .ra .rd

/-- `trans_FTCLS`. -/
def transFTCLS : Multi := .fcvt .ftcls .rf .rd

/-- `trans_FOCLS`. -/
def transFOCLS : Multi := .fcvt .focls .rf .rd

/-- `trans_FT2FO`. -/
def transFT2FO : Multi := .fcvt .ft2fo .rf .rf

/-- `trans_FO2FT`. -/
def transFO2FT : Multi := .fcvt .fo2ft .rf .rf

/-- `trans_FT2IT`. -/
def transFT2IT : Multi := .fcvt .ft2it .rf .rd

/-- `trans_FT2IO`. -/
def transFT2IO : Multi := .fcvt .ft2io .rf .rd

/-- `trans_FT2UT`. -/
def transFT2UT : Multi := .fcvt .ft2ut .rf .rd

/-- `trans_FT2UO`. -/
def transFT2UO : Multi := .fcvt .ft2uo .rf .rd

/-- `trans_IT2FT`. -/
def transIT2FT : Multi := .fcvt .it2ft .rd .rf

/-- `trans_IO2FT`. -/
def transIO2FT : Multi := .fcvt .io2ft .rd .rf

/-- `trans_UT2FT`. -/
def transUT2FT : Multi := .fcvt .ut2ft .rd .rf

/-- `trans_UO2FT`. -/
def transUO2FT : Multi := .fcvt .uo2ft .rd .rf

/-- `trans_FO2IT`. -/
def transFO2IT : Multi := .fcvt .fo2it .rf .rd

/-- `trans_FO2IO`. -/
def transFO2IO : Multi := .fcvt .fo2io .rf .rd

/-- `trans_FO2UT`. -/
def transFO2UT : Multi := .fcvt .fo2ut .rf .rd

/-- `trans_FO2UO`. -/
def transFO2UO : Multi := .fcvt .fo2uo .rf .rd

/-- `trans_IT2FO`. -/
def transIT2FO : Multi := .fcvt .it2fo .rd .rf

/-- `trans_IO2FO`. -/
def transIO2FO : Multi := .fcvt .io2fo .rd .rf

/-- `trans_UT2FO`. -/
def transUT2FO : Multi := .fcvt .ut2fo .rd .rf

/-- `trans_UO2FO`. -/
def transUO2FO : Multi := .fcvt .uo2fo .rd .rf

/-! ## Floating point helpers -/

/-- The element of a file that a field names. -/
abbrev elemOf (file : RegFile) (field : BitVec 32 → ℕ) (w : BitVec 32) : Elem :=
  .reg file (field w)

/-- `INSN_FALG_ORRR`. -/
def insnFalgOrrr (fn : Helper) (w : BitVec 32) : Translation :=
  ⟨[.helper fn (elemOf .rf fieldHb w) [elemOf .rf fieldHc w, elemOf .rf fieldHd w]], .next, -1⟩

/-- `INSN_FALG_RRRR`. -/
def insnFalgRrrr (fn : Helper) (w : BitVec 32) : Translation :=
  ⟨[.helper fn (elemOf .rf fieldHa w)
    [elemOf .rf fieldHb w, elemOf .rf fieldHc w, elemOf .rf fieldHd w]], .next, -1⟩

/-- `INSN_FALG_ORRI`, which goes on after reporting itself illegal. -/
def insnFalgOrri (fn : Helper) (pc : BitVec 64) (w : BitVec 32) : Translation :=
  .unless (fieldHd w ≠ 2) (illegalWhen (fieldHd w ≠ 2) pc ++
    [.helper fn (elemOf .rf fieldHb w) [elemOf .rf fieldHc w]])

/-- `INSN_FCMP_ORRR`. -/
def insnFcmpOrrr (fn : Helper) (w : BitVec 32) : Translation :=
  ⟨[.helper fn (elemOf .rd fieldHb w) [elemOf .rf fieldHc w, elemOf .rf fieldHd w]], .next, -1⟩

/-- `trans_FTADD`. -/
def transFTADD : BitVec 32 → Translation := insnFalgOrrr .ftadd

/-- `trans_FTSUB`. -/
def transFTSUB : BitVec 32 → Translation := insnFalgOrrr .ftsub

/-- `trans_FTMUL`. -/
def transFTMUL : BitVec 32 → Translation := insnFalgOrrr .ftmul

/-- `trans_FTDIV`. -/
def transFTDIV : BitVec 32 → Translation := insnFalgOrrr .ftdiv

/-- `trans_FTREM`. -/
def transFTREM : BitVec 32 → Translation := insnFalgOrrr .ftrem

/-- `trans_FOADD`. -/
def transFOADD : BitVec 32 → Translation := insnFalgOrrr .foadd

/-- `trans_FOSUB`. -/
def transFOSUB : BitVec 32 → Translation := insnFalgOrrr .fosub

/-- `trans_FOMUL`. -/
def transFOMUL : BitVec 32 → Translation := insnFalgOrrr .fomul

/-- `trans_FODIV`. -/
def transFODIV : BitVec 32 → Translation := insnFalgOrrr .fodiv

/-- `trans_FOREM`. -/
def transFOREM : BitVec 32 → Translation := insnFalgOrrr .forem

/-- `trans_FTSGNJ`. -/
def transFTSGNJ : BitVec 32 → Translation := insnFalgOrrr .ftsgnj

/-- `trans_FTSGNN`. -/
def transFTSGNN : BitVec 32 → Translation := insnFalgOrrr .ftsgnn

/-- `trans_FOSGNJ`. -/
def transFOSGNJ : BitVec 32 → Translation := insnFalgOrrr .fosgnj

/-- `trans_FOSGNN`. -/
def transFOSGNN : BitVec 32 → Translation := insnFalgOrrr .fosgnn

/-- `trans_FTMADD`. -/
def transFTMADD : BitVec 32 → Translation := insnFalgRrrr .ftmadd

/-- `trans_FOMADD`. -/
def transFOMADD : BitVec 32 → Translation := insnFalgRrrr .fomadd

/-- `trans_FTROOT`. -/
def transFTROOT : BitVec 64 → BitVec 32 → Translation := insnFalgOrri .ftroot

/-- `trans_FOROOT`. -/
def transFOROOT : BitVec 64 → BitVec 32 → Translation := insnFalgOrri .foroot

/-- `trans_FTLOG`. -/
def transFTLOG : BitVec 64 → BitVec 32 → Translation := insnFalgOrri .ftlog

/-- `trans_FOLOG`. -/
def transFOLOG : BitVec 64 → BitVec 32 → Translation := insnFalgOrri .folog

/-- `trans_FTQCMP`. -/
def transFTQCMP : BitVec 32 → Translation := insnFcmpOrrr .ftqcmp

/-- `trans_FTSCMP`. -/
def transFTSCMP : BitVec 32 → Translation := insnFcmpOrrr .ftscmp

/-- `trans_FOQCMP`. -/
def transFOQCMP : BitVec 32 → Translation := insnFcmpOrrr .foqcmp

/-- `trans_FOSCMP`. -/
def transFOSCMP : BitVec 32 → Translation := insnFcmpOrrr .foscmp

/-! ## The decoder of all words -/

/-- The register moves, by the minor opcode of the opcode byte `0x10`. -/
def multiMinor10 (w : BitVec 32) : Option Multi :=
  match fieldHa w with
  | 0x28 => some transRD2RD
  | 0x29 => some transRD2RB
  | 0x2a => some transRB2RD
  | 0x2b => some transRB2RB
  | 0x31 => some transRD2RF
  | 0x32 => some transRF2RD
  | 0x33 => some transRF2RF
  | 0x39 => some transRD2RA
  | 0x3a => some transRA2RD
  | _ => none

/-- The conversions, by the minor opcode of the opcode byte `0x50`. -/
def multiMinor50 (w : BitVec 32) : Option Multi :=
  match fieldHa w with
  | 0x00 => some transFTCLS
  | 0x01 => some transFT2FO
  | 0x08 => some transFOCLS
  | 0x09 => some transFO2FT
  | 0x30 => some transFT2IT
  | 0x31 => some transFT2IO
  | 0x32 => some transFT2UT
  | 0x33 => some transFT2UO
  | 0x34 => some transIT2FT
  | 0x35 => some transIO2FT
  | 0x36 => some transUT2FT
  | 0x37 => some transUO2FT
  | 0x38 => some transFO2IT
  | 0x39 => some transFO2IO
  | 0x3a => some transFO2UT
  | 0x3b => some transFO2UO
  | 0x3c => some transIT2FO
  | 0x3d => some transIO2FO
  | 0x3e => some transUT2FO
  | 0x3f => some transUO2FO
  | _ => none

/-- The instructions on several registers. -/
def multiOf (w : BitVec 32) : Option Multi :=
  match (w >>> 24).toNat with
  | 0x10 => multiMinor10 w
  | 0x34 => some transLDMBS
  | 0x35 => some transLDMWS
  | 0x36 => some transLDMTS
  | 0x37 => some transLDMOrd
  | 0x3c => some transSTMB
  | 0x3d => some transSTMW
  | 0x3e => some transSTMTrd
  | 0x3f => some transSTMOrd
  | 0x44 => some transLDMBU
  | 0x45 => some transLDMWU
  | 0x46 => some transLDMTU
  | 0x47 => some transLDMOrb
  | 0x4f => some transSTMOrb
  | 0x50 => multiMinor50 w
  | 0x56 => some transLDMT
  | 0x57 => some transLDMOrf
  | 0x5e => some transSTMTrf
  | 0x5f => some transSTMOrf
  | 0x67 => some transLDMOra
  | 0x6f => some transSTMOra
  | _ => none

/-- The instructions that call a floating point helper for one register. -/
def helperInsn (pc : BitVec 64) (w : BitVec 32) : Option Translation :=
  match (w >>> 24).toNat, fieldHa w with
  | 0x50, 0x06 => some (transFTROOT pc w)
  | 0x50, 0x07 => some (transFTLOG pc w)
  | 0x50, 0x0e => some (transFOROOT pc w)
  | 0x50, 0x0f => some (transFOLOG pc w)
  | 0x50, 0x10 => some (transFTADD w)
  | 0x50, 0x11 => some (transFTSUB w)
  | 0x50, 0x12 => some (transFTMUL w)
  | 0x50, 0x13 => some (transFTDIV w)
  | 0x50, 0x14 => some (transFTREM w)
  | 0x50, 0x16 => some (transFTSGNN w)
  | 0x50, 0x17 => some (transFTSGNJ w)
  | 0x50, 0x18 => some (transFOADD w)
  | 0x50, 0x19 => some (transFOSUB w)
  | 0x50, 0x1a => some (transFOMUL w)
  | 0x50, 0x1b => some (transFODIV w)
  | 0x50, 0x1c => some (transFOREM w)
  | 0x50, 0x1e => some (transFOSGNN w)
  | 0x50, 0x1f => some (transFOSGNJ w)
  | 0x50, 0x20 => some (transFTQCMP w)
  | 0x50, 0x21 => some (transFTSCMP w)
  | 0x50, 0x28 => some (transFOQCMP w)
  | 0x50, 0x29 => some (transFOSCMP w)
  | 0x58, _ => some (transFTMADD w)
  | 0x59, _ => some (transFOMADD w)
  | _, _ => none

/-- `disas_dadao`, with `gen_exception_illegal_instruction` for a word it refuses; `none` when the fuel
is used up. -/
def disasInsn (fuel : ℕ) (pc : BitVec 64) (w : BitVec 32) : Option Translation :=
  match multiOf w with
  | some m => m.trans fuel pc w
  | none =>
    match helperInsn pc w with
    | some t => some t
    | none => some (((disasDadao pc w).getD none).getD (illegalInstruction pc)).translation

/-- What `dadao_tr_translate_insn` puts around an instruction. -/
def Translation.around (pc : BitVec 64) (t : Translation) : Translation :=
  { t with emitted := insnPrologue.map .op ++ t.emitted ++
      if t.isJmp = .next then [.op (movi cpuPc (pc + 4))] else [] }

/-- `dadao_tr_translate_insn`. -/
def translateInsn (fuel : ℕ) (pc : BitVec 64) (w : BitVec 32) : Option Translation :=
  (disasInsn fuel pc w).map (Translation.around pc)

end Dadao.Qemu
