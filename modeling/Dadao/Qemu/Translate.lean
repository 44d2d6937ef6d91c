import Dadao.Lib.Tcg

set_option relaxedAutoImplicit false
set_option autoImplicit false

/-!
# The translation of instructions

A model of `target/dadao/translate.c`: what each `trans_*` function emits, the operations
`dadao_tr_translate_insn` puts around them and the end of the translation block. The decoder is
the one generated from `simrisc.opcodes`; an argument set is read from the word field by field.

## Main definitions

* `Dadao.Qemu.Global` — the TCG globals.
* `Dadao.Qemu.transSETZWrd`, `Dadao.Qemu.pushReturnAddress`, … — the translations.
* `Dadao.Qemu.disasDadao` — the decoder, without the instructions on several registers.
* `Dadao.Qemu.insnOps` — the operations of a translation block of one instruction.
-/

namespace Dadao.Qemu

open Tcg

/-- The TCG globals: the register files, `jmp_pc`, `load_res` and `load_val`. -/
inductive Global where
  | rd (i : ℕ) | rb (i : ℕ) | rf (i : ℕ) | ra (i : ℕ)
  | jmpPc | loadRes | loadVal
  deriving DecidableEq, Repr

/-- A global as a value. -/
abbrev glob (g : Global) : Var Global := .global g

/-- The program counter, `cpu_rb[0]`. -/
abbrev cpuPc : Global := .rb 0

/-- The return address stack pointer, `cpu_ra[0]`. -/
abbrev cpuRasp : Global := .ra 0

/-- `DADAO_EXCP_TRIP`. -/
def excpTrip : ℕ := 1

/-- `DADAO_EXCP_TRAP`. -/
def excpTrap : ℕ := 2

/-- `DADAO_EXCP_ILLI`. -/
def excpIlli : ℕ := 5

/-- `DADAO_EXCP_FPER`. -/
def excpFper : ℕ := 9

/-- `MO_TEUQ`: an octa. -/
def moTeuq : MemOp := ⟨8, false⟩

/-! ## Fields of an instruction word -/

/-- The field `ha`. -/
def fieldHa (w : BitVec 32) : ℕ := (w >>> 18 &&& 0x3f#32).toNat

/-- The field `hb`. -/
def fieldHb (w : BitVec 32) : ℕ := (w >>> 12 &&& 0x3f#32).toNat

/-- The field `hc`. -/
def fieldHc (w : BitVec 32) : ℕ := (w >>> 6 &&& 0x3f#32).toNat

/-- The field `hd`. -/
def fieldHd (w : BitVec 32) : ℕ := (w &&& 0x3f#32).toNat

/-- The field `ww`. -/
def fieldWw (w : BitVec 32) : ℕ := (w >>> 16 &&& 0x3#32).toNat

/-- The field `immu16`. -/
def fieldImmu16 (w : BitVec 32) : BitVec 64 := (w &&& 0xffff#32).setWidth 64

/-- An unsigned field of `n` bits at the low end, `extract32`. -/
def fieldImmu (n : ℕ) (w : BitVec 32) : BitVec 64 := (w.setWidth n).setWidth 64

/-- A signed field of `n` bits at the low end, `sextract32`. -/
def fieldImms (n : ℕ) (w : BitVec 32) : BitVec 64 := (w.setWidth n).signExtend 64

/-! ## What a translation emits -/

/-- The ways a translation function leaves the block (`is_jmp`). -/
inductive DisasJump where
  | next | jump | noreturn
  deriving DecidableEq, Repr

/-- The emitted operations, `is_jmp`, and `jmp_pc_imm`, which is `-1` for a computed jump. -/
structure Emitted where
  ops : List (Op Global)
  isJmp : DisasJump
  jmpPcImm : BitVec 64

/-- A translation that goes on with the next instruction. -/
def Emitted.next (ops : List (Op Global)) : Emitted := ⟨ops, .next, -1⟩

/-- A translation that jumps to `jmp_pc`. -/
def Emitted.jump (ops : List (Op Global)) : Emitted := ⟨ops, .jump, -1⟩

/-- `tcg_gen_movi_i64`. -/
def movi (d : Global) (c : BitVec 64) : Op Global := .mov (glob d) (.const c)

/-- `gen_exception_illegal_instruction`. -/
def illegalInstruction (pc : BitVec 64) : Emitted :=
  ⟨[movi cpuPc pc, .exception excpIlli], .noreturn, -1⟩

/-! ## Loads and stores -/

/-- `INSN_LD_RRII`. The load is made even if the destination is read only; `anyReg` is set for the
file in which no register is. -/
def insnLdRrii (destReg : ℕ → Global) (anyReg : Bool) (op : MemOp) (w : BitVec 32) : Emitted :=
  .next ([.bin .add (.temp 0) (glob (.rb (fieldHb w))) (.const (fieldImms 12 w)),
    .qemuLd (.temp 1) (.temp 0) op] ++
    if fieldHa w ≠ 0 ∨ anyReg then [.mov (glob (destReg (fieldHa w))) (.temp 1)] else [])

/-- `INSN_ST_RRII`. -/
def insnStRrii (srcReg : ℕ → Global) (op : MemOp) (w : BitVec 32) : Emitted :=
  .next [.bin .add (.temp 0) (glob (.rb (fieldHb w))) (.const (fieldImms 12 w)),
    .qemuSt (glob (srcReg (fieldHa w))) (.temp 0) op]

/-- `trans_LDBS`. -/
def transLDBS : BitVec 32 → Emitted := insnLdRrii .rd false ⟨1, true⟩

/-- `trans_LDBU`. -/
def transLDBU : BitVec 32 → Emitted := insnLdRrii .rd false ⟨1, false⟩

/-- `trans_LDWS`. -/
def transLDWS : BitVec 32 → Emitted := insnLdRrii .rd false ⟨2, true⟩

/-- `trans_LDWU`. -/
def transLDWU : BitVec 32 → Emitted := insnLdRrii .rd false ⟨2, false⟩

/-- `trans_LDTS`. -/
def transLDTS : BitVec 32 → Emitted := insnLdRrii .rd false ⟨4, true⟩

/-- `trans_LDTU`. -/
def transLDTU : BitVec 32 → Emitted := insnLdRrii .rd false ⟨4, false⟩

/-- `trans_LDT`. -/
def transLDT : BitVec 32 → Emitted := insnLdRrii .rf true ⟨4, false⟩

/-- `trans_LDOrd`. -/
def transLDOrd : BitVec 32 → Emitted := insnLdRrii .rd false moTeuq

/-- `trans_LDOrb`. -/
def transLDOrb : BitVec 32 → Emitted := insnLdRrii .rb false moTeuq

/-- `trans_LDOrf`. -/
def transLDOrf : BitVec 32 → Emitted := insnLdRrii .rf true moTeuq

/-- `trans_STB`. -/
def transSTB : BitVec 32 → Emitted := insnStRrii .rd ⟨1, false⟩

/-- `trans_STW`. -/
def transSTW : BitVec 32 → Emitted := insnStRrii .rd ⟨2, false⟩

/-- `trans_STTrd`. -/
def transSTTrd : BitVec 32 → Emitted := insnStRrii .rd ⟨4, false⟩

/-- `trans_STTrf`. -/
def transSTTrf : BitVec 32 → Emitted := insnStRrii .rf ⟨4, false⟩

/-- `trans_STOrd`. -/
def transSTOrd : BitVec 32 → Emitted := insnStRrii .rd moTeuq

/-- `trans_STOrb`. -/
def transSTOrb : BitVec 32 → Emitted := insnStRrii .rb moTeuq

/-- `trans_STOrf`. -/
def transSTOrf : BitVec 32 → Emitted := insnStRrii .rf moTeuq

/-! ## Register assignment -/

/-- The register of file `rd` that a field names. -/
abbrev rdOf (field : BitVec 32 → ℕ) (w : BitVec 32) : Var Global := glob (.rd (field w))

/-- The register of file `rb` that a field names. -/
abbrev rbOf (field : BitVec 32 → ℕ) (w : BitVec 32) : Var Global := glob (.rb (field w))

/-- The register of file `rf` that a field names. -/
abbrev rfOf (field : BitVec 32 → ℕ) (w : BitVec 32) : Var Global := glob (.rf (field w))

/-- `INSN_CSET1_RRRR`. -/
def insnCset1Rrrr (cond : Cond) (w : BitVec 32) : Emitted :=
  .next (if fieldHb w = 0 then []
    else [.movcond cond (rdOf fieldHb w) (rdOf fieldHa w) (glob (.rd 0)) (rdOf fieldHc w)
      (rdOf fieldHd w)])

/-- `trans_CSNrd`. -/
def transCSNrd : BitVec 32 → Emitted := insnCset1Rrrr .lt

/-- `trans_CSZrd`. -/
def transCSZrd : BitVec 32 → Emitted := insnCset1Rrrr .eq

/-- `trans_CSPrd`. -/
def transCSPrd : BitVec 32 → Emitted := insnCset1Rrrr .gt

/-- `INSN_CSET2_RRRR`. -/
def insnCset2Rrrr (cond : Cond) (w : BitVec 32) : Emitted :=
  .next (if fieldHc w = 0 then []
    else [.movcond cond (rdOf fieldHc w) (rdOf fieldHa w) (rdOf fieldHb w) (rdOf fieldHd w)
      (rdOf fieldHc w)])

/-- `trans_CSEQ`. -/
def transCSEQ : BitVec 32 → Emitted := insnCset2Rrrr .eq

/-- `trans_CSNE`. -/
def transCSNE : BitVec 32 → Emitted := insnCset2Rrrr .ne

/-- `INSN_FCSET_RRRR`. -/
def insnFcsetRrrr (cond : Cond) (w : BitVec 32) : Emitted :=
  .next [.movcond cond (rfOf fieldHb w) (rdOf fieldHa w) (glob (.rd 0)) (rfOf fieldHc w)
    (rfOf fieldHd w)]

/-- `trans_CSNrf`. -/
def transCSNrf : BitVec 32 → Emitted := insnFcsetRrrr .lt

/-- `trans_CSZrf`. -/
def transCSZrf : BitVec 32 → Emitted := insnFcsetRrrr .eq

/-- `trans_CSPrf`. -/
def transCSPrf : BitVec 32 → Emitted := insnFcsetRrrr .gt

/-- `INSN_FCSET_ORRR`. -/
def insnFcsetOrrr (cond : Cond) (w : BitVec 32) : Emitted :=
  .next [.movcond cond (rfOf fieldHc w) (rdOf fieldHb w) (.const 1) (rfOf fieldHd w)
    (rfOf fieldHc w)]

/-- `trans_CSP1`. -/
def transCSP1 : BitVec 32 → Emitted := insnFcsetOrrr .eq

/-- `trans_CSNP1`. -/
def transCSNP1 : BitVec 32 → Emitted := insnFcsetOrrr .ne

/-- The 16-bit immediate at its wyde position. -/
def wydeArg (w : BitVec 32) : BitVec 64 := fieldImmu16 w <<< (fieldWw w * 16)

/-- `trans_SETOW`. -/
def transSETOW (w : BitVec 32) : Emitted :=
  .next (if fieldHa w = 0 then []
    else [movi (.rd (fieldHa w)) (wydeArg w ||| ~~~(0xFFFF#64 <<< (fieldWw w * 16)))])

/-- `INSN_SETZW_RWII`. -/
def insnSetzwRwii (cpuHa : ℕ → Global) (w : BitVec 32) : Emitted :=
  .next (if fieldHa w = 0 then [] else [movi (cpuHa (fieldHa w)) (wydeArg w)])

/-- `INSN_ORW_RWII`. -/
def insnOrwRwii (cpuHa : ℕ → Global) (w : BitVec 32) : Emitted :=
  .next (if fieldHa w = 0 then []
    else [.bin .or (glob (cpuHa (fieldHa w))) (glob (cpuHa (fieldHa w))) (.const (wydeArg w))])

/-- `INSN_ANDNW_RWII`. -/
def insnAndnwRwii (cpuHa : ℕ → Global) (w : BitVec 32) : Emitted :=
  .next (if fieldHa w = 0 then []
    else [.bin .and (glob (cpuHa (fieldHa w))) (glob (cpuHa (fieldHa w))) (.const (~~~ wydeArg w))])

/-- `trans_SETZWrd`. -/
def transSETZWrd : BitVec 32 → Emitted := insnSetzwRwii .rd

/-- `trans_SETZWrb`. -/
def transSETZWrb : BitVec 32 → Emitted := insnSetzwRwii .rb

/-- `trans_ORWrd`. -/
def transORWrd : BitVec 32 → Emitted := insnOrwRwii .rd

/-- `trans_ORWrb`. -/
def transORWrb : BitVec 32 → Emitted := insnOrwRwii .rb

/-- `trans_ANDNWrd`. -/
def transANDNWrd : BitVec 32 → Emitted := insnAndnwRwii .rd

/-- `trans_ANDNWrb`. -/
def transANDNWrb : BitVec 32 → Emitted := insnAndnwRwii .rb

/-- `trans_SETW`, which has no read-only destination. -/
def transSETW (w : BitVec 32) : Emitted :=
  let reg := glob (.rf (fieldHa w))
  .next [.bin .and reg reg (.const (~~~(0xFFFF#64 <<< (fieldWw w * 16)))),
    .bin .or reg reg (.const (wydeArg w))]

/-! ## Arithmetic -/

/-- `INSN_ALG1_RRII`. -/
def insnAlg1Rrii (srcDest : ℕ → Global) (w : BitVec 32) : Emitted :=
  .next (if fieldHa w = 0 then []
    else [.bin .add (glob (srcDest (fieldHa w))) (glob (srcDest (fieldHb w)))
      (.const (fieldImms 12 w))])

/-- `trans_ADDIrd`. -/
def transADDIrd : BitVec 32 → Emitted := insnAlg1Rrii .rd

/-- `trans_ADDIrb`. -/
def transADDIrb : BitVec 32 → Emitted := insnAlg1Rrii .rb

/-- `trans_ADRP`. -/
def transADRP (pc : BitVec 64) (w : BitVec 32) : Emitted :=
  let reg := glob (.rb (fieldHa w))
  .next (if fieldHa w = 0 then []
    else [.mov reg (.const pc), .bin .and reg reg (.const (~~~ 0xFFF#64)),
      .bin .add reg reg (.const (fieldImms 18 w <<< 12))])

/-- `INSN_ALG1_RRRR`: without `ha` the low half only. -/
def insnAlg1Rrrr (op : BinOp) (op2 : WideOp) (w : BitVec 32) : Emitted :=
  .next (if fieldHa w = 0 ∧ fieldHb w ≠ 0 then
      [.bin op (rdOf fieldHb w) (rdOf fieldHc w) (rdOf fieldHd w)]
    else
      [.bin .sar (.temp 1) (rdOf fieldHc w) (.const 63),
        .bin .sar (.temp 2) (rdOf fieldHd w) (.const 63),
        .wide op2 (.temp 1) (.temp 2) (rdOf fieldHc w) (.temp 1) (rdOf fieldHd w) (.temp 2)] ++
      (if fieldHb w ≠ 0 then [.mov (rdOf fieldHb w) (.temp 1)] else []) ++
      (if fieldHa w ≠ 0 then [.mov (rdOf fieldHa w) (.temp 2)] else []))

/-- `trans_ADDrd`. -/
def transADDrd : BitVec 32 → Emitted := insnAlg1Rrrr .add .add2

/-- `trans_SUBrd`. -/
def transSUBrd : BitVec 32 → Emitted := insnAlg1Rrrr .sub .sub2

/-- `INSN_ALG1_ORRR`. -/
def insnAlg1Orrr (op : BinOp) (w : BitVec 32) : Emitted :=
  .next (if fieldHb w = 0 then []
    else [.bin op (rbOf fieldHb w) (rbOf fieldHc w) (rdOf fieldHd w)])

/-- `trans_ADDrb`. -/
def transADDrb : BitVec 32 → Emitted := insnAlg1Orrr .add

/-- `trans_SUBrb`. -/
def transSUBrb : BitVec 32 → Emitted := insnAlg1Orrr .sub

/-- `INSN_CMP_RRII`. -/
def insnCmpRrii (imm : BitVec 64) (cond : Cond) (w : BitVec 32) : Emitted :=
  .next (if fieldHa w = 0 then []
    else [.setcond cond (.temp 1) (rdOf fieldHb w) (.const imm),
      .movcond cond (rdOf fieldHa w) (.const imm) (rdOf fieldHb w) (.const (-1)) (.temp 1)])

/-- `trans_CMPSi`. -/
def transCMPSi (w : BitVec 32) : Emitted := insnCmpRrii (fieldImms 12 w) .gt w

/-- `trans_CMPUi`. -/
def transCMPUi (w : BitVec 32) : Emitted := insnCmpRrii (fieldImmu 12 w) .gtu w

/-- `INSN_CMP_ORRR`. -/
def insnCmpOrrr (srcReg : ℕ → Global) (cond : Cond) (w : BitVec 32) : Emitted :=
  .next (if fieldHb w = 0 then []
    else [.setcond cond (.temp 1) (glob (srcReg (fieldHc w))) (glob (srcReg (fieldHd w))),
      .movcond cond (rdOf fieldHb w) (glob (srcReg (fieldHd w))) (glob (srcReg (fieldHc w)))
        (.const (-1)) (.temp 1)])

/-- `trans_CMPSr`. -/
def transCMPSr : BitVec 32 → Emitted := insnCmpOrrr .rd .gt

/-- `trans_CMPUr`. -/
def transCMPUr : BitVec 32 → Emitted := insnCmpOrrr .rd .gtu

/-- `trans_CMP`. -/
def transCMP : BitVec 32 → Emitted := insnCmpOrrr .rb .gtu

/-- The assignments at the end of `INSN_MUL_RRRR` and `INSN_DIV_RRRR`: `ha` first. -/
def movHaHb (w : BitVec 32) : List (Op Global) :=
  (if fieldHa w ≠ 0 then [.mov (rdOf fieldHa w) (.temp 2)] else []) ++
  (if fieldHb w ≠ 0 then [.mov (rdOf fieldHb w) (.temp 1)] else [])

/-- `INSN_MUL_RRRR`. -/
def insnMulRrrr (op2 : WideOp) (w : BitVec 32) : Emitted :=
  .next ([.wide op2 (.temp 1) (.temp 2) (rdOf fieldHc w) (.const 0) (rdOf fieldHd w) (.const 0)] ++
    movHaHb w)

/-- `trans_MULS`. -/
def transMULS : BitVec 32 → Emitted := insnMulRrrr .muls2

/-- `trans_MULU`. -/
def transMULU : BitVec 32 → Emitted := insnMulRrrr .mulu2

/-- `INSN_DIV_RRRR`; the label is `label_not_zero`. -/
def insnDivRrrr (divop remop : BinOp) (w : BitVec 32) : Emitted :=
  .next ([.brcond .ne (rdOf fieldHd w) (glob (.rd 0)) 0,
    .exception excpFper,
    .setLabel 0,
    .bin divop (.temp 1) (rdOf fieldHc w) (rdOf fieldHd w),
    .bin remop (.temp 2) (rdOf fieldHc w) (rdOf fieldHd w)] ++ movHaHb w)

/-- `trans_DIVS`. -/
def transDIVS : BitVec 32 → Emitted := insnDivRrrr .div .rem

/-- `trans_DIVU`. -/
def transDIVU : BitVec 32 → Emitted := insnDivRrrr .divu .remu

/-! ## Logic -/

/-- `INSN_LOGIC_ORRR`. -/
def insnLogicOrrr (op : BinOp) (w : BitVec 32) : Emitted :=
  .next (if fieldHb w ≠ 0 then [.bin op (rdOf fieldHb w) (rdOf fieldHc w) (rdOf fieldHd w)] else [])

/-- `trans_AND`. -/
def transAND : BitVec 32 → Emitted := insnLogicOrrr .and

/-- `trans_ORR`. -/
def transORR : BitVec 32 → Emitted := insnLogicOrrr .or

/-- `trans_XOR`. -/
def transXOR : BitVec 32 → Emitted := insnLogicOrrr .xor

/-- `trans_SHLUr`. -/
def transSHLUr : BitVec 32 → Emitted := insnLogicOrrr .shl

/-- `trans_SHRUr`. -/
def transSHRUr : BitVec 32 → Emitted := insnLogicOrrr .shr

/-- `trans_SHRSr`. -/
def transSHRSr : BitVec 32 → Emitted := insnLogicOrrr .sar

/-- `trans_XNOR`. -/
def transXNOR (w : BitVec 32) : Emitted :=
  .next (if fieldHb w = 0 then []
    else [.bin .xor (rdOf fieldHb w) (rdOf fieldHc w) (rdOf fieldHd w),
      .bin .xor (rdOf fieldHb w) (rdOf fieldHb w) (.const 0xffffffffffffffff)])

/-- `trans_ANDI`. -/
def transANDI (w : BitVec 32) : Emitted :=
  .next (if fieldHa w = 0 then []
    else [.bin .and (rdOf fieldHa w) (rdOf fieldHb w) (.const (fieldImmu 12 w))])

/-- `INSN_EXT_ORRR`. The amount is copied first, since `hb` and `hd` can be the same register. -/
def insnExtOrrr (op : BinOp) (w : BitVec 32) : Emitted :=
  .next (if fieldHb w = 0 then []
    else [.mov (.temp 1) (rdOf fieldHd w),
      .bin .shl (rdOf fieldHb w) (rdOf fieldHc w) (.temp 1),
      .bin op (rdOf fieldHb w) (rdOf fieldHb w) (.temp 1)])

/-- `trans_EXTSr`. -/
def transEXTSr : BitVec 32 → Emitted := insnExtOrrr .sar

/-- `trans_EXTZr`. -/
def transEXTZr : BitVec 32 → Emitted := insnExtOrrr .shr

/-- `INSN_LOGIC_ORRI`. -/
def insnLogicOrri (op : BinOp) (w : BitVec 32) : Emitted :=
  .next (if fieldHb w ≠ 0 then
    [.bin op (rdOf fieldHb w) (rdOf fieldHc w) (.const (fieldImmu 6 w))] else [])

/-- `trans_SHLUi`. -/
def transSHLUi : BitVec 32 → Emitted := insnLogicOrri .shl

/-- `trans_SHRUi`. -/
def transSHRUi : BitVec 32 → Emitted := insnLogicOrri .shr

/-- `trans_SHRSi`. -/
def transSHRSi : BitVec 32 → Emitted := insnLogicOrri .sar

/-- `INSN_EXT_ORRI`. -/
def insnExtOrri (op : BinOp) (w : BitVec 32) : Emitted :=
  .next (if fieldHb w = 0 then []
    else [.bin .shl (rdOf fieldHb w) (rdOf fieldHc w) (.const (fieldImmu 6 w)),
      .bin op (rdOf fieldHb w) (rdOf fieldHb w) (.const (fieldImmu 6 w))])

/-- `trans_EXTSi`. -/
def transEXTSi : BitVec 32 → Emitted := insnExtOrri .sar

/-- `trans_EXTZi`. -/
def transEXTZi : BitVec 32 → Emitted := insnExtOrri .shr

/-! ## Control flow -/

/-- `INSN_BR_RRII`. -/
def insnBrRrii (cond : Cond) (pc : BitVec 64) (w : BitVec 32) : Emitted :=
  .jump [.movcond cond (glob .jmpPc) (glob (.rd (fieldHa w))) (glob (.rd (fieldHb w)))
    (.const (pc + fieldImms 12 w * 4)) (.const (pc + 4))]

/-- `INSN_BR_RIII`. -/
def insnBrRiii (cond : Cond) (pc : BitVec 64) (w : BitVec 32) : Emitted :=
  .jump [.movcond cond (glob .jmpPc) (glob (.rd (fieldHa w))) (glob (.rd 0))
    (.const (pc + fieldImms 18 w * 4)) (.const (pc + 4))]

/-- `trans_BREQ`. -/
def transBREQ : BitVec 64 → BitVec 32 → Emitted := insnBrRrii .eq

/-- `trans_BRNE`. -/
def transBRNE : BitVec 64 → BitVec 32 → Emitted := insnBrRrii .ne

/-- `trans_BRN`. -/
def transBRN : BitVec 64 → BitVec 32 → Emitted := insnBrRiii .lt

/-- `trans_BRNN`. -/
def transBRNN : BitVec 64 → BitVec 32 → Emitted := insnBrRiii .ge

/-- `trans_BRZ`. -/
def transBRZ : BitVec 64 → BitVec 32 → Emitted := insnBrRiii .eq

/-- `trans_BRNZ`. -/
def transBRNZ : BitVec 64 → BitVec 32 → Emitted := insnBrRiii .ne

/-- `trans_BRP`. -/
def transBRP : BitVec 64 → BitVec 32 → Emitted := insnBrRiii .gt

/-- `trans_BRNP`. -/
def transBRNP : BitVec 64 → BitVec 32 → Emitted := insnBrRiii .le

/-- `trans_JUMPi`. -/
def transJUMPi (pc : BitVec 64) (w : BitVec 32) : Emitted :=
  ⟨[], .jump, pc + fieldImms 24 w * 4⟩

/-- `trans_JUMPr`. -/
def transJUMPr (w : BitVec 32) : Emitted :=
  .jump [.mov (glob .jmpPc) (glob (.rb (fieldHa w))),
    .bin .add (glob .jmpPc) (glob .jmpPc) (glob (.rd (fieldHb w))),
    .bin .add (glob .jmpPc) (glob .jmpPc) (.const (fieldImms 12 w * 4))]

/-- `push_return_address`; the labels are `reg_ras_not_full` and `rasp_set`. -/
def pushReturnAddress (pc : BitVec 64) : List (Op Global) :=
  [.brcond .eq (glob (.ra 1)) (.const 0) 0,
    .brcond .ne (glob cpuRasp) (.const 0) 1,
    .exception excpTrip,
    .setLabel 1,
    .bin .add (glob cpuRasp) (glob cpuRasp) (.const (-8)),
    .qemuSt (glob (.ra 1)) (glob cpuRasp) moTeuq,
    .setLabel 0] ++
  (List.range 62).map (fun i => .mov (glob (.ra (i + 1))) (glob (.ra (i + 2)))) ++
  [movi (.ra 63) (pc + 4)]

/-- `pop_return_address`; the labels are `reg_ras_not_empty`, `rasp_set` and `done`. -/
def popReturnAddress : List (Op Global) :=
  [.brcond .ne (glob (.ra 63)) (.const 0) 0,
    .brcond .ne (glob cpuRasp) (.const 0) 1,
    .exception excpTrip,
    .setLabel 1,
    .qemuLd (glob .jmpPc) (glob cpuRasp) moTeuq,
    .bin .add (glob cpuRasp) (glob cpuRasp) (.const 8),
    .br 2,
    .setLabel 0,
    .mov (glob .jmpPc) (glob (.ra 63))] ++
  (List.range 62).map (fun i => .mov (glob (.ra (63 - i))) (glob (.ra (62 - i)))) ++
  [.mov (glob (.ra 1)) (.const 0), .setLabel 2]

/-- `trans_CALLi`. -/
def transCALLi (pc : BitVec 64) (w : BitVec 32) : Emitted :=
  { transJUMPi pc w with ops := pushReturnAddress pc ++ (transJUMPi pc w).ops }

/-- `trans_CALLr`. -/
def transCALLr (pc : BitVec 64) (w : BitVec 32) : Emitted :=
  { transJUMPr w with ops := pushReturnAddress pc ++ (transJUMPr w).ops }

/-- `trans_RET`. -/
def transRET (w : BitVec 32) : Emitted :=
  .jump ((if fieldHa w ≠ 0 then [movi (.rd (fieldHa w)) (fieldImms 18 w)] else []) ++
    popReturnAddress)

/-! ## Load reserved and store conditional

The variants differ in their barriers only. -/

/-- The body of `trans_LRO_*`; the barriers are before and after the load. -/
def transLRO (rel acq : Bool) (w : BitVec 32) : Option Emitted :=
  if fieldHd w = 0 ∨ fieldHb w ≠ 0 then none
  else if fieldHc w = 0 then some (.next [])
  else some (.next ([.mov (.temp 0) (glob (.rb (fieldHd w)))] ++
    (if rel then [.mb] else []) ++
    [.qemuLd (glob .loadVal) (.temp 0) moTeuq] ++
    (if acq then [.mb] else []) ++
    [.mov (glob .loadRes) (.temp 0), .mov (glob (.rd (fieldHc w))) (glob .loadVal)]))

/-- The body of `trans_SCO_*`, the same operations in all four variants. -/
def transSCO (w : BitVec 32) : Option Emitted :=
  if fieldHd w = 0 ∨ fieldHb w = 0 then none
  else some (.next [
    .mov (.temp 0) (glob (.rb (fieldHd w))),
    .brcond .ne (glob .loadRes) (.temp 0) 1,
    .atomicCmpxchg (.temp 0) (glob .loadRes) (glob .loadVal) (glob (.rd (fieldHc w))) moTeuq,
    .setcond .ne (.temp 1) (.temp 0) (glob .loadVal),
    .mov (glob (.rd (fieldHb w))) (.temp 1),
    .br 2,
    .setLabel 1,
    .mb,
    .mov (.temp 1) (.const 1),
    .mov (glob (.rd (fieldHb w))) (.temp 1),
    .setLabel 2,
    movi .loadRes (-1)])

/-- `trans_LRO_NN`. -/
def transLRO_NN : BitVec 32 → Option Emitted := transLRO false false

/-- `trans_LRO_NR`. -/
def transLRO_NR : BitVec 32 → Option Emitted := transLRO true false

/-- `trans_LRO_AN`. -/
def transLRO_AN : BitVec 32 → Option Emitted := transLRO false true

/-- `trans_LRO_AR`. -/
def transLRO_AR : BitVec 32 → Option Emitted := transLRO true true

/-- `trans_SCO_NN`. -/
def transSCO_NN : BitVec 32 → Option Emitted := transSCO

/-- `trans_SCO_NR`. -/
def transSCO_NR : BitVec 32 → Option Emitted := transSCO

/-- `trans_SCO_AN`. -/
def transSCO_AN : BitVec 32 → Option Emitted := transSCO

/-- `trans_SCO_AR`. -/
def transSCO_AR : BitVec 32 → Option Emitted := transSCO

/-! ## The decoder -/

/-- `trans_TRAP`. -/
def transTRAP (w : BitVec 32) : Option Emitted :=
  if fieldHa w ≠ 0 ∨ fieldImmu 18 w ≠ 0 then none
  else some ⟨[.exception excpTrap], .noreturn, -1⟩

/-- The instructions with opcode byte `0x10`, by their minor opcode. -/
def disasMinor10 (pc : BitVec 64) (w : BitVec 32) : Option (Option Emitted) :=
  match fieldHa w with
  | 0x00 => some (some (.next []))
  | 0x08 => some (some (transAND w))
  | 0x09 => some (some (transORR w))
  | 0x0a => some (some (transXOR w))
  | 0x0b => some (some (transXNOR w))
  | 0x11 => some (some (transSHLUr w))
  | 0x12 => some (some (transSHRSr w))
  | 0x13 => some (some (transSHRUr w))
  | 0x14 => some (some (transEXTSr w))
  | 0x15 => some (some (transEXTZr w))
  | 0x19 => some (some (transSHLUi w))
  | 0x1a => some (some (transSHRSi w))
  | 0x1b => some (some (transSHRUi w))
  | 0x1c => some (some (transEXTSi w))
  | 0x1d => some (some (transEXTZi w))
  | 0x24 => some (some (transCMPSr w))
  | 0x25 => some (some (transCMPUr w))
  | 0x28 | 0x29 | 0x2a | 0x2b => none
  | 0x2d => some (some (transCMP w))
  | 0x2e => some (some (transADDrb w))
  | 0x2f => some (some (transSUBrb w))
  | 0x31 | 0x32 | 0x33 => none
  | 0x36 => some (some (transCSP1 w))
  | 0x37 => some (some (transCSNP1 w))
  | 0x39 | 0x3a => none
  | 0x3f => some (some (illegalInstruction pc))
  | _ => some none

/-- The instructions with opcode byte `0x70`, by their minor opcode. -/
def disasMinor70 (w : BitVec 32) : Option (Option Emitted) :=
  match fieldHa w with
  | 0x00 => some (some (.next []))
  | 0x20 => some (transLRO_NN w)
  | 0x21 => some (transLRO_NR w)
  | 0x22 => some (transLRO_AN w)
  | 0x23 => some (transLRO_AR w)
  | 0x28 => some (transSCO_NN w)
  | 0x29 => some (transSCO_NR w)
  | 0x2a => some (transSCO_AN w)
  | 0x2b => some (transSCO_AR w)
  | _ => some none

/-- `disas_dadao`: `none` for an instruction on several registers or one that calls a floating point
helper, `some none` for a word without an instruction or whose translation function returns
`false`. -/
def disasDadao (pc : BitVec 64) (w : BitVec 32) : Option (Option Emitted) :=
  match (w >>> 24).toNat with
  | 0x10 => disasMinor10 pc w
  | 0x12 => some (some (transCMPSi w))
  | 0x13 => some (some (transCMPUi w))
  | 0x14 => some (some (transORWrd w))
  | 0x15 => some (some (transANDNWrd w))
  | 0x16 => some (some (transSETZWrd w))
  | 0x17 => some (some (transSETOW w))
  | 0x18 => some (some (transANDI w))
  | 0x19 => some (some (transADDIrd w))
  | 0x1a => some (some (transADDrd w))
  | 0x1b => some (some (transSUBrd w))
  | 0x1c => some (some (transMULS w))
  | 0x1d => some (some (transMULU w))
  | 0x1e => some (some (transDIVS w))
  | 0x1f => some (some (transDIVU w))
  | 0x20 => some (some (transCSNrd w))
  | 0x21 => some (some (transCSNrf w))
  | 0x22 => some (some (transCSZrd w))
  | 0x23 => some (some (transCSZrf w))
  | 0x24 => some (some (transCSPrd w))
  | 0x25 => some (some (transCSPrf w))
  | 0x26 => some (some (transCSEQ w))
  | 0x27 => some (some (transCSNE w))
  | 0x28 => some (some (transBRN pc w))
  | 0x29 => some (some (transBRNN pc w))
  | 0x2a => some (some (transBRZ pc w))
  | 0x2b => some (some (transBRNZ pc w))
  | 0x2c => some (some (transBRP pc w))
  | 0x2d => some (some (transBRNP pc w))
  | 0x2e => some (some (transBREQ pc w))
  | 0x2f => some (some (transBRNE pc w))
  | 0x30 => some (some (transLDBS w))
  | 0x31 => some (some (transLDWS w))
  | 0x32 => some (some (transLDTS w))
  | 0x33 => some (some (transLDOrd w))
  | 0x34 | 0x35 | 0x36 | 0x37 => none
  | 0x38 => some (some (transSTB w))
  | 0x39 => some (some (transSTW w))
  | 0x3a => some (some (transSTTrd w))
  | 0x3b => some (some (transSTOrd w))
  | 0x3c | 0x3d | 0x3e | 0x3f => none
  | 0x40 => some (some (transLDBU w))
  | 0x41 => some (some (transLDWU w))
  | 0x42 => some (some (transLDTU w))
  | 0x43 => some (some (transLDOrb w))
  | 0x44 | 0x45 | 0x46 | 0x47 => none
  | 0x48 => some (some (transADRP pc w))
  | 0x49 => some (some (transADDIrb w))
  | 0x4b => some (some (transSTOrb w))
  | 0x4c => some (some (transORWrb w))
  | 0x4d => some (some (transANDNWrb w))
  | 0x4e => some (some (transSETZWrb w))
  | 0x4f | 0x50 => none
  | 0x52 => some (some (transLDT w))
  | 0x53 => some (some (transLDOrf w))
  | 0x54 => some (some (transSETW w))
  | 0x56 | 0x57 | 0x58 | 0x59 => none
  | 0x5a => some (some (transSTTrf w))
  | 0x5b => some (some (transSTOrf w))
  | 0x5e | 0x5f => none
  | 0x64 => some (some (transJUMPi pc w))
  | 0x65 => some (some (transJUMPr w))
  | 0x67 => none
  | 0x6c => some (some (transCALLi pc w))
  | 0x6d => some (some (transCALLr pc w))
  | 0x6e => some (some (transRET w))
  | 0x6f => none
  | 0x70 => disasMinor70 w
  | 0x76 => some (transTRAP w)
  | _ => some none

/-! ## A translation block of one instruction -/

/-- `__DDAEE_FCSR_MASK_RDMODE__ | __DDAEE_FCSR_MASK_FFLAGS__`. -/
def fcsrMask : BitVec 64 := 0x3001f

/-- `__DDAEE_FCSR_DEFAULT__`. -/
def fcsrDefault : BitVec 64 := 0x7ff800007fc00000

/-- The operations emitted before every instruction. -/
def insnPrologue : List (Op Global) :=
  [movi (.rd 0) 0, .bin .and (glob (.rf 0)) (glob (.rf 0)) (.const fcsrMask),
    .bin .or (glob (.rf 0)) (glob (.rf 0)) (.const fcsrDefault)]

/-- The assignment of the program counter at the end of the block (`dadao_tr_translate_insn`,
`dadao_tr_tb_stop`). -/
def tbStop (pc : BitVec 64) (e : Emitted) : List (Op Global) :=
  match e.isJmp with
  | .noreturn => []
  | .next => [movi cpuPc (pc + 4)]
  | .jump => if e.jmpPcImm = -1 then [.mov (glob cpuPc) (glob .jmpPc)] else [movi cpuPc e.jmpPcImm]

/-- The operations of a translation block that holds one instruction. -/
def insnOps (pc : BitVec 64) (e : Option Emitted) : List (Op Global) :=
  let e := e.getD (illegalInstruction pc)
  insnPrologue ++ e.ops ++ tbStop pc e

/-- Execute the instruction word `w` at `pc`; `none` for an instruction `disasDadao` leaves out. -/
def execInsn (pc : BitVec 64) (w : BitVec 32) (s : Machine Global) : Option (Outcome Global) :=
  (disasDadao pc w).map fun e => exec (insnOps pc e) none s

end Dadao.Qemu
