import Dadao.Qemu.Execute
import Dadao.Wuming.Cores

set_option relaxedAutoImplicit false
set_option autoImplicit false

/-!
# The instructions of the one-stage core in the simulator

The decoder of the simulator on the words the decode table of the core has a row for, but for the
instructions of the coprocessors, of the floating point registers and of the return address stack: the
two name the same fields of a word and the simulator has a translation function for each row.

## Main definitions

* `Dadao.Wuming.Insn.inScope` — the instructions that are compared.
* `Dadao.Wuming.Insn.multi`, `Dadao.Wuming.Insn.emitted` — the translation function of an instruction.

## Main results

* `Dadao.Wuming.disasInsn_of_plain`, `Dadao.Wuming.disasInsn_of_one` — the simulator decodes as the
  core does.
-/

namespace Dadao

namespace Wuming

open Qemu (Emitted Multi fieldHa fieldHb fieldHc fieldHd fieldImms fieldImmu)

/-! ### Fields -/

section Fields

variable (w : BitVec 32)

lemma opcode_eq : (w >>> 24).toNat = (w.extractLsb' 24 8).toNat := by
  rw [BitVec.extractLsb'_toNat, BitVec.toNat_ushiftRight, Nat.shiftRight_eq_div_pow]
  have := w.isLt
  omega

/-- A field of six bits, masked or cut out. -/
lemma toNat_field (n : ℕ) : (w >>> n &&& 0x3f#32).toNat = (w.extractLsb' n 6).toNat := by
  rw [BitVec.toNat_and, BitVec.toNat_ushiftRight, BitVec.extractLsb'_toNat]
  exact Nat.and_two_pow_sub_one_eq_mod _ 6

@[simp] lemma fieldHa_eq : fieldHa w = (ha w).toNat := toNat_field w 18

@[simp] lemma fieldHb_eq : fieldHb w = (hb w).toNat := toNat_field w 12

@[simp] lemma fieldHc_eq : fieldHc w = (hc w).toNat := toNat_field w 6

@[simp] lemma fieldHd_eq : fieldHd w = (hd w).toNat := by
  have h := toNat_field w 0
  rwa [BitVec.ushiftRight_zero] at h

/-- The low bits of a word. -/
lemma setWidth_eq_extractLsb' (n : ℕ) : w.setWidth n = w.extractLsb' 0 n := by
  apply BitVec.eq_of_toNat_eq
  rw [BitVec.toNat_setWidth, BitVec.extractLsb'_toNat, Nat.shiftRight_zero]

@[simp] lemma fieldImms12_eq : fieldImms 12 w = imms12 w := by rw [fieldImms, setWidth_eq_extractLsb']; rfl

@[simp] lemma fieldImms18_eq : fieldImms 18 w = imms18 w := by rw [fieldImms, setWidth_eq_extractLsb']; rfl

@[simp] lemma fieldImms24_eq : fieldImms 24 w = imms24 w := by rw [fieldImms, setWidth_eq_extractLsb']; rfl

@[simp] lemma fieldImmu12_eq : fieldImmu 12 w = immu12 w := by rw [fieldImmu, setWidth_eq_extractLsb']; rfl

@[simp] lemma fieldImmu6_eq : fieldImmu 6 w = immu6 w := by rw [fieldImmu, setWidth_eq_extractLsb']; rfl

/-- The place of a wyde. -/
lemma fieldWw_eq : Qemu.fieldWw w = (w.extractLsb' 16 2).toNat := by
  rw [Qemu.fieldWw, BitVec.toNat_and, BitVec.toNat_ushiftRight, BitVec.extractLsb'_toNat]
  exact Nat.and_two_pow_sub_one_eq_mod _ 2

/-- The wyde of a word. -/
@[simp] lemma wydeArg_eq : Qemu.wydeArg w = wyde w := by
  have himm : Qemu.fieldImmu16 w = (w.extractLsb' 0 16).setWidth 64 := by
    apply BitVec.eq_of_toNat_eq
    rw [Qemu.fieldImmu16, BitVec.toNat_setWidth, BitVec.toNat_setWidth, BitVec.toNat_and,
      BitVec.extractLsb'_toNat, Nat.shiftRight_zero]
    exact congrArg (· % 2 ^ 64) (Nat.and_two_pow_sub_one_eq_mod _ 16)
  rw [Qemu.wydeArg, fieldWw_eq, himm]
  rfl

/-- The mask of a wyde. -/
@[simp] lemma wydeMask_eq : ~~~(0xFFFF#64 <<< (Qemu.fieldWw w * 16)) = wydeMask w := by
  rw [wydeMask, wydePosition, fieldWw_eq, BitVec.allOnes_and]

end Fields

/-! ### Instructions -/

namespace Insn

/-- **The instructions that are compared**: all but those of the coprocessors and the CSR file, of the
floating point registers and of the return address stack. -/
def inScope : Insn → Bool
  | .cpco | .cprd | .cpwr | .trap | .escape => false
  | .setw | .rd2rf | .rf2rd | .rf2rf => false
  | .callI | .callR | .ret => false
  | _ => true

/-- The translation function of an instruction on several registers. -/
def multi : Insn → Option Multi
  | .rd2rd => some Qemu.transRD2RD
  | .rd2rb => some Qemu.transRD2RB
  | .rb2rd => some Qemu.transRB2RD
  | .rb2rb => some Qemu.transRB2RB
  | .ldmbs => some Qemu.transLDMBS
  | .ldmws => some Qemu.transLDMWS
  | .ldmts => some Qemu.transLDMTS
  | .ldmoRd => some Qemu.transLDMOrd
  | .ldmbu => some Qemu.transLDMBU
  | .ldmwu => some Qemu.transLDMWU
  | .ldmtu => some Qemu.transLDMTU
  | .stmb => some Qemu.transSTMB
  | .stmw => some Qemu.transSTMW
  | .stmtRd => some Qemu.transSTMTrd
  | .stmoRd => some Qemu.transSTMOrd
  | .ldmoRb => some Qemu.transLDMOrb
  | .stmoRb => some Qemu.transSTMOrb
  | _ => none

/-- The translation of any other instruction that is compared. -/
def emitted (pc : BitVec 64) (w : BitVec 32) : Insn → Emitted
  | .and => Qemu.transAND w
  | .orr => Qemu.transORR w
  | .xor => Qemu.transXOR w
  | .xnor => Qemu.transXNOR w
  | .andi => Qemu.transANDI w
  | .shluR => Qemu.transSHLUr w
  | .shluI => Qemu.transSHLUi w
  | .shrsR => Qemu.transSHRSr w
  | .shrsI => Qemu.transSHRSi w
  | .shruR => Qemu.transSHRUr w
  | .shruI => Qemu.transSHRUi w
  | .extsR => Qemu.transEXTSr w
  | .extsI => Qemu.transEXTSi w
  | .extzR => Qemu.transEXTZr w
  | .extzI => Qemu.transEXTZi w
  | .addRb => Qemu.transADDrb w
  | .subRb => Qemu.transSUBrb w
  | .addiRd => Qemu.transADDIrd w
  | .addiRb => Qemu.transADDIrb w
  | .addRd => Qemu.transADDrd w
  | .subRd => Qemu.transSUBrd w
  | .muls => Qemu.transMULS w
  | .mulu => Qemu.transMULU w
  | .divs => Qemu.transDIVS w
  | .divu => Qemu.transDIVU w
  | .ldbs => Qemu.transLDBS w
  | .ldws => Qemu.transLDWS w
  | .ldts => Qemu.transLDTS w
  | .ldoRd => Qemu.transLDOrd w
  | .ldbu => Qemu.transLDBU w
  | .ldwu => Qemu.transLDWU w
  | .ldtu => Qemu.transLDTU w
  | .stb => Qemu.transSTB w
  | .stw => Qemu.transSTW w
  | .sttRd => Qemu.transSTTrd w
  | .stoRd => Qemu.transSTOrd w
  | .ldoRb => Qemu.transLDOrb w
  | .stoRb => Qemu.transSTOrb w
  | .cmpsI => Qemu.transCMPSi w
  | .cmpsR => Qemu.transCMPSr w
  | .cmpuI => Qemu.transCMPUi w
  | .cmpuR => Qemu.transCMPUr w
  | .cmp => Qemu.transCMP w
  | .csnRd => Qemu.transCSNrd w
  | .cszRd => Qemu.transCSZrd w
  | .cspRd => Qemu.transCSPrd w
  | .cseq => Qemu.transCSEQ w
  | .csne => Qemu.transCSNE w
  | .breq => Qemu.transBREQ pc w
  | .brne => Qemu.transBRNE pc w
  | .brn => Qemu.transBRN pc w
  | .brnn => Qemu.transBRNN pc w
  | .brz => Qemu.transBRZ pc w
  | .brnz => Qemu.transBRNZ pc w
  | .brp => Qemu.transBRP pc w
  | .brnp => Qemu.transBRNP pc w
  | .jumpI => Qemu.transJUMPi pc w
  | .jumpR => Qemu.transJUMPr w
  | .setzwRd => Qemu.transSETZWrd w
  | .setow => Qemu.transSETOW w
  | .orwRd => Qemu.transORWrd w
  | .andnwRd => Qemu.transANDNWrd w
  | .setzwRb => Qemu.transSETZWrb w
  | .orwRb => Qemu.transORWrb w
  | .andnwRb => Qemu.transANDNWrb w
  | .adrp => Qemu.transADRP pc w
  | _ => .next []

end Insn

variable {w : BitVec 32} {insn : Insn}

/-- **The two decoders agree** on the words of the opcode byte `0x10`. -/
lemma decode10_eq (pc : BitVec 64) (h : Insn.decode10 w = some insn) (hscope : insn.inScope = true) :
    Qemu.multiMinor10 w = insn.multi ∧
      (insn.multi = none → Qemu.disasMinor10 pc w = some (some (insn.emitted pc w))) := by
  unfold Insn.decode10 at h
  unfold Qemu.multiMinor10 Qemu.disasMinor10
  rw [fieldHa_eq]
  split at h
  case h_28 => cases h
  all_goals
    rename_i hm
    obtain rfl := Option.some.inj h
    first
      | exact absurd hscope Bool.false_ne_true
      | (rw [hm]; exact ⟨rfl, fun hmulti => by first | rfl | cases hmulti⟩)

/-- **The two decoders agree.** -/
lemma decode_eq (pc : BitVec 64) (h : Insn.decode w = some insn) (hscope : insn.inScope = true) :
    Qemu.multiOf w = insn.multi ∧
      (insn.multi = none → Qemu.helperInsn pc w = none ∧
        Qemu.disasDadao pc w = some (some (insn.emitted pc w))) := by
  unfold Insn.decode at h
  unfold Qemu.multiOf Qemu.helperInsn Qemu.disasDadao
  rw [opcode_eq]
  split at h
  case h_1 hop =>
    obtain ⟨hmulti, hplain⟩ := decode10_eq pc h hscope
    rw [hop]
    exact ⟨hmulti, fun hnone => ⟨rfl, hplain hnone⟩⟩
  case h_66 hop =>
    unfold Insn.decode70 at h
    rw [hop]
    split at h
    · rename_i hm
      obtain rfl := Option.some.inj h
      refine ⟨rfl, fun _ => ⟨rfl, ?_⟩⟩
      simp only [Qemu.disasMinor70, fieldHa_eq, hm]
      rfl
    · cases h
  case h_72 => cases h
  all_goals
    rename_i hop
    obtain rfl := Option.some.inj h
    first
      | exact absurd hscope Bool.false_ne_true
      | (rw [hop]; exact ⟨rfl, fun hmulti => by first | exact ⟨rfl, rfl⟩ | cases hmulti⟩)

/-- **The translation of an instruction without a count.** -/
lemma disasInsn_of_plain (pc : BitVec 64) (h : Insn.decode w = some insn) (hscope : insn.inScope = true)
    (hplain : insn.multi = none) (fuel : ℕ) :
    Qemu.disasInsn fuel pc w = some (insn.emitted pc w).translation := by
  obtain ⟨hmulti, hrest⟩ := decode_eq pc h hscope
  obtain ⟨hhelper, hdisas⟩ := hrest hplain
  rw [Qemu.disasInsn, hmulti, hplain, hhelper, hdisas]
  rfl

/-- The translation of an instruction on one register. -/
def oneElement (m : Multi) (w : BitVec 32) : Qemu.Translation := ⟨m.setup w ++ m.element w 0, .next, -1⟩

/-- **The translation of an instruction with a count of one.** -/
lemma disasInsn_of_one (pc : BitVec 64) (h : Insn.decode w = some insn) (hscope : insn.inScope = true)
    {m : Multi} (hm : insn.multi = some m) (hone : hd w = 1) :
    Qemu.disasInsn 1 pc w = some (oneElement m w) := by
  have hcount : fieldHd w = 1 := by rw [fieldHd_eq, hone]; rfl
  have hlegal : m.Legal w := by
    refine ⟨by omega, fun first hfirst => ?_⟩
    have hlt : first < 64 := by
      have ha := Qemu.fieldHa_lt w
      have hb := Qemu.fieldHb_lt w
      have hc := Qemu.fieldHc_lt w
      cases m <;> simp only [Multi.firsts, List.mem_cons, List.not_mem_nil, or_false] at hfirst <;> omega
    omega
  obtain ⟨order, horder, htrans⟩ : ∃ order, _ ∧ m.trans (fieldHd w) pc w = _ := Multi.trans_of_legal hlegal
  have hzero : order = [0] := by
    rw [hcount] at horder
    rcases horder with rfl | rfl <;> rfl
  rw [hcount, hzero, List.flatMap_singleton] at htrans
  rw [Qemu.disasInsn_of_multi ((decode_eq pc h hscope).1.trans hm), htrans]
  rfl

end Wuming

end Dadao
