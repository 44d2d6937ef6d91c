import Dadao.Bfd.FillAbs

set_option relaxedAutoImplicit false
set_option autoImplicit false

/-!
# Loading the address of a symbol

The code for `setrd`, `setrb` and `setrf` of a symbol, from `dd_pseudo_set_symbol` and the fillers
of `md_convert_frag` through the relocation `R_DADAO_ABS` to what the simulator makes of it.

A short address goes into the first instruction; else `dd_fill_abs` puts down an instruction for
every wyde that is not zero. The range check takes the last 64 KiB of the address space for short,
and for an `rf` register `dd_fill_abs` has no follow-up opcode.

## Main definitions

* `Dadao.Bfd.SetSymbol` — the code and its place.
* `Dadao.Bfd.SetSymbol.LoadsAddress` — what the code is for.

## Main results

* `Dadao.Bfd.SetSymbol.loadsAddress_of_lt` — the wydes of an address below the last 64 KiB.
* `Dadao.Bfd.SetSymbol.loadsAddress_iff` — when the address is loaded.
-/

namespace Dadao.Bfd

open Qemu

/-! ## The code of the assembler -/

/-- The first instruction of `dd_pseudo_set_symbol`, by the number of the destination register:
`rd0` is 0, `rb0` is 64 and `rf0` is 128. -/
def ddPseudoSetSymbol (reg : ℕ) : BitVec 32 :=
  if reg < 0x40 then insnSetzwRd ||| wydePos 0 ||| BitVec.ofNat 32 reg <<< 18
  else if reg < 0x80 then insnSetzwRb ||| wydePos 0 ||| BitVec.ofNat 32 (reg - 0x40) <<< 18
  else insnSetw ||| wydePos 0 ||| BitVec.ofNat 32 (reg - 0x80) <<< 18

/-- `dd_fill_nops`: `n` words of `swym`. -/
def ddFillNops (contents : Memory) (off : BitVec 64) : ℕ → Memory
  | 0 => contents
  | n + 1 => bfdPut32 (ddFillNops contents off n) (off + BitVec.ofNat 64 (4 * n))
      (insnSwym.setWidth 64)

/-- `setrd`, `setrb` or `setrf` of a symbol: the destination, the place of the section, the rest of
its contents, the offset of the code in it, the addend of the relocation and the symbol. -/
structure SetSymbol where
  reg : ℕ
  place : Placement
  contents : Memory
  off : BitVec 64
  rAddend : BitVec 64
  symbol : BitVec 64

namespace SetSymbol

variable (c : SetSymbol)

/-- The code as the assembler leaves it: an instruction and three fillers (`md_convert_frag`). -/
def assembled : Memory :=
  ddFillNops (bfdPut32 c.contents c.off ((ddPseudoSetSymbol c.reg).setWidth 64)) (c.off + 4) 3

/-- The code as the linker leaves it; the relocation is at the first filler. -/
def linked (ov : CheckOverflow) (junk : BitVec 32) : Memory :=
  (dadaoFinalLinkRelocate ov junk .abs c.place c.assembled (c.off + 4) c.rAddend c.symbol).2

/-- The address of the symbol. -/
def addr : BitVec 64 := c.symbol + c.rAddend

/-- The address of the code. -/
def pc : BitVec 64 := c.place.vma + c.place.outputOffset + c.off

/-- The word the simulator fetches. -/
def fetch (ov : CheckOverflow) (junk : BitVec 32) (a : BitVec 64) : BitVec 32 :=
  wordAt (c.linked ov junk) (a - (c.place.vma + c.place.outputOffset))

/-- The destination register. -/
def dst : Global :=
  if c.reg < 0x40 then .rd c.reg else if c.reg < 0x80 then .rb (c.reg - 0x40)
  else .rf (c.reg - 0x80)

/-- A register that can be set: not `rd0`, not `rb0`. -/
def WellFormed : Prop := c.reg < 0xc0 ∧ c.reg ≠ 0 ∧ c.reg ≠ 0x40

/-- **What the code is for**: it leaves the address in the destination and every other register but
the program counter alone, whatever the local variable of `dd_fill_abs` holds. -/
def LoadsAddress (ov : CheckOverflow) : Prop :=
  ∀ junk s, pcOf s = c.pc → ∃ s', runInsns (c.fetch ov junk) 4 s = some (.done s') ∧
    regs s' c.dst = c.addr ∧ ∀ g, g ≠ c.dst → g ≠ cpuPc → regs s' g = regs s g

end SetSymbol

namespace SetSymbol

variable (c : SetSymbol)

/-- The words the assembler leaves. -/
lemma wordAt_assembled {k : ℕ} (hk : k < 4) : wordAt c.assembled (wordOff c.off k) =
    if k = 0 then ddPseudoSetSymbol c.reg else insnSwym := by
  have hoff : ∀ k, c.off + 4 + BitVec.ofNat 64 (4 * k) = wordOff c.off (k + 1) := by
    intro k
    have h4 : BitVec.ofNat 64 (4 * 1) = 4 := rfl
    rw [wordOff, Nat.mul_add, BitVec.ofNat_add, h4]
    ring
  have hfirst : bfdPut32 c.contents c.off ((ddPseudoSetSymbol c.reg).setWidth 64) =
      bfdPut32 c.contents (wordOff c.off 0) ((ddPseudoSetSymbol c.reg).setWidth 64) := by
    rw [wordOff_zero]
  simp only [assembled, ddFillNops, hoff, hfirst]
  rw [wordAt_bfdPut32_wordOff _ _ _ (by omega) hk, wordAt_bfdPut32_wordOff _ _ _ (by omega) hk,
    wordAt_bfdPut32_wordOff _ _ _ (by omega) hk, wordAt_bfdPut32_wordOff _ _ _ (by omega) hk]
  have hset : ∀ w : BitVec 32, (w.setWidth 64).setWidth 32 = w := fun w => by simp
  rw [hset, hset]
  split_ifs <;> first | rfl | omega

end SetSymbol

/-! ## The linked code -/

/-- A word as `bfd_get_32` returns it. -/
lemma bfdGet32_eq (m : Memory) (off : BitVec 64) : bfdGet32 m off = (wordAt m off).setWidth 64 := by
  apply BitVec.eq_of_toNat_eq
  rw [toNat_bfdGet32, BitVec.toNat_setWidth, Nat.mod_eq_of_lt (by omega)]

/-- The opcode of the first instruction. -/
def setOpcode (reg : ℕ) : ℕ := if reg < 0x40 then 0x16 else if reg < 0x80 then 0x4e else 0x54

/-- The number of the destination in its file. -/
def setHa (reg : ℕ) : ℕ := reg % 0x40

/-- The first instruction and the parts of it the linker takes apart. -/
lemma ddPseudoSetSymbol_parts : ∀ reg < 0xc0,
    ddPseudoSetSymbol reg = rwii (setOpcode reg) (setHa reg) 0 0 ∧
    ((ddPseudoSetSymbol reg).setWidth 64 &&& 0xff000000#64).setWidth 32 =
      BitVec.ofNat 32 (setOpcode reg * 2 ^ 24) ∧
    ((ddPseudoSetSymbol reg).setWidth 64 &&& 0x00fc0000#64).setWidth 32 =
      BitVec.ofNat 32 (setHa reg * 2 ^ 18) := by
  decide +kernel

/-- An instruction put together from its parts. -/
lemma or_eq_rwii {op ha i : ℕ} {v : BitVec 32} (hop : op < 2 ^ 8) (hha : ha < 2 ^ 6) (hi : i < 4)
    (hv : v.toNat < 2 ^ 16) :
    BitVec.ofNat 32 (op * 2 ^ 24) ||| BitVec.ofNat 32 (ha * 2 ^ 18) ||| wydePos i ||| v =
      rwii op ha i v.toNat := by
  have h1 : (BitVec.ofNat 32 (op * 2 ^ 24)).toNat = op * 2 ^ 24 := by
    rw [BitVec.toNat_ofNat]
    omega
  have h2 : (BitVec.ofNat 32 (ha * 2 ^ 18)).toNat = ha * 2 ^ 18 := by
    rw [BitVec.toNat_ofNat]
    omega
  have h3 : (wydePos i).toNat = i * 2 ^ 16 := by
    have hi' : (BitVec.ofNat 32 i).toNat = i := by
      rw [BitVec.toNat_ofNat]
      omega
    rw [wydePos, Bits.toNat_shiftLeft_of_lt (by omega), hi']
  have h12 : (BitVec.ofNat 32 (op * 2 ^ 24) ||| BitVec.ofNat 32 (ha * 2 ^ 18)).toNat =
      op * 2 ^ 24 + ha * 2 ^ 18 := by
    rw [Bits.toNat_or_eq_add 24 (by omega) (by omega), h1, h2]
  have h123 : (BitVec.ofNat 32 (op * 2 ^ 24) ||| BitVec.ofNat 32 (ha * 2 ^ 18) |||
      wydePos i).toNat = op * 2 ^ 24 + ha * 2 ^ 18 + i * 2 ^ 16 := by
    rw [Bits.toNat_or_eq_add 18 (by omega) (by omega), h12, h3]
  apply BitVec.eq_of_toNat_eq
  rw [Bits.toNat_or_eq_add 16 (by omega) hv, h123, toNat_rwii hop hha hi hv]

namespace SetSymbol

variable (c : SetSymbol)

/-- The arguments `dd_fill_abs` gets. -/
def fillAbs (junk : BitVec 32) : FillAbs where
  opcode := (bfdGet32 c.assembled c.off &&& 0xff000000#64).setWidth 32
  reg := (bfdGet32 c.assembled c.off &&& 0x00fc0000#64).setWidth 32
  addr := c.addr
  datap := c.off
  junk := junk

/-- The first word of the code. -/
lemma wordAt_assembled_zero : wordAt c.assembled c.off = ddPseudoSetSymbol c.reg := by
  have h := c.wordAt_assembled (k := 0) (by omega)
  rwa [wordOff_zero, if_pos rfl] at h

/-- The relocation is one patched word or the fill. -/
lemma linked_eq (ov : CheckOverflow) (junk : BitVec 32) : c.linked ov junk =
    if ov.ok 16 c.addr then bfdPut32 c.assembled c.off (bfdGet32 c.assembled c.off ||| c.addr)
    else (ddFillAbs (c.fillAbs junk) c.assembled).1 := by
  have hoff : c.off + 4 - 4 = c.off := by ring
  rw [linked, dadaoFinalLinkRelocate, dadaoElfPerformRelocation]
  simp only [hoff]
  by_cases hok : ov.ok 16 c.addr = true
  · rw [if_pos hok]
    exact congrArg Prod.snd (if_pos hok)
  · rw [if_neg hok]
    exact congrArg Prod.snd (if_neg hok)

variable {c}

/-- The instruction for a wyde. -/
lemma fillAbs_word (hreg : c.reg < 0xc0) (junk : BitVec 32) (tmp i : ℕ) :
    (c.fillAbs junk).word tmp i =
      (if tmp = 0 then BitVec.ofNat 32 (setOpcode c.reg * 2 ^ 24)
        else (c.fillAbs junk).insnType) |||
        BitVec.ofNat 32 (setHa c.reg * 2 ^ 18) ||| wydePos i ||| wydeOf c.addr i := by
  obtain ⟨-, hop, hha⟩ := ddPseudoSetSymbol_parts c.reg hreg
  rw [FillAbs.word]
  simp only [fillAbs, bfdGet32_eq, wordAt_assembled_zero, hop, hha]

/-- The fetched word by its place in the code. -/
lemma fetch_eq {ov : CheckOverflow} {junk : BitVec 32} {a : BitVec 64} (ha : a = c.pc) (k : ℕ) :
    c.fetch ov junk (a + BitVec.ofNat 64 (4 * k)) =
      wordAt (c.linked ov junk) (wordOff c.off k) := by
  rw [fetch, ha, pc, wordOff]
  congr 1
  ring

/-- Code whose words compute the address loads it. -/
lemma loadsAddress_of_computes {ov : CheckOverflow}
    (h : ∀ junk, ∃ ws, ws.length = 4 ∧
      (∀ k < 4, ws[k]? = some (wordAt (c.linked ov junk) (wordOff c.off k))) ∧
      Computes c.dst ws (fun _ => c.addr)) : c.LoadsAddress ov := by
  intro junk s hpc
  obtain ⟨ws, hlen, hwords, hcomp⟩ := h junk
  obtain ⟨s', hruns, hval, hframe⟩ := hcomp s
  refine ⟨s', ?_, hval, hframe⟩
  have hfetch : ∀ k < ws.length,
      ws[k]? = some (c.fetch ov junk (pcOf s + BitVec.ofNat 64 (4 * k))) := by
    intro k hk
    rw [fetch_eq hpc, hwords k (by omega)]
  have hrun := runInsns_append hruns hfetch 0
  rwa [hlen] at hrun

/-- The fill is for addresses that are not zero. -/
lemma emitted_ne_nil {ov : CheckOverflow} (junk : BitVec 32) (hok : ¬ ov.ok 16 c.addr = true) :
    (c.fillAbs junk).emitted 4 ≠ [] := by
  intro hnil
  have hzero : c.addr.toNat = 0 := by
    rw [← Nat.mod_eq_of_lt c.addr.isLt]
    exact (c.fillAbs junk).mod_eq_zero_of_emitted hnil
  refine hok ((ov.ok_iff 16 c.addr (by omega)).mpr ?_)
  rw [BitVec.toInt_eq_toNat_cond, hzero]
  decide

/-- The words after the fill: the instructions and the fillers left over. -/
lemma wordAt_linked_fill {ov : CheckOverflow} {junk : BitVec 32} (hok : ¬ ov.ok 16 c.addr = true)
    (hne : (c.fillAbs junk).emitted 4 ≠ []) {k : ℕ} (hk : k < 4) :
    ((c.fillAbs junk).emitted 4 ++
        List.replicate (4 - ((c.fillAbs junk).emitted 4).length) insnSwym)[k]? =
      some (wordAt (c.linked ov junk) (wordOff c.off k)) := by
  have hpos := List.length_pos_of_ne_nil hne
  rw [linked_eq, if_neg hok, FillAbs.ddFillAbs_eq _ _ hne]
  have hfill := ((c.fillAbs junk).fill_spec c.assembled (le_refl 4)).2 k hk
  rw [show wordOff (c.fillAbs junk).datap k = wordOff c.off k from rfl,
    c.wordAt_assembled hk] at hfill
  rw [hfill, List.getElem?_append]
  by_cases hlt : k < ((c.fillAbs junk).emitted 4).length
  · rw [if_pos hlt, List.getElem?_eq_getElem hlt]
    rfl
  · have hnone : ((c.fillAbs junk).emitted 4)[k]? = none := List.getElem?_eq_none (by omega)
    rw [if_neg hlt, hnone, if_neg (by omega), List.getElem?_replicate, if_pos (by omega)]
    rfl

/-- The fillers keep a register that needs no settling. -/
lemma computes_replicate_swym {dst : Global} (hpc : dst ≠ cpuPc) (hrd : dst ≠ .rd 0)
    (hrf : dst ≠ .rf 0) (n : ℕ) : Computes dst (List.replicate n insnSwym) id := by
  have hsettle : settle dst = id := funext fun _ => settle_of_ne hrd hrf
  induction n with
  | zero => exact computes_nil dst
  | succ n ih =>
    have hswym := computes_swym hpc
    rw [hsettle] at hswym
    exact hswym.append ih

/-- The words after a short relocation. -/
lemma wordAt_linked_short {ov : CheckOverflow} {junk : BitVec 32} (hreg : c.reg < 0xc0)
    (hok : ov.ok 16 c.addr = true) {k : ℕ} (hk : k < 4) :
    wordAt (c.linked ov junk) (wordOff c.off k) =
      if k = 0 then rwii (setOpcode c.reg) (setHa c.reg) 0 0 ||| c.addr.setWidth 32
      else insnSwym := by
  obtain ⟨hword, -, -⟩ := ddPseudoSetSymbol_parts c.reg hreg
  rw [linked_eq, if_pos hok, bfdGet32_eq, wordAt_assembled_zero, hword]
  nth_rewrite 1 [← wordOff_zero c.off]
  rw [wordAt_bfdPut32_wordOff _ _ _ (by omega) hk, wordAt_assembled _ hk]
  by_cases hzero : k = 0
  · rw [if_pos hzero.symm, if_pos hzero, BitVec.setWidth_or]
    simp
  · rw [if_neg (Ne.symm hzero), if_neg hzero, if_neg hzero]

/-- A small address in the first word. -/
lemma rwii_or_addr {op ha : ℕ} (hop : op < 2 ^ 8) (hha : ha < 2 ^ 6) {a : BitVec 64}
    (ha16 : a.toNat < 2 ^ 16) : rwii op ha 0 0 ||| a.setWidth 32 = rwii op ha 0 a.toNat := by
  have ha32 : (a.setWidth 32).toNat = a.toNat := by
    rw [BitVec.toNat_setWidth]
    omega
  have hword := toNat_rwii hop hha (show 0 < 4 by omega) (show 0 < 2 ^ 16 by omega)
  apply BitVec.eq_of_toNat_eq
  rw [Bits.toNat_or_eq_add 16 (by omega) (by omega), ha32, hword,
    toNat_rwii hop hha (by omega) ha16, Nat.add_zero]

/-- The file of a destination other than `rf`. -/
def file (c : SetSymbol) : WydeFile := if c.reg < 0x40 then rdFile else rbFile

lemma file_spec (hwf : c.WellFormed) (hrf : c.reg < 0x80) :
    c.dst = c.file.reg (setHa c.reg) ∧ setHa c.reg ≠ 0 ∧ c.file.setOp = setOpcode c.reg ∧
      ∀ junk, (c.fillAbs junk).insnType = BitVec.ofNat 32 (c.file.orOp * 2 ^ 24) := by
  obtain ⟨hreg, h0, h40⟩ := hwf
  obtain ⟨-, hop, -⟩ := ddPseudoSetSymbol_parts c.reg hreg
  by_cases hrd : c.reg < 0x40
  · have hopcode : ∀ junk, (c.fillAbs junk).opcode = insnSetzwRd := by
      intro junk
      rw [fillAbs, bfdGet32_eq, wordAt_assembled_zero, hop, setOpcode, if_pos hrd]
      rfl
    refine ⟨?_, ?_, ?_, fun junk => ?_⟩
    · rw [dst, file, if_pos hrd, if_pos hrd, setHa, Nat.mod_eq_of_lt hrd]
      rfl
    · rw [setHa]
      omega
    · rw [file, setOpcode, if_pos hrd, if_pos hrd]
      rfl
    · rw [file, if_pos hrd, FillAbs.insnType, hopcode]
      rfl
  · have hopcode : ∀ junk, (c.fillAbs junk).opcode = insnSetzwRb := by
      intro junk
      rw [fillAbs, bfdGet32_eq, wordAt_assembled_zero, hop, setOpcode, if_neg hrd, if_pos hrf]
      rfl
    refine ⟨?_, ?_, ?_, fun junk => ?_⟩
    · rw [dst, file, if_neg hrd, if_pos hrf, if_neg hrd, setHa,
        show c.reg % 0x40 = c.reg - 0x40 by omega]
      rfl
    · rw [setHa]
      omega
    · rw [file, setOpcode, if_neg hrd, if_neg hrd, if_pos hrf]
      rfl
    · rw [file, if_neg hrd, FillAbs.insnType, hopcode]
      rfl

/-- **The address is loaded** into an `rd` or `rb` register unless it is in the last 64 KiB. -/
lemma loadsAddress_of_lt (hwf : c.WellFormed) (ov : CheckOverflow) (hrf : c.reg < 0x80)
    (haddr : c.addr.toNat < 2 ^ 64 - 2 ^ 16) : c.LoadsAddress ov := by
  obtain ⟨hdst, hpos, hset, htype⟩ := file_spec hwf hrf
  have hha : setHa c.reg < 2 ^ 6 := Nat.mod_lt _ (by omega)
  obtain ⟨hpc, hrd0, hrf0⟩ := c.file.reg_ne _ hpos
  refine loadsAddress_of_computes fun junk => ?_
  rw [hdst]
  by_cases hok : ov.ok 16 c.addr = true
  · -- one instruction and three fillers
    have hsmall : c.addr.toNat < 2 ^ 16 := by
      have hrange := (ov.ok_iff 16 c.addr (by omega)).mp hok
      rw [BitVec.toInt_eq_toNat_cond] at hrange
      split_ifs at hrange <;> omega
    refine ⟨rwii c.file.setOp (setHa c.reg) 0 c.addr.toNat :: List.replicate 3 insnSwym, rfl,
      fun k hk => ?_, ?_⟩
    · rw [wordAt_linked_short hwf.1 hok hk, ← hset, rwii_or_addr c.file.setOp_lt hha hsmall]
      rcases k with _ | k
      · rfl
      · rw [List.getElem?_cons_succ, List.getElem?_replicate, if_pos (by omega),
          if_neg (by omega)]
    · have hfirst := c.file.computes_set hha hpos (show 0 < 4 by omega) hsmall
      have hcomp := hfirst.append (computes_replicate_swym hpc hrd0 hrf0 3)
      simpa using hcomp
  · have hword : ∀ tmp, ∀ i < 4, (c.fillAbs junk).word tmp i =
        rwii (if tmp = 0 then c.file.setOp else c.file.orOp) (setHa c.reg) i
          (wydeOf (c.fillAbs junk).addr i).toNat := by
      intro tmp i hi
      have hlt : (wydeOf c.addr i).toNat < 2 ^ 16 := by
        rw [FillAbs.toNat_wydeOf]
        exact Nat.mod_lt _ (by omega)
      rw [fillAbs_word hwf.1, htype, ← hset]
      split_ifs
      · exact or_eq_rwii c.file.setOp_lt hha hi hlt
      · exact or_eq_rwii c.file.orOp_lt hha hi hlt
    have haddr64 : (c.fillAbs junk).addr.toNat % 2 ^ (16 * 4) = c.addr.toNat :=
      Nat.mod_eq_of_lt c.addr.isLt
    have hne := emitted_ne_nil junk hok
    have hemit := (c.fillAbs junk).emitted_computes hha hpos hword (le_refl 4) hne
    rw [haddr64, BitVec.ofNat_toNat, BitVec.setWidth_eq] at hemit
    have hlen := (c.fillAbs junk).length_emitted_le 4
    refine ⟨_, ?_, fun k hk => wordAt_linked_fill hok hne hk, ?_⟩
    · rw [List.length_append, List.length_replicate]
      omega
    · exact hemit.append (computes_replicate_swym hpc hrd0 hrf0 _)

end SetSymbol

/-! ## Where it goes wrong -/

/-- A word with its top bit set is no instruction. -/
lemma disasDadao_msb {w : BitVec 32} (h : w.msb = true) (pc : BitVec 64) :
    disasDadao pc w = some none := by
  have hge : 0x80 ≤ (w >>> 24).toNat := by
    rw [BitVec.msb_eq_decide, decide_eq_true_iff] at h
    rw [BitVec.toNat_ushiftRight, Nat.shiftRight_eq_div_pow]
    omega
  unfold disasDadao
  split <;> first
    | omega
    | rfl

namespace SetSymbol

variable {c : SetSymbol}

/-- A machine about to run the code, with a value in every register. -/
def before (c : SetSymbol) (v : BitVec 64) : Tcg.Machine Global where
  env := { globals := fun g => if g = cpuPc then c.pc else v, temps := fun _ => 0 }
  mem := fun _ => 0

lemma pcOf_before (v : BitVec 64) : pcOf (c.before v) = c.pc := rfl

/-- Code does not load an address if it comes to a word without an instruction. -/
lemma not_loadsAddress_of_msb {ov : CheckOverflow} (junk : BitVec 32) {ws : List (BitVec 32)}
    {f : BitVec 64 → BitVec 64} (hcomp : Computes c.dst ws f) (hlen : ws.length < 4)
    (hws : ∀ k < ws.length, ws[k]? = some (wordAt (c.linked ov junk) (wordOff c.off k)))
    (hmsb : (wordAt (c.linked ov junk) (wordOff c.off ws.length)).msb = true) :
    ¬ c.LoadsAddress ov := by
  intro h
  obtain ⟨s', hrun, -⟩ := h junk (c.before 0) rfl
  obtain ⟨t, hruns, -⟩ := hcomp (c.before 0)
  have hfetch : ∀ k < ws.length,
      ws[k]? = some (c.fetch ov junk (pcOf (c.before 0) + BitVec.ofNat 64 (4 * k))) := by
    intro k hk
    rw [fetch_eq (pcOf_before 0), hws k hk]
  have hdisas : disasDadao (pcOf t) (c.fetch ov junk
      (pcOf (c.before 0) + BitVec.ofNat 64 (4 * ws.length))) = some none := by
    rw [fetch_eq (pcOf_before 0)]
    exact disasDadao_msb hmsb _
  have hnot := runInsns_undefined hruns hfetch hdisas (3 - ws.length) s'
  rw [show ws.length + (3 - ws.length + 1) = 4 by omega] at hnot
  exact hnot hrun

/-- An address in the last 64 KiB overwrites the opcode. -/
lemma not_loadsAddress_of_le (hwf : c.WellFormed) (ov : CheckOverflow)
    (haddr : 2 ^ 64 - 2 ^ 16 ≤ c.addr.toNat) : ¬ c.LoadsAddress ov := by
  have hok : ov.ok 16 c.addr = true := by
    refine (ov.ok_iff 16 c.addr (by omega)).mpr ?_
    have := c.addr.isLt
    rw [BitVec.toInt_eq_toNat_cond, if_neg (by omega)]
    omega
  refine not_loadsAddress_of_msb 0 (computes_nil c.dst) (by simp) (by simp) ?_
  have hlow : (c.addr.setWidth 32).msb = true := by
    rw [BitVec.msb_eq_decide, decide_eq_true_iff, BitVec.toNat_setWidth]
    omega
  rw [List.length_nil, wordAt_linked_short hwf.1 hok (by omega), if_pos rfl, BitVec.msb_or, hlow,
    Bool.or_true]

/-- `setw` replaces one wyde of an `rf` register. -/
lemma computes_setw {ha ww imm : ℕ} (hha : ha < 2 ^ 6) (hww : ww < 4) (himm : imm < 2 ^ 16) :
    Computes (.rf ha) [rwii 0x54 ha ww imm] (settle (.rf ha) ∘ fun old =>
      old &&& ~~~ (0xffff#64 <<< (ww * 16)) ||| BitVec.ofNat 64 imm <<< (ww * 16)) := by
  have hop : (0x54 : ℕ) < 2 ^ 8 := by omega
  have hdisas : ∀ pc, disasDadao pc (rwii 0x54 ha ww imm) =
      some (some (transSETW (rwii 0x54 ha ww imm))) := by
    intro pc
    rw [disasDadao, opcode_rwii hop hha hww himm]
    rfl
  refine computes_of_next (by simp) hdisas rfl (fun s => ?_) (fun s g hg => ?_)
  · simp [Tcg.runStraight, Tcg.stepOp, Tcg.BinOp.eval, fieldHa_rwii hop hha hww himm,
      fieldWw_rwii hop hha hww himm, wydeArg_rwii hop hha hww himm]
  · simp [Tcg.runStraight, Tcg.stepOp, fieldHa_rwii hop hha hww himm, hg]

/-- A bit of an `rf` register that neither the prologue nor a `setw` of wyde `ww` fixes. -/
def keptBit (ww : ℕ) : ℕ := if ww = 0 then 16 else 0

lemma settle_rf_keptBit (ha ww : ℕ) (v : BitVec 64) :
    (settle (.rf ha) v).getLsbD (keptBit ww) = v.getLsbD (keptBit ww) := by
  cases ha with
  | zero =>
    have hmask : fcsrMask.getLsbD (keptBit ww) = true ∧
        fcsrDefault.getLsbD (keptBit ww) = false := by
      unfold keptBit
      split_ifs <;> decide
    simp only [settle]
    rw [BitVec.getLsbD_or, BitVec.getLsbD_and, hmask.1, hmask.2, Bool.and_true, Bool.or_false]
  | succ n => rfl

lemma setw_keptBit {ww imm : ℕ} (hww : ww < 4) (himm : imm < 2 ^ 16) (v : BitVec 64) :
    (v &&& ~~~ (0xffff#64 <<< (ww * 16)) ||| BitVec.ofNat 64 imm <<< (ww * 16)).getLsbD
      (keptBit ww) = v.getLsbD (keptBit ww) := by
  have hmask : (~~~ (0xffff#64 <<< (ww * 16))).getLsbD (keptBit ww) = true := by
    revert ww
    decide
  have himm' : (BitVec.ofNat 64 imm <<< (ww * 16)).getLsbD (keptBit ww) = false := by
    unfold keptBit
    split_ifs with h0
    · rw [h0, Nat.zero_mul, BitVec.shiftLeft_zero, BitVec.getLsbD_ofNat,
        Nat.testBit_lt_two_pow himm, Bool.and_false]
    · rw [BitVec.getLsbD_shiftLeft]
      simp
      omega
  rw [BitVec.getLsbD_or, BitVec.getLsbD_and, hmask, himm', Bool.and_true, Bool.or_false]

/-- One `setw` does not load an address: it keeps the other wydes. -/
lemma not_loadsAddress_of_setw {ov : CheckOverflow} (junk : BitVec 32) {ha ww imm : ℕ}
    (hdst : c.dst = .rf ha) (hha : ha < 2 ^ 6) (hww : ww < 4) (himm : imm < 2 ^ 16)
    (hwords : ∀ k < 4, (rwii 0x54 ha ww imm :: List.replicate 3 insnSwym)[k]? =
      some (wordAt (c.linked ov junk) (wordOff c.off k))) : ¬ c.LoadsAddress ov := by
  intro h
  have hswym := computes_swym (show Global.rf ha ≠ cpuPc by simp)
  have hcomp := (((computes_setw hha hww himm).append hswym).append hswym).append hswym
  -- the run from registers full of `v` ends with the kept bit of `v`
  have hbit : ∀ v, c.addr.getLsbD (keptBit ww) = (settle (.rf ha) v).getLsbD (keptBit ww) := by
    intro v
    obtain ⟨s', hrun, hval, -⟩ := h junk (c.before v) rfl
    obtain ⟨t, hruns, hval', -⟩ := hcomp (c.before v)
    have hfetch : ∀ k < 4, (rwii 0x54 ha ww imm :: List.replicate 3 insnSwym)[k]? =
        some (c.fetch ov junk (pcOf (c.before v) + BitVec.ofNat 64 (4 * k))) := by
      intro k hk
      rw [fetch_eq (pcOf_before v)]
      exact hwords k hk
    have hrun' := runInsns_append hruns hfetch 0
    have heq : s' = t := Tcg.Outcome.done.inj (Option.some.inj (hrun.symm.trans hrun'))
    rw [← hval, heq, hdst, hval']
    simp only [Function.comp_apply, settle_rf_keptBit, setw_keptBit hww himm]
    rw [regs, settle_rf_keptBit]
    rfl
  have h0 := hbit 0
  rw [hbit (BitVec.allOnes 64), settle_rf_keptBit, settle_rf_keptBit] at h0
  unfold keptBit at h0
  split_ifs at h0 <;> exact absurd h0 (by decide)

/-- **An `rf` register is never loaded** for sure. -/
lemma not_loadsAddress_rf (hwf : c.WellFormed) (ov : CheckOverflow) (hrf : 0x80 ≤ c.reg) :
    ¬ c.LoadsAddress ov := by
  have hha : setHa c.reg < 2 ^ 6 := Nat.mod_lt _ (by omega)
  have hreg := hwf.1
  have hdst : c.dst = .rf (setHa c.reg) := by
    have hmod : c.reg % 0x40 = c.reg - 0x80 := by omega
    rw [dst, if_neg (by omega), if_neg (by omega), setHa, hmod]
  have hopc : setOpcode c.reg = 0x54 := by
    rw [setOpcode, if_neg (by omega), if_neg (by omega)]
  by_cases haddr : 2 ^ 64 - 2 ^ 16 ≤ c.addr.toNat
  · exact not_loadsAddress_of_le hwf ov haddr
  by_cases hok : ov.ok 16 c.addr = true
  · have hsmall : c.addr.toNat < 2 ^ 16 := by
      have hrange := (ov.ok_iff 16 c.addr (by omega)).mp hok
      rw [BitVec.toInt_eq_toNat_cond] at hrange
      split_ifs at hrange <;> omega
    refine not_loadsAddress_of_setw 0 hdst hha (show 0 < 4 by omega) hsmall fun k hk => ?_
    rw [wordAt_linked_short hwf.1 hok hk, hopc, rwii_or_addr (by omega) hha hsmall]
    rcases k with _ | k
    · rfl
    · rw [List.getElem?_cons_succ, List.getElem?_replicate, if_pos (by omega), if_neg (by omega)]
  · -- the fill takes any further instruction from `insn_type`, which is not assigned
    have hopcode : (c.fillAbs 0xff000000).opcode = insnSetw := by
      obtain ⟨-, hop, -⟩ := ddPseudoSetSymbol_parts c.reg hreg
      rw [fillAbs, bfdGet32_eq, wordAt_assembled_zero, hop, hopc]
      rfl
    have htype : (c.fillAbs 0xff000000).insnType = 0xff000000 := by
      rw [FillAbs.insnType, hopcode]
      rfl
    have hne := emitted_ne_nil 0xff000000 hok
    obtain ⟨i, hi, rest, heq, hrest⟩ := (c.fillAbs 0xff000000).emitted_shape (le_refl 4) hne
    have hlt : (wydeOf c.addr i).toNat < 2 ^ 16 := by
      rw [FillAbs.toNat_wydeOf]
      exact Nat.mod_lt _ (by omega)
    have hfirst : (c.fillAbs 0xff000000).word 0 i =
        rwii 0x54 (setHa c.reg) i (wydeOf c.addr i).toNat := by
      rw [fillAbs_word hreg, if_pos rfl, hopc]
      exact or_eq_rwii (by omega) hha hi hlt
    have hwords : ∀ k < 4, _ := fun k hk => wordAt_linked_fill hok hne hk
    rw [heq, hfirst] at hwords
    cases rest with
    | nil => exact not_loadsAddress_of_setw _ hdst hha hi hlt hwords
    | cons w rest =>
      obtain ⟨tmp, j, htmp, hw⟩ := hrest w (List.mem_cons_self ..)
      have hcomp := computes_setw hha hi hlt
      rw [← hdst] at hcomp
      refine not_loadsAddress_of_msb 0xff000000 hcomp (by simp) (fun k hk => ?_) ?_
      · obtain rfl : k = 0 := by simpa using hk
        exact hwords 0 (by omega)
      · have hsecond := Option.some.inj (hwords 1 (by omega))
        rw [List.length_singleton, ← hsecond, hw, fillAbs_word hreg, if_neg htmp, htype,
          BitVec.msb_or, BitVec.msb_or, BitVec.msb_or]
        rfl

/-- **The code loads the address** exactly when the destination is an `rd` or `rb` register and the
address is not in the last 64 KiB. -/
theorem loadsAddress_iff (hwf : c.WellFormed) (ov : CheckOverflow) :
    c.LoadsAddress ov ↔ c.reg < 0x80 ∧ c.addr.toNat < 2 ^ 64 - 2 ^ 16 := by
  constructor
  · intro h
    refine ⟨?_, ?_⟩
    · by_contra hrf
      exact not_loadsAddress_rf hwf ov (by omega) h
    · by_contra haddr
      exact not_loadsAddress_of_le hwf ov (by omega) h
  · rintro ⟨hrf, haddr⟩
    exact loadsAddress_of_lt hwf ov hrf haddr

/-- `setrb rb1` of a symbol. -/
def setRb1 (symbol : BitVec 64) : SetSymbol where
  reg := 0x41
  place := ⟨0x1000, 0⟩
  contents := fun _ => 0
  off := 0
  rAddend := 0
  symbol

/-- An address with three wydes. -/
theorem loadsAddress_iff_setRb1 :
    (setRb1 0x56789abc0000def0).WellFormed ∧
      (setRb1 0x56789abc0000def0).LoadsAddress .documented := by
  have hwf : (setRb1 0x56789abc0000def0).WellFormed := ⟨by decide, by decide, by decide⟩
  exact ⟨hwf, (loadsAddress_iff hwf .documented).mpr ⟨by decide, by decide⟩⟩

/-- **An address in the last 64 KiB is not loaded**: it is taken for a 16-bit value and overwrites
the opcode. -/
theorem negative_address_not_loaded :
    (setRb1 0xffffffffffff8000).WellFormed ∧
      ¬ (setRb1 0xffffffffffff8000).LoadsAddress .documented := by
  have hwf : (setRb1 0xffffffffffff8000).WellFormed := ⟨by decide, by decide, by decide⟩
  exact ⟨hwf, not_loadsAddress_of_le hwf .documented (by decide)⟩

end SetSymbol

end Dadao.Bfd
