import Dadao.Lib.Bits
import Dadao.Qemu.View

set_option relaxedAutoImplicit false
set_option autoImplicit false

/-!
# Instructions on what a program sees

The instructions of integer code by their words: an opcode and four fields of six bits, of which the last
two or three can be an immediate.

## Main definitions

* `Dadao.Qemu.quad` — a word by its opcode and fields.

## Main results

* `Dadao.Qemu.yields_rrrr`, `Dadao.Qemu.yields_orrr`, … — what each form of instruction makes of a state.
* `Dadao.Qemu.branches_riii`, `Dadao.Qemu.jumps_rrii` — where a conditional branch or a jump goes.
-/

namespace Dadao.Qemu

open Tcg

/-! ## Words and fields -/

/-- An instruction word by its opcode and four fields. -/
def quad (op a b c d : ℕ) : BitVec 32 :=
  BitVec.ofNat 32 (op * 2 ^ 24 + a * 2 ^ 18 + b * 2 ^ 12 + c * 2 ^ 6 + d)

/-- The parts of a word. -/
structure Fields (w : BitVec 32) (op a b c d : ℕ) : Prop where
  opcode : (w >>> 24).toNat = op
  ha : fieldHa w = a
  hb : fieldHb w = b
  hc : fieldHc w = c
  hd : fieldHd w = d
  imms12 : fieldImms 12 w = (BitVec.ofNat 12 (c * 2 ^ 6 + d)).signExtend 64
  immu12 : fieldImmu 12 w = BitVec.ofNat 64 (c * 2 ^ 6 + d)
  immu6 : fieldImmu 6 w = BitVec.ofNat 64 d
  imms18 : fieldImms 18 w = (BitVec.ofNat 18 (b * 2 ^ 12 + c * 2 ^ 6 + d)).signExtend 64

/-- The parts of a word that is built from them. -/
lemma fields_quad (op : ℕ) {a b c d : ℕ} (hop : op < 2 ^ 8) (ha : a < 2 ^ 6) (hb : b < 2 ^ 6)
    (hc : c < 2 ^ 6) (hd : d < 2 ^ 6) : Fields (quad op a b c d) op a b c d := by
  have hnat : (quad op a b c d).toNat = op * 2 ^ 24 + a * 2 ^ 18 + b * 2 ^ 12 + c * 2 ^ 6 + d := by
    rw [quad, BitVec.toNat_ofNat]
    omega
  refine ⟨?_, ?_, ?_, ?_, ?_, ?_, ?_, ?_, ?_⟩
  · rw [BitVec.toNat_ushiftRight, Nat.shiftRight_eq_div_pow, hnat]
    omega
  · rw [fieldHa, Bits.toNat_and_mask _ _ 6 rfl, BitVec.toNat_ushiftRight, Nat.shiftRight_eq_div_pow, hnat]
    omega
  · rw [fieldHb, Bits.toNat_and_mask _ _ 6 rfl, BitVec.toNat_ushiftRight, Nat.shiftRight_eq_div_pow, hnat]
    omega
  · rw [fieldHc, Bits.toNat_and_mask _ _ 6 rfl, BitVec.toNat_ushiftRight, Nat.shiftRight_eq_div_pow, hnat]
    omega
  · rw [fieldHd, Bits.toNat_and_mask _ _ 6 rfl, hnat]
    omega
  · have h12 : (quad op a b c d).setWidth 12 = BitVec.ofNat 12 (c * 2 ^ 6 + d) := by
      apply BitVec.eq_of_toNat_eq
      rw [BitVec.toNat_setWidth, hnat, BitVec.toNat_ofNat]
      omega
    rw [fieldImms, h12]
  · apply BitVec.eq_of_toNat_eq
    rw [fieldImmu, BitVec.toNat_setWidth, BitVec.toNat_setWidth, hnat, BitVec.toNat_ofNat]
    omega
  · apply BitVec.eq_of_toNat_eq
    rw [fieldImmu, BitVec.toNat_setWidth, BitVec.toNat_setWidth, hnat, BitVec.toNat_ofNat]
    omega
  · have h18 : (quad op a b c d).setWidth 18 = BitVec.ofNat 18 (b * 2 ^ 12 + c * 2 ^ 6 + d) := by
      apply BitVec.eq_of_toNat_eq
      rw [BitVec.toNat_setWidth, hnat, BitVec.toNat_ofNat]
      omega
    rw [fieldImms, h18]

/-- An opcode that is neither one of the instructions on several registers nor of the helpers. -/
def PlainOpcode (op : ℕ) : Prop :=
  op ∉ [0x10, 0x34, 0x35, 0x36, 0x37, 0x3c, 0x3d, 0x3e, 0x3f, 0x44, 0x45, 0x46, 0x47, 0x4f, 0x50, 0x56,
    0x57, 0x58, 0x59, 0x5e, 0x5f, 0x67, 0x6f]

variable {w : BitVec 32} {op a b c d : ℕ}

/-- A word that is neither. -/
def Plain (w : BitVec 32) : Prop := multiOf w = none ∧ ∀ pc, helperInsn pc w = none

/-- A word with such an opcode. -/
lemma plain_of_opcode (hop : PlainOpcode (w >>> 24).toNat) : Plain w := by
  simp only [PlainOpcode, List.mem_cons, List.not_mem_nil, or_false, not_or] at hop
  constructor
  · unfold multiOf
    split <;> first | rfl | (rename_i heq; omega)
  · intro pc
    unfold helperInsn
    split <;> first | rfl | (rename_i heq _; omega)

/-- A word with the opcode byte `0x10` that is no register move. -/
lemma plain_of_minor10 (hopcode : (w >>> 24).toNat = 0x10)
    (ha : fieldHa w ∉ [0x28, 0x29, 0x2a, 0x2b, 0x31, 0x32, 0x33, 0x39, 0x3a]) : Plain w := by
  simp only [List.mem_cons, List.not_mem_nil, or_false, not_or] at ha
  constructor
  · unfold multiOf
    rw [hopcode]
    simp only
    unfold multiMinor10
    split <;> first | rfl | (rename_i heq; omega)
  · intro pc
    unfold helperInsn
    split <;> first | rfl | (rename_i heq _; omega)

lemma Fields.plain (h : Fields w op a b c d) (hop : PlainOpcode op) : Plain w :=
  plain_of_opcode (h.opcode ▸ hop)

lemma Fields.plain_minor10 (h : Fields w 0x10 a b c d)
    (ha : a ∉ [0x28, 0x29, 0x2a, 0x2b, 0x31, 0x32, 0x33, 0x39, 0x3a]) : Plain w :=
  plain_of_minor10 h.opcode (h.ha ▸ ha)

/-! ## Arithmetic and logic -/

section Families

variable {f : BinOp}

/-- `add` and `sub` of `rd` registers without the upper half. -/
lemma yields_rrrr (h : Fields w op 0 b c d) (hw : Plain w) {f2 : WideOp}
    (hdisas : ∀ pc, disasDadao pc w = some (some (insnAlg1Rrrr f f2 w))) (hb : b ≠ 0) :
    Yields always [w] fun s => s.set .rd b (f.eval (s.reg .rd c) (s.reg .rd d)) := by
  refine yields_next hw.1 hw.2 (fun pc => by
    rw [hdisas, insnAlg1Rrrr, h.ha, h.hb, if_pos ⟨rfl, hb⟩]) rfl fun m hm => ?_
  simp [rdOf, h.hb, h.hc, h.hd, stepOp, view_write_reg m hb, hm.read_rd]

/-- The operations of three `rd` registers. -/
lemma yields_orrr (h : Fields w op a b c d) (hw : Plain w)
    (hdisas : ∀ pc, disasDadao pc w = some (some (insnLogicOrrr f w))) (hb : b ≠ 0) :
    Yields always [w] fun s => s.set .rd b (f.eval (s.reg .rd c) (s.reg .rd d)) := by
  refine yields_next hw.1 hw.2 (fun pc => by
    rw [hdisas, insnLogicOrrr, h.hb, if_pos hb]) rfl fun m hm => ?_
  simp [rdOf, h.hb, h.hc, h.hd, stepOp, view_write_reg m hb, hm.read_rd]

/-- The shifts by a constant. -/
lemma yields_orri (h : Fields w op a b c d) (hw : Plain w)
    (hdisas : ∀ pc, disasDadao pc w = some (some (insnLogicOrri f w))) (hb : b ≠ 0) :
    Yields always [w] fun s => s.set .rd b (f.eval (s.reg .rd c) (BitVec.ofNat 64 d)) := by
  refine yields_next hw.1 hw.2 (fun pc => by
    rw [hdisas, insnLogicOrri, h.hb, if_pos hb]) rfl fun m hm => ?_
  simp [rdOf, h.hb, h.hc, h.immu6, stepOp, view_write_reg m hb, hm.read_rd]

/-- `xnor`. -/
lemma yields_xnor (h : Fields w op a b c d) (hw : Plain w)
    (hdisas : ∀ pc, disasDadao pc w = some (some (transXNOR w))) (hb : b ≠ 0) :
    Yields always [w] fun s => s.set .rd b (~~~(s.reg .rd c ^^^ s.reg .rd d)) := by
  have hones (v : BitVec 64) : v ^^^ 0xffffffffffffffff#64 = ~~~v := BitVec.xor_allOnes
  refine yields_next hw.1 hw.2 (fun pc => by
    rw [hdisas, transXNOR, h.hb, if_neg hb]) rfl fun m hm => ?_
  simp [rdOf, h.hb, h.hc, h.hd, stepOp, view_write_reg _ hb, hm.read_rd, BinOp.eval, hones]

/-- `add` and `sub` of a displacement to an `rb` register. -/
lemma yields_orrr_rb (h : Fields w op a b c d) (hw : Plain w)
    (hdisas : ∀ pc, disasDadao pc w = some (some (insnAlg1Orrr f w))) (hb : b ≠ 0) (hc : c ≠ 0) :
    Yields always [w] fun s => s.set .rb b (f.eval (s.reg .rb c) (s.reg .rd d)) := by
  refine yields_next hw.1 hw.2 (fun pc => by
    rw [hdisas, insnAlg1Orrr, h.hb, if_neg hb]) rfl fun m hm => ?_
  simp [rdOf, rbOf, h.hb, h.hc, h.hd, stepOp, view_write_reg m hb, hm.read_rd, read_rb m hc]

/-- `addi` of an `rd` register. -/
lemma yields_addi_rd (h : Fields w op a b c d) (hw : Plain w)
    (hdisas : ∀ pc, disasDadao pc w = some (some (transADDIrd w))) (ha : a ≠ 0) :
    Yields always [w] fun s => s.set .rd a (s.reg .rd b +
      (BitVec.ofNat 12 (c * 2 ^ 6 + d)).signExtend 64) := by
  refine yields_next hw.1 hw.2 (fun pc => by
    rw [hdisas, transADDIrd, insnAlg1Rrii, h.ha, if_neg ha]) rfl fun m hm => ?_
  simp [h.hb, h.imms12, stepOp, view_write_reg m ha, hm.read_rd, BinOp.eval]

/-- `addi` of an `rb` register. -/
lemma yields_addi_rb (h : Fields w op a b c d) (hw : Plain w)
    (hdisas : ∀ pc, disasDadao pc w = some (some (transADDIrb w))) (ha : a ≠ 0) (hb : b ≠ 0) :
    Yields always [w] fun s => s.set .rb a (s.reg .rb b +
      (BitVec.ofNat 12 (c * 2 ^ 6 + d)).signExtend 64) := by
  refine yields_next hw.1 hw.2 (fun pc => by
    rw [hdisas, transADDIrb, insnAlg1Rrii, h.ha, if_neg ha]) rfl fun m hm => ?_
  simp [h.hb, h.imms12, stepOp, view_write_reg m ha, read_rb m hb, BinOp.eval]

/-- The multiplications, upper half first. -/
lemma yields_mul (h : Fields w op a b c d) (hw : Plain w) (f2 : WideOp)
    (hdisas : ∀ pc, disasDadao pc w = some (some (insnMulRrrr f2 w))) (ha : a ≠ 0) (hb : b ≠ 0) :
    Yields always [w] fun s => (s.set .rd a
      ((f2.eval 0 (s.reg .rd c) 0 (s.reg .rd d) >>> 64).setWidth 64)).set .rd b
        ((f2.eval 0 (s.reg .rd c) 0 (s.reg .rd d)).setWidth 64) := by
  refine yields_next hw.1 hw.2 (fun pc => by
    rw [hdisas, insnMulRrrr, movHaHb, h.ha, h.hb, if_pos ha, if_pos hb]) rfl fun m hm => ?_
  simp [rdOf, h.ha, h.hb, h.hc, h.hd, stepOp, view_write_reg _ ha, view_write_reg _ hb, hm.read_rd]

/-- `cmps` and `cmpu` with an immediate. -/
lemma yields_cmp_rrii (h : Fields w op a b c d) (hw : Plain w) {imm : BitVec 64} {k : Cond}
    (hdisas : ∀ pc, disasDadao pc w = some (some (insnCmpRrii imm k w))) (ha : a ≠ 0) :
    Yields always [w] fun s => s.set .rd a (if k.holds imm (s.reg .rd b) then -1
      else if k.holds (s.reg .rd b) imm then 1 else 0) := by
  refine yields_next hw.1 hw.2 (fun pc => by
    rw [hdisas, insnCmpRrii, h.ha, if_neg ha]) rfl fun m hm => ?_
  simp [rdOf, h.ha, h.hb, stepOp, view_write_reg _ ha, hm.read_rd]

/-- `cmps` and `cmpu` of two registers. -/
lemma yields_cmp_orrr (h : Fields w op a b c d) (hw : Plain w) {k : Cond}
    (hdisas : ∀ pc, disasDadao pc w = some (some (insnCmpOrrr .rd k w))) (hb : b ≠ 0) :
    Yields always [w] fun s => s.set .rd b (if k.holds (s.reg .rd d) (s.reg .rd c) then -1
      else if k.holds (s.reg .rd c) (s.reg .rd d) then 1 else 0) := by
  refine yields_next hw.1 hw.2 (fun pc => by
    rw [hdisas, insnCmpOrrr, h.hb, if_neg hb]) rfl fun m hm => ?_
  simp [rdOf, h.hb, h.hc, h.hd, stepOp, view_write_reg _ hb, hm.read_rd]

/-- The divisions, remainder first, by a divisor that is not zero. -/
lemma yields_div (h : Fields w op a b c d) (hw : Plain w) {g : BinOp}
    (hdisas : ∀ pc, disasDadao pc w = some (some (insnDivRrrr f g w))) (ha : a ≠ 0) (hb : b ≠ 0) :
    Yields (fun s => s.reg .rd d ≠ 0) [w] fun s =>
      (s.set .rd a (g.eval (s.reg .rd c) (s.reg .rd d))).set .rd b
        (f.eval (s.reg .rd c) (s.reg .rd d)) := by
  have hops (pc : BitVec 64) : disasInsn 0 pc w = some (insnDivRrrr f g w).translation := by
    rw [disasInsn, hw.1]
    simp only
    rw [hw.2, hdisas]
    rfl
  refine yields_of_exec (fun pc => ⟨0, _, hops pc, mapM_toOp_op _, rfl⟩) fun m hm hd =>
    ⟨runStraight ((([.bin f (.temp 1) (rdOf fieldHc w) (rdOf fieldHd w),
      .bin g (.temp 2) (rdOf fieldHc w) (rdOf fieldHd w)] : List (Op Global)) ++
        movHaHb w).map (Op.map Global.elem)) m, fun rest => ?_, ?_⟩
  · have hskip : (m.env.globals (.reg .rd d) != m.env.globals (.reg .rd 0)) = true := by
      rw [hm.read_rd, hm.rd]
      simpa using hd
    rw [insnDivRrrr, movHaHb, h.ha, h.hb, if_pos ha, if_pos hb]
    simp only [Emitted.next, List.cons_append, List.nil_append, List.map_cons, List.map_nil, Op.map,
      Var.map]
    rw [exec_brcond, if_pos (by simpa [h.hd, Cond.holds] using hskip)]
    rfl
  · rw [movHaHb, h.ha, h.hb, if_pos ha, if_pos hb]
    simp [rdOf, h.ha, h.hb, h.hc, h.hd, stepOp, view_write_reg _ ha, view_write_reg _ hb, hm.read_rd]

/-! ## Memory -/

/-- A load at a displacement. -/
lemma yields_ld {dest : ℕ → Global} {file : RegFile} {mo : MemOp} (h : Fields w op a b c d) (hw : Plain w)
    (hfile : ∀ i, (dest i).elem = .reg file i)
    (hdisas : ∀ pc, disasDadao pc w = some (some (insnLdRrii dest false mo w))) (ha : a ≠ 0) (hb : b ≠ 0) :
    Yields always [w] fun s => s.set file a (mo.load s.mem (s.reg .rb b +
      (BitVec.ofNat 12 (c * 2 ^ 6 + d)).signExtend 64)) := by
  refine yields_next hw.1 hw.2 (fun pc => by
    rw [hdisas, insnLdRrii, h.ha, if_pos (Or.inl ha)]) rfl fun m hm => ?_
  simp [h.hb, h.imms12, stepOp, hfile, view_write_reg _ ha, read_rb m hb, BinOp.eval]
  rfl

/-- A store at a displacement. -/
lemma yields_st (src : ℕ → Global) (file : RegFile) (mo : MemOp) (h : Fields w op a b c d) (hw : Plain w)
    (hread : ∀ m, Settled m → m.env.globals (src a).elem = (view m).reg file a)
    (hdisas : ∀ pc, disasDadao pc w = some (some (insnStRrii src mo w))) (hb : b ≠ 0) :
    Yields always [w] fun s => { s with mem := s.mem.store (s.reg .rb b +
      (BitVec.ofNat 12 (c * 2 ^ 6 + d)).signExtend 64) mo.bytes (s.reg file a) } := by
  refine yields_next hw.1 hw.2 (fun pc => by rw [hdisas, insnStRrii, h.ha]) rfl fun m hm => ?_
  simp [h.hb, h.imms12, stepOp, hread m hm, read_rb m hb, BinOp.eval]
  rfl

/-- An instruction on several registers, by the operations of its loop for one register. -/
lemma yields_multi (ops : List (Op Elem)) {emitted : List Emission} {g : State → State}
    (hdisas : ∀ pc, disasInsn 1 pc w = some ⟨emitted, .next, -1⟩)
    (hops : emitted.mapM Emission.toOp = some ops) (hstraight : ops.all Op.isStraight = true)
    (hg : ∀ m, Settled m → view (runStraight ops m) = g (view m)) : Yields always [w] g :=
  yields_of_exec (fun pc => ⟨1, _, hdisas pc, hops, rfl⟩)
    fun m hm _ => ⟨_, fun _ => exec_append_straight hstraight m, hg m hm⟩

/-- An instruction on one register in memory. -/
lemma disasInsn_mem {body : ℤ → List Emission} {mu : Multi} (h : Fields w op a b c 1)
    (hmulti : multiOf w = some mu) (htrans : ∀ fuel pc, mu.trans fuel pc w = insnMemRrri body fuel pc w)
    (hlt : a < 2 ^ 6) (pc : BitVec 64) : disasInsn 1 pc w = some ⟨[.op (.bin .add (.temp 0)
      (glob (.rb b)) (glob (.rd c)))] ++ body a, .next, -1⟩ := by
  have hwalk : walkUp body 1 a 1 = some (body a) := by
    simp [walkUp, Loop.doWhile]
  rw [disasInsn, hmulti]
  simp only
  rw [htrans, insnMemRrri, h.ha, h.hd, Nat.cast_one, hwalk]
  simp [Translation.unless, illegalWhen, rbOf, rdOf, h.hb, h.hc, show ¬ 64 < a + 1 by omega]

/-- A load of one register at an index. -/
lemma yields_ldm {file : RegFile} {mo : MemOp} (h : Fields w op a b c 1)
    (hmulti : multiOf w = some (.ldm file mo)) (ha : a ≠ 0) (hlt : a < 2 ^ 6) (hb : b ≠ 0) :
    Yields always [w] fun s => s.set file a (mo.load s.mem (s.reg .rb b + s.reg .rd c)) := by
  have hbody : ldmBody file mo a = [.elemOp (.qemuLd (.temp 1) (.temp 0) mo),
      .elemOp (.mov (elem file a) (.temp 1)),
      .elemOp (.bin .add (.temp 0) (.temp 0) (.const (BitVec.ofNat 64 mo.bytes)))] := by
    rw [ldmBody, if_pos (Or.inl (by omega))]
    rfl
  refine yields_multi [.bin .add (.temp 0) (.global (.reg .rb b)) (.global (.reg .rd c)),
    .qemuLd (.temp 1) (.temp 0) mo, .mov (elem file a) (.temp 1),
    .bin .add (.temp 0) (.temp 0) (.const (BitVec.ofNat 64 mo.bytes))]
    (disasInsn_mem h hmulti (fun _ _ => rfl) hlt) ?_ rfl fun m hm => ?_
  · rw [hbody]
    rfl
  · simp [stepOp, view_write_reg _ ha, hm.read_rd, read_rb m hb, BinOp.eval]
    rfl

/-- A store of one register at an index. -/
lemma yields_stm {file : RegFile} {mo : MemOp} (h : Fields w op a b c 1)
    (hmulti : multiOf w = some (.stm file mo)) (ha : a ≠ 0) (hlt : a < 2 ^ 6) (hb : b ≠ 0) :
    Yields always [w] fun s =>
      { s with mem := s.mem.store (s.reg .rb b + s.reg .rd c) mo.bytes (s.reg file a) } := by
  refine yields_multi [.bin .add (.temp 0) (.global (.reg .rb b)) (.global (.reg .rd c)),
    .qemuSt (elem file a) (.temp 0) mo,
    .bin .add (.temp 0) (.temp 0) (.const (BitVec.ofNat 64 mo.bytes))]
    (disasInsn_mem h hmulti (fun _ _ => rfl) hlt) rfl rfl fun m hm => ?_
  have hread : m.env.globals (.reg file a) = (view m).reg file a := (viewReg_of_ne m ha).symm
  simp [stepOp, hm.read_rd, read_rb m hb, hread, BinOp.eval]
  rfl

/-- A move of one register. -/
lemma yields_r2r {src dest : RegFile} (h : Fields w op a b c 1)
    (hmulti : multiOf w = some (.r2r src dest)) (hb : b ≠ 0) (hlt : b < 2 ^ 6) (hlt' : c < 2 ^ 6)
    (hread : ∀ m, Settled m → m.env.globals (.reg src c) = (view m).reg src c) :
    Yields always [w] fun s => s.set dest b (s.reg src c) := by
  have hbody : r2rBody src dest b c = [.elemOp (.mov (elem dest b) (elem src c))] := by
    rw [r2rBody, if_pos (Or.inl (by omega))]
  have hwalk : walkTwo (r2rBody src dest) 1 b c 1 = some (r2rBody src dest b c) := by
    by_cases hlt : (b : ℤ) > c
    · simp [walkTwo, Loop.doWhile, hlt]
    · simp [walkTwo, Loop.doWhile, hlt]
  have hdisas (pc : BitVec 64) : disasInsn 1 pc w = some ⟨r2rBody src dest b c, .next, -1⟩ := by
    rw [disasInsn, hmulti]
    simp only [Multi.trans]
    rw [insnRegOrri, h.hb, h.hc, h.hd, Nat.cast_one, hwalk]
    simp [Translation.unless, illegalWhen, show ¬ 64 < b + 1 by omega, show ¬ 64 < c + 1 by omega]
  refine yields_multi [.mov (elem dest b) (elem src c)] hdisas (by rw [hbody]; rfl) rfl fun m hm => ?_
  simp [stepOp, view_write_reg _ hb, hread m hm]

/-! ## Wydes -/

/-- `orw`. -/
lemma yields_orw {reg : ℕ → Global} (file : RegFile) (hfile : ∀ i, (reg i).elem = .reg file i) (hw : Plain w)
    (hdisas : ∀ pc, disasDadao pc w = some (some (insnOrwRwii reg w))) (ha : fieldHa w ≠ 0) :
    Yields always [w] fun s => s.set file (fieldHa w) (s.reg file (fieldHa w) ||| wydeArg w) := by
  refine yields_next hw.1 hw.2 (fun pc => by rw [hdisas, insnOrwRwii, if_neg ha]) rfl fun m hm => ?_
  have hread : m.env.globals (.reg file (fieldHa w)) = (view m).reg file (fieldHa w) := (viewReg_of_ne m ha).symm
  simp [hfile, stepOp, view_write_reg m ha, hread, BinOp.eval]

/-- `andnw`. -/
lemma yields_andnw {reg : ℕ → Global} (file : RegFile) (hfile : ∀ i, (reg i).elem = .reg file i) (hw : Plain w)
    (hdisas : ∀ pc, disasDadao pc w = some (some (insnAndnwRwii reg w))) (ha : fieldHa w ≠ 0) :
    Yields always [w] fun s => s.set file (fieldHa w) (s.reg file (fieldHa w) &&& ~~~wydeArg w) := by
  refine yields_next hw.1 hw.2 (fun pc => by rw [hdisas, insnAndnwRwii, if_neg ha]) rfl fun m hm => ?_
  have hread : m.env.globals (.reg file (fieldHa w)) = (view m).reg file (fieldHa w) := (viewReg_of_ne m ha).symm
  simp [hfile, stepOp, view_write_reg m ha, hread, BinOp.eval]

/-- `setow`. -/
lemma yields_setow (hw : Plain w) (hdisas : ∀ pc, disasDadao pc w = some (some (transSETOW w)))
    (ha : fieldHa w ≠ 0) : Yields always [w] fun s =>
      s.set .rd (fieldHa w) (wydeArg w ||| ~~~(0xFFFF#64 <<< (fieldWw w * 16))) := by
  refine yields_next hw.1 hw.2 (fun pc => by rw [hdisas, transSETOW, if_neg ha]) rfl fun m hm => ?_
  simp [movi, stepOp, view_write_reg m ha]

end Families

/-! ## Branches -/

/-- **A jump through registers** goes to its target and changes nothing. -/
lemma jumps_rrii (h : Fields w op a b c d) (hw : Plain w)
    (hdisas : ∀ pc, disasDadao pc w = some (some (transJUMPr w))) (ha : a ≠ 0) (m : Machine Elem) :
    ∃ m', Executes w m (.done m') ∧ view m' = view m ∧ m'.env.globals .pc = (view m).reg .rb a +
      (view m).reg .rd b + (BitVec.ofNat 12 (c * 2 ^ 6 + d)).signExtend 64 * 4 := by
  have hops : disasInsn 0 (m.env.globals .pc) w = some (transJUMPr w).translation := by
    rw [disasInsn, hw.1]
    simp only
    rw [hw.2, hdisas]
    rfl
  have hprologue : prologue.all Op.isStraight = true := rfl
  have hset := settled_prologue m
  have hrd := hset.read_rd b
  have hrb := read_rb (runStraight prologue m) ha
  rw [view_prologue] at hrd hrb
  obtain ⟨target, htarget⟩ : ∃ v, v = (runStraight prologue m).env.globals (.reg .rb (fieldHa w)) +
      (runStraight prologue m).env.globals (.reg .rd (fieldHb w)) + fieldImms 12 w * 4 := ⟨_, rfl⟩
  refine ⟨(runStraight ((transJUMPr w).ops.map (Op.map Global.elem)) (runStraight prologue m)).write
    (.global .pc) target, (executes_around hops (mapM_toOp_op _) _).mpr ?_, ?_, ?_⟩
  · rw [exec_append_straight hprologue, exec_append_straight (by rw [all_isStraight_map]; rfl), htarget]
    simp [transJUMPr, Emitted.jump, stepOp, BinOp.eval]
    rfl
  · rw [view_write_pc, ← view_prologue m]
    rfl
  · rw [Machine.write_env, Env.write_global_globals, if_pos rfl, htarget, h.ha, h.hb, h.imms12, hrd, hrb]

/-- **A conditional branch** goes to its target if the register meets the condition, else on to the next
instruction, and changes nothing. -/
lemma branches_riii (h : Fields w op a b c d) (hw : Plain w) {k : Cond}
    (hdisas : ∀ pc, disasDadao pc w = some (some (insnBrRiii k pc w))) (m : Machine Elem) :
    ∃ m', Executes w m (.done m') ∧ view m' = view m ∧ m'.env.globals .pc = m.env.globals .pc +
      if k.holds ((view m).reg .rd a) 0 then (BitVec.ofNat 18 (b * 2 ^ 12 + c * 2 ^ 6 + d)).signExtend 64 * 4
      else 4 := by
  have hops : disasInsn 0 (m.env.globals .pc) w =
      some (insnBrRiii k (m.env.globals .pc) w).translation := by
    rw [disasInsn, hw.1]
    simp only
    rw [hw.2, hdisas]
    rfl
  have hprologue : prologue.all Op.isStraight = true := rfl
  have hset := settled_prologue m
  have hread := hset.read_rd a
  rw [view_prologue] at hread
  have hjmp (v v' : BitVec 64) : (((runStraight prologue m).write (.global .jmpPc) v).write
      (.global .pc) v').env.globals .pc = v' := by
    rw [Machine.write_env, Env.write_global_globals, if_pos rfl]
  have hview (v : BitVec 64) : view ((runStraight prologue m).write (.global .jmpPc) v) =
      view (runStraight prologue m) := rfl
  generalize htarget : m.env.globals .pc + (if k.holds ((view m).reg .rd a) 0 then
    (BitVec.ofNat 18 (b * 2 ^ 12 + c * 2 ^ 6 + d)).signExtend 64 * 4 else 4) = target
  have hcond : (if k.holds ((runStraight prologue m).env.globals (.reg .rd (fieldHa w)))
      ((runStraight prologue m).env.globals (.reg .rd 0)) then m.env.globals .pc + fieldImms 18 w * 4
        else m.env.globals .pc + 4) = target := by
    rw [h.ha, h.imms18, hread, hset.rd, ← htarget]
    split_ifs <;> rfl
  refine ⟨((runStraight prologue m).write (.global .jmpPc) target).write (.global .pc) target,
    (executes_around hops (mapM_toOp_op _) _).mpr ?_, ?_, hjmp _ _⟩
  · rw [exec_append_straight hprologue, ← hcond]
    rfl
  · rw [view_write_pc, hview, view_prologue]

end Dadao.Qemu
