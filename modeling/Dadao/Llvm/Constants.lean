import Dadao.Bfd.FillAbs
import Dadao.Llvm.ObjectWriter
import Mathlib.Tactic.IntervalCases

set_option relaxedAutoImplicit false
set_option autoImplicit false

/-!
# Constants

The patterns of `DadaoInstrInfo.td` that select a constant: the wyde predicates and transforms, and the
sequences of `setzw`, `setow`, `orw` and `andnw` with what the simulator makes of their words. The
predicates overlap, so that one constant may have several sequences.

## Main definitions

* `Dadao.Llvm.wyde`, `Dadao.Llvm.notWyde`, `Dadao.Llvm.i64w`, … — transforms and predicates.
* `Dadao.Llvm.constantPatterns` — the patterns.
* `Dadao.Llvm.ConstantPattern.emit` — the words of the selected sequence.

## Main results

* `Dadao.Llvm.emitWyde_eq` — the word of an instruction with a wyde.
* `Dadao.Llvm.constantPatterns_correct` — every pattern that applies leaves the constant, and one applies.
-/

namespace Dadao.Llvm

open Qemu Bfd Fields

/-! ## Predicates and transforms -/

/-- `Wyde0` to `Wyde3`. -/
def wyde (k : ℕ) (imm : BitVec 64) : BitVec 64 := imm >>> (16 * k) &&& 0xFFFF

/-- `NotWyde1` and `NotWyde2`. -/
def notWyde (k : ℕ) (imm : BitVec 64) : BitVec 64 := ~~~(imm >>> (16 * k)) &&& 0xFFFF

/-- `i64w0` to `i64w3`. -/
def i64w (k : ℕ) (imm : BitVec 64) : Bool := imm &&& 0xFFFF#64 <<< (16 * k) = imm

/-- `oimm16`. -/
def oimm16 (imm : BitVec 64) : Bool := ~~~0xFFFF#64 &&& imm = ~~~0xFFFF#64

/-- `zimm32`. -/
def zimm32 (imm : BitVec 64) : Bool := ~~~0xFFFFFFFF#64 &&& imm = 0

/-- `oimm32`. -/
def oimm32 (imm : BitVec 64) : Bool := ~~~0xFFFFFFFF#64 &&& imm = ~~~0xFFFFFFFF#64

/-- `zimm48`. -/
def zimm48 (imm : BitVec 64) : Bool := ~~~0xFFFFFFFFFFFF#64 &&& imm = 0

/-- `oimm48`. -/
def oimm48 (imm : BitVec 64) : Bool := ~~~0xFFFFFFFFFFFF#64 &&& imm = ~~~0xFFFFFFFFFFFF#64

/-! ## The patterns -/

/-- A pattern for a constant: the class of its result, its predicate, and its instructions from the
innermost on with the transforms of their immediates. -/
structure ConstantPattern where
  cls : RegClass
  applies : BitVec 64 → Bool
  steps : List (Opcode × (BitVec 64 → BitVec 64))

/-- The patterns with a constant on their left, in the order of the file. -/
def constantPatterns : List ConstantPattern :=
  [⟨.gprd, i64w 0, [(.setzwRwiiW0, wyde 0)]⟩,
    ⟨.gprd, i64w 1, [(.setzwRwiiW1, wyde 1)]⟩,
    ⟨.gprd, i64w 2, [(.setzwRwiiW2, wyde 2)]⟩,
    ⟨.gprd, i64w 3, [(.setzwRwiiW3, wyde 3)]⟩,
    ⟨.gprb, i64w 0, [(.setzwRbRwiiW0, wyde 0)]⟩,
    ⟨.gprb, i64w 1, [(.setzwRbRwiiW1, wyde 1)]⟩,
    ⟨.gprb, i64w 2, [(.setzwRbRwiiW2, wyde 2)]⟩,
    ⟨.gprb, i64w 3, [(.setzwRbRwiiW3, wyde 3)]⟩,
    ⟨.gprd, oimm16, [(.setowRwiiW0, wyde 0)]⟩,
    ⟨.gprd, zimm32, [(.setzwRwiiW0, wyde 0), (.orwRwiiW1, wyde 1)]⟩,
    ⟨.gprd, oimm32, [(.setowRwiiW0, wyde 0), (.andnwRwiiW1, notWyde 1)]⟩,
    ⟨.gprd, zimm48, [(.setzwRwiiW0, wyde 0), (.orwRwiiW1, wyde 1), (.orwRwiiW2, wyde 2)]⟩,
    ⟨.gprd, oimm48, [(.setowRwiiW0, wyde 0), (.andnwRwiiW1, notWyde 1), (.andnwRwiiW2, notWyde 2)]⟩,
    ⟨.gprd, fun _ => true,
      [(.setzwRwiiW0, wyde 0), (.orwRwiiW1, wyde 1), (.orwRwiiW2, wyde 2), (.orwRwiiW3, wyde 3)]⟩,
    ⟨.gprb, fun _ => true,
      [(.setzwRbRwiiW0, wyde 0), (.orwRbRwiiW1, wyde 1), (.orwRbRwiiW2, wyde 2), (.orwRbRwiiW3, wyde 3)]⟩]

/-- A register of the destination; register 0 is reserved in both files. -/
structure DstReg where
  n : BitVec 6
  pos : n ≠ 0

/-- The register of a class. -/
def DstReg.register (r : DstReg) : RegClass → Register
  | .gprd => .rd r.n
  | .gprb => .rb r.n

/-- Its place in the simulator. -/
def DstReg.global (r : DstReg) : RegClass → Global
  | .gprd => .rd r.n.toNat
  | .gprb => .rb r.n.toNat

/-- An instruction of a sequence: its register, the default of its wyde position and its immediate. -/
def wydeInst (opcode : Opcode) (reg : Register) (v : BitVec 64) : MCInst :=
  ⟨opcode, opcode.record.operands.map fun op =>
    match op.cls with
    | .reg _ => .reg reg
    | .wposPred k => .imm (BitVec.ofNat 64 k)
    | _ => .imm v⟩

/-- The words of a list of instructions. -/
def emitAll (insts : List MCInst) : Option (List (BitVec 32)) :=
  (insts.mapM fun inst => (encodeInstruction inst).map Prod.fst).map List.flatten

/-- **The words of the selected sequence.** -/
def ConstantPattern.emit (p : ConstantPattern) (r : DstReg) (c : BitVec 64) : Option (List (BitVec 32)) :=
  emitAll (p.steps.map fun step => wydeInst step.1 (r.register p.cls) (step.2 c))

/-! ## Words with a wyde -/

/-- A word by its fields. -/
lemma rwii_eq_append {op ha ww imm : ℕ} (hop : op < 2 ^ 8) (hha : ha < 2 ^ 6) (hww : ww < 4) (himm : imm < 2 ^ 16) :
    rwii op ha ww imm = BitVec.ofNat 8 op ++ BitVec.ofNat 6 ha ++ BitVec.ofNat 2 ww ++ BitVec.ofNat 16 imm := by
  apply BitVec.eq_of_toNat_eq
  rw [toNat_rwii hop hha hww himm, BitVec.toNat_append, BitVec.toNat_append, BitVec.toNat_append,
    ← Nat.shiftLeft_add_eq_or_of_lt (BitVec.isLt _), ← Nat.shiftLeft_add_eq_or_of_lt (BitVec.isLt _),
    ← Nat.shiftLeft_add_eq_or_of_lt (BitVec.isLt _)]
  simp only [Nat.shiftLeft_eq, BitVec.toNat_ofNat]
  omega

/-- The word of a format with a wyde. -/
lemma insert_instRWII {op k : ℕ} (hop : op < 2 ^ 8) (hk : k < 4) {vals : FieldName → BitVec 32}
    (hha : (vals .rxHa).toNat < 2 ^ 6) (himm : (vals .imm16).toNat < 2 ^ 16) :
    Fields.insert (instRWII op k) vals = rwii op (vals .rxHa).toNat k (vals .imm16).toNat := by
  rw [rwii_eq_append hop hha hk himm]
  apply BitVec.eq_of_getLsbD_eq
  intro p hp
  rw [Fields.insert, Fields.getLsbD_ofBits]
  rw [BitVec.getLsbD_append, BitVec.getLsbD_append, BitVec.getLsbD_append]
  interval_cases p <;>
    simp only [BitVec.getLsbD_ofNat, Nat.reduceLT, Nat.reduceSub, if_true, if_false, decide_true, Bool.true_and] <;>
    rfl

/-! ## The instructions of the sequences -/

/-- The instructions with a wyde, in the files that have them. -/
inductive WydeInsn where
  | setzwRd | setowRd | orwRd | andnwRd | setzwRb | orwRb | andnwRb
  deriving DecidableEq, Repr

def WydeInsn.cls : WydeInsn → RegClass
  | .setzwRd | .setowRd | .orwRd | .andnwRd => .gprd
  | .setzwRb | .orwRb | .andnwRb => .gprb

def WydeInsn.record (k : ℕ) : WydeInsn → Record
  | .setzwRd => setRWII 0b00010110 k "setzw" .gprd
  | .setowRd => setRWII 0b00010111 k "setow" .gprd
  | .orwRd => updateRWII 0b00010100 k "orw" .gprd
  | .andnwRd => updateRWII 0b00010101 k "andnw" .gprd
  | .setzwRb => setRWII 0b01001110 k "setzw" .gprb
  | .orwRb => updateRWII 0b01001100 k "orw" .gprb
  | .andnwRb => updateRWII 0b01001101 k "andnw" .gprb

def WydeInsn.majorop : WydeInsn → ℕ
  | .setzwRd => 0b00010110
  | .setowRd => 0b00010111
  | .orwRd => 0b00010100
  | .andnwRd => 0b00010101
  | .setzwRb => 0b01001110
  | .orwRb => 0b01001100
  | .andnwRb => 0b01001101

/-- What the instructions make of a register. -/
def WydeInsn.eval (k : ℕ) (v old : BitVec 64) : WydeInsn → BitVec 64
  | .setzwRd | .setzwRb => v <<< (k * 16)
  | .setowRd => v <<< (k * 16) ||| ~~~(0xFFFF#64 <<< (k * 16))
  | .orwRd | .orwRb => old ||| v <<< (k * 16)
  | .andnwRd | .andnwRb => old &&& ~~~(v <<< (k * 16))

/-- An opcode with the record of an instruction for wyde `k`. -/
structure Opcode.IsWyde (opcode : Opcode) (insn : WydeInsn) (k : ℕ) : Prop where
  lt : k < 4
  record : opcode.record = insn.record k
  not_load : ∀ operands, isSymbolLoad ⟨opcode, operands⟩ = false

lemma WydeInsn.majorop_lt (insn : WydeInsn) : insn.majorop < 2 ^ 8 := by
  cases insn <;> decide

/-- **The word of an instruction with a wyde.** -/
lemma emitWyde_eq {opcode : Opcode} {insn : WydeInsn} {k : ℕ} (h : opcode.IsWyde insn k) (reg : Register)
    {v : BitVec 64} (hv : v.toNat < 2 ^ 16) : encodeInstruction (wydeInst opcode reg v) =
      some ([rwii insn.majorop (getDadaoRegisterNumbering reg) k v.toNat], []) := by
  have hnum := getDadaoRegisterNumbering_lt reg
  have hreg : (BitVec.ofNat 32 (getDadaoRegisterNumbering reg)).toNat = getDadaoRegisterNumbering reg := by
    rw [BitVec.toNat_ofNat]
    omega
  have himm : (v.setWidth 32).toNat = v.toNat := by
    rw [BitVec.toNat_setWidth]
    omega
  have hword : Fields.insert (instRWII insn.majorop k) (fun name =>
      (([(.rxHa, BitVec.ofNat 32 (getDadaoRegisterNumbering reg)), (.imm16, v.setWidth 32)] :
        List (FieldName × BitVec 32)).lookup name).getD 0) =
      rwii insn.majorop (getDadaoRegisterNumbering reg) k v.toNat := by
    refine (insert_instRWII insn.majorop_lt h.lt ?_ ?_).trans ?_
    · exact hreg.trans_lt hnum
    · exact himm.trans_lt hv
    · exact congrArg₂ (fun ha imm => rwii insn.majorop ha k imm) hreg himm
  have hcode : getBinaryCodeForInstr (wydeInst opcode reg v) = some (Fields.insert (instRWII insn.majorop k)
      (fun name => (([(.rxHa, BitVec.ofNat 32 (getDadaoRegisterNumbering reg)), (.imm16, v.setWidth 32)] :
        List (FieldName × BitVec 32)).lookup name).getD 0), []) := by
    rw [wydeInst, getBinaryCodeForInstr]
    dsimp only
    rw [h.record]
    cases insn <;> rfl
  have hload : ¬isSymbolLoad (wydeInst opcode reg v) = true := by
    rw [wydeInst, h.not_load]
    decide
  rw [encodeInstruction, if_neg hload, hcode, hword]
  rfl

/-! ## What they compute -/

/-- Bitwise and with a constant. -/
lemma computes_and {dst : Global} {w : BitVec 32} {v : BitVec 64} (hpc : dst ≠ cpuPc)
    (hrd : dst ≠ .rd 0) (hrf : dst ≠ .rf 0)
    (hdisas : ∀ pc, disasDadao pc w =
      some (some (.next [.bin .and (glob dst) (glob dst) (.const v)]))) :
    Computes dst [w] (fun old => old &&& v) := by
  have hsettle : settle dst ∘ (fun old => old &&& v) = fun old => old &&& v :=
    funext fun _ => settle_of_ne hrd hrf
  rw [← hsettle]
  refine computes_of_next hpc hdisas rfl (fun s => ?_) (fun s g hg => ?_)
  · simp [Tcg.runStraight, Tcg.stepOp, Tcg.BinOp.eval]
  · simp [Tcg.runStraight, Tcg.stepOp, hg]

/-- A register of the destination in a file that can be written. -/
lemma DstReg.global_ne (r : DstReg) (cls : RegClass) :
    r.global cls ≠ cpuPc ∧ r.global cls ≠ .rd 0 ∧ r.global cls ≠ .rf 0 := by
  have hpos : r.n.toNat ≠ 0 := fun h => r.pos (BitVec.eq_of_toNat_eq h)
  cases cls <;> simp [DstReg.global, hpos]

/-- **An instruction of a sequence** computes what its kind says. -/
lemma WydeInsn.computes (insn : WydeInsn) (r : DstReg) {k : ℕ} (hk : k < 4) {v : BitVec 64}
    (hv : v.toNat < 2 ^ 16) : Computes (r.global insn.cls) [rwii insn.majorop r.n.toNat k v.toNat]
      (fun old => insn.eval k v old) := by
  have hpos : r.n.toNat ≠ 0 := fun h => r.pos (BitVec.eq_of_toNat_eq h)
  have hv64 : BitVec.ofNat 64 v.toNat = v := by simp
  obtain ⟨hpc, hrd, hrf⟩ := r.global_ne insn.cls
  have hha := fieldHa_rwii insn.majorop_lt r.n.isLt hk hv
  have hww := fieldWw_rwii insn.majorop_lt r.n.isLt hk hv
  have harg := wydeArg_rwii insn.majorop_lt r.n.isLt hk hv
  have hop := opcode_rwii insn.majorop_lt r.n.isLt hk hv
  rw [hv64] at harg
  cases insn with
  | setzwRd =>
    refine computes_movi hpc hrd hrf fun pc => ?_
    rw [rdFile.disas_set pc _ hop, insnSetzwRwii, hha, harg, if_neg hpos]
    rfl
  | setzwRb =>
    refine computes_movi hpc hrd hrf fun pc => ?_
    rw [rbFile.disas_set pc _ hop, insnSetzwRwii, hha, harg, if_neg hpos]
    rfl
  | orwRd =>
    refine Bfd.computes_or hpc hrd hrf fun pc => ?_
    rw [rdFile.disas_or pc _ hop, insnOrwRwii, hha, harg, if_neg hpos]
    rfl
  | orwRb =>
    refine Bfd.computes_or hpc hrd hrf fun pc => ?_
    rw [rbFile.disas_or pc _ hop, insnOrwRwii, hha, harg, if_neg hpos]
    rfl
  | setowRd =>
    refine computes_movi hpc hrd hrf fun pc => ?_
    have hdisas : disasDadao pc (rwii WydeInsn.setowRd.majorop r.n.toNat k v.toNat) =
        some (some (transSETOW (rwii WydeInsn.setowRd.majorop r.n.toNat k v.toNat))) := by
      rw [disasDadao, hop]
      rfl
    rw [hdisas, transSETOW, hha, harg, hww, if_neg hpos]
    rfl
  | andnwRd =>
    refine computes_and hpc hrd hrf fun pc => ?_
    have hdisas : disasDadao pc (rwii WydeInsn.andnwRd.majorop r.n.toNat k v.toNat) =
        some (some (insnAndnwRwii .rd (rwii WydeInsn.andnwRd.majorop r.n.toNat k v.toNat))) := by
      rw [disasDadao, hop]
      rfl
    rw [hdisas, insnAndnwRwii, hha, harg, if_neg hpos]
    rfl
  | andnwRb =>
    refine computes_and hpc hrd hrf fun pc => ?_
    have hdisas : disasDadao pc (rwii WydeInsn.andnwRb.majorop r.n.toNat k v.toNat) =
        some (some (insnAndnwRwii .rb (rwii WydeInsn.andnwRb.majorop r.n.toNat k v.toNat))) := by
      rw [disasDadao, hop]
      rfl
    rw [hdisas, insnAndnwRwii, hha, harg, if_neg hpos]
    rfl

/-- What a list of steps makes of a constant and of the register. -/
inductive StepsCompute (cls : RegClass) :
    List (Opcode × (BitVec 64 → BitVec 64)) → (BitVec 64 → BitVec 64 → BitVec 64) → Prop
  | nil : StepsCompute cls [] fun _ old => old
  | cons {opcode steps f transform} (insn : WydeInsn) (k : ℕ) (his : opcode.IsWyde insn k) (hcls : insn.cls = cls)
      (hlt : ∀ c, (transform c).toNat < 2 ^ 16) (h : StepsCompute cls steps f) :
      StepsCompute cls ((opcode, transform) :: steps) fun c old => f c (insn.eval k (transform c) old)

/-- **The words of a list of steps** compute it. -/
lemma StepsCompute.emit {cls : RegClass} {steps : List (Opcode × (BitVec 64 → BitVec 64))}
    {f : BitVec 64 → BitVec 64 → BitVec 64} (h : StepsCompute cls steps f) (r : DstReg) (c : BitVec 64) :
    ∃ ws, emitAll (steps.map fun step => wydeInst step.1 (r.register cls) (step.2 c)) = some ws ∧
      Computes (r.global cls) ws (fun old => f c old) := by
  induction h with
  | nil => exact ⟨[], rfl, computes_nil _⟩
  | @cons opcode steps f transform insn k his hcls hlt _ ih =>
    obtain ⟨ws, hws, hcomp⟩ := ih
    have hnum : getDadaoRegisterNumbering (r.register cls) = r.n.toNat := by
      cases cls <;> rfl
    have hhead := insn.computes r his.lt (hlt c)
    have hword := emitWyde_eq his (r.register cls) (hlt c)
    rw [hcls] at hhead
    rw [hnum] at hword
    refine ⟨rwii insn.majorop r.n.toNat k (transform c).toNat :: ws, ?_, hhead.append hcomp⟩
    rw [emitAll] at hws ⊢
    obtain ⟨wss, hwss, rfl⟩ := Option.map_eq_some_iff.mp hws
    rw [List.map_cons, List.mapM_cons, hword, hwss]
    rfl

/-! ## The bits of a constant -/

/-- Bit `i` is in wyde `k`. -/
def inWyde (k i : ℕ) : Bool := i / 16 = k

lemma getLsbD_ones (i : ℕ) : (0xFFFF#64).getLsbD i = decide (i < 16) := by
  have hones : 0xFFFF#64 = BitVec.ofNat 64 (2 ^ 16 - 1) := by decide
  rw [hones, BitVec.getLsbD_ofNat, Nat.testBit_two_pow_sub_one, Bool.eq_iff_iff]
  simp
  omega

lemma getLsbD_wydeMask {k i : ℕ} (hi : i < 64) :
    (0xFFFF#64 <<< (k * 16)).getLsbD i = inWyde k i := by
  rw [BitVec.getLsbD_shiftLeft, getLsbD_ones, inWyde, Bool.eq_iff_iff]
  simp
  omega

lemma getLsbD_mask (v : BitVec 64) (i : ℕ) : (v &&& 0xFFFF).getLsbD i = (decide (i < 16) && v.getLsbD i) := by
  have hones : (0xFFFF : BitVec 64) = 0xFFFF#64 := rfl
  rw [hones, BitVec.getLsbD_and, getLsbD_ones, Bool.and_comm]

/-- A value masked to a wyde and put in its place. -/
lemma getLsbD_place (f : ℕ → Bool) (k : ℕ) {i : ℕ} (hi : i < 64) :
    (decide (i < 64) && !decide (i < k * 16) && (decide (i - k * 16 < 16) && f (16 * k + (i - k * 16)))) =
      (inWyde k i && f i) := by
  rw [inWyde]
  by_cases hk : 16 * k ≤ i
  · have hidx : 16 * k + (i - k * 16) = i := by omega
    rw [hidx, ← Bool.and_assoc]
    congr 1
    rw [Bool.eq_iff_iff]
    simp
    omega
  · have hlt : i < k * 16 := by omega
    have hne : i / 16 ≠ k := by omega
    simp [hlt, hne]

/-- A wyde in its place. -/
lemma getLsbD_wyde (c : BitVec 64) (k : ℕ) {i : ℕ} (hi : i < 64) :
    (wyde k c <<< (k * 16)).getLsbD i = (inWyde k i && c.getLsbD i) := by
  rw [BitVec.getLsbD_shiftLeft, wyde, getLsbD_mask, BitVec.getLsbD_ushiftRight]
  exact getLsbD_place c.getLsbD k hi

/-- The complement of a wyde in its place. -/
lemma getLsbD_notWyde (c : BitVec 64) (k : ℕ) {i : ℕ} (hi : i < 64) :
    (notWyde k c <<< (k * 16)).getLsbD i = (inWyde k i && !c.getLsbD i) := by
  rw [BitVec.getLsbD_shiftLeft, notWyde, getLsbD_mask, BitVec.getLsbD_not, BitVec.getLsbD_ushiftRight,
    ← getLsbD_place (fun i => !c.getLsbD i) k hi]
  by_cases hlt : i - k * 16 < 16
  · have h64 : i - k * 16 < 64 := by omega
    simp [h64]
  · simp [hlt]

/-- The wydes fit their field. -/
lemma wyde_lt (k : ℕ) (c : BitVec 64) : (wyde k c).toNat < 2 ^ 16 := by
  rw [wyde]
  exact Nat.and_le_right.trans_lt (by decide)

lemma notWyde_lt (k : ℕ) (c : BitVec 64) : (notWyde k c).toNat < 2 ^ 16 := by
  rw [notWyde]
  exact Nat.and_le_right.trans_lt (by decide)

/-! ## The predicates by bits -/

/-- A constant with wyde `k` only. -/
lemma getLsbD_of_i64w {k : ℕ} {c : BitVec 64} (h : i64w k c = true) {i : ℕ} (hi : i < 64) :
    c.getLsbD i = (inWyde k i && c.getLsbD i) := by
  have hbit := congrArg (fun v => v.getLsbD i) (of_decide_eq_true h)
  rw [Nat.mul_comm, BitVec.getLsbD_and, getLsbD_wydeMask hi, Bool.and_comm] at hbit
  exact hbit.symm

/-- A mask of the low wydes. -/
lemma getLsbD_not_low {mask : BitVec 64} {m i : ℕ} (hmask : mask = BitVec.ofNat 64 (2 ^ (16 * m) - 1))
    (hi : i < 64) : (~~~mask).getLsbD i = decide (m ≤ i / 16) := by
  rw [hmask, BitVec.getLsbD_not, BitVec.getLsbD_ofNat, Nat.testBit_two_pow_sub_one, Bool.eq_iff_iff]
  simp
  omega

/-- A constant with zeros above the low wydes. -/
lemma getLsbD_of_zimm {mask c : BitVec 64} {m : ℕ} (hmask : mask = BitVec.ofNat 64 (2 ^ (16 * m) - 1))
    (h : ~~~mask &&& c = 0) {i : ℕ} (hi : i < 64) (hge : m ≤ i / 16) : c.getLsbD i = false := by
  have hbit := congrArg (fun v => v.getLsbD i) h
  have hzero : (0 : BitVec 64).getLsbD i = false := BitVec.getLsbD_zero
  rw [BitVec.getLsbD_and, getLsbD_not_low hmask hi, hzero] at hbit
  simpa [hge] using hbit

/-- A constant with ones above the low wydes. -/
lemma getLsbD_of_oimm {mask c : BitVec 64} {m : ℕ} (hmask : mask = BitVec.ofNat 64 (2 ^ (16 * m) - 1))
    (h : ~~~mask &&& c = ~~~mask) {i : ℕ} (hi : i < 64) (hge : m ≤ i / 16) : c.getLsbD i = true := by
  have hbit := congrArg (fun v => v.getLsbD i) h
  rw [BitVec.getLsbD_and, getLsbD_not_low hmask hi] at hbit
  simpa [hge] using hbit

/-! ## The patterns -/

/-- The steps of a pattern leave every constant the pattern applies to. -/
def ConstantPattern.Sound (p : ConstantPattern) : Prop :=
  ∃ f, StepsCompute p.cls p.steps f ∧ ∀ c, p.applies c = true → ∀ old, f c old = c

/-- It is enough to compare wyde by wyde. -/
lemma eq_of_wydes {v c : BitVec 64} (h : ∀ i < 64, i / 16 = 0 ∨ i / 16 = 1 ∨ i / 16 = 2 ∨ i / 16 = 3 →
    v.getLsbD i = c.getLsbD i) : v = c :=
  BitVec.eq_of_getLsbD_eq fun i hi => h i hi (by omega)

section Sound

/-! The opcodes of the sequences are given by their instructions, so that both files share the proofs. -/

variable {set or1 or2 or3 seto andn1 andn2 : Opcode} {setzw orw : WydeInsn} {cls : RegClass}

/-- The two files. -/
def WydePair (cls : RegClass) (setzw orw : WydeInsn) : Prop :=
  cls = .gprd ∧ setzw = .setzwRd ∧ orw = .orwRd ∨ cls = .gprb ∧ setzw = .setzwRb ∧ orw = .orwRb

variable (hpair : WydePair cls setzw orw)

include hpair

lemma WydePair.cls_eq : setzw.cls = cls ∧ orw.cls = cls := by
  rcases hpair with ⟨rfl, rfl, rfl⟩ | ⟨rfl, rfl, rfl⟩ <;> exact ⟨rfl, rfl⟩

lemma WydePair.eval_eq (k : ℕ) (v old : BitVec 64) :
    setzw.eval k v old = v <<< (k * 16) ∧ orw.eval k v old = old ||| v <<< (k * 16) := by
  rcases hpair with ⟨rfl, rfl, rfl⟩ | ⟨rfl, rfl, rfl⟩ <;> exact ⟨rfl, rfl⟩

lemma sound_i64w {k : ℕ} (h : set.IsWyde setzw k) : (ConstantPattern.mk cls (i64w k) [(set, wyde k)]).Sound := by
  refine ⟨_, .cons setzw k h hpair.cls_eq.1 (wyde_lt k) .nil, fun c happ old => eq_of_wydes fun i hi _ => ?_⟩
  rw [(hpair.eval_eq _ _ _).1, getLsbD_wyde c k hi, ← getLsbD_of_i64w happ hi]

variable (hset : set.IsWyde setzw 0) (hor1 : or1.IsWyde orw 1)

include hset hor1

lemma sound_zimm32 : (ConstantPattern.mk cls zimm32 [(set, wyde 0), (or1, wyde 1)]).Sound := by
  refine ⟨_, .cons setzw 0 hset hpair.cls_eq.1 (wyde_lt 0) (.cons orw 1 hor1 hpair.cls_eq.2 (wyde_lt 1) .nil),
    fun c happ old => eq_of_wydes fun i hi hw => ?_⟩
  have hc := getLsbD_of_zimm (m := 2) rfl (of_decide_eq_true happ) hi
  rw [(hpair.eval_eq _ _ _).1, (hpair.eval_eq _ _ _).2, BitVec.getLsbD_or, getLsbD_wyde c _ hi, getLsbD_wyde c _ hi]
  rcases hw with h | h | h | h <;> simp [inWyde, h, hc]

variable (hor2 : or2.IsWyde orw 2)

include hor2

lemma sound_zimm48 : (ConstantPattern.mk cls zimm48 [(set, wyde 0), (or1, wyde 1), (or2, wyde 2)]).Sound := by
  refine ⟨_, .cons setzw 0 hset hpair.cls_eq.1 (wyde_lt 0) (.cons orw 1 hor1 hpair.cls_eq.2 (wyde_lt 1)
    (.cons orw 2 hor2 hpair.cls_eq.2 (wyde_lt 2) .nil)), fun c happ old => eq_of_wydes fun i hi hw => ?_⟩
  have hc := getLsbD_of_zimm (m := 3) rfl (of_decide_eq_true happ) hi
  rw [(hpair.eval_eq _ _ _).1, (hpair.eval_eq _ _ _).2, (hpair.eval_eq _ _ _).2, BitVec.getLsbD_or, BitVec.getLsbD_or,
    getLsbD_wyde c _ hi, getLsbD_wyde c _ hi, getLsbD_wyde c _ hi]
  rcases hw with h | h | h | h <;> simp [inWyde, h, hc]

variable (hor3 : or3.IsWyde orw 3)

include hor3

lemma sound_imm : (ConstantPattern.mk cls (fun _ => true)
    [(set, wyde 0), (or1, wyde 1), (or2, wyde 2), (or3, wyde 3)]).Sound := by
  refine ⟨_, .cons setzw 0 hset hpair.cls_eq.1 (wyde_lt 0) (.cons orw 1 hor1 hpair.cls_eq.2 (wyde_lt 1)
    (.cons orw 2 hor2 hpair.cls_eq.2 (wyde_lt 2) (.cons orw 3 hor3 hpair.cls_eq.2 (wyde_lt 3) .nil))),
    fun c _ old => eq_of_wydes fun i hi hw => ?_⟩
  rw [(hpair.eval_eq _ _ _).1, (hpair.eval_eq _ _ _).2, (hpair.eval_eq _ _ _).2, (hpair.eval_eq _ _ _).2,
    BitVec.getLsbD_or, BitVec.getLsbD_or, BitVec.getLsbD_or, getLsbD_wyde c _ hi, getLsbD_wyde c _ hi,
    getLsbD_wyde c _ hi, getLsbD_wyde c _ hi]
  rcases hw with h | h | h | h <;> simp [inWyde, h]

end Sound

section Ones

/-! The patterns that start from ones are in one file only. -/

lemma isWyde_setow : Opcode.setowRwiiW0.IsWyde .setowRd 0 := ⟨by decide, rfl, fun _ => rfl⟩

lemma isWyde_andnw1 : Opcode.andnwRwiiW1.IsWyde .andnwRd 1 := ⟨by decide, rfl, fun _ => rfl⟩

lemma isWyde_andnw2 : Opcode.andnwRwiiW2.IsWyde .andnwRd 2 := ⟨by decide, rfl, fun _ => rfl⟩

/-- What `setow` leaves in wyde 0 and above. -/
lemma getLsbD_setow (c old : BitVec 64) {i : ℕ} (hi : i < 64) :
    (WydeInsn.setowRd.eval 0 (wyde 0 c) old).getLsbD i = (inWyde 0 i && c.getLsbD i || !inWyde 0 i) := by
  rw [WydeInsn.eval, BitVec.getLsbD_or, getLsbD_wyde c 0 hi, BitVec.getLsbD_not, getLsbD_wydeMask hi]
  simp [hi]

/-- What `andnw` leaves of a register. -/
lemma getLsbD_andnw (c old : BitVec 64) (k : ℕ) {i : ℕ} (hi : i < 64) :
    (WydeInsn.andnwRd.eval k (notWyde k c) old).getLsbD i =
      (old.getLsbD i && !(inWyde k i && !c.getLsbD i)) := by
  rw [WydeInsn.eval, BitVec.getLsbD_and, BitVec.getLsbD_not, getLsbD_notWyde c k hi]
  simp [hi]

lemma sound_oimm16 : (ConstantPattern.mk .gprd oimm16 [(.setowRwiiW0, wyde 0)]).Sound := by
  refine ⟨_, .cons .setowRd 0 isWyde_setow rfl (wyde_lt 0) .nil, fun c happ old => eq_of_wydes fun i hi hw => ?_⟩
  have hc := getLsbD_of_oimm (m := 1) rfl (of_decide_eq_true happ) hi
  rw [getLsbD_setow c old hi]
  rcases hw with h | h | h | h <;> simp [inWyde, h, hc]

lemma sound_oimm32 : (ConstantPattern.mk .gprd oimm32
    [(.setowRwiiW0, wyde 0), (.andnwRwiiW1, notWyde 1)]).Sound := by
  refine ⟨_, .cons .setowRd 0 isWyde_setow rfl (wyde_lt 0) (.cons .andnwRd 1 isWyde_andnw1 rfl (notWyde_lt 1) .nil),
    fun c happ old => eq_of_wydes fun i hi hw => ?_⟩
  have hc := getLsbD_of_oimm (m := 2) rfl (of_decide_eq_true happ) hi
  rw [getLsbD_andnw c _ 1 hi, getLsbD_setow c old hi]
  rcases hw with h | h | h | h <;> simp [inWyde, h, hc]

lemma sound_oimm48 : (ConstantPattern.mk .gprd oimm48
    [(.setowRwiiW0, wyde 0), (.andnwRwiiW1, notWyde 1), (.andnwRwiiW2, notWyde 2)]).Sound := by
  refine ⟨_, .cons .setowRd 0 isWyde_setow rfl (wyde_lt 0) (.cons .andnwRd 1 isWyde_andnw1 rfl (notWyde_lt 1)
    (.cons .andnwRd 2 isWyde_andnw2 rfl (notWyde_lt 2) .nil)), fun c happ old => eq_of_wydes fun i hi hw => ?_⟩
  have hc := getLsbD_of_oimm (m := 3) rfl (of_decide_eq_true happ) hi
  rw [getLsbD_andnw c _ 2 hi, getLsbD_andnw c _ 1 hi, getLsbD_setow c old hi]
  rcases hw with h | h | h | h <;> simp [inWyde, h, hc]

end Ones

/-- **Every pattern is sound.** -/
lemma sound_of_mem {p : ConstantPattern} (hp : p ∈ constantPatterns) : p.Sound := by
  have hrd : WydePair .gprd .setzwRd .orwRd := .inl ⟨rfl, rfl, rfl⟩
  have hrb : WydePair .gprb .setzwRb .orwRb := .inr ⟨rfl, rfl, rfl⟩
  simp only [constantPatterns, List.mem_cons, List.not_mem_nil, or_false] at hp
  rcases hp with rfl | rfl | rfl | rfl | rfl | rfl | rfl | rfl | rfl | rfl | rfl | rfl | rfl | rfl | rfl
  · exact sound_i64w hrd ⟨by decide, rfl, fun _ => rfl⟩
  · exact sound_i64w hrd ⟨by decide, rfl, fun _ => rfl⟩
  · exact sound_i64w hrd ⟨by decide, rfl, fun _ => rfl⟩
  · exact sound_i64w hrd ⟨by decide, rfl, fun _ => rfl⟩
  · exact sound_i64w hrb ⟨by decide, rfl, fun _ => rfl⟩
  · exact sound_i64w hrb ⟨by decide, rfl, fun _ => rfl⟩
  · exact sound_i64w hrb ⟨by decide, rfl, fun _ => rfl⟩
  · exact sound_i64w hrb ⟨by decide, rfl, fun _ => rfl⟩
  · exact sound_oimm16
  · exact sound_zimm32 hrd ⟨by decide, rfl, fun _ => rfl⟩ ⟨by decide, rfl, fun _ => rfl⟩
  · exact sound_oimm32
  · exact sound_zimm48 hrd ⟨by decide, rfl, fun _ => rfl⟩ ⟨by decide, rfl, fun _ => rfl⟩ ⟨by decide, rfl, fun _ => rfl⟩
  · exact sound_oimm48
  · exact sound_imm hrd ⟨by decide, rfl, fun _ => rfl⟩ ⟨by decide, rfl, fun _ => rfl⟩ ⟨by decide, rfl, fun _ => rfl⟩
      ⟨by decide, rfl, fun _ => rfl⟩
  · exact sound_imm hrb ⟨by decide, rfl, fun _ => rfl⟩ ⟨by decide, rfl, fun _ => rfl⟩ ⟨by decide, rfl, fun _ => rfl⟩
      ⟨by decide, rfl, fun _ => rfl⟩

/-- The words of a pattern leave every constant it applies to in the register of the destination. -/
def ConstantPattern.Leaves (p : ConstantPattern) : Prop :=
  ∀ c, p.applies c = true → ∀ r : DstReg, ∃ ws, p.emit r c = some ws ∧ Computes (r.global p.cls) ws fun _ => c

/-- **Constants**: every pattern leaves the constants it applies to, whatever the register held before, and for
every constant and either file some pattern applies. -/
theorem constantPatterns_correct : (∀ p ∈ constantPatterns, p.Leaves) ∧
    ∀ (c : BitVec 64) (cls : RegClass), ∃ p ∈ constantPatterns, p.cls = cls ∧ p.applies c = true := by
  constructor
  · intro p hp c happ r
    obtain ⟨f, hsteps, hf⟩ := sound_of_mem hp
    obtain ⟨ws, hws, hcomp⟩ := hsteps.emit r c
    have hfc : (fun old => f c old) = fun _ => c := funext fun old => hf c happ old
    rw [hfc] at hcomp
    exact ⟨ws, hws, hcomp⟩
  · intro c cls
    cases cls with
    | gprd => exact ⟨_, List.mem_of_getElem? (i := 13) rfl, rfl, rfl⟩
    | gprb => exact ⟨_, List.mem_of_getElem? (i := 14) rfl, rfl, rfl⟩

end Dadao.Llvm
