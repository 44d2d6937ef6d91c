import Dadao.Lib.Bits
import Dadao.Wuming.SimulatorInsn

set_option relaxedAutoImplicit false
set_option autoImplicit false

/-!
# The state the core and the simulator share

The registers of the one-stage core and the globals of the simulator, over a memory of bytes, and what
the translation functions of the simulator do to this state: one lemma for each family of functions. A
register is named by its file, so that the functions on data and on base registers are one family.

## Main definitions

* `Dadao.Wuming.SameState` — the simulator has the registers and the memory of the core.
* `Dadao.Wuming.regData`, `Dadao.Wuming.setReg` — a register of a file.
* `Dadao.Wuming.byteBus` — a memory of bytes behind both ports of the core.

## Main results

* `Dadao.Wuming.SameState.read`, `Dadao.Wuming.SameState.write` — a register is read or assigned.
* `Dadao.Wuming.SameState.assign` — an instruction with one destination.
-/

namespace Dadao

namespace Wuming

open Tcg (Machine BinOp Cond runStraight stepOp)
open Qemu (Elem Global Emitted Multi fieldHa fieldHb fieldHc fieldHd)

/-- A memory of bytes behind both ports of the core. -/
def byteBus : Stage1.Bus Memory where
  fetch m a := (m.load a 4).setWidth 32
  access m req :=
    (ByteMap.loadValue m req.addr req.typ,
      if req.fcn then m.store req.addr req.typ.bytes req.data else m)

/-- **The simulator has the registers and the memory of the core.** The register 0 of the data registers
is zero, that of the base registers is the program counter. -/
structure SameState (a : Arch) (m : Memory) (s : Machine Elem) : Prop where
  /-- The data registers. -/
  rd : ∀ i : BitVec 6, s.env.globals (.reg .rd i.toNat) = Stage1.rdData a i
  /-- The base registers. -/
  rb : ∀ i : BitVec 6, i ≠ 0 → s.env.globals (.reg .rb i.toNat) = a.rb i
  /-- The program counter. -/
  pc : s.env.globals .pc = a.pc
  /-- The memory. -/
  mem : s.mem = m

/-! ### Registers -/

section Registers

variable {a : Arch} {m : Memory} {s : Machine Elem}

/-- A register of the core, of the file the simulator names. -/
def regData (file : Qemu.RegFile) (a : Arch) (i : BitVec 6) : BitVec 64 :=
  match file with
  | .rd => Stage1.rdData a i
  | .rb => Stage1.rbData a i
  | .rf | .ra => 0

/-- Assign a register of the core, of the file the simulator names. -/
def setReg (file : Qemu.RegFile) (a : Arch) (i : BitVec 6) (v : BitVec 64) : Arch :=
  match file with
  | .rd => { a with rd := RegFile.set a.rd i v }
  | .rb => { a with rb := RegFile.set a.rb i v }
  | .rf | .ra => a

/-- Register 0 is not assigned. -/
lemma setReg_zero (file : Qemu.RegFile) (v : BitVec 64) : setReg file a 0 v = a := by
  cases file <;> rfl

/-- The registers the two read alike: all data registers, and the base registers but register 0. -/
def Readable (file : Qemu.RegFile) (i : BitVec 6) : Prop := file = .rd ∨ file = .rb ∧ i ≠ 0

lemma readable_rd (i : BitVec 6) : Readable .rd i := Or.inl rfl

lemma readable_rb {i : BitVec 6} (h : i ≠ 0) : Readable .rb i := Or.inr ⟨rfl, h⟩

lemma elem_inj {file file' : Qemu.RegFile} {i j : BitVec 6} :
    Elem.reg file i.toNat = Elem.reg file' j.toNat ↔ file = file' ∧ i = j := by
  rw [Elem.reg.injEq, Int.natCast_inj, BitVec.toNat_inj]

lemma elem_pc_iff {i : BitVec 6} : Elem.reg .rb i.toNat = .pc ↔ i = 0 :=
  (elem_inj (j := 0)).trans (and_iff_right rfl)

/-- **A register is read.** -/
lemma SameState.read (h : SameState a m s) {file : Qemu.RegFile} {i : BitVec 6} (hi : Readable file i) :
    s.env.globals (.reg file i.toNat) = regData file a i := by
  rcases hi with rfl | ⟨rfl, hi⟩
  · exact h.rd i
  · rw [h.rb i hi, regData, Stage1.rbData, if_pos hi]

/-- **A register is assigned.** -/
lemma SameState.write (h : SameState a m s) (file : Qemu.RegFile) {i : BitVec 6} (hi : i ≠ 0)
    (v : BitVec 64) : SameState (setReg file a i v) m (s.write (.global (.reg file i.toNat)) v) := by
  have hpc : (.pc : Elem) ≠ .reg file i.toNat := by
    intro heq
    have hreg : Elem.reg .rb (0 : BitVec 6).toNat = .reg file i.toNat := heq
    exact hi (elem_inj.mp hreg).2.symm
  have hother : ∀ {file' j}, file' ≠ file → (s.write (.global (.reg file i.toNat)) v).env.globals
      (.reg file' (BitVec.toNat (w := 6) j)) = s.env.globals (.reg file' j.toNat) := fun hne =>
    s.globals_write_of_ne (fun heq => hne (elem_inj.mp heq).1) v
  cases file with
  | rd =>
    refine ⟨fun j => ?_, fun j hj => (hother (by decide)).trans (h.rb j hj),
      (s.globals_write_of_ne hpc v).trans h.pc, h.mem⟩
    have hj := h.rd j
    simp only [Stage1.rdData] at hj ⊢
    simp only [Machine.write_env, Tcg.Env.write_global_globals, elem_inj, true_and, setReg, RegFile.set,
      if_pos hi, hj, Function.update_apply]
    by_cases hji : j = i
    · rw [if_pos hji, if_pos hji, if_pos (hji ▸ hi)]
    · rw [if_neg hji, if_neg hji]
  | rb =>
    refine ⟨fun j => (hother (by decide)).trans (h.rd j), fun j hj => ?_,
      (s.globals_write_of_ne hpc v).trans h.pc, h.mem⟩
    simp only [Machine.write_env, Tcg.Env.write_global_globals, elem_inj, true_and, setReg, RegFile.set,
      if_pos hi, h.rb j hj, Function.update_apply]
  | rf =>
    exact ⟨fun j => (hother (by decide)).trans (h.rd j), fun j hj => (hother (by decide)).trans (h.rb j hj),
      (s.globals_write_of_ne hpc v).trans h.pc, h.mem⟩
  | ra =>
    exact ⟨fun j => (hother (by decide)).trans (h.rd j), fun j hj => (hother (by decide)).trans (h.rb j hj),
      (s.globals_write_of_ne hpc v).trans h.pc, h.mem⟩

/-- The program counter is assigned. -/
lemma SameState.write_pc (h : SameState a m s) (v : BitVec 64) :
    SameState { a with pc := v } m (s.write (.global .pc) v) :=
  ⟨fun j => (s.globals_write_of_ne (by simp) v).trans (h.rd j),
    fun j hj => (s.globals_write_of_ne (fun heq => hj (elem_pc_iff.mp heq)) v).trans (h.rb j hj),
    by simp, h.mem⟩

/-- A temporary is assigned. -/
lemma SameState.write_temp (h : SameState a m s) (n : ℕ) (v : BitVec 64) :
    SameState a m (s.write (.temp n) v) := ⟨h.rd, h.rb, h.pc, h.mem⟩

/-- `jmp_pc` is assigned. -/
lemma SameState.write_jmpPc (h : SameState a m s) (v : BitVec 64) :
    SameState a m (s.write (.global .jmpPc) v) :=
  ⟨fun j => (s.globals_write_of_ne (by simp) v).trans (h.rd j),
    fun j hj => (s.globals_write_of_ne (by simp) v).trans (h.rb j hj),
    (s.globals_write_of_ne (by simp) v).trans h.pc, h.mem⟩

/-- The memory is written. -/
lemma SameState.store (h : SameState a m s) (m' : Memory) : SameState a m' { s with mem := m' } :=
  ⟨h.rd, h.rb, h.pc, rfl⟩

/-- **The operations before an instruction** change nothing the core sees. -/
lemma SameState.prologue (h : SameState a m s) : SameState a m (runStraight Qemu.prologue s) := by
  refine ⟨fun j => ?_, fun j hj => ?_, ?_, h.mem⟩
  · have hj := h.rd j
    rw [Stage1.rdData] at hj
    rw [Stage1.rdData]
    by_cases hzero : j = 0
    · subst hzero
      rfl
    · have hne : Elem.reg .rd j.toNat ≠ .reg .rd 0 := fun heq => hzero (elem_inj (j := 0).mp heq).2
      simp [Qemu.prologue, Qemu.insnPrologue, Qemu.movi, stepOp, hne, hj]
  · simpa [Qemu.prologue, Qemu.insnPrologue, Qemu.movi, stepOp] using h.rb j hj
  · simpa [Qemu.prologue, Qemu.insnPrologue, Qemu.movi, stepOp] using h.pc

end Registers

/-! ### Instructions that assign one register -/

/-- The operations of an instruction, over the elements of the arrays. -/
abbrev elemOps (ops : List (Tcg.Op Global)) : List (Tcg.Op Elem) := ops.map (Tcg.Op.map Global.elem)

section Assignments

variable {a : Arch} {m : Memory} {s : Machine Elem} {w : BitVec 32} {file : Qemu.RegFile}

/-- **An instruction with one register as its destination**, unless it is register 0. -/
lemma SameState.assign (h : SameState a m s) {ops : List (Tcg.Op Global)} {i : BitVec 6} {n : ℕ}
    (hn : n = i.toNat) {v : BitVec 64}
    (hops : ∃ s₁, SameState a m s₁ ∧
      runStraight (elemOps ops) s = s₁.write (.global (.reg file i.toNat)) v) :
    SameState (setReg file a i v) m (runStraight (elemOps (if n = 0 then [] else ops)) s) := by
  by_cases hi : i = 0
  · have hzero : n = 0 := by rw [hn, hi]; rfl
    rw [hi, if_pos hzero, setReg_zero]
    exact h
  · have hpos : ¬ n = 0 := by
      rw [hn]
      exact fun hz => hi (BitVec.eq_of_toNat_eq hz)
    obtain ⟨s₁, hs₁, heq⟩ := hops
    rw [if_neg hpos, heq]
    exact hs₁.write file hi v

/-- `INSN_LOGIC_ORRR`. -/
lemma SameState.logicOrrr (h : SameState a m s) (op : BinOp) :
    SameState (setReg .rd a (hb w) (op.eval (regData .rd a (hc w)) (regData .rd a (hd w)))) m
      (runStraight (elemOps (Qemu.insnLogicOrrr op w).ops) s) := by
  simp only [Qemu.insnLogicOrrr, Emitted.next, ite_not]
  refine h.assign (fieldHb_eq w) ⟨s, h, ?_⟩
  simp [stepOp, h.read (readable_rd _)]

/-- `INSN_LOGIC_ORRI`. -/
lemma SameState.logicOrri (h : SameState a m s) (op : BinOp) :
    SameState (setReg .rd a (hb w) (op.eval (regData .rd a (hc w)) (immu6 w))) m
      (runStraight (elemOps (Qemu.insnLogicOrri op w).ops) s) := by
  simp only [Qemu.insnLogicOrri, Emitted.next, ite_not]
  refine h.assign (fieldHb_eq w) ⟨s, h, ?_⟩
  simp [stepOp, h.read (readable_rd _)]

/-- `trans_XNOR`. -/
lemma SameState.xnor (h : SameState a m s) :
    SameState (setReg .rd a (hb w) (regData .rd a (hc w) ^^^ ~~~ regData .rd a (hd w))) m
      (runStraight (elemOps (Qemu.transXNOR w).ops) s) := by
  simp only [Qemu.transXNOR, Emitted.next]
  refine h.assign (fieldHb_eq w) ⟨s, h, ?_⟩
  have hones : ∀ x y : BitVec 64, (x ^^^ y) ^^^ 0xffffffffffffffff#64 = x ^^^ ~~~ y := by
    intro x y
    rw [BitVec.xor_assoc]
    exact congrArg (x ^^^ ·) BitVec.xor_allOnes
  simp [stepOp, BinOp.eval, h.read (readable_rd _), Machine.write_write, hones]

/-- `trans_ANDI`. -/
lemma SameState.andi (h : SameState a m s) :
    SameState (setReg .rd a (ha w) (regData .rd a (hb w) &&& immu12 w)) m
      (runStraight (elemOps (Qemu.transANDI w).ops) s) := by
  simp only [Qemu.transANDI, Emitted.next]
  refine h.assign (fieldHa_eq w) ⟨s, h, ?_⟩
  simp [stepOp, BinOp.eval, h.read (readable_rd _)]

/-- `INSN_EXT_ORRR`. -/
lemma SameState.extOrrr (h : SameState a m s) (op : BinOp) :
    SameState (setReg .rd a (hb w) (op.eval
        (BinOp.eval .shl (regData .rd a (hc w)) (regData .rd a (hd w))) (regData .rd a (hd w)))) m
      (runStraight (elemOps (Qemu.insnExtOrrr op w).ops) s) := by
  simp only [Qemu.insnExtOrrr, Emitted.next]
  refine h.assign (fieldHb_eq w) ⟨_, h.write_temp 1 (regData .rd a (hd w)), ?_⟩
  simp [stepOp, h.read (readable_rd _), Machine.write_write]

/-- `INSN_EXT_ORRI`. -/
lemma SameState.extOrri (h : SameState a m s) (op : BinOp) :
    SameState (setReg .rd a (hb w) (op.eval
        (BinOp.eval .shl (regData .rd a (hc w)) (immu6 w)) (immu6 w))) m
      (runStraight (elemOps (Qemu.insnExtOrri op w).ops) s) := by
  simp only [Qemu.insnExtOrri, Emitted.next]
  refine h.assign (fieldHb_eq w) ⟨s, h, ?_⟩
  simp [stepOp, h.read (readable_rd _), Machine.write_write]

/-- `INSN_CMP_RRII`. -/
lemma SameState.cmpRrii (h : SameState a m s) (imm : BitVec 64) (cond : Cond) :
    SameState (setReg .rd a (ha w) (if cond.holds imm (regData .rd a (hb w)) then -1
        else if cond.holds (regData .rd a (hb w)) imm then 1 else 0)) m
      (runStraight (elemOps (Qemu.insnCmpRrii imm cond w).ops) s) := by
  simp only [Qemu.insnCmpRrii, Emitted.next]
  refine h.assign (fieldHa_eq w)
    ⟨_, h.write_temp 1 (if cond.holds (regData .rd a (hb w)) imm then 1 else 0), ?_⟩
  simp [stepOp, h.read (readable_rd _)]

/-- `INSN_CMP_ORRR`. -/
lemma SameState.cmpOrrr (h : SameState a m s) (reg : ℕ → Global) (cond : Cond)
    (hreg : ∀ n, (reg n).elem = .reg file n)
    (hhc : Readable file (hc w)) (hhd : Readable file (hd w)) :
    SameState (setReg .rd a (hb w) (if cond.holds (regData file a (hd w)) (regData file a (hc w)) then -1
        else if cond.holds (regData file a (hc w)) (regData file a (hd w)) then 1 else 0)) m
      (runStraight (elemOps (Qemu.insnCmpOrrr reg cond w).ops) s) := by
  simp only [Qemu.insnCmpOrrr, Emitted.next]
  refine h.assign (fieldHb_eq w) ⟨_, h.write_temp 1
    (if cond.holds (regData file a (hc w)) (regData file a (hd w)) then 1 else 0), ?_⟩
  simp [stepOp, hreg, h.read hhc, h.read hhd]

/-- `INSN_CSET1_RRRR`. -/
lemma SameState.cset1Rrrr (h : SameState a m s) (cond : Cond) :
    SameState (setReg .rd a (hb w) (if cond.holds (regData .rd a (ha w)) 0 then regData .rd a (hc w)
        else regData .rd a (hd w))) m
      (runStraight (elemOps (Qemu.insnCset1Rrrr cond w).ops) s) := by
  have hzero : s.env.globals (.reg .rd 0) = 0 := h.rd 0
  simp only [Qemu.insnCset1Rrrr, Emitted.next]
  refine h.assign (fieldHb_eq w) ⟨s, h, ?_⟩
  simp [stepOp, h.read (readable_rd _), hzero]

/-- `INSN_CSET2_RRRR`. -/
lemma SameState.cset2Rrrr (h : SameState a m s) (cond : Cond) :
    SameState (setReg .rd a (hc w) (if cond.holds (regData .rd a (ha w)) (regData .rd a (hb w)) then
        regData .rd a (hd w) else regData .rd a (hc w))) m
      (runStraight (elemOps (Qemu.insnCset2Rrrr cond w).ops) s) := by
  simp only [Qemu.insnCset2Rrrr, Emitted.next]
  refine h.assign (fieldHc_eq w) ⟨s, h, ?_⟩
  simp [stepOp, h.read (readable_rd _)]

/-- `INSN_ALG1_RRII`. -/
lemma SameState.alg1Rrii (h : SameState a m s) (reg : ℕ → Global)
    (hreg : ∀ n, (reg n).elem = .reg file n)
    (hhb : Readable file (hb w)) :
    SameState (setReg file a (ha w) (regData file a (hb w) + imms12 w)) m
      (runStraight (elemOps (Qemu.insnAlg1Rrii reg w).ops) s) := by
  simp only [Qemu.insnAlg1Rrii, Emitted.next]
  refine h.assign (fieldHa_eq w) ⟨s, h, ?_⟩
  simp [stepOp, BinOp.eval, hreg, h.read hhb]

/-- `INSN_ALG1_ORRR`. -/
lemma SameState.alg1Orrr (h : SameState a m s) (op : BinOp) (hhc : Readable .rb (hc w)) :
    SameState (setReg .rb a (hb w) (op.eval (regData .rb a (hc w)) (regData .rd a (hd w)))) m
      (runStraight (elemOps (Qemu.insnAlg1Orrr op w).ops) s) := by
  simp only [Qemu.insnAlg1Orrr, Emitted.next]
  refine h.assign (fieldHb_eq w) ⟨s, h, ?_⟩
  simp [stepOp, h.read hhc, h.read (readable_rd _)]

/-- `INSN_SETZW_RWII`. -/
lemma SameState.setzwRwii (h : SameState a m s) (reg : ℕ → Global)
    (hreg : ∀ n, (reg n).elem = .reg file n) :
    SameState (setReg file a (ha w) (wyde w)) m
      (runStraight (elemOps (Qemu.insnSetzwRwii reg w).ops) s) := by
  simp only [Qemu.insnSetzwRwii, Emitted.next]
  refine h.assign (fieldHa_eq w) ⟨s, h, ?_⟩
  simp [stepOp, Qemu.movi, hreg]

/-- `trans_SETOW`. -/
lemma SameState.setow (h : SameState a m s) :
    SameState (setReg .rd a (ha w) (wyde w ||| wydeMask w)) m
      (runStraight (elemOps (Qemu.transSETOW w).ops) s) := by
  simp only [Qemu.transSETOW, Emitted.next]
  refine h.assign (fieldHa_eq w) ⟨s, h, ?_⟩
  simp [stepOp, Qemu.movi]

/-- `INSN_ORW_RWII`. -/
lemma SameState.orwRwii (h : SameState a m s) (reg : ℕ → Global)
    (hreg : ∀ n, (reg n).elem = .reg file n)
    (hha : Readable file (ha w)) :
    SameState (setReg file a (ha w) (regData file a (ha w) ||| wyde w)) m
      (runStraight (elemOps (Qemu.insnOrwRwii reg w).ops) s) := by
  simp only [Qemu.insnOrwRwii, Emitted.next]
  refine h.assign (fieldHa_eq w) ⟨s, h, ?_⟩
  simp [stepOp, BinOp.eval, hreg, h.read hha]

/-- `INSN_ANDNW_RWII`. -/
lemma SameState.andnwRwii (h : SameState a m s) (reg : ℕ → Global)
    (hreg : ∀ n, (reg n).elem = .reg file n)
    (hha : Readable file (ha w)) :
    SameState (setReg file a (ha w) (regData file a (ha w) &&& ~~~ wyde w)) m
      (runStraight (elemOps (Qemu.insnAndnwRwii reg w).ops) s) := by
  simp only [Qemu.insnAndnwRwii, Emitted.next]
  refine h.assign (fieldHa_eq w) ⟨s, h, ?_⟩
  simp [stepOp, BinOp.eval, hreg, h.read hha]

/-- The page of an address, by a mask and by shifts. -/
lemma page_add (x y : BitVec 64) : (x &&& ~~~ 0xFFF#64) + y <<< 12 = (x >>> 12 + y) <<< 12 := by
  have hpage : x &&& ~~~ 0xFFF#64 = x >>> 12 <<< 12 := by
    apply BitVec.eq_of_toNat_eq
    have hx := x.isLt
    rw [Bits.toNat_and_high x _ 12 (by decide) (by decide), BitVec.toNat_shiftLeft, BitVec.toNat_ushiftRight,
      Nat.shiftLeft_eq, Nat.shiftRight_eq_div_pow, Nat.mod_eq_of_lt (by omega)]
  rw [hpage, BitVec.shiftLeft_add_distrib]

/-- `trans_ADRP`. -/
lemma SameState.adrp (h : SameState a m s) :
    SameState (setReg .rb a (ha w) ((a.pc >>> 12 + imms18 w) <<< 12)) m
      (runStraight (elemOps (Qemu.transADRP a.pc w).ops) s) := by
  simp only [Qemu.transADRP, Emitted.next]
  refine h.assign (fieldHa_eq w) ⟨s, h, ?_⟩
  rw [← page_add]
  simp [stepOp, BinOp.eval, Machine.write_write]

end Assignments

/-! ### Instructions that assign two registers -/

section TwoResults

variable {a : Arch} {m : Memory} {s : Machine Elem} {w : BitVec 32}

/-- The second register is assigned after the first. -/
lemma SameState.assign_two (h : SameState a m s) {i j : BitVec 6} {f g : BitVec 32 → ℕ}
    (hf : f w = i.toNat) (hg : g w = j.toNat) {x y : ℕ} {u v : BitVec 64} (hx : s.env.temps x = u)
    (hy : s.env.temps y = v) :
    SameState (setReg .rd (setReg .rd a i u) j v) m
      (runStraight (elemOps ((if f w ≠ 0 then [.mov (Qemu.rdOf f w) (.temp x)] else []) ++
        (if g w ≠ 0 then [.mov (Qemu.rdOf g w) (.temp y)] else []))) s) := by
  have hfirst : SameState (setReg .rd a i u) m (runStraight (elemOps
      (if f w = 0 then [] else [.mov (Qemu.rdOf f w) (.temp x)])) s) :=
    h.assign hf ⟨s, h, by simp [stepOp, hf, hx]⟩
  have htemps : (runStraight (elemOps
      (if f w = 0 then [] else [.mov (Qemu.rdOf f w) (.temp x)])) s).env.temps = s.env.temps := by
    split_ifs
    · rfl
    · simp [stepOp]
  rw [elemOps, List.map_append, Tcg.runStraight_append, ite_not, ite_not]
  refine hfirst.assign hg ⟨_, hfirst, ?_⟩
  simp [stepOp, hg, htemps, hy]

/-- Two assignments to different registers, in either order. -/
lemma setReg_comm {i j : BitVec 6} (hij : i = j → i = 0) (x y : BitVec 64) :
    setReg .rd (setReg .rd a i x) j y = setReg .rd (setReg .rd a j y) i x := by
  by_cases heq : i = j
  · have hzero := hij heq
    subst hzero
    rw [← heq, setReg_zero, setReg_zero, setReg_zero, setReg_zero]
  · simp only [setReg, RegFile.set]
    split_ifs
    · rw [Function.update_comm heq]
    · rfl
    · rfl
    · rfl

/-- The operation on 128 bits, after the signs of its operands. -/
lemma runStraight_wide (s : Machine Elem) (f : BinOp) (k : BitVec 64) (op2 : Tcg.WideOp) (c d : Elem) :
    runStraight [.bin f (.temp 1) (.global c) (.const k), .bin f (.temp 2) (.global d) (.const k),
      .wide op2 (.temp 1) (.temp 2) (.global c) (.temp 1) (.global d) (.temp 2)] s =
    (((s.write (.temp 1) (f.eval (s.env.globals c) k)).write (.temp 2) (f.eval (s.env.globals d) k)).write
      (.temp 1) ((op2.eval (f.eval (s.env.globals c) k) (s.env.globals c) (f.eval (s.env.globals d) k)
        (s.env.globals d)).setWidth 64)).write (.temp 2)
      ((op2.eval (f.eval (s.env.globals c) k) (s.env.globals c) (f.eval (s.env.globals d) k)
        (s.env.globals d) >>> 64).setWidth 64) := by
  have hne : ¬ (1 : ℕ) = 2 := by decide
  simp only [Tcg.runStraight_cons, Tcg.runStraight_nil, stepOp, Tcg.Env.read_global, Tcg.Env.read_temp,
    Tcg.Env.read_const, Machine.write_env, Tcg.Env.write_temp_globals, Tcg.Env.write_temp_temps, hne,
    if_false, if_true]

/-- `INSN_MUL_RRRR`. -/
lemma SameState.mulRrrr (h : SameState a m s) (op2 : Tcg.WideOp) (hne : ha w = hb w → ha w = 0) :
    SameState (setReg .rd (setReg .rd a (hb w)
        ((op2.eval 0 (regData .rd a (hc w)) 0 (regData .rd a (hd w))).setWidth 64)) (ha w)
        ((op2.eval 0 (regData .rd a (hc w)) 0 (regData .rd a (hd w)) >>> 64).setWidth 64)) m
      (runStraight (elemOps (Qemu.insnMulRrrr op2 w).ops) s) := by
  rw [← setReg_comm hne]
  simp only [Qemu.insnMulRrrr, Emitted.next, elemOps, List.map_append, Tcg.runStraight_append]
  have hwide := ((h.write_temp 1
    ((op2.eval 0 (regData .rd a (hc w)) 0 (regData .rd a (hd w))).setWidth 64)).write_temp 2
    ((op2.eval 0 (regData .rd a (hc w)) 0 (regData .rd a (hd w)) >>> 64).setWidth 64))
  have hmov := hwide.assign_two (fieldHa_eq w) (fieldHb_eq w) (x := 2) (y := 1) rfl rfl
  simpa [stepOp, h.read (readable_rd _), Qemu.movHaHb] using hmov

/-- `INSN_ALG1_RRRR`, of an operation and its form on 128 bits. -/
lemma SameState.alg1Rrrr (h : SameState a m s) (op : BinOp) (op2 : Tcg.WideOp)
    (hlow : ∀ x y : BitVec 64,
      (op2.eval (BinOp.eval .sar x 63) x (BinOp.eval .sar y 63) y).setWidth 64 = op.eval x y) :
    SameState (setReg .rd (setReg .rd a (hb w) (op.eval (regData .rd a (hc w)) (regData .rd a (hd w))))
        (ha w) ((op2.eval (BinOp.eval .sar (regData .rd a (hc w)) 63) (regData .rd a (hc w))
          (BinOp.eval .sar (regData .rd a (hd w)) 63) (regData .rd a (hd w)) >>> 64).setWidth 64)) m
      (runStraight (elemOps (Qemu.insnAlg1Rrrr op op2 w).ops) s) := by
  simp only [Qemu.insnAlg1Rrrr, Emitted.next]
  by_cases hlowOnly : fieldHa w = 0 ∧ fieldHb w ≠ 0
  · have hha : ha w = 0 := BitVec.eq_of_toNat_eq ((fieldHa_eq w).symm.trans hlowOnly.1)
    have hassign : SameState (setReg .rd a (hb w) (op.eval (regData .rd a (hc w)) (regData .rd a (hd w)))) m
        (runStraight (elemOps (if fieldHb w = 0 then []
          else [.bin op (Qemu.rdOf fieldHb w) (Qemu.rdOf fieldHc w) (Qemu.rdOf fieldHd w)])) s) :=
      h.assign (fieldHb_eq w) ⟨s, h, by simp [stepOp, h.read (readable_rd _)]⟩
    rw [if_neg hlowOnly.2] at hassign
    rw [if_pos hlowOnly, hha, setReg_zero]
    exact hassign
  · rw [if_neg hlowOnly, List.append_assoc, elemOps, List.map_append, Tcg.runStraight_append]
    generalize hlo : op.eval (regData .rd a (hc w)) (regData .rd a (hd w)) = lo
    generalize hhi : (op2.eval (BinOp.eval .sar (regData .rd a (hc w)) 63) (regData .rd a (hc w))
      (BinOp.eval .sar (regData .rd a (hd w)) 63) (regData .rd a (hd w)) >>> 64).setWidth 64 = hi
    have hwide := (((h.write_temp 1 (BinOp.eval .sar (regData .rd a (hc w)) 63)).write_temp 2
      (BinOp.eval .sar (regData .rd a (hd w)) 63)).write_temp 1 lo).write_temp 2 hi
    have hmov := hwide.assign_two (fieldHb_eq w) (fieldHa_eq w) (x := 1) (y := 2) (u := lo) (v := hi)
      (by simp) (by simp)
    have hc : s.env.globals (.reg .rd (fieldHc w)) = regData .rd a (hc w) := by
      rw [fieldHc_eq, h.read (readable_rd _)]
    have hd : s.env.globals (.reg .rd (fieldHd w)) = regData .rd a (hd w) := by
      rw [fieldHd_eq, h.read (readable_rd _)]
    have hrun := runStraight_wide s .sar 63 op2 (.reg .rd (fieldHc w)) (.reg .rd (fieldHd w))
    rw [hc, hd, hlow, hlo, hhi] at hrun
    exact hrun ▸ hmov

/-- The sign of a value before it. -/
lemma sar_append (x : BitVec 64) : BinOp.eval .sar x 63 ++ x = x.signExtend 128 := by
  apply BitVec.eq_of_getLsbD_eq
  intro i hi
  have hsar : BinOp.eval .sar x 63 = x.sshiftRight 63 := rfl
  rw [hsar, BitVec.getLsbD_append, BitVec.getLsbD_signExtend, BitVec.getLsbD_sshiftRight]
  by_cases hlow : i < 64
  · simp [hlow, hi]
  · have hsign : 63 + (i - 64) = 63 ∨ 64 ≤ 63 + (i - 64) := by omega
    rcases hsign with hsign | hsign
    · have hi64 : i = 64 := by omega
      subst hi64
      simp [BitVec.msb_eq_getLsbD_last]
    · have hhigh : ¬ 63 + (i - 64) < 64 := by omega
      simp [hlow, hi, hhigh]
      omega

/-- The low half of a value whose sign is extended. -/
lemma setWidth_signExtend (x : BitVec 64) : (x.signExtend 128).setWidth 64 = x := by
  apply BitVec.eq_of_getLsbD_eq
  intro i hi
  have hi' : i < 128 := by omega
  rw [BitVec.getLsbD_setWidth, BitVec.getLsbD_signExtend]
  simp [hi, hi']

/-- The low half of a sum. -/
lemma add2_low (x y : BitVec 64) :
    (Tcg.WideOp.eval .add2 (BinOp.eval .sar x 63) x (BinOp.eval .sar y 63) y).setWidth 64 =
      BinOp.eval .add x y := by
  rw [Tcg.WideOp.eval, sar_append, sar_append, BitVec.setWidth_add _ _ (by omega), setWidth_signExtend,
    setWidth_signExtend]
  rfl

/-- The low half of a difference. -/
lemma sub2_low (x y : BitVec 64) :
    (Tcg.WideOp.eval .sub2 (BinOp.eval .sar x 63) x (BinOp.eval .sar y 63) y).setWidth 64 =
      BinOp.eval .sub x y := by
  rw [Tcg.WideOp.eval, sar_append, sar_append, BitVec.sub_eq_add_neg, BitVec.setWidth_add _ _ (by omega),
    BitVec.setWidth_neg_of_le (by omega), setWidth_signExtend, setWidth_signExtend, ← BitVec.sub_eq_add_neg]
  rfl

/-- `INSN_DIV_RRRR`, unless it divides by zero. -/
lemma SameState.divRrrr (h : SameState a m s) (divop remop : BinOp) (hne : ha w = hb w → ha w = 0)
    (hzero : regData .rd a (hd w) ≠ 0) (rest : List (Tcg.Op Elem)) : ∃ s',
    Tcg.exec (elemOps (Qemu.insnDivRrrr divop remop w).ops ++ rest) none s = Tcg.exec rest none s' ∧
      SameState (setReg .rd (setReg .rd a (hb w) (divop.eval (regData .rd a (hc w)) (regData .rd a (hd w))))
        (ha w) (remop.eval (regData .rd a (hc w)) (regData .rd a (hd w)))) m s' := by
  generalize hquot : divop.eval (regData .rd a (hc w)) (regData .rd a (hd w)) = quot
  generalize hrem : remop.eval (regData .rd a (hc w)) (regData .rd a (hd w)) = rem
  have hmov := ((h.write_temp 1 quot).write_temp 2 rem).assign_two (fieldHa_eq w) (fieldHb_eq w) (x := 2)
    (y := 1) (u := rem) (v := quot) (by simp) (by simp)
  refine ⟨_, ?_, setReg_comm hne _ _ ▸ hmov⟩
  -- the branch over the exception is taken
  have hskip : Tcg.exec (elemOps (Qemu.insnDivRrrr divop remop w).ops ++ rest) none s =
      Tcg.exec (elemOps [.bin divop (.temp 1) (Qemu.rdOf fieldHc w) (Qemu.rdOf fieldHd w),
        .bin remop (.temp 2) (Qemu.rdOf fieldHc w) (Qemu.rdOf fieldHd w)] ++
          (elemOps (Qemu.movHaHb w) ++ rest)) none s := by
    have hrd : s.env.globals (.reg .rd 0) = 0 := h.rd 0
    have hcond : Cond.holds .ne (regData .rd a (hd w)) 0 = true := by simpa [Cond.holds] using hzero
    simp only [Qemu.insnDivRrrr, Emitted.next, elemOps, List.map_append, List.map_cons, Tcg.Op.map,
      Tcg.Var.map, Global.elem_rd, List.append_assoc, List.cons_append, Tcg.exec_brcond, Tcg.Env.read_global,
      fieldHd_eq, h.read (readable_rd _), Nat.cast_zero, hrd, hcond, if_true]
    rfl
  have hstraight : ∀ n k x y, (elemOps ((if n ≠ 0 then [.mov (Qemu.rdOf fieldHa w) (.temp x)] else []) ++
      (if k ≠ 0 then [.mov (Qemu.rdOf fieldHb w) (.temp y)] else []))).all Tcg.Op.isStraight = true := by
    intro n k x y
    split_ifs <;> rfl
  rw [hskip, Tcg.exec_append_straight rfl, Qemu.movHaHb, Tcg.exec_append_straight (hstraight _ _ _ _)]
  congr 2
  simp [stepOp, h.read (readable_rd _), hquot, hrem]

end TwoResults

/-! ### Loads and stores -/

section Memory

variable {a : Arch} {m : Memory} {s : Machine Elem} {w : BitVec 32} {file : Qemu.RegFile}

/-- `INSN_LD_RRII`. -/
lemma SameState.ldRrii (h : SameState a m s) (reg : ℕ → Global) (op : Tcg.MemOp)
    (hreg : ∀ n, (reg n).elem = .reg file n)
    (hhb : Readable .rb (hb w)) :
    SameState (setReg file a (ha w) (op.load m (regData .rb a (hb w) + imms12 w))) m
      (runStraight (elemOps (Qemu.insnLdRrii reg false op w).ops) s) := by
  have htemps := (h.write_temp 0 (regData .rb a (hb w) + imms12 w)).write_temp 1
    (op.load m (regData .rb a (hb w) + imms12 w))
  have hassign : SameState (setReg file a (ha w) (op.load m (regData .rb a (hb w) + imms12 w))) m
      (runStraight (elemOps (if fieldHa w = 0 then [] else [.mov (Qemu.glob (reg (fieldHa w))) (.temp 1)])) _) :=
    htemps.assign (fieldHa_eq w) ⟨_, htemps, by simp [stepOp, hreg]⟩
  simp only [Qemu.insnLdRrii, Emitted.next, elemOps, List.map_append, Tcg.runStraight_append]
  simpa [stepOp, BinOp.eval, h.read hhb, h.mem] using hassign

/-- `INSN_ST_RRII`. -/
lemma SameState.stRrii (h : SameState a m s) (reg : ℕ → Global) (op : Tcg.MemOp)
    (hreg : ∀ n, (reg n).elem = .reg file n)
    (hha : Readable file (ha w)) (hhb : Readable .rb (hb w)) :
    SameState a (m.store (regData .rb a (hb w) + imms12 w) op.bytes (regData file a (ha w)))
      (runStraight (elemOps (Qemu.insnStRrii reg op w).ops) s) := by
  have hstore := (h.write_temp 0 (regData .rb a (hb w) + imms12 w)).store
    (m.store (regData .rb a (hb w) + imms12 w) op.bytes (regData file a (ha w)))
  simp only [Qemu.insnStRrii, Emitted.next]
  simpa [stepOp, BinOp.eval, hreg, h.read hha, h.read hhb, h.mem] using hstore

end Memory

end Wuming

end Dadao
