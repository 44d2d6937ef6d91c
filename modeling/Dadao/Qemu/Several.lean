import Dadao.Qemu.BlockMove

set_option relaxedAutoImplicit false
set_option autoImplicit false

/-!
# Instructions on several registers, as a whole

What the loads, stores and moves of several registers make of the registers and the memory as they read
them, and consecutive words, each going on to the next.

## Main definitions

* `Dadao.Qemu.State.fill` — assign consecutive registers.
* `Dadao.Qemu.Performs` — consecutive words that make a new state.

## Main results

* `Dadao.Qemu.acts_ldm`, `Dadao.Qemu.acts_stm`, `Dadao.Qemu.acts_r2r` — the instructions.
* `Dadao.Qemu.Performs.append` — words one after the other.
-/

namespace Dadao.Qemu

open Tcg

/-! ## Consecutive registers -/

/-- What the next instruction reads of a value in a register: `rf0` has fixed bits. -/
def fixed (file : RegFile) (i : ℕ) (v : BitVec 64) : BitVec 64 :=
  if file = .rf ∧ i = 0 then v &&& fcsrMask ||| fcsrDefault else v

/-- **Assign `n` registers** from `a` on, but for those that are read only. -/
def State.fill (s : State) (dest : RegFile) (a n : ℕ) (vals : ℕ → BitVec 64) : State :=
  { s with reg := fun f j => if f = dest ∧ a ≤ j ∧ j < a + n ∧ ¬ ReadOnly dest j then
      fixed dest j (vals (j - a)) else s.reg f j }

/-- Store `k` values of `n` bytes, each at its own address. -/
def State.stores (s : State) (n : ℕ) (addr val : ℕ → BitVec 64) (k : ℕ) : State :=
  { s with mem := s.mem.storeAll n addr val k }

/-- The registers with fixed values have them. -/
structure State.IsRead (s : State) : Prop where
  rd : s.reg .rd 0 = 0
  rf : s.reg .rf 0 &&& fcsrMask ||| fcsrDefault = s.reg .rf 0

section Fill

variable (s : State) (dest : RegFile) (a n : ℕ) (vals : ℕ → BitVec 64)

@[simp] lemma State.fill_mem : (s.fill dest a n vals).mem = s.mem := rfl

lemma State.fill_reg (f : RegFile) (j : ℕ) : (s.fill dest a n vals).reg f j =
    if f = dest ∧ a ≤ j ∧ j < a + n ∧ ¬ ReadOnly dest j then fixed dest j (vals (j - a)) else s.reg f j := rfl

@[simp] lemma fixed_of_ne {file : RegFile} {i : ℕ} (h : i ≠ 0) (v : BitVec 64) : fixed file i v = v :=
  if_neg fun hfile => h hfile.2

@[simp] lemma State.fill_zero : s.fill dest a 0 vals = s := by
  have hreg : (s.fill dest a 0 vals).reg = s.reg := by
    funext f j
    rw [State.fill_reg, if_neg (by omega)]
  exact congrArg (fun r => (⟨r, s.mem⟩ : State)) hreg

/-- One register more. -/
lemma State.fill_succ : s.fill dest a (n + 1) vals =
    if ReadOnly dest (a + n) then s.fill dest a n vals
    else (s.fill dest a n vals).set dest (a + n) (fixed dest (a + n) (vals n)) := by
  have hindex : a + n - a = n := by omega
  by_cases hro : ReadOnly dest (a + n)
  · rw [if_pos hro]
    simp only [State.fill, State.mk.injEq, and_true]
    funext f j
    by_cases hj : j = a + n
    · rw [if_neg fun h => h.2.2.2 (hj ▸ hro), if_neg fun h => h.2.2.2 (hj ▸ hro)]
    · have hiff : j < a + (n + 1) ↔ j < a + n := by omega
      simp only [hiff]
  · rw [if_neg hro]
    simp only [State.fill, State.set, State.mk.injEq, and_true]
    funext f j
    by_cases hj : f = dest ∧ j = a + n
    · obtain ⟨rfl, rfl⟩ := hj
      rw [if_pos ⟨rfl, by omega, by omega, hro⟩, if_pos ⟨rfl, rfl⟩, hindex]
    · rw [if_neg hj]
      have hiff : (f = dest ∧ a ≤ j ∧ j < a + (n + 1) ∧ ¬ ReadOnly dest j) ↔
          f = dest ∧ a ≤ j ∧ j < a + n ∧ ¬ ReadOnly dest j := by
        constructor
        · rintro ⟨hf, hle, hlt, h⟩
          have hne : j ≠ a + n := fun heq => hj ⟨hf, heq⟩
          exact ⟨hf, hle, by omega, h⟩
        · rintro ⟨hf, hle, hlt, h⟩
          exact ⟨hf, hle, by omega, h⟩
      simp only [hiff]

/-- The same values. -/
lemma State.fill_congr {vals' : ℕ → BitVec 64} (h : ∀ k < n, vals k = vals' k) :
    s.fill dest a n vals = s.fill dest a n vals' := by
  simp only [State.fill, State.mk.injEq, and_true]
  funext f j
  by_cases hj : f = dest ∧ a ≤ j ∧ j < a + n ∧ ¬ ReadOnly dest j
  · rw [if_pos hj, if_pos hj, h (j - a) (by omega)]
  · rw [if_neg hj, if_neg hj]

end Fill

/-! ## What is read -/

/-- What is read of `rf0` has its fixed bits. -/
lemma fixed_reads (m : Machine Elem) (file : RegFile) (i : ℕ) :
    fixed file i ((reads m).reg file i) = (reads m).reg file i := by
  unfold fixed
  split_ifs with h
  · obtain ⟨rfl, rfl⟩ := h
    have hset := (settled_prologue m).rf
    have hread := (settled_prologue m).read .rf 0
    rw [reads_prologue] at hread
    rwa [show (runStraight prologue m).env.globals (.reg .rf 0) = _ from hread] at hset
  · rfl

lemma isRead_reads (m : Machine Elem) : (reads m).IsRead where
  rd := rfl
  rf := fixed_reads m .rf 0

/-- Each state with the fixed values is read somewhere. -/
lemma State.IsRead.exists_reads {s : State} (h : s.IsRead) : ∃ m, reads m = s := by
  refine ⟨s.machine, ?_⟩
  have hreg : readReg s.machine = s.reg := by
    funext f i
    cases i with
    | zero =>
      cases f
      · exact h.rd.symm
      · rfl
      · exact h.rf
      · rfl
    | succ i =>
      rw [readReg_of_ne _ (by omega)]
      rfl
  rw [reads, hreg]
  rfl

/-- Assigning a register that is not read only. -/
lemma reads_write_fixed (m : Machine Elem) {file : RegFile} {i : ℕ} (h : ¬ ReadOnly file i) (v : BitVec 64) :
    reads (m.write (.global (.reg file i)) v) = (reads m).set file i (fixed file i v) := by
  by_cases hi : i = 0
  · subst hi
    have hreg : readReg (m.write (.global (.reg file (0 : ℕ))) v) =
        fun f j => if f = file ∧ j = 0 then fixed file 0 v else readReg m f j := by
      funext f j
      by_cases hj : j = 0
      · subst hj
        have hfile : file = .rf ∨ file = .ra := by
          cases file
          · exact absurd ⟨rfl, .inl rfl⟩ h
          · exact absurd ⟨rfl, .inr rfl⟩ h
          · exact .inl rfl
          · exact .inr rfl
        rcases hfile with rfl | rfl <;> cases f <;> rfl
      · rw [if_neg fun h => hj h.2, readReg_of_ne _ hj, readReg_of_ne _ hj]
        refine Machine.globals_write_of_ne m ?_ v
        simp only [ne_eq, Elem.reg.injEq]
        omega
    simp only [reads, State.set, hreg, Machine.write_mem]
  · rw [reads_write_reg m hi, fixed_of_ne hi]

/-- What a program sees: the program counter is left out. -/
lemma view_eq_reads (m : Machine Elem) : view m = (reads m).set .rb 0 0 := by
  have hreg : viewReg m = fun f j => if f = .rb ∧ j = 0 then 0 else readReg m f j := by
    funext f j
    by_cases hj : j = 0
    · subst hj
      cases f <;> rfl
    · rw [if_neg fun h => hj h.2, viewReg_of_ne _ hj, readReg_of_ne _ hj]
  simp only [view, hreg, State.set, reads]

/-! ## The loops -/

section Loops

variable {dest src : RegFile} {op : MemOp}

/-- The operations of one round after the other. -/
lemma mapM_flatMap {body : ℕ → List Emission} {ops : ℕ → List (Op Elem)}
    (h : ∀ k, (body k).mapM Emission.toOp = some (ops k)) (order : List ℕ) :
    (order.flatMap body).mapM Emission.toOp = some (order.flatMap ops) := by
  induction order with
  | nil => rfl
  | cons k order ih =>
    rw [List.flatMap_cons, List.mapM_append, h, ih]
    rfl

/-- The operations of `INSN_LDM_RRRI` for one register. -/
def ldmOps (dest : RegFile) (op : MemOp) (i : ℕ) : List (Op Elem) :=
  [.qemuLd (.temp 1) (.temp 0) op] ++
    (if ReadOnly dest i then [] else [.mov (.global (.reg dest i)) (.temp 1)]) ++
    [.bin .add (.temp 0) (.temp 0) (.const (BitVec.ofNat 64 op.bytes))]

/-- The operations of `INSN_STM_RRRI` for one register. -/
def stmOps (src : RegFile) (op : MemOp) (i : ℕ) : List (Op Elem) :=
  [.qemuSt (.global (.reg src i)) (.temp 0) op,
    .bin .add (.temp 0) (.temp 0) (.const (BitVec.ofNat 64 op.bytes))]

variable (dest op) in
lemma mapM_ldmBody (i : ℕ) : (ldmBody dest op i).mapM Emission.toOp = some (ldmOps dest op i) := by
  have hkeep : ((i : ℤ) ≠ 0 ∨ dest = .rf ∨ dest = .ra) ↔ ¬ ReadOnly dest i := by
    cases dest <;> simp [ReadOnly]
  unfold ldmBody ldmOps
  by_cases h : ReadOnly dest i
  · rw [if_neg fun hne => hkeep.mp hne h, if_pos h]
    rfl
  · rw [if_pos (hkeep.mpr h), if_neg h]
    rfl

variable (src op) in
lemma mapM_stmBody (i : ℕ) : (stmBody src op i).mapM Emission.toOp = some (stmOps src op i) := rfl

/-- One element further. -/
lemma add_bytes (a : BitVec 64) (k b : ℕ) :
    a + BitVec.ofNat 64 (k * b) + BitVec.ofNat 64 b = a + BitVec.ofNat 64 ((k + 1) * b) := by
  rw [BitVec.add_assoc, ← BitVec.ofNat_add, Nat.add_mul, Nat.one_mul]

variable (dest op) in
/-- One load. -/
lemma run_ldmOps (m : Machine Elem) (i : ℕ) :
    reads (runStraight (ldmOps dest op i) m) = (if ReadOnly dest i then reads m
      else (reads m).set dest i (fixed dest i (op.load m.mem (m.env.temps 0)))) ∧
    (runStraight (ldmOps dest op i) m).env.temps 0 = m.env.temps 0 + BitVec.ofNat 64 op.bytes := by
  unfold ldmOps
  by_cases h : ReadOnly dest i
  · rw [if_pos h, if_pos h]
    exact ⟨rfl, rfl⟩
  · rw [if_neg h, if_neg h]
    constructor
    · have hwrite := reads_write_fixed (m.write (.temp 1) (op.load m.mem (m.env.temps 0))) h
        (op.load m.mem (m.env.temps 0))
      simpa [stepOp] using hwrite
    · rfl

/-- **The loads of `n` registers.** -/
lemma run_loads_reads (a : ℕ) (m : Machine Elem) (n : ℕ) :
    reads (runStraight ((List.range n).flatMap fun k : ℕ => ldmOps dest op (a + k)) m) =
      (reads m).fill dest a n (fun k => op.load m.mem (m.env.temps 0 + BitVec.ofNat 64 (k * op.bytes))) ∧
    (runStraight ((List.range n).flatMap fun k : ℕ => ldmOps dest op (a + k)) m).env.temps 0 =
      m.env.temps 0 + BitVec.ofNat 64 (n * op.bytes) := by
  induction n with
  | zero => simp
  | succ n ih =>
    obtain ⟨hreads, htemp⟩ := ih
    rw [List.range_succ, List.flatMap_append, runStraight_append, List.flatMap_singleton]
    set m' := runStraight ((List.range n).flatMap fun k : ℕ => ldmOps dest op (a + k)) m
    have hmem : m'.mem = m.mem := congrArg State.mem hreads
    obtain ⟨hreads', htemp'⟩ := run_ldmOps dest op m' (a + n)
    exact ⟨by rw [hreads', hreads, htemp, hmem, State.fill_succ], by rw [htemp', htemp, add_bytes]⟩

variable (src op) in
/-- **The stores of `n` registers.** -/
lemma run_stores_reads (a : ℕ) {m : Machine Elem} (hm : Settled m) (n : ℕ) :
    (runStraight ((List.range n).flatMap fun k : ℕ => stmOps src op (a + k)) m).env.globals = m.env.globals ∧
    (runStraight ((List.range n).flatMap fun k : ℕ => stmOps src op (a + k)) m).mem =
      Memory.storeAll op.bytes (fun k => m.env.temps 0 + BitVec.ofNat 64 (k * op.bytes))
        (fun k => (reads m).reg src (a + k)) n m.mem ∧
    (runStraight ((List.range n).flatMap fun k : ℕ => stmOps src op (a + k)) m).env.temps 0 =
      m.env.temps 0 + BitVec.ofNat 64 (n * op.bytes) := by
  induction n with
  | zero => simp [Memory.storeAll]
  | succ n ih =>
    obtain ⟨hglobals, hmem, htemp⟩ := ih
    rw [List.range_succ, List.flatMap_append, runStraight_append, List.flatMap_singleton]
    set m' := runStraight ((List.range n).flatMap fun k : ℕ => stmOps src op (a + k)) m
    refine ⟨hglobals, ?_, ?_⟩
    · rw [Memory.storeAll, ← hmem, ← htemp, ← hm.read, ← hglobals]
      rfl
    · rw [← add_bytes, ← htemp]
      rfl

end Loops

/-! ## The instructions -/

section Instructions

variable {w : BitVec 32} {dest src : RegFile} {op : MemOp}

/-- The address of a load or store of several registers. -/
def startOf (w : BitVec 32) (s : State) : BitVec 64 := s.reg .rb (fieldHb w) + s.reg .rd (fieldHc w)

/-- `INSN_LDM_RRRI` and `INSN_STM_RRRI`: the address, and one register after the other. -/
lemma acts_mem {body : ℤ → List Emission} {ops : ℕ → List (Op Elem)} {mu : Multi} {f : State → State}
    (hmulti : multiOf w = some mu) (htrans : ∀ fuel pc, mu.trans fuel pc w = insnMemRrri body fuel pc w)
    (hpos : fieldHd w ≠ 0) (hle : fieldHa w + fieldHd w ≤ 64)
    (hbody : ∀ i : ℕ, (body i).mapM Emission.toOp = some (ops i))
    (hstraight : ∀ i, (ops i).all Op.isStraight = true)
    (hf : ∀ m, Settled m → m.env.temps 0 = startOf w (reads m) →
      reads (runStraight ((List.range (fieldHd w)).flatMap fun k : ℕ => ops (fieldHa w + k)) m) = f (reads m)) :
    Acts always w f := by
  have hops (pc : BitVec 64) : ∃ fuel t, disasInsn fuel pc w = some t ∧ t.emitted.mapM Emission.toOp =
      some ([.bin .add (.temp 0) (.global (.reg .rb (fieldHb w))) (.global (.reg .rd (fieldHc w)))] ++
        (List.range (fieldHd w)).flatMap fun k : ℕ => ops (fieldHa w + k)) ∧ t.isJmp = .next := by
    refine ⟨fieldHd w, ⟨[.op (.bin .add (.temp 0) (rbOf fieldHb w) (rdOf fieldHc w))] ++
      (List.range (fieldHd w)).flatMap fun k : ℕ => body (fieldHa w + k), .next, -1⟩, ?_, ?_, rfl⟩
    · rw [disasInsn, hmulti]
      simp only
      rw [htrans, insnMemRrri_of_legal hpos hle]
    · have hrest : ((List.range (fieldHd w)).flatMap fun k : ℕ => body (fieldHa w + k)).mapM Emission.toOp =
          some ((List.range (fieldHd w)).flatMap fun k : ℕ => ops (fieldHa w + k)) := by
        refine mapM_flatMap (fun k => ?_) _
        rw [← hbody, Int.natCast_add]
      rw [List.mapM_append, hrest]
      rfl
  refine acts_of_exec hops fun m hm _ => ⟨_, fun rest => exec_append_straight ?_ m, ?_⟩
  · rw [List.all_append, List.all_flatMap]
    simp [Op.isStraight, hstraight]
  · have hset : Settled (m.write (.temp 0) (startOf w (reads m))) := ⟨hm.rd, hm.rf⟩
    have hrun := hf _ hset (by simp)
    rw [reads_write_temp] at hrun
    rw [runStraight_append, ← hrun]
    congr 2
    simp only [runStraight_cons, runStraight_nil, stepOp, BinOp.eval, Env.read_global, hm.read]
    rfl

/-- **A load of several registers.** -/
lemma acts_ldm (hmulti : multiOf w = some (.ldm dest op)) (hpos : fieldHd w ≠ 0)
    (hle : fieldHa w + fieldHd w ≤ 64) : Acts always w fun s => s.fill dest (fieldHa w) (fieldHd w)
      fun k => op.load s.mem (startOf w s + BitVec.ofNat 64 (k * op.bytes)) := by
  refine acts_mem hmulti (fun _ _ => rfl) hpos hle (mapM_ldmBody dest op) (fun i => ?_)
    fun m hm htemp => ?_
  · unfold ldmOps
    split_ifs <;> rfl
  · rw [(run_loads_reads _ m _).1, htemp]
    rfl

/-- **A store of several registers.** -/
lemma acts_stm (hmulti : multiOf w = some (.stm src op)) (hpos : fieldHd w ≠ 0)
    (hle : fieldHa w + fieldHd w ≤ 64) : Acts always w fun s =>
      s.stores op.bytes (fun k => startOf w s + BitVec.ofNat 64 (k * op.bytes))
        (fun k => s.reg src (fieldHa w + k)) (fieldHd w) := by
  refine acts_mem hmulti (fun _ _ => rfl) hpos hle (mapM_stmBody src op) (fun _ => rfl)
    fun m hm htemp => ?_
  obtain ⟨hglobals, hmem, -⟩ := run_stores_reads src op (fieldHa w) hm (fieldHd w)
  have hreg : readReg (runStraight ((List.range (fieldHd w)).flatMap fun k : ℕ => stmOps src op (fieldHa w + k))
      m) = readReg m := by
    funext f j
    by_cases hj : j = 0
    · subst hj
      cases f <;> simp [readReg, hglobals]
    · rw [readReg_of_ne _ hj, readReg_of_ne _ hj, hglobals]
  simp only [reads, hreg, hmem, htemp, State.stores]

/-- **A move of several registers.** -/
lemma acts_r2r (hmulti : multiOf w = some (.r2r src dest)) (hpos : fieldHd w ≠ 0)
    (hhb : fieldHb w + fieldHd w ≤ 64) (hhc : fieldHc w + fieldHd w ≤ 64) : Acts always w fun s =>
      s.fill dest (fieldHb w) (fieldHd w) fun k => s.reg src (fieldHc w + k) := by
  intro m _
  obtain ⟨m', hexec, hmem, hpc, hdest, hframe⟩ := blockMove_simultaneous hmulti hpos hhb hhc m
  have hglobals (f : RegFile) (j : ℕ) (hne : ¬ (f = .rb ∧ j = 0)) : m'.env.globals (.reg f j) =
      if f = dest ∧ fieldHb w ≤ j ∧ j < fieldHb w + fieldHd w ∧ ¬ ReadOnly dest j then
        (reads m).reg src (fieldHc w + (j - fieldHb w)) else (reads m).reg f j := by
    split_ifs with h
    · obtain ⟨rfl, hle, hlt, hro⟩ := h
      obtain ⟨i, rfl⟩ := Nat.exists_eq_add_of_le hle
      rw [hdest i (by omega) hro, Nat.add_sub_cancel_left]
    · refine hframe f j (fun i hi hro heq => h ?_) hne
      obtain ⟨rfl, rfl⟩ := heq
      exact ⟨rfl, by omega, by omega, hro⟩
  have hreg : readReg m' = (((reads m).fill dest (fieldHb w) (fieldHd w) fun k =>
      (reads m).reg src (fieldHc w + k)).set .rb 0 (m.env.globals .pc + 4)).reg := by
    funext f j
    rw [State.set_reg, State.fill_reg]
    by_cases hrb : f = .rb ∧ j = 0
    · obtain ⟨rfl, rfl⟩ := hrb
      rw [if_pos ⟨rfl, rfl⟩]
      exact hpc
    · rw [if_neg hrb]
      by_cases hj : j = 0
      · subst hj
        cases f
        · rw [if_neg fun h => h.2.2.2 ⟨rfl, .inl h.1.symm⟩]
          rfl
        · exact absurd ⟨rfl, rfl⟩ hrb
        · refine (congrArg (fun v => v &&& fcsrMask ||| fcsrDefault) (hglobals .rf 0 hrb)).trans ?_
          split_ifs with h
          · rw [← h.1, fixed, if_pos ⟨rfl, rfl⟩]
          · exact fixed_reads m .rf 0
        · refine (hglobals .ra 0 hrb).trans ?_
          split_ifs with h
          · rw [← h.1]
            rfl
          · rfl
      · rw [readReg_of_ne _ hj, hglobals f j hrb]
        split_ifs with h
        · rw [fixed_of_ne hj]
        · rfl
  refine ⟨m', hexec, ?_⟩
  simp only [reads, hreg, hmem]
  rfl

end Instructions

/-! ## Words one after the other -/

/-- **Consecutive words that make `g` of what they read**, the program counter included. -/
def Performs (ws : List (BitVec 32)) (g : State → State) : Prop :=
  ∀ m, ∃ m', Straight ws m m' ∧ reads m' = g (reads m)

/-- The program counter goes on to the next word. -/
def State.next (s : State) : State := s.set .rb 0 (s.reg .rb 0 + 4)

/-- One word; it does not assign the program counter itself. -/
lemma performs_of_acts {w : BitVec 32} {f : State → State} (h : Acts always w f)
    (hpc : ∀ s, (f s).reg .rb 0 = s.reg .rb 0) : Performs [w] fun s => (f s).next := by
  intro m
  obtain ⟨m', hexec, hreads⟩ := h m trivial
  have hnext : m'.env.globals .pc = m.env.globals .pc + 4 := by
    have hreg := congrArg (fun s : State => s.reg .rb 0) hreads
    simpa using hreg
  refine ⟨m', ⟨m', hexec, hnext, rfl⟩, ?_⟩
  simp only [hreads, State.next, hpc]
  rfl

/-- **Words one after the other.** -/
lemma Performs.append {ws ws' : List (BitVec 32)} {g g' : State → State} (h : Performs ws g)
    (h' : Performs ws' g') : Performs (ws ++ ws') fun s => g' (g s) := by
  intro m
  obtain ⟨t, hrun, hreads⟩ := h m
  obtain ⟨m', hrun', hreads'⟩ := h' t
  exact ⟨m', hrun.append hrun', by rw [hreads', hreads]⟩

/-- **An instruction and a sequence of instructions have the same result**: the registers and the memory
a program sees behind them. -/
def SameResult (w : BitVec 32) (ws : List (BitVec 32)) : Prop :=
  ∀ m, ∃ m' m'', Executes w m (.done m') ∧ Straight ws m m'' ∧ view m'' = view m'

/-- In terms of what they make of what they read. -/
lemma sameResult_iff {w : BitVec 32} {ws : List (BitVec 32)} {f g : State → State} (h : Acts always w f)
    (h' : Performs ws g) :
    SameResult w ws ↔ ∀ s : State, s.IsRead → (g s).set .rb 0 0 = (f s).set .rb 0 0 := by
  have hsee (m m' m'' : Machine Elem) (hreads : reads m' = (f (reads m)).set .rb 0 (m.env.globals .pc + 4))
      (hreads' : reads m'' = g (reads m)) :
      view m'' = view m' ↔ (g (reads m)).set .rb 0 0 = (f (reads m)).set .rb 0 0 := by
    rw [view_eq_reads, view_eq_reads, hreads, hreads', State.set_set]
  constructor
  · intro hsame s hs
    obtain ⟨m, rfl⟩ := hs.exists_reads
    obtain ⟨m₁, m₂, hexec, hrun, hview⟩ := hsame m
    obtain ⟨m', hexec', hreads⟩ := h m trivial
    obtain ⟨m'', hrun', hreads'⟩ := h' m
    obtain rfl : m₁ = m' := Outcome.done.inj (hexec.unique hexec')
    obtain rfl : m₂ = m'' := hrun.unique hrun'
    exact (hsee m m₁ m₂ hreads hreads').mp hview
  · intro hall m
    obtain ⟨m', hexec, hreads⟩ := h m trivial
    obtain ⟨m'', hrun, hreads'⟩ := h' m
    exact ⟨m', m'', hexec, hrun, (hsee m m' m'' hreads hreads').mpr (hall _ (isRead_reads m))⟩

end Dadao.Qemu
