import Dadao.Qemu.Singles

set_option relaxedAutoImplicit false
set_option autoImplicit false

/-!
# One register at a time or all at once

When loads, stores and moves of one register after the other have the same result as the instruction on
all of the registers: the address has to go on by one element, the index must not be among the registers,
and a move must not assign a source before it is read.

## Main definitions

* `Dadao.Qemu.Strides` — the address goes on by one element from one word to the next.

## Main results

* `Dadao.Qemu.sameResult_loads_iff`, `Dadao.Qemu.sameResult_stores_iff`,
  `Dadao.Qemu.sameResult_moves_iff` — when the words do what the instruction does.
-/

namespace Dadao.Qemu

open Tcg

/-- **The address goes on by one element** from one load or store to the next: the program counter goes on
by eight bytes, and `rd0` does not. -/
def Strides (b c len : ℕ) : Prop := (b = 0 ↔ c = 0) ∧ (b = 0 → len = 8)

instance (b c len : ℕ) : Decidable (Strides b c len) := inferInstanceAs (Decidable (_ ∧ _))

/-- Then each element has its address. -/
lemma Strides.address {b c : ℕ} {op : MemOp} (h : Strides b c op.bytes) (s : State) (k : ℕ) :
    baseAt s b k + countIndex s op c k = s.reg .rb b + s.reg .rd c + BitVec.ofNat 64 (k * op.bytes) := by
  unfold baseAt countIndex
  by_cases hb : b = 0
  · rw [if_pos hb, if_pos (h.1.mp hb), h.2 hb, hb, Nat.mul_comm, BitVec.add_assoc,
      BitVec.add_comm (BitVec.ofNat 64 _), ← BitVec.add_assoc]
  · rw [if_neg hb, if_neg fun hc => hb (h.1.mpr hc), BitVec.add_assoc]

/-- A state with given registers, apart from the registers 0, and memory. -/
def State.probe (r : RegFile → ℕ → BitVec 64) (mem : Memory) : State where
  reg := fun f j => if j = 0 then (if f = .rf then fcsrDefault else 0) else r f j
  mem := mem

lemma isRead_probe (r : RegFile → ℕ → BitVec 64) (mem : Memory) : (State.probe r mem).IsRead where
  rd := rfl
  rf := show fcsrDefault &&& fcsrMask ||| fcsrDefault = fcsrDefault by decide

lemma probe_reg (r : RegFile → ℕ → BitVec 64) (mem : Memory) {f : RegFile} {j : ℕ} (hf : f ≠ .rf)
    (h : j = 0 → r f j = 0) : (State.probe r mem).reg f j = r f j := by
  by_cases hj : j = 0
  · rw [h hj]
    simp [State.probe, hj, hf]
  · simp [State.probe, hj]

lemma probe_reg_of_ne (r : RegFile → ℕ → BitVec 64) (mem : Memory) (f : RegFile) {j : ℕ} (hj : j ≠ 0) :
    (State.probe r mem).reg f j = r f j := by
  simp [State.probe, hj]

/-! ## Loads -/

/-- A memory of zeros, apart from one byte. -/
def oneByte (x : BitVec 64) : Memory := fun y => if y = x then 1 else 0

/-- The low byte of a load. -/
lemma setWidth_load (op : MemOp) (hpos : 1 ≤ op.bytes) (hle : op.bytes ≤ 8) (m : Memory) (a : BitVec 64) :
    (op.load m a).setWidth 8 = m a := by
  have hbyte : (m.load a op.bytes).setWidth 8 = m a := by
    have h := Memory.byte_load m a (i := 0) (n := op.bytes) (by omega) hle
    simpa using h
  unfold MemOp.load
  split_ifs
  · rw [← hbyte]
    ext i hi
    simp only [BitVec.getElem_setWidth, BitVec.getLsbD_signExtend, BitVec.getLsbD_setWidth]
    simp [show i < 8 * op.bytes by omega, show i < 64 by omega]
  · exact hbyte

/-- A load of zeros. -/
lemma load_zeros (op : MemOp) {m : Memory} {a : BitVec 64}
    (h : ∀ i < op.bytes, m (a + BitVec.ofNat 64 i) = 0) : op.load m a = 0 := by
  have hzero (n : ℕ) (x : BitVec 64) : Memory.load (fun _ => 0) x n = 0 := by
    induction n generalizing x with
    | zero => rfl
    | succ n ih =>
      rw [Memory.load, ih]
      simp
  have hload : m.load a op.bytes = 0 :=
    (Memory.load_congr h).trans (hzero op.bytes a)
  unfold MemOp.load
  split_ifs
  · rw [hload]
    ext i hi
    simp [BitVec.getElem_signExtend]
  · exact hload

/-- The byte is loaded from its own address. -/
lemma load_oneByte_ne (op : MemOp) (hpos : 1 ≤ op.bytes) (hle : op.bytes ≤ 8) (x : BitVec 64) :
    op.load (oneByte x) x ≠ 0 := by
  intro h
  have hbyte := setWidth_load op hpos hle (oneByte x) x
  rw [h, oneByte, if_pos rfl] at hbyte
  exact absurd hbyte (by decide)

/-- It is not loaded from elsewhere. -/
lemma load_oneByte (op : MemOp) {x y : ℕ} (h : ∀ i < op.bytes, x + i ≠ y) (hle : op.bytes ≤ 8)
    (hx : x < 2 ^ 32) (hy : y < 2 ^ 32) :
    op.load (oneByte (BitVec.ofNat 64 y)) (BitVec.ofNat 64 x) = 0 := by
  refine load_zeros op fun i hi => if_neg fun heq => h i hi ?_
  have hnat := congrArg BitVec.toNat heq
  rw [BitVec.toNat_add, BitVec.toNat_ofNat, BitVec.toNat_ofNat, BitVec.toNat_ofNat] at hnat
  omega

section Loads

variable {w : BitVec 32} {dest file : RegFile} {op : MemOp} {opcode a b c k : ℕ}

/-- What the additions and loads make of a state. -/
def loadsResult (dest : RegFile) (op : MemOp) (a b c k : ℕ) (s : State) : State :=
  bump c (-BitVec.ofNat 64 (op.bytes * k)) (loadSeq dest op a b c k s)

/-- The registers behind them. -/
lemma loadsResult_reg (hfile : file ≠ .rb) (s : State) {f : RegFile} {j : ℕ} (hpc : ¬ (f = .rb ∧ j = 0)) :
    (loadsResult file op a b c k s).reg f j = if f = .rd ∧ j = c ∧ c ≠ 0 then
      indexAfter s file op a b c k + -BitVec.ofNat 64 (op.bytes * k)
      else (s.fill file a (k + 1) (loadedAt s file op a b c)).reg f j := by
  rw [loadsResult, bump_reg, if_neg hpc]
  by_cases h : f = .rd ∧ j = c ∧ c ≠ 0
  · rw [if_pos h, if_pos h, loadSeq_reg _ _ _ _ _ _ hfile, if_neg (by simp), if_pos ⟨rfl, rfl, h.2.2⟩]
  · rw [if_neg h, if_neg h, loadSeq_reg _ _ _ _ _ _ hfile, if_neg hpc, if_neg h]

/-- What the load of all registers makes of a state. -/
def loadAll (dest : RegFile) (op : MemOp) (a b c n : ℕ) (s : State) : State :=
  s.fill dest a n fun i => op.load s.mem (s.reg .rb b + s.reg .rd c + BitVec.ofNat 64 (i * op.bytes))

/-- Equal results, register by register. -/
lemma set_pc_eq_iff (s t : State) : s.set .rb 0 0 = t.set .rb 0 0 ↔
    (∀ f j, ¬ (f = .rb ∧ j = 0) → s.reg f j = t.reg f j) ∧ s.mem = t.mem := by
  constructor
  · intro h
    have hmem : (s.set .rb 0 0).mem = (t.set .rb 0 0).mem := congrArg State.mem h
    refine ⟨fun f j hpc => ?_, hmem⟩
    have hreg := congrArg (fun s : State => s.reg f j) h
    simpa [hpc] using hreg
  · rintro ⟨hreg, hmem⟩
    have hregs : (s.set .rb 0 0).reg = (t.set .rb 0 0).reg := by
      funext f j
      rw [State.set_reg, State.set_reg]
      split_ifs with hpc
      · rfl
      · exact hreg f j hpc
    cases hs : s.set .rb 0 0
    cases ht : t.set .rb 0 0
    rw [hs, ht] at hregs
    have hmems : (s.set .rb 0 0).mem = (t.set .rb 0 0).mem := hmem
    rw [hs, ht] at hmems
    simp only at hregs hmems
    rw [hregs, hmems]

/-- The index while no load has assigned it. -/
lemma indexAt_eq (s : State) {i : ℕ} (h : c = 0 ∨ ∀ j < i, ¬ (dest = .rd ∧ c = a + j)) :
    indexAt s dest op a b c i = countIndex s op c i := by
  induction i with
  | zero => rw [countIndex_zero, indexAt]
  | succ i ih =>
    rw [indexAt_succ]
    unfold countIndex
    by_cases hc : c = 0
    · rw [if_pos hc, if_pos hc]
    · have hfree := h.resolve_left hc
      rw [if_neg hc, if_neg hc, indexAfter, if_neg (hfree i (by omega)),
        ih (.inr fun j hj => hfree j (by omega)), countIndex, if_neg hc, add_bytes]

/-- **Loads one at a time are right** if the address goes on by one element and the index is not loaded. -/
lemma loadsResult_eq (hdest : dest ≠ .rb) (hstride : Strides b c op.bytes)
    (hfree : ¬ (dest = .rd ∧ c ≠ 0 ∧ a ≤ c ∧ c < a + (k + 1))) (s : State) :
    (loadsResult dest op a b c k s).set .rb 0 0 = (loadAll dest op a b c (k + 1) s).set .rb 0 0 := by
  have hout (hc : c ≠ 0) (i : ℕ) (hi : i < k + 1) : ¬ (dest = .rd ∧ c = a + i) :=
    fun h => hfree ⟨h.1, hc, by omega, by omega⟩
  have hindex (i : ℕ) (hi : i < k + 1) : indexAt s dest op a b c i = countIndex s op c i :=
    indexAt_eq s (or_iff_not_imp_left.mpr fun hc j hj => hout hc j (by omega))
  have hload (i : ℕ) (hi : i < k + 1) : loadedAt s dest op a b c i =
      op.load s.mem (s.reg .rb b + s.reg .rd c + BitVec.ofNat 64 (i * op.bytes)) := by
    rw [loadedAt, hindex i hi, hstride.address]
  refine (set_pc_eq_iff _ _).mpr ⟨fun f j hpc => ?_, ?_⟩
  · rw [loadsResult_reg hdest s hpc, loadAll, ← State.fill_congr _ _ _ _ _ hload]
    split_ifs with h
    · obtain ⟨rfl, rfl, hc⟩ := h
      have hkeep : ¬ (RegFile.rd = dest ∧ a ≤ j ∧ j < a + (k + 1) ∧ ¬ ReadOnly dest j) :=
        fun h => hfree ⟨h.1.symm, hc, h.2.1, h.2.2.1⟩
      rw [State.fill_reg, if_neg hkeep, indexAfter, if_neg (hout hc k (by omega)), hindex k (by omega),
        countIndex, if_neg hc, BitVec.add_assoc, Nat.mul_comm, BitVec.add_right_neg, BitVec.add_zero]
    · rfl
  · rw [loadsResult, bump_mem, loadSeq_mem]
    rfl

/-- Loads into another file are not the loads of this one. -/
lemma file_eq_of_loads (hfile : file = .rd ∨ file = dest) (hk : 1 ≤ k)
    (h : ∀ s : State, s.IsRead →
      (loadsResult file op a b c k s).set .rb 0 0 = (loadAll dest op a b c (k + 1) s).set .rb 0 0) :
    file = dest := by
  by_contra hne
  obtain rfl : file = .rd := hfile.resolve_right hne
  set s := State.probe (fun f j => if f = dest ∧ j = a + 1 then 1 else 0) (fun _ => 0)
  have hreg := ((set_pc_eq_iff _ _).mp (h s (isRead_probe _ _))).1 dest (a + 1) (by omega)
  rw [loadsResult_reg (by decide) s (by omega), if_neg fun h => hne h.1.symm, State.fill_reg,
    if_neg fun h => hne h.1.symm, probe_reg_of_ne _ _ _ (by omega), if_pos ⟨rfl, rfl⟩, loadAll,
    State.fill_reg, if_pos ⟨rfl, by omega, by omega, fun hro => absurd hro.1 (by omega)⟩,
    fixed_of_ne (by omega), load_zeros op fun _ _ => rfl] at hreg
  exact absurd hreg (by decide)

/-- The second element tells whether the addresses are right. -/
lemma second_of_loads (hdest : dest ≠ .rb) (hk : 1 ≤ k) (hne : ¬ (dest = .rd ∧ c = a + 1))
    (h : ∀ s : State, s.IsRead →
      (loadsResult dest op a b c k s).set .rb 0 0 = (loadAll dest op a b c (k + 1) s).set .rb 0 0)
    (s : State) (hs : s.IsRead) : loadedAt s dest op a b c 1 =
      op.load s.mem (s.reg .rb b + s.reg .rd c + BitVec.ofNat 64 op.bytes) := by
  have hreg := ((set_pc_eq_iff _ _).mp (h s hs)).1 dest (a + 1) (by omega)
  have hin : dest = dest ∧ a ≤ a + 1 ∧ a + 1 < a + (k + 1) ∧ ¬ ReadOnly dest (a + 1) :=
    ⟨rfl, by omega, by omega, fun hro => absurd hro.1 (by omega)⟩
  rw [loadsResult_reg hdest s (by omega), if_neg fun h => hne ⟨h.1, h.2.1.symm⟩, State.fill_reg, if_pos hin,
    fixed_of_ne (by omega), loadAll, State.fill_reg, if_pos hin, fixed_of_ne (by omega),
    Nat.add_sub_cancel_left, Nat.one_mul] at hreg
  exact hreg

/-- An index among the later destinations is lost: of zeros, its element does not come back. -/
lemma not_loads_of_later (hc : a < c) (hck : c < a + (k + 1)) (hle : op.bytes ≤ 8) (hpos : 1 ≤ op.bytes)
    (hk : a + (k + 1) ≤ 64) : ¬ ∀ s : State, s.IsRead →
      (loadsResult .rd op a b c k s).set .rb 0 0 = (loadAll .rd op a b c (k + 1) s).set .rb 0 0 := by
  intro h
  set s := State.probe (fun _ _ => 0) (fun _ => 0)
  have hload (i : ℕ) : loadedAt s .rd op a b c i = 0 := load_zeros op fun _ _ => rfl
  have hzero : s.reg .rd c = 0 := probe_reg _ _ (by decide) fun _ => rfl
  have hafter (i : ℕ) : indexAfter s .rd op a b c i =
      BitVec.ofNat 64 ((if i < c - a then i else i - (c - a)) * op.bytes) := by
    induction i with
    | zero =>
      rw [indexAfter, if_neg (by omega), indexAt, hzero, if_pos (by omega), Nat.zero_mul]
      rfl
    | succ i ih =>
      rw [indexAfter, hload]
      by_cases hi : c = a + (i + 1)
      · rw [if_pos ⟨rfl, hi⟩, if_neg (by omega), show i + 1 - (c - a) = 0 by omega, Nat.zero_mul]
        rfl
      · rw [if_neg fun h => hi h.2, indexAt_succ, if_neg (by omega), ih, ← BitVec.ofNat_add]
        congr 1
        by_cases hlt : i + 1 < c - a
        · rw [if_pos hlt, if_pos (by omega), Nat.succ_mul]
        · rw [if_neg hlt, if_neg (by omega), ← Nat.succ_mul]
          congr 1
          omega
  have hreg := ((set_pc_eq_iff _ _).mp (h s (isRead_probe _ _))).1 .rd c (by simp)
  have hro : ¬ ReadOnly .rd c := fun hro => absurd hro.1 (by omega)
  rw [loadsResult_reg (by decide) s (by simp), if_pos ⟨rfl, rfl, by omega⟩, hafter, if_neg (by omega), loadAll,
    State.fill_reg, if_pos ⟨rfl, by omega, hck, hro⟩, fixed_of_ne (by omega),
    load_zeros op fun _ _ => rfl] at hreg
  have hnat := congrArg BitVec.toNat hreg
  have hsplit : (k - (c - a)) * op.bytes + (c - a) * op.bytes = op.bytes * k := by
    rw [← Nat.add_mul, Nat.sub_add_cancel (by omega), Nat.mul_comm]
  have hstep : op.bytes * 1 ≤ (c - a) * op.bytes := by
    rw [Nat.mul_comm]
    exact Nat.mul_le_mul_right _ (by omega)
  have hsmall : op.bytes * k ≤ 8 * 64 := Nat.mul_le_mul hle (by omega)
  rw [BitVec.toNat_add, BitVec.toNat_neg, BitVec.toNat_ofNat, BitVec.toNat_ofNat] at hnat
  simp only [BitVec.ofNat_eq_ofNat, BitVec.toNat_ofNat, Nat.zero_mod] at hnat
  omega

/-- An index that is the first destination is lost. -/
lemma not_second_of_first (hc : c ≠ 0) (hca : c = a) (hle : op.bytes ≤ 8) (hpos : 1 ≤ op.bytes) :
    ∃ s : State, s.IsRead ∧ loadedAt s .rd op a b c 1 ≠
      op.load s.mem (s.reg .rb b + s.reg .rd c + BitVec.ofNat 64 op.bytes) := by
  set t : ℕ := if b = 0 then 0 else 8 with ht
  set s := State.probe (fun f j => if f = .rd ∧ j = c then BitVec.ofNat 64 t else 0)
    (oneByte (BitVec.ofNat 64 (t + op.bytes)))
  have hrb (j : ℕ) : s.reg .rb j = 0 := probe_reg _ _ (by decide) fun _ => rfl
  have hrd : s.reg .rd c = BitVec.ofNat 64 t := by
    rw [probe_reg _ _ (by decide) fun h => absurd h hc, if_pos ⟨rfl, rfl⟩]
  have hbase : baseAt s b 1 = BitVec.ofNat 64 (if b = 0 then 8 else 0) := by
    unfold baseAt
    split_ifs
    · rw [hrb]
      rfl
    · exact hrb b
  have hsmall : t ≤ 8 := by
    rw [ht]
    split_ifs <;> omega
  have hfirst : loadedAt s .rd op a b c 0 = 0 := by
    rw [loadedAt, baseAt_zero, hrb, indexAt, hrd]
    refine Eq.trans ?_ (load_oneByte op (x := t) (y := t + op.bytes) (fun i hi => by omega) hle (by omega)
      (by omega))
    simp [s, State.probe]
  have hindex : indexAt s .rd op a b c 1 = BitVec.ofNat 64 op.bytes := by
    rw [indexAt_succ, if_neg hc, indexAfter, if_pos ⟨rfl, hca⟩, hfirst]
    simp
  have hsecond : loadedAt s .rd op a b c 1 = 0 := by
    rw [loadedAt, hbase, hindex, ← BitVec.ofNat_add]
    refine load_oneByte op (fun i hi => ?_) hle ?_ (by omega)
    · rw [ht]
      split_ifs <;> omega
    · split_ifs <;> omega
  refine ⟨s, isRead_probe _ _, ?_⟩
  rw [hsecond, hrb, hrd]
  have hzero : (0 : BitVec 64) + BitVec.ofNat 64 t + BitVec.ofNat 64 op.bytes =
      BitVec.ofNat 64 (t + op.bytes) := by
    rw [BitVec.ofNat_add]
    simp
  rw [hzero]
  exact (load_oneByte_ne op hpos hle _).symm

/-- Addresses that do not go on by one element are wrong at the second one. -/
lemma not_second_of_strides (hfree : c = 0 ∨ ¬ (dest = .rd ∧ c = a)) (hstride : ¬ Strides b c op.bytes)
    (hle : op.bytes ≤ 8) (hpos : 1 ≤ op.bytes) :
    ∃ s : State, s.IsRead ∧ loadedAt s dest op a b c 1 ≠
      op.load s.mem (s.reg .rb b + s.reg .rd c + BitVec.ofNat 64 op.bytes) := by
  set s := State.probe (fun _ _ => 0) (oneByte (BitVec.ofNat 64 op.bytes))
  have hrb (j : ℕ) : s.reg .rb j = 0 := probe_reg _ _ (by decide) fun _ => rfl
  have hrd (j : ℕ) : s.reg .rd j = 0 := probe_reg _ _ (by decide) fun _ => rfl
  have hbase : baseAt s b 1 = BitVec.ofNat 64 (if b = 0 then 8 else 0) := by
    unfold baseAt
    split_ifs
    · rw [hrb]
      rfl
    · exact hrb b
  have hindex : indexAt s dest op a b c 1 = BitVec.ofNat 64 (if c = 0 then 0 else op.bytes) := by
    rw [indexAt_eq s (hfree.imp_right fun h j hj => by
      obtain rfl : j = 0 := by omega
      exact h)]
    unfold countIndex
    split_ifs
    · exact hrd c
    · rw [hrd, Nat.one_mul]
      simp
  have hsecond : loadedAt s dest op a b c 1 = 0 := by
    rw [loadedAt, hbase, hindex, ← BitVec.ofNat_add]
    refine load_oneByte op (fun i hi heq => hstride ?_) hle ?_ (by omega)
    · by_cases hb : b = 0
      · by_cases hc : c = 0
        · rw [if_pos hb, if_pos hc] at heq
          exact ⟨⟨fun _ => hc, fun _ => hb⟩, fun _ => by omega⟩
        · rw [if_pos hb, if_neg hc] at heq
          omega
      · by_cases hc : c = 0
        · rw [if_neg hb, if_pos hc] at heq
          omega
        · exact ⟨⟨fun h => absurd h hb, fun h => absurd h hc⟩, fun h => absurd h hb⟩
    · split_ifs <;> omega
  refine ⟨s, isRead_probe _ _, ?_⟩
  have hzero : (0 : BitVec 64) + 0 + BitVec.ofNat 64 op.bytes = BitVec.ofNat 64 op.bytes := by simp
  rw [hsecond, hrb, hrd, hzero]
  exact (load_oneByte_ne op hpos hle _).symm

/-- **When loads one at a time are the load of all registers.** -/
lemma loads_iff (hfile : file = .rd ∨ file = dest) (hdest : file ≠ .rb) (hpos : 1 ≤ op.bytes)
    (hle : op.bytes ≤ 8) (hk : 1 ≤ k) (hak : a + (k + 1) ≤ 64) :
    (∀ s : State, s.IsRead →
      (loadsResult file op a b c k s).set .rb 0 0 = (loadAll dest op a b c (k + 1) s).set .rb 0 0) ↔
    file = dest ∧ Strides b c op.bytes ∧ ¬ (dest = .rd ∧ c ≠ 0 ∧ a ≤ c ∧ c < a + (k + 1)) := by
  constructor
  · intro h
    obtain rfl : file = dest := file_eq_of_loads hfile hk h
    have hlater : ¬ (file = .rd ∧ a < c ∧ c < a + (k + 1)) := by
      rintro ⟨rfl, hac, hck⟩
      exact not_loads_of_later hac hck hle hpos hak h
    have hsecond := second_of_loads hdest hk (fun hne => hlater ⟨hne.1, by omega, by omega⟩) h
    have hfirst : ¬ (file = .rd ∧ c ≠ 0 ∧ c = a) := by
      rintro ⟨rfl, hc, hca⟩
      obtain ⟨s, hs, hne⟩ := not_second_of_first (b := b) hc hca hle hpos
      exact hne (hsecond s hs)
    refine ⟨rfl, ?_, fun hbad => ?_⟩
    · by_contra hstride
      have hindex : c = 0 ∨ ¬ (file = .rd ∧ c = a) :=
        or_iff_not_imp_left.mpr fun hc hca => hfirst ⟨hca.1, hc, hca.2⟩
      obtain ⟨s, hs, hne⟩ := not_second_of_strides hindex hstride hle hpos
      exact hne (hsecond s hs)
    · rcases Nat.eq_or_lt_of_le hbad.2.2.1 with heq | hlt
      · exact hfirst ⟨hbad.1, hbad.2.1, heq.symm⟩
      · exact hlater ⟨hbad.1, hlt, hbad.2.2.2⟩
  · rintro ⟨rfl, hstride, hfree⟩ s -
    exact loadsResult_eq hdest hstride hfree s

end Loads

/-! ## Stores -/

section Stores

variable {src : RegFile} {op : MemOp} {a b c k : ℕ}

/-- What the additions and stores make of a state. -/
def storesResult (op : MemOp) (a b c k : ℕ) (s : State) : State :=
  bump c (-BitVec.ofNat 64 (op.bytes * k)) (storeSeq op a b c k s)

/-- What the store of all registers makes of a state. -/
def storeAllRegs (src : RegFile) (op : MemOp) (a b c n : ℕ) (s : State) : State :=
  s.stores op.bytes (fun i => s.reg .rb b + s.reg .rd c + BitVec.ofNat 64 (i * op.bytes))
    (fun i => s.reg src (a + i)) n

/-- The index has gone back, and no register has changed. -/
lemma storesResult_reg (s : State) {f : RegFile} {j : ℕ} (hpc : ¬ (f = .rb ∧ j = 0)) :
    (storesResult op a b c k s).reg f j = s.reg f j := by
  have hreg := (storeSeq_eq s op a b c k).2
  have hindex : (storeSeq op a b c k s).reg .rd c = countIndex s op c k := by
    rw [hreg, if_neg (by simp), if_pos ⟨rfl, rfl⟩]
  rw [storesResult, bump_reg, if_neg hpc, hindex, hreg, if_neg hpc]
  unfold countIndex
  by_cases h : f = .rd ∧ j = c
  · obtain ⟨rfl, rfl⟩ := h
    by_cases hj : j = 0
    · rw [if_neg fun h => h.2.2 hj, if_pos ⟨rfl, rfl⟩, if_pos hj]
    · rw [if_pos ⟨rfl, rfl, hj⟩, if_neg hj, BitVec.add_assoc, Nat.mul_comm, BitVec.add_right_neg,
        BitVec.add_zero]
  · rw [if_neg fun h' => h ⟨h'.1, h'.2.1⟩, if_neg h]

lemma storesResult_mem (s : State) : (storesResult op a b c k s).mem = storedMem s op a b c (k + 1) := by
  rw [storesResult, bump_mem, (storeSeq_eq s op a b c k).1]

/-- Only the memory matters. -/
lemma stores_iff_mem (s : State) : (storesResult op a b c k s).set .rb 0 0 =
      (storeAllRegs src op a b c (k + 1) s).set .rb 0 0 ↔
    storedMem s op a b c (k + 1) = (storeAllRegs src op a b c (k + 1) s).mem := by
  rw [set_pc_eq_iff, storesResult_mem]
  exact and_iff_right fun f j hpc => storesResult_reg s hpc

/-- With addresses that go on by one element, the bytes of each element are in their place. -/
lemma storedMem_eq (hstride : Strides b c op.bytes) (s : State) (n : ℕ) : storedMem s op a b c n =
    s.mem.storeAll op.bytes (fun i => s.reg .rb b + s.reg .rd c + BitVec.ofNat 64 (i * op.bytes))
      (storedAt s op a c) n :=
  Memory.storeAll_congr (fun i _ => hstride.address s i) fun _ _ => rfl

/-- **Stores one at a time are right** if the address goes on by one element and the index is not stored
after it has gone on. -/
lemma storesResult_eq (hstride : Strides b c op.bytes) (hfree : ¬ (c ≠ 0 ∧ a < c ∧ c < a + (k + 1)))
    (s : State) : storedMem s op a b c (k + 1) = (storeAllRegs .rd op a b c (k + 1) s).mem := by
  rw [storedMem_eq hstride]
  refine Memory.storeAll_congr (fun _ _ => rfl) fun i hi => ?_
  unfold storedAt
  split_ifs with h
  · have hcase : c = 0 ∨ i = 0 := by omega
    rcases hcase with hc | hi
    · rw [countIndex, if_pos hc, h]
    · rw [hi, countIndex_zero, h, hi]
  · rfl

variable (src op a b c) in
/-- The first byte of the second element. -/
lemma storeAllRegs_second (hk : 1 ≤ k) (hle : op.bytes ≤ 8) (hpos : 1 ≤ op.bytes)
    (hsmall : (k + 1) * op.bytes ≤ 2 ^ 64) (s : State) : (storeAllRegs src op a b c (k + 1) s).mem
      (s.reg .rb b + s.reg .rd c + BitVec.ofNat 64 op.bytes) = (s.reg src (a + 1)).setWidth 8 := by
  have h : (storeAllRegs src op a b c (k + 1) s).mem (s.reg .rb b + s.reg .rd c + BitVec.ofNat 64 (1 * op.bytes) +
      BitVec.ofNat 64 0) = (s.reg src (a + 1) >>> (8 * 0)).setWidth 8 :=
    Memory.storeAll_apply hle (show 1 < k + 1 by omega) (by omega) hsmall
  simpa using h

/-- Stores of another file are not the stores of this one: of registers `rd` that are zero, no byte is
`0xff`. -/
lemma src_eq_of_stores (hk : 1 ≤ k) (hlen : op.bytes = 1 ∨ op.bytes = 2 ∨ op.bytes = 4 ∨ op.bytes = 8)
    (hak : a + (k + 1) ≤ 64)
    (h : ∀ s : State, s.IsRead → storedMem s op a b c (k + 1) = (storeAllRegs src op a b c (k + 1) s).mem) :
    src = .rd := by
  by_contra hne
  set s := State.probe (fun f _ => if f = .rd then 0 else -1) (fun _ => 0)
  have hrd (j : ℕ) : s.reg .rd j = 0 := probe_reg _ _ (by decide) fun _ => rfl
  have hsmall : (k + 1) * op.bytes ≤ 64 * 8 := Nat.mul_le_mul (by omega) (by omega)
  have hsecond := storeAllRegs_second src op a b c hk (by omega) (by omega)
    (by omega) s
  rw [← h s (isRead_probe _ _), probe_reg_of_ne _ _ src (by omega), if_neg hne] at hsecond
  have hstored (i : ℕ) (hi : i < k + 1) : ∃ v, storedAt s op a c i = BitVec.ofNat 64 v ∧
      (v = 0 ∨ v = i * op.bytes) := by
    unfold storedAt countIndex
    split_ifs
    · exact ⟨0, hrd c, .inl rfl⟩
    · exact ⟨i * op.bytes, by rw [hrd]; simp, .inr rfl⟩
    · exact ⟨0, hrd _, .inl rfl⟩
  have hcases (x : BitVec 64) : storedMem s op a b c (k + 1) x = s.mem x ∨ ∃ i < k + 1, ∃ j,
      storedMem s op a b c (k + 1) x = (storedAt s op a c i >>> (8 * j)).setWidth 8 :=
    Memory.storeAll_cases x (k + 1)
  rcases hcases (s.reg .rb b + s.reg .rd c + BitVec.ofNat 64 op.bytes) with hold | ⟨i, hi, j, hij⟩
  · have hzero : s.mem (s.reg .rb b + s.reg .rd c + BitVec.ofNat 64 op.bytes) = 0 := rfl
    rw [hold, hzero] at hsecond
    exact absurd hsecond (by decide)
  · obtain ⟨v, hv, hcase⟩ := hstored i hi
    rw [hij, hv] at hsecond
    have hbyte := congrArg BitVec.toNat hsecond
    rw [BitVec.toNat_setWidth, BitVec.toNat_ushiftRight, Nat.shiftRight_eq_div_pow, BitVec.toNat_ofNat] at hbyte
    have hones : ((-1 : BitVec 64).setWidth 8).toNat = 255 := by decide
    have hbound : v < 512 := by
      have hmul : i * op.bytes ≤ 63 * 8 := Nat.mul_le_mul (by omega) (by omega)
      omega
    rw [hones, Nat.mod_eq_of_lt (show v < 2 ^ 64 by omega)] at hbyte
    cases j with
    | zero =>
      simp only [Nat.mul_zero, Nat.pow_zero, Nat.div_one] at hbyte
      rcases hcase with rfl | rfl
      · omega
      · rcases hlen with hlen | hlen | hlen | hlen <;> rw [hlen] at hbyte hbound <;> omega
    | succ j =>
      have hpow : 2 ^ 8 ≤ 2 ^ (8 * (j + 1)) := Nat.pow_le_pow_right (by omega) (by omega)
      have hdiv : v / 2 ^ (8 * (j + 1)) ≤ v / 2 ^ 8 := Nat.div_le_div_left hpow (by omega)
      generalize v / 2 ^ (8 * (j + 1)) = byte at hbyte hdiv
      omega

/-- The address of an element, from that of the first one. -/
lemma address_eq (s : State) (i : ℕ) :
    baseAt s b i + countIndex s op c i = s.reg .rb b + s.reg .rd c +
      BitVec.ofNat 64 ((if b = 0 then 8 * i else 0) + if c = 0 then 0 else i * op.bytes) := by
  have hswap (x y z : BitVec 64) : x + y + z = x + z + y := by
    rw [BitVec.add_assoc, BitVec.add_comm y, ← BitVec.add_assoc]
  unfold baseAt countIndex
  rw [BitVec.ofNat_add]
  by_cases hb : b = 0
  · subst hb
    by_cases hc : c = 0
    · rw [if_pos rfl, if_pos hc, if_pos rfl, if_pos hc, hswap, BitVec.add_zero]
    · rw [if_pos rfl, if_neg hc, if_pos rfl, if_neg hc, ← BitVec.add_assoc, ← BitVec.add_assoc,
        hswap (s.reg .rb 0)]
  · by_cases hc : c = 0
    · rw [if_neg hb, if_pos hc, if_neg hb, if_pos hc, BitVec.add_zero, BitVec.add_zero]
    · rw [if_neg hb, if_neg hc, if_neg hb, if_neg hc, BitVec.zero_add, BitVec.add_assoc]

/-- Addresses that do not go on by one element leave out the second one. -/
lemma strides_of_stores (hk : 1 ≤ k) (hle : op.bytes ≤ 8) (hpos : 1 ≤ op.bytes) (hak : a + (k + 1) ≤ 64)
    (h : ∀ s : State, s.IsRead → storedMem s op a b c (k + 1) = (storeAllRegs .rd op a b c (k + 1) s).mem) :
    Strides b c op.bytes := by
  by_contra hstride
  set s := State.probe (fun f _ => if f = .rd then -1 else 0) (fun _ => 0)
  have hsmall : (k + 1) * op.bytes ≤ 64 * 8 := Nat.mul_le_mul (by omega) hle
  have hsecond := storeAllRegs_second .rd op a b c hk hle hpos (by omega) s
  have hskip (i : ℕ) (hi : i < k + 1) : op.bytes ≤ Memory.offsetFrom (baseAt s b i + countIndex s op c i)
      (s.reg .rb b + s.reg .rd c + BitVec.ofNat 64 op.bytes) := by
    have hmul : i * op.bytes ≤ 63 * 8 := Nat.mul_le_mul (by omega) hle
    have hstep : i ≠ 0 → op.bytes ≤ i * op.bytes := fun hi => Nat.le_mul_of_pos_left _ (by omega)
    have haway : (if b = 0 then 8 * i else 0) + (if c = 0 then 0 else i * op.bytes) = 0 ∨
        op.bytes < (if b = 0 then 8 * i else 0) + if c = 0 then 0 else i * op.bytes := by
      by_cases hi0 : i = 0
      · exact .inl (by simp [hi0])
      have hstep := hstep hi0
      by_cases hb : b = 0
      · by_cases hc : c = 0
        · have hne : op.bytes ≠ 8 := fun h8 => hstride ⟨⟨fun _ => hc, fun _ => hb⟩, fun _ => h8⟩
          rw [if_pos hb, if_pos hc]
          omega
        · rw [if_pos hb, if_neg hc]
          omega
      · by_cases hc : c = 0
        · rw [if_neg hb, if_pos hc]
          exact .inl rfl
        · exact absurd ⟨⟨fun h => absurd h hb, fun h => absurd h hc⟩, fun h => absurd h hb⟩ hstride
    have hsize : (if b = 0 then 8 * i else 0) + (if c = 0 then 0 else i * op.bytes) ≤ 8 * 63 + 63 * 8 := by
      split_ifs <;> omega
    rw [address_eq, Memory.offsetFrom_add_add _ (by omega) (by omega)]
    generalize (if b = 0 then 8 * i else 0) + (if c = 0 then 0 else i * op.bytes) = d at haway hsize ⊢
    split_ifs <;> omega
  have hzero : s.mem (s.reg .rb b + s.reg .rd c + BitVec.ofNat 64 op.bytes) = 0 := rfl
  have hreg : s.reg .rd (a + 1) = -1 := probe_reg_of_ne _ _ _ (by omega)
  rw [← h s (isRead_probe _ _), storedMem, Memory.storeAll_of_le hskip, hzero, hreg] at hsecond
  exact absurd hsecond (by decide)

/-- An index that is stored after it has gone on is not the one from before. -/
lemma free_of_stores (hlen : op.bytes = 1 ∨ op.bytes = 2 ∨ op.bytes = 4 ∨ op.bytes = 8)
    (hak : a + (k + 1) ≤ 64) (hstride : Strides b c op.bytes)
    (h : ∀ s : State, s.IsRead → storedMem s op a b c (k + 1) = (storeAllRegs .rd op a b c (k + 1) s).mem) :
    ¬ (c ≠ 0 ∧ a < c ∧ c < a + (k + 1)) := by
  rintro ⟨hc, hac, hck⟩
  set s := State.probe (fun _ _ => 0) (fun _ => 0)
  have hrd (j : ℕ) : s.reg .rd j = 0 := probe_reg _ _ (by decide) fun _ => rfl
  have hsmall : (k + 1) * op.bytes ≤ 64 * 8 := Nat.mul_le_mul (by omega) (by omega)
  have hmem := h s (isRead_probe _ _)
  rw [storedMem_eq hstride] at hmem
  have hload := congrArg (fun m : Memory => (m.load (s.reg .rb b + s.reg .rd c +
    BitVec.ofNat 64 ((c - a) * op.bytes)) op.bytes).toNat) hmem
  simp only [storeAllRegs, State.stores] at hload
  rw [Memory.toNat_load_storeAll (by omega) (by omega) (by omega),
    Memory.toNat_load_storeAll (by omega) (by omega) (by omega), storedAt, if_pos (by omega), countIndex,
    if_neg hc, hrd, hrd] at hload
  have hmul : (c - a) * op.bytes ≤ 63 * op.bytes := Nat.mul_le_mul_right _ (by omega)
  have hstep : 1 * op.bytes ≤ (c - a) * op.bytes := Nat.mul_le_mul_right _ (by omega)
  simp only [BitVec.ofNat_eq_ofNat, BitVec.zero_add, BitVec.toNat_ofNat, Nat.zero_mod] at hload
  rw [Nat.mod_eq_of_lt (show (c - a) * op.bytes < 2 ^ 64 by omega)] at hload
  rcases hlen with hlen | hlen | hlen | hlen <;> rw [hlen] at hload hmul hstep <;> omega

/-- **When stores one at a time are the store of all registers.** -/
lemma stores_iff (hk : 1 ≤ k) (hlen : op.bytes = 1 ∨ op.bytes = 2 ∨ op.bytes = 4 ∨ op.bytes = 8)
    (hak : a + (k + 1) ≤ 64) :
    (∀ s : State, s.IsRead →
      (storesResult op a b c k s).set .rb 0 0 = (storeAllRegs src op a b c (k + 1) s).set .rb 0 0) ↔
    src = .rd ∧ Strides b c op.bytes ∧ ¬ (c ≠ 0 ∧ a < c ∧ c < a + (k + 1)) := by
  simp only [stores_iff_mem]
  constructor
  · intro h
    obtain rfl : src = .rd := src_eq_of_stores hk hlen hak h
    have hstride := strides_of_stores hk (by omega) (by omega) hak h
    exact ⟨rfl, hstride, free_of_stores hlen hak hstride h⟩
  · rintro ⟨rfl, hstride, hfree⟩ s -
    exact storesResult_eq hstride hfree s

end Stores

/-! ## Moves -/

section Moves

variable {src dest : RegFile} {hb hc n : ℕ}

/-- **When moves one at a time are the move of all registers**: unless a source is assigned before it is
read. -/
lemma moves_iff : (∀ s : State, s.IsRead → (moveSeq src dest hb hc n s).set .rb 0 0 =
      (s.fill dest hb n fun i => s.reg src (hc + i)).set .rb 0 0) ↔
    ¬ (src = dest ∧ hc < hb ∧ hb < hc + n) := by
  constructor
  · rintro h ⟨rfl, hlt, hover⟩
    set s := State.probe (fun f j => if f = src ∧ j = hb then 1 else 0) (fun _ => 0)
    have hreg := ((set_pc_eq_iff _ _).mp (h s (isRead_probe _ _))).1 src (hb + (hb - hc)) (by omega)
    have hin : src = src ∧ hb ≤ hb + (hb - hc) ∧ hb + (hb - hc) < hb + n ∧ ¬ ReadOnly src (hb + (hb - hc)) :=
      ⟨rfl, by omega, by omega, fun hro => absurd hro.1 (by omega)⟩
    have hfirst : movedFrom src src hb hc (hb + (hb - hc) - hb) = 0 := by
      rw [movedFrom, if_pos ⟨rfl, hlt⟩, Nat.add_sub_cancel_left, Nat.mod_self]
    rw [(moveSeq_eq s src src hb hc n).2, if_neg (by omega), State.fill_reg, if_pos hin, State.fill_reg, if_pos hin,
      hfirst, fixed_of_ne (by omega), fixed_of_ne (by omega), show hc + (hb + (hb - hc) - hb) = hb by omega,
      probe_reg_of_ne _ _ src (show hb ≠ 0 by omega), if_pos ⟨rfl, rfl⟩] at hreg
    by_cases hzero : hc = 0
    · subst hzero
      by_cases hrf : src = .rf
      · subst hrf
        have hfixed : s.reg .rf (0 + 0) = fcsrDefault := rfl
        rw [hfixed] at hreg
        exact absurd hreg (by decide)
      · rw [probe_reg _ _ hrf fun _ => if_neg (by omega), if_neg (by omega)] at hreg
        exact absurd hreg (by decide)
    · rw [probe_reg_of_ne _ _ src (by omega), if_neg (by omega)] at hreg
      exact absurd hreg (by decide)
  · intro hfree s _
    have hfrom (i : ℕ) (hi : i < n) : s.reg src (hc + movedFrom src dest hb hc i) = s.reg src (hc + i) := by
      unfold movedFrom
      split_ifs with h
      · have hge : ¬ hb < hc + n := fun hlt => hfree ⟨h.1, h.2, hlt⟩
        rw [Nat.mod_eq_of_lt (by omega)]
      · rfl
    refine (set_pc_eq_iff _ _).mpr ⟨fun f j hpc => ?_, (moveSeq_eq s src dest hb hc n).1⟩
    rw [(moveSeq_eq s src dest hb hc n).2, if_neg hpc, State.fill_congr _ _ _ _ _ hfrom]

end Moves

/-! ## Words -/

section Words

variable {w : BitVec 32} {k : ℕ}

/-- The words for a load or store of `k + 1` registers. -/
def singleWords (opcode len : ℕ) (w : BitVec 32) (k : ℕ) : List (BitVec 32) :=
  memWords opcode len (fieldHa w) (fieldHb w) (fieldHc w) k ++ [addiWord (fieldHc w) (0x1000 - len * k)]

/-- What the words do: one register after the other, and the index back. -/
lemma performs_singleWords {opcode len : ℕ} {one : ℕ → State → State} {seq : ℕ → State → State}
    (hlen : len = 1 ∨ len = 2 ∨ len = 4 ∨ len = 8) (hk : 1 ≤ k) (hak : fieldHa w + (k + 1) ≤ 64)
    (hone : ∀ i, fieldHa w + i < 2 ^ 6 →
      Performs [quad opcode (fieldHa w + i) (fieldHb w) (fieldHc w) 1] (one i)) (hzero : seq 0 = one 0)
    (hsucc : ∀ i, seq (i + 1) = fun s => one (i + 1) (bump (fieldHc w) (BitVec.ofNat 64 len) (seq i s))) :
    Performs (singleWords opcode len w k) fun s => bump (fieldHc w) (-BitVec.ofNat 64 (len * k)) (seq k s) := by
  have hmul : len * k ≤ 8 * 63 := Nat.mul_le_mul (by omega) (by omega)
  have hpos : 0 < len * k := Nat.mul_pos (by omega) (by omega)
  have hback := performs_addiWord (fieldHc_lt w) (show 0x1000 - len * k < 2 ^ 12 by omega)
  rw [signExtend_down hpos (by omega)] at hback
  exact (performs_memWords (by omega) (fieldHc_lt w) hone hzero hsucc (by omega)).append hback

/-- **Loads one at a time**: when they have the result of the load of all registers. -/
theorem sameResult_loads_iff {dest file : RegFile} {op : MemOp} {opcode : ℕ}
    (hmulti : multiOf w = some (.ldm dest op)) (hopcode : opcode < 2 ^ 8)
    (hsingle : ∀ v : BitVec 32, (v >>> 24).toNat = opcode → multiOf v = some (.ldm file op))
    (hfile : file = .rd ∨ file = dest) (hrb : file ≠ .rb)
    (hlen : op.bytes = 1 ∨ op.bytes = 2 ∨ op.bytes = 4 ∨ op.bytes = 8) (hk : 1 ≤ k) (hcount : fieldHd w = k + 1)
    (hak : fieldHa w + (k + 1) ≤ 64) : SameResult w (singleWords opcode op.bytes w k) ↔
      file = dest ∧ Strides (fieldHb w) (fieldHc w) op.bytes ∧
        ¬ (dest = .rd ∧ fieldHc w ≠ 0 ∧ fieldHa w ≤ fieldHc w ∧ fieldHc w < fieldHa w + (k + 1)) := by
  have hone (i : ℕ) (hi : fieldHa w + i < 2 ^ 6) :=
    performs_loadOne hopcode hsingle hi (fieldHb_lt w) (fieldHc_lt w)
  have hwords : Performs (singleWords opcode op.bytes w k)
      (loadsResult file op (fieldHa w) (fieldHb w) (fieldHc w) k) :=
    performs_singleWords hlen hk hak hone (show loadSeq file op _ _ _ 0 = _ from rfl) fun _ => rfl
  rw [sameResult_iff (acts_ldm hmulti (by omega) (by omega)) hwords, hcount]
  exact loads_iff hfile hrb (by omega) (by omega) hk hak

/-- **Stores one at a time**: when they have the result of the store of all registers. -/
theorem sameResult_stores_iff {src : RegFile} {op : MemOp} {opcode : ℕ}
    (hmulti : multiOf w = some (.stm src op)) (hopcode : opcode < 2 ^ 8)
    (hsingle : ∀ v : BitVec 32, (v >>> 24).toNat = opcode → multiOf v = some (.stm .rd op))
    (hlen : op.bytes = 1 ∨ op.bytes = 2 ∨ op.bytes = 4 ∨ op.bytes = 8) (hk : 1 ≤ k) (hcount : fieldHd w = k + 1)
    (hak : fieldHa w + (k + 1) ≤ 64) : SameResult w (singleWords opcode op.bytes w k) ↔
      src = .rd ∧ Strides (fieldHb w) (fieldHc w) op.bytes ∧
        ¬ (fieldHc w ≠ 0 ∧ fieldHa w < fieldHc w ∧ fieldHc w < fieldHa w + (k + 1)) := by
  have hone (i : ℕ) (hi : fieldHa w + i < 2 ^ 6) :=
    performs_storeOne hopcode hsingle hi (fieldHb_lt w) (fieldHc_lt w)
  have hwords : Performs (singleWords opcode op.bytes w k)
      (storesResult op (fieldHa w) (fieldHb w) (fieldHc w) k) :=
    performs_singleWords hlen hk hak hone (show storeSeq op _ _ _ 0 = _ from rfl) fun _ => rfl
  rw [sameResult_iff (acts_stm hmulti (by omega) (by omega)) hwords, hcount]
  exact stores_iff hk hlen hak

/-- The moves one after the other. -/
lemma performs_moveWords {src dest : RegFile} {minor hb hc n : ℕ} (hminor : minor < 2 ^ 6)
    (hsingle : ∀ v : BitVec 32, (v >>> 24).toNat = 0x10 → fieldHa v = minor → multiOf v = some (.r2r src dest))
    (hhb : hb + n ≤ 64) (hhc : hc + n ≤ 64) :
    Performs (moveWords minor hb hc n) (moveSeq src dest hb hc n) := by
  induction n with
  | zero => exact fun m => ⟨m, rfl, rfl⟩
  | succ n ih =>
    rw [moveWords, List.range_succ, List.map_append]
    exact (ih (by omega) (by omega)).append (performs_moveOne hminor hsingle (by omega) (by omega))

/-- **Moves one at a time**: when they have the result of the move of all registers. -/
theorem sameResult_moves_iff {src dest : RegFile} (hmulti : multiOf w = some (.r2r src dest))
    (hsingle : ∀ v : BitVec 32, (v >>> 24).toNat = 0x10 → fieldHa v = fieldHa w →
      multiOf v = some (.r2r src dest)) (hpos : fieldHd w ≠ 0) (hhb : fieldHb w + fieldHd w ≤ 64)
    (hhc : fieldHc w + fieldHd w ≤ 64) :
    SameResult w (moveWords (fieldHa w) (fieldHb w) (fieldHc w) (fieldHd w)) ↔
      ¬ (src = dest ∧ fieldHc w < fieldHb w ∧ fieldHb w < fieldHc w + fieldHd w) := by
  rw [sameResult_iff (acts_r2r hmulti hpos hhb hhc)
    (performs_moveWords (fieldHa_lt w) hsingle hhb hhc)]
  exact moves_iff

end Words

end Dadao.Qemu
