import Dadao.Gas.Multiple
import Dadao.Qemu.Triple

set_option relaxedAutoImplicit false
set_option autoImplicit false

/-!
# `setjmp` and `longjmp`

The two functions of `setjmp.S` as they are assembled and executed. The buffer holds the registers as
octas side by side; its size in `machine/setjmp.h` is that of `_JBLEN` of them.

## Main definitions

* `Dadao.Newlib.setjmp`, `Dadao.Newlib.longjmp` — the functions, line by line.
* `Dadao.Newlib.slot` — the register that is kept in an octa of the buffer.
* `Dadao.Newlib.Returns` — a function up to its return.

## Main results

* `Dadao.Newlib.setjmp_returns` — `setjmp` returns zero and changes nothing outside of the buffer.
* `Dadao.Newlib.longjmp_returns` — `longjmp` returns once more from `setjmp`.
-/

namespace Dadao.Newlib

open Dadao.Opcodes Dadao.Gas Dadao.Qemu Dadao.Tcg

/-! ## The functions -/

/-- A line: the row of the mnemonic and the operands. -/
structure Line where
  row : DadaoOpcode
  vals : List ℤ

/-- The word of a line. -/
def Line.word (l : Line) : BitVec 32 := BitVec.ofNat 32 (encode l.row l.vals)

/-- `rd2rb` -/
def rd2rb (b c n : ℤ) : Line := ⟨⟨"rd2rb", 3, 16, 41, .op, .rb, .rd, .immu6, .normal⟩, [b, c, n]⟩

/-- `setzw` of an `rd` register -/
def setzw (a w imm : ℤ) : Line := ⟨⟨"setzw", 3, 22, 0, .rd, .ww, .immu16, .none, .normal⟩, [a, w, imm]⟩

/-- `addi` of an `rd` register -/
def addi (a b imm : ℤ) : Line := ⟨⟨"addi", 3, 25, 0, .rd, .rd, .imms12, .none, .normal⟩, [a, b, imm]⟩

/-- `csne` -/
def csne (a b c d : ℤ) : Line := ⟨⟨"csne", 4, 39, 0, .rd, .rd, .rd, .rd, .normal⟩, [a, b, c, d]⟩

/-- `sto` of an `rb` register -/
def sto (a b imm : ℤ) : Line := ⟨⟨"sto", 3, 75, 0, .rb, .rb, .imms12, .none, .dref⟩, [a, b, imm]⟩

/-- `ldo` of an `rb` register -/
def ldo (a b imm : ℤ) : Line := ⟨⟨"ldo", 3, 67, 0, .rb, .rb, .imms12, .none, .dref⟩, [a, b, imm]⟩

/-- `ret` -/
def ret (a imm : ℤ) : Line := ⟨⟨"ret", 2, 110, 0, .rd, .imms18, .none, .none, .jsr⟩, [a, imm]⟩

/-- The opcodes of `stmo`. -/
def stmoOpcode : RegFile → BitVec 32
  | .rd => 63
  | .rb => 79
  | .rf => 95
  | .ra => 111

/-- The opcodes of `ldmo`. -/
def ldmoOpcode : RegFile → BitVec 32
  | .rd => 55
  | .rb => 71
  | .rf => 87
  | .ra => 103

/-- The operand type of a register file. -/
def operandOf : RegFile → OperandType
  | .rd => .rd
  | .rb => .rb
  | .rf => .rf
  | .ra => .ra

/-- `stmo` -/
def stmo (file : RegFile) (a b c n : ℤ) : Line :=
  ⟨⟨"stmo", 4, stmoOpcode file, 0, operandOf file, .rb, .rd, .immu6, .dref⟩, [a, b, c, n]⟩

/-- `ldmo` -/
def ldmo (file : RegFile) (a b c n : ℤ) : Line :=
  ⟨⟨"ldmo", 4, ldmoOpcode file, 0, operandOf file, .rb, .rd, .immu6, .dref⟩, [a, b, c, n]⟩

/-- `setjmp` up to its return. -/
def setjmp : List Line :=
  [rd2rb 8 16 1, setzw 16 0 0, sto 1 8 0, sto 2 8 8, addi 16 16 (2 * 8),
    stmo .rd 32 8 16 32, addi 16 16 (32 * 8), stmo .rb 32 8 16 32, addi 16 16 (32 * 8),
    stmo .rf 32 8 16 32, addi 16 16 (32 * 8), stmo .ra 1 8 16 63, addi 16 16 (64 * 8)]

/-- `longjmp` up to its return. -/
def longjmp : List Line :=
  [rd2rb 8 16 1, setzw 16 0 0, ldo 1 8 0, ldo 2 8 8, addi 16 16 (2 * 8),
    ldmo .rd 32 8 16 32, addi 16 16 (32 * 8), ldmo .rb 32 8 16 32, addi 16 16 (32 * 8),
    ldmo .rf 32 8 16 32, addi 16 16 (32 * 8), ldmo .ra 1 8 16 63, addi 16 16 (64 * 8),
    setzw 31 0 1, csne 17 0 31 17]

/-- `_JBLEN` -/
def jblen : ℕ := 162

/-- A line that is accepted: a row of the table and operands in range. -/
def Line.Legal (l : Line) : Prop :=
  l.row ∈ opcRows ∧ List.Forall₂ InRange (operandKinds l.row) l.vals ∧ ¬ IsCallZero l.row l.vals ∧
    overLimit (firstRow l.row) (justOperands l.row l.vals) = false

instance (l : Line) : Decidable l.Legal := inferInstanceAs (Decidable (_ ∧ _ ∧ _ ∧ _))

/-- **What is assembled** from the lines of the functions, without `-multiple-to-single`. -/
lemma Line.Legal.assembled {l : Line} (h : l.Legal) (g : ℕ → ExpressionS) :
    mdAssembleWords false g l.row.name (justOperands l.row l.vals) l.vals.length = some [l.word] := by
  obtain ⟨hrow, hv, hcall, hfirst⟩ := h
  have hcode := mdAssembleCode_eq (g := g) hv (hasOperands_just l.row _) (opcTable_eq ▸ hrow)
  rw [if_neg hcall] at hcode
  rw [mdAssembleWords_eq _ _ hrow, hcode, assembleFound, if_neg (by simp [hfirst]), if_neg (by simp),
    if_neg (by simp)]
  rfl

/-- The lines are accepted. -/
lemma legal_of_mem {l : Line} (h : l ∈ setjmp ++ [ret 31 0] ++ longjmp ++ [ret 0 0]) : l.Legal := by
  have hall : ∀ l ∈ setjmp ++ [ret 31 0] ++ longjmp ++ [ret 0 0], l.Legal := by decide +kernel
  exact hall l h

/-- The words of `setjmp`. -/
lemma words_setjmp : setjmp.map Line.word =
    [quad 0x10 0x29 8 16 1, quad 0x16 16 0 0 0, quad 0x4b 1 8 0 0, quad 0x4b 2 8 0 8, quad 0x19 16 16 0 16,
      quad 0x3f 32 8 16 32, quad 0x19 16 16 4 0, quad 0x4f 32 8 16 32, quad 0x19 16 16 4 0,
      quad 0x5f 32 8 16 32, quad 0x19 16 16 4 0, quad 0x6f 1 8 16 63, quad 0x19 16 16 8 0] := by
  decide +kernel

/-- The words of `longjmp`. -/
lemma words_longjmp : longjmp.map Line.word =
    [quad 0x10 0x29 8 16 1, quad 0x16 16 0 0 0, quad 0x43 1 8 0 0, quad 0x43 2 8 0 8, quad 0x19 16 16 0 16,
      quad 0x37 32 8 16 32, quad 0x19 16 16 4 0, quad 0x47 32 8 16 32, quad 0x19 16 16 4 0,
      quad 0x57 32 8 16 32, quad 0x19 16 16 4 0, quad 0x67 1 8 16 63, quad 0x19 16 16 8 0,
      quad 0x16 31 0 0 1, quad 0x27 17 0 31 17] := by
  decide +kernel

/-! ## The buffer -/

/-- The register in each octa of the buffer. -/
def slot (k : ℕ) : RegFile × ℕ :=
  if k < 2 then (.rb, k + 1) else if k < 34 then (.rd, k + 30) else if k < 66 then (.rb, k - 2)
  else if k < 98 then (.rf, k - 34) else (.ra, k - 97)

/-- The number of registers in the buffer. -/
def slots : ℕ := 161

/-- The address of an octa of the buffer. -/
def slotAddr (buf : BitVec 64) (k : ℕ) : BitVec 64 := buf + BitVec.ofNat 64 (k * 8)

/-- A register that the functions use themselves. -/
def Scratch (file : RegFile) (i : ℕ) : Prop := file = .rb ∧ (i = 0 ∨ i = 8) ∨ file = .rd ∧ i = 16

/-- The functions keep the buffer in `rb8` and the octa they are at in `rd16`. -/
structure At (buf : BitVec 64) (i : ℕ) (t : State) : Prop where
  base : t.reg .rb 8 = buf
  index : t.reg .rd 16 = BitVec.ofNat 64 (i * 8)

/-- **`setjmp` has put the first `n` registers** of `s` in the buffer. -/
structure Saving (buf : BitVec 64) (s : State) (n i : ℕ) (t : State) : Prop extends At buf i t where
  mem : t.mem = s.mem.storeAll 8 (slotAddr buf) (fun k => s.reg (slot k).1 (slot k).2) n
  keeps : ∀ file j, ¬ Scratch file j → t.reg file j = s.reg file j

/-- **`longjmp` has assigned the first `n` registers** from the buffer. -/
structure Loading (buf : BitVec 64) (s : State) (n i : ℕ) (t : State) : Prop extends At buf i t where
  mem : t.mem = s.mem
  loaded : ∀ k < n, t.reg (slot k).1 (slot k).2 = s.mem.load (slotAddr buf k) 8
  keeps : ∀ file j, ¬ Scratch file j → (∀ k < slots, slot k ≠ (file, j)) → t.reg file j = s.reg file j

variable {buf : BitVec 64} {s t : State} {n i : ℕ}

/-- The octas from one of them on. -/
lemma slotAddr_add (buf : BitVec 64) (n k : ℕ) : slotAddr buf n + BitVec.ofNat 64 (k * 8) = slotAddr buf (n + k) := by
  rw [slotAddr, slotAddr, BitVec.add_assoc, ← BitVec.ofNat_add, Nat.add_mul]

/-- A register outside of those the functions use is none of them. -/
lemma ne_of_not_scratch {file : RegFile} {j : ℕ} (h : ¬ Scratch file j) :
    ¬ (file = .rb ∧ j = 0) ∧ ¬ (file = .rb ∧ j = 8) ∧ ¬ (file = .rd ∧ j = 16) := by
  simp only [Scratch, not_or, not_and] at h
  exact ⟨fun hj => (h.1 hj.1).1 hj.2, fun hj => (h.1 hj.1).2 hj.2, fun hj => h.2 hj.1 hj.2⟩

/-- The registers in the buffer are none of those the functions use. -/
lemma not_scratch_slot {k : ℕ} (hk : k < slots) : ¬ Scratch (slot k).1 (slot k).2 := by
  unfold slots at hk
  unfold slot Scratch
  split_ifs <;> simp <;> omega

/-- Each register in the buffer has one octa. -/
lemma slot_injective {k k' : ℕ} (h : slot k = slot k') : k = k' := by
  unfold slot at h
  split_ifs at h <;> simp at h <;> omega

/-! ## The steps of both functions -/

section Steps

variable {w : BitVec 32} {op a b c d k : ℕ} {file : RegFile}

/-- The index may change, and the program counter. -/
lemma Saving.index_to (h : Saving buf s n i t) (i' : ℕ) (pc : BitVec 64) :
    Saving buf s n i' ((t.set .rd 16 (BitVec.ofNat 64 (i' * 8))).set .rb 0 pc) where
  base := by simpa using h.base
  index := by simp
  mem := h.mem
  keeps file j hj := by
    obtain ⟨hpc, -, hindex⟩ := ne_of_not_scratch hj
    rw [State.set_reg, if_neg hpc, State.set_reg, if_neg hindex, h.keeps file j hj]

/-- The index may change, and the program counter. -/
lemma Loading.index_to (h : Loading buf s n i t) (hn : n ≤ slots) (i' : ℕ) (pc : BitVec 64) :
    Loading buf s n i' ((t.set .rd 16 (BitVec.ofNat 64 (i' * 8))).set .rb 0 pc) where
  base := by simpa using h.base
  index := by simp
  mem := h.mem
  loaded k hk := by
    obtain ⟨hpc, -, hindex⟩ := ne_of_not_scratch (not_scratch_slot (show k < slots by omega))
    rw [State.set_reg, if_neg hpc, State.set_reg, if_neg hindex, h.loaded k hk]
  keeps file j hj hslot := by
    obtain ⟨hpc, -, hindex⟩ := ne_of_not_scratch hj
    rw [State.set_reg, if_neg hpc, State.set_reg, if_neg hindex, h.keeps file j hj hslot]

/-- A displacement that is not negative. -/
lemma signExtend_ofNat {x : ℕ} (hx : x < 2 ^ 11) : (BitVec.ofNat 12 x).signExtend 64 = BitVec.ofNat 64 x := by
  have hmsb : (BitVec.ofNat 12 x).msb = false := by
    rw [BitVec.msb_eq_false_iff_two_mul_lt, BitVec.toNat_ofNat]
    omega
  rw [BitVec.signExtend_eq_setWidth_of_msb_false hmsb]
  apply BitVec.eq_of_toNat_eq
  rw [BitVec.toNat_setWidth, BitVec.toNat_ofNat, BitVec.toNat_ofNat]
  omega

/-- **The index goes on** by `k` octas. -/
lemma triple_addi {P Q : State → Prop} (h : Fields w 0x19 16 16 c d) (himm : c * 2 ^ 6 + d = k * 8)
    (hk : k * 8 < 2 ^ 11) (hP : ∀ t, P t → t.reg .rd 16 = BitVec.ofNat 64 (i * 8))
    (hQ : ∀ t pc, P t → Q ((t.set .rd 16 (BitVec.ofNat 64 ((i + k) * 8))).set .rb 0 pc)) : Triple P [w] Q := by
  have hw : Plain w := h.plain (by simp [PlainOpcode])
  have hdisas (pc : BitVec 64) : disasDadao pc w = some (some (transADDIrd w)) := by
    rw [disasDadao, h.opcode]
    rfl
  have hvalue : BitVec.ofNat 64 (i * 8) + fieldImms 12 w = BitVec.ofNat 64 ((i + k) * 8) := by
    rw [h.imms12, himm, signExtend_ofNat hk, ← BitVec.ofNat_add, Nat.add_mul]
  refine triple_of_acts (acts_insnAlg1Rrii hw .rd Global.elem_rd hdisas) fun t ht => ⟨?_, fun pc => ?_⟩
  · rw [after_single, h.ha]
    simp [State.put]
  · rw [after_single, h.ha, h.hb, hP t ht, hvalue]
    exact hQ t pc ht

/-- The address of the octas that a load or store of several registers is at. -/
lemma At.startOf (h : At buf n t) (hf : Fields w op a 8 16 d) (k : ℕ) :
    startOf w t + BitVec.ofNat 64 (k * moTeuq.bytes) = slotAddr buf (n + k) := by
  rw [Qemu.startOf, hf.hb, hf.hc, h.base, h.index]
  exact slotAddr_add buf n k

/-- **The beginning**: the buffer in `rb8`, and the index zero. -/
lemma triple_begin : Triple (· = s) [quad 0x10 0x29 8 16 1, quad 0x16 16 0 0 0] (Saving (s.reg .rd 16) s 0 0) := by
  have hmove := fields_quad 0x10 (a := 0x29) (b := 8) (c := 16) (d := 1) (by omega) (by omega) (by omega)
    (by omega) (by omega)
  have hset := fields_quad 0x16 (a := 16) (b := 0) (c := 0) (d := 0) (by omega) (by omega) (by omega) (by omega)
    (by omega)
  have hbase : Triple (· = s) [quad 0x10 0x29 8 16 1] fun t => t.reg .rb 8 = s.reg .rd 16 ∧ t.mem = s.mem ∧
      ∀ file j, ¬ Scratch file j → t.reg file j = s.reg file j := by
    have hmulti : multiOf (quad 0x10 0x29 8 16 1) = some (.r2r .rd .rb) := rfl
    refine triple_of_acts (acts_r2r hmulti (by decide) (by decide) (by decide)) fun t ht => ?_
    subst ht
    refine ⟨?_, fun pc => ⟨?_, rfl, fun file j hj => ?_⟩⟩
    · rw [State.fill_reg, hmove.hb, if_neg (by omega)]
    · rw [State.set_reg, if_neg (by simp), State.fill_reg, hmove.hb, hmove.hc, hmove.hd,
        if_pos ⟨rfl, by omega, by omega, by simp [ReadOnly]⟩, fixed_of_ne (by omega)]
    · obtain ⟨hpc, hbase, -⟩ := ne_of_not_scratch hj
      rw [State.set_reg, if_neg hpc, State.fill_reg, hmove.hb, hmove.hd, if_neg fun h => hbase ⟨h.1, by omega⟩]
  refine hbase.cons ?_
  have hw : Plain (quad 0x16 16 0 0 0) := hset.plain (by simp [PlainOpcode])
  have hdisas (pc : BitVec 64) : disasDadao pc (quad 0x16 16 0 0 0) =
      some (some (transSETZWrd (quad 0x16 16 0 0 0))) := by
    rw [disasDadao, hset.opcode]
    rfl
  have hzero : wydeArg (quad 0x16 16 0 0 0) = 0 := by decide
  refine triple_of_acts (acts_insnSetzwRwii hw .rd Global.elem_rd hdisas) fun t ht => ?_
  rw [wyde, after_single, hset.ha, hzero]
  refine ⟨by simp [State.put], fun pc => ⟨⟨?_, ?_⟩, ht.2.1, fun file j hj => ?_⟩⟩
  · simpa [State.put] using ht.1
  · simp [State.put]
  · obtain ⟨hpc, -, hindex⟩ := ne_of_not_scratch hj
    rw [State.set_reg, if_neg hpc, State.put, if_neg (by omega), State.set_reg, if_neg hindex, ht.2.2 file j hj]

/-- The first octas of the buffer are at their displacements. -/
lemma slotAddr_zero_add (h : At buf i t) (himm : c * 2 ^ 6 + d = n * 8) (hn : n < 2) :
    t.reg .rb 8 + (BitVec.ofNat 12 (c * 2 ^ 6 + d)).signExtend 64 = slotAddr buf n := by
  rw [h.base, himm, signExtend_ofNat (by omega), slotAddr]

/-- **A store of one register.** -/
lemma saving_sto (h : Fields w 0x4b (n + 1) 8 c d) (himm : c * 2 ^ 6 + d = n * 8) (hn : n < 2) :
    Triple (Saving buf s n i) [w] (Saving buf s (n + 1) i) := by
  have hw : Plain w := h.plain (by simp [PlainOpcode])
  have hdisas (pc : BitVec 64) : disasDadao pc w = some (some (transSTOrb w)) := by
    rw [disasDadao, h.opcode]
    rfl
  refine triple_of_acts (acts_st _ _ _ h hw Global.elem_rb hdisas) fun t ht => ⟨rfl, fun pc => ?_⟩
  refine ⟨⟨?_, ?_⟩, ?_, fun file j hj => ?_⟩
  · simpa using ht.base
  · simpa using ht.index
  · have hslot : slot n = (.rb, n + 1) := if_pos hn
    have hkept : t.reg .rb (n + 1) = s.reg .rb (n + 1) := ht.keeps _ _ (by simp [Scratch]; omega)
    rw [State.set_mem, slotAddr_zero_add ht.toAt himm hn, hkept, ht.mem, Memory.storeAll, hslot]
    rfl
  · obtain ⟨hpc, -, -⟩ := ne_of_not_scratch hj
    rw [State.set_reg, if_neg hpc]
    exact ht.keeps file j hj

/-- **A store of several registers.** -/
lemma saving_stmo (h : Fields w op a 8 16 k) (hmulti : multiOf w = some (.stm file moTeuq)) (hpos : k ≠ 0)
    (hle : a + k ≤ 64) (hslot : ∀ j < k, slot (n + j) = (file, a + j)) (hn : n + k ≤ slots) :
    Triple (Saving buf s n n) [w] (Saving buf s (n + k) n) := by
  refine triple_of_acts (acts_stm hmulti (by rw [h.hd]; exact hpos) (by rw [h.ha, h.hd]; exact hle))
    fun t ht => ⟨rfl, fun pc => ⟨⟨?_, ?_⟩, ?_, fun file j hj => ?_⟩⟩
  · simpa [State.stores] using ht.base
  · simpa [State.stores] using ht.index
  · have hval (j : ℕ) (hj : j < k) : t.reg file (a + j) = s.reg (slot (n + j)).1 (slot (n + j)).2 := by
      have hout := not_scratch_slot (show n + j < slots by omega)
      rw [hslot j hj] at hout ⊢
      exact ht.keeps _ _ hout
    rw [State.set_mem, Memory.storeAll_add, ← ht.mem, State.stores, h.ha, h.hd]
    exact Memory.storeAll_congr (fun j _ => ht.startOf h j) hval
  · obtain ⟨hpc, -, -⟩ := ne_of_not_scratch hj
    rw [State.set_reg, if_neg hpc]
    exact ht.keeps file j hj

/-- **A load of one register.** -/
lemma loading_ldo (h : Fields w 0x43 (n + 1) 8 c d) (himm : c * 2 ^ 6 + d = n * 8) (hn : n < 2) :
    Triple (Loading buf s n i) [w] (Loading buf s (n + 1) i) := by
  have hw : Plain w := h.plain (by simp [PlainOpcode])
  have hdisas (pc : BitVec 64) : disasDadao pc w = some (some (transLDOrb w)) := by
    rw [disasDadao, h.opcode]
    rfl
  have hslot : slot n = (.rb, n + 1) := if_pos hn
  refine triple_of_acts (acts_ld _ .rb moTeuq h hw Global.elem_rb hdisas (by omega)) fun t ht => ?_
  refine ⟨by simp, fun pc => ⟨⟨?_, ?_⟩, ht.mem, fun k hk => ?_, fun file j hj hslots => ?_⟩⟩
  · rw [State.set_reg, if_neg (by simp), State.set_reg, if_neg (by omega)]
    exact ht.base
  · simpa using ht.index
  · obtain ⟨hpc, -, -⟩ := ne_of_not_scratch (not_scratch_slot (show k < slots by unfold slots; omega))
    rw [State.set_reg, if_neg hpc, State.set_reg, slotAddr_zero_add ht.toAt himm hn, ht.mem]
    by_cases hkn : k = n
    · rw [hkn, hslot, if_pos ⟨rfl, rfl⟩]
      rfl
    · have hne : ¬ ((slot k).1 = .rb ∧ (slot k).2 = n + 1) := fun heq =>
        hkn (slot_injective ((Prod.ext heq.1 heq.2).trans hslot.symm))
      rw [if_neg hne, ht.loaded k (by omega)]
  · obtain ⟨hpc, -, -⟩ := ne_of_not_scratch hj
    have hne : ¬ (file = .rb ∧ j = n + 1) := by
      rintro ⟨rfl, rfl⟩
      exact hslots n (by unfold slots; omega) hslot
    rw [State.set_reg, if_neg hpc, State.set_reg, if_neg hne, ht.keeps file j hj hslots]

/-- **A load of several registers.** -/
lemma loading_ldmo (h : Fields w op a 8 16 k) (hmulti : multiOf w = some (.ldm file moTeuq)) (hpos : k ≠ 0)
    (ha : a ≠ 0) (hle : a + k ≤ 64) (hslot : ∀ j < k, slot (n + j) = (file, a + j)) (hn : n + k ≤ slots) :
    Triple (Loading buf s n n) [w] (Loading buf s (n + k) n) := by
  have hro (j : ℕ) : ¬ ReadOnly file (a + j) := fun h => ha (by have := h.1; omega)
  have hinside {file' : RegFile} {j : ℕ} (hin : file' = file ∧ a ≤ j ∧ j < a + k) :
      slot (n + (j - a)) = (file', j) := by
    rw [hslot _ (by omega), hin.1, Nat.add_sub_cancel' hin.2.1]
  have hout {t : State} {vals : ℕ → BitVec 64} {file' : RegFile} {j : ℕ}
      (hne : ∀ j' < k, slot (n + j') ≠ (file', j)) : (t.fill file a k vals).reg file' j = t.reg file' j := by
    rw [State.fill_reg, if_neg fun hin => hne (j - a) (by omega) (hinside ⟨hin.1, hin.2.1, hin.2.2.1⟩)]
  have hscratch {file' : RegFile} {j : ℕ} (hj : Scratch file' j) : ∀ j' < k, slot (n + j') ≠ (file', j) := by
    intro j' hj' heq
    have hnot := not_scratch_slot (show n + j' < slots by omega)
    rw [heq] at hnot
    exact hnot hj
  refine triple_of_acts (acts_ldm hmulti (by rw [h.hd]; exact hpos) (by rw [h.ha, h.hd]; exact hle)) fun t ht => ?_
  rw [h.ha, h.hd]
  refine ⟨hout (hscratch (.inl ⟨rfl, .inl rfl⟩)), fun pc => ⟨⟨?_, ?_⟩, ht.mem, fun k' hk' => ?_,
    fun file' j hj hslots => ?_⟩⟩
  · rw [State.set_reg, if_neg (by simp), hout (hscratch (.inl ⟨rfl, .inr rfl⟩)), ht.base]
  · rw [State.set_reg, if_neg (by simp), hout (hscratch (.inr ⟨rfl, rfl⟩)), ht.index]
  · obtain ⟨hpc, -, -⟩ := ne_of_not_scratch (not_scratch_slot (show k' < slots by omega))
    rw [State.set_reg, if_neg hpc]
    by_cases hold : k' < n
    · have hne : ∀ j' < k, slot (n + j') ≠ ((slot k').1, (slot k').2) :=
        fun j' _ heq => absurd (slot_injective heq) (by omega)
      rw [hout hne, ht.loaded k' hold]
    · obtain ⟨j', rfl⟩ := Nat.exists_eq_add_of_le (Nat.not_lt.mp hold)
      rw [hslot j' (by omega), State.fill_reg, if_pos ⟨rfl, by omega, by omega, hro j'⟩,
        Nat.add_sub_cancel_left, fixed_of_ne (by omega), ht.startOf h, ht.mem]
      rfl
  · obtain ⟨hpc, -, -⟩ := ne_of_not_scratch hj
    rw [State.set_reg, if_neg hpc, hout fun j' hj' => hslots (n + j') (by omega), ht.keeps file' j hj hslots]

end Steps

/-! ## The functions up to their returns -/

/-- Fields of a word that is built from them. -/
lemma fields_of_lt {op a b c d : ℕ} (h : op < 2 ^ 8 ∧ a < 2 ^ 6 ∧ b < 2 ^ 6 ∧ c < 2 ^ 6 ∧ d < 2 ^ 6) :
    Fields (quad op a b c d) op a b c d := fields_quad op h.1 h.2.1 h.2.2.1 h.2.2.2.1 h.2.2.2.2

/-- The index of `setjmp` goes on. -/
lemma saving_addi {c d k : ℕ} (h : Fields (quad 0x19 16 16 c d) 0x19 16 16 c d) (himm : c * 2 ^ 6 + d = k * 8)
    (hk : k * 8 < 2 ^ 11) : Triple (Saving buf s n i) [quad 0x19 16 16 c d] (Saving buf s n (i + k)) :=
  triple_addi h himm hk (fun _ ht => ht.index) fun _ pc ht => ht.index_to (i + k) pc

/-- The index of `longjmp` goes on. -/
lemma loading_addi {c d k : ℕ} (h : Fields (quad 0x19 16 16 c d) 0x19 16 16 c d) (himm : c * 2 ^ 6 + d = k * 8)
    (hk : k * 8 < 2 ^ 11) (hn : n ≤ slots) :
    Triple (Loading buf s n i) [quad 0x19 16 16 c d] (Loading buf s n (i + k)) :=
  triple_addi h himm hk (fun _ ht => ht.index) fun _ pc ht => ht.index_to hn (i + k) pc

/-- **`setjmp` fills the buffer.** -/
lemma triple_setjmp : Triple (· = s) (setjmp.map Line.word) (Saving (s.reg .rd 16) s slots 162) := by
  have hrd : ∀ j < 32, slot (2 + j) = (.rd, 32 + j) := by decide
  have hrb : ∀ j < 32, slot (34 + j) = (.rb, 32 + j) := by decide
  have hrf : ∀ j < 32, slot (66 + j) = (.rf, 32 + j) := by decide
  have hra : ∀ j < 63, slot (98 + j) = (.ra, 1 + j) := by decide
  rw [words_setjmp]
  refine Triple.append triple_begin ?_
  refine (saving_sto (fields_of_lt (by omega)) (by omega) (by omega)).cons ?_
  refine (saving_sto (fields_of_lt (by omega)) (by omega) (by omega)).cons ?_
  refine (saving_addi (k := 2) (fields_of_lt (by omega)) (by omega) (by omega)).cons ?_
  refine (saving_stmo (fields_of_lt (by omega)) rfl (by omega) (by omega) hrd (by decide)).cons ?_
  refine (saving_addi (k := 32) (fields_of_lt (by omega)) (by omega) (by omega)).cons ?_
  refine (saving_stmo (fields_of_lt (by omega)) rfl (by omega) (by omega) hrb (by decide)).cons ?_
  refine (saving_addi (k := 32) (fields_of_lt (by omega)) (by omega) (by omega)).cons ?_
  refine (saving_stmo (fields_of_lt (by omega)) rfl (by omega) (by omega) hrf (by decide)).cons ?_
  refine (saving_addi (k := 32) (fields_of_lt (by omega)) (by omega) (by omega)).cons ?_
  refine (saving_stmo (fields_of_lt (by omega)) rfl (by omega) (by omega) hra (by decide)).cons ?_
  exact saving_addi (k := 64) (fields_of_lt (by omega)) (by omega) (by omega)

/-- The state of `longjmp` in front of its return. -/
structure Restored (buf : BitVec 64) (s t : State) : Prop where
  mem : t.mem = s.mem
  loaded : ∀ k < slots, t.reg (slot k).1 (slot k).2 = s.mem.load (slotAddr buf k) 8
  result : t.reg .rd 31 = if s.reg .rd 17 = 0 then 1 else s.reg .rd 17

/-- The first half of `rd` is not in the buffer. -/
lemma slot_ne_rd {j : ℕ} (hj : j < 32) : ∀ k < slots, slot k ≠ (.rd, j) := by
  intro k _
  unfold slot
  split_ifs <;> simp <;> omega

/-- **The result of `longjmp`**, one in the place of zero. -/
lemma triple_result (hs : s.reg .rd 0 = 0) :
    Triple (Loading buf s slots i) [quad 0x16 31 0 0 1, quad 0x27 17 0 31 17] (Restored buf s) := by
  have hset : Fields (quad 0x16 31 0 0 1) 0x16 31 0 0 1 := fields_of_lt (by omega)
  have hcsne : Fields (quad 0x27 17 0 31 17) 0x27 17 0 31 17 := fields_of_lt (by omega)
  have hone : wydeArg (quad 0x16 31 0 0 1) = 1 := by decide
  have hdisas (pc : BitVec 64) : disasDadao pc (quad 0x16 31 0 0 1) =
      some (some (transSETZWrd (quad 0x16 31 0 0 1))) := by
    rw [disasDadao, hset.opcode]
    rfl
  have hdisas' (pc : BitVec 64) : disasDadao pc (quad 0x27 17 0 31 17) =
      some (some (transCSNE (quad 0x27 17 0 31 17))) := by
    rw [disasDadao, hcsne.opcode]
    rfl
  have hkept (k : ℕ) (hk : k < slots) : ¬ ((slot k).1 = .rb ∧ (slot k).2 = 0) ∧
      ¬ ((slot k).1 = .rd ∧ (slot k).2 = 31) :=
    ⟨(ne_of_not_scratch (not_scratch_slot hk)).1, fun h => slot_ne_rd (by omega) k hk (Prod.ext h.1 h.2)⟩
  -- `rd31` is one, and the octas are in their registers
  have hfirst : Triple (Loading buf s slots i) [quad 0x16 31 0 0 1] fun t => t.mem = s.mem ∧
      (∀ k < slots, t.reg (slot k).1 (slot k).2 = s.mem.load (slotAddr buf k) 8) ∧ t.reg .rd 31 = 1 ∧
      t.reg .rd 17 = s.reg .rd 17 ∧ t.reg .rd 0 = 0 := by
    refine triple_of_acts (acts_insnSetzwRwii (hset.plain (by simp [PlainOpcode])) .rd Global.elem_rd hdisas)
      fun t ht => ?_
    rw [wyde, after_single, hset.ha, hone]
    have h17 : t.reg .rd 17 = s.reg .rd 17 := ht.keeps .rd 17 (by simp [Scratch]) (slot_ne_rd (by omega))
    have h0 : t.reg .rd 0 = 0 := (ht.keeps .rd 0 (by simp [Scratch]) (slot_ne_rd (by omega))).trans hs
    refine ⟨by simp [State.put], fun pc => ⟨ht.mem, fun k hk => ?_, ?_, ?_, ?_⟩⟩
    · rw [State.set_reg, if_neg (hkept k hk).1, State.put, if_neg (by omega), State.set_reg,
        if_neg (hkept k hk).2, ht.loaded k hk]
    · simp [State.put]
    · simpa [State.put] using h17
    · simpa [State.put] using h0
  refine hfirst.cons (triple_of_acts (acts_insnCset2Rrrr (hcsne.plain (by simp [PlainOpcode])) hdisas')
    fun t ht => ?_)
  obtain ⟨hmem, hloaded, h31, h17, h0⟩ := ht
  rw [after_single, hcsne.hc]
  refine ⟨by simp [State.put], fun pc => ⟨hmem, fun k hk => ?_, ?_⟩⟩
  · rw [State.set_reg, if_neg (hkept k hk).1, State.put, if_neg (by omega), State.set_reg,
      if_neg (hkept k hk).2, hloaded k hk]
  · rw [State.set_reg, if_neg (by simp), State.put, if_neg (by omega), State.set_reg, if_pos ⟨rfl, rfl⟩, rdv, rdv,
      rdv, rdv, hcsne.ha, hcsne.hb, hcsne.hc, hcsne.hd, h31, h17, h0, Cond.holds]
    by_cases hzero : s.reg .rd 17 = 0 <;> simp [hzero]

/-- **`longjmp` empties the buffer.** -/
lemma triple_longjmp (hs : s.reg .rd 0 = 0) :
    Triple (· = s) (longjmp.map Line.word) (Restored (s.reg .rd 16) s) := by
  have hrd : ∀ j < 32, slot (2 + j) = (.rd, 32 + j) := by decide
  have hrb : ∀ j < 32, slot (34 + j) = (.rb, 32 + j) := by decide
  have hrf : ∀ j < 32, slot (66 + j) = (.rf, 32 + j) := by decide
  have hra : ∀ j < 63, slot (98 + j) = (.ra, 1 + j) := by decide
  have hbegin : Triple (· = s) [quad 0x10 0x29 8 16 1, quad 0x16 16 0 0 0] (Loading (s.reg .rd 16) s 0 0) := by
    intro m hm
    obtain ⟨m', hrun, h⟩ := triple_begin m hm
    exact ⟨m', hrun, h.toAt, h.mem, by simp, fun file j hj _ => h.keeps file j hj⟩
  rw [words_longjmp]
  refine Triple.append hbegin ?_
  refine (loading_ldo (fields_of_lt (by omega)) (by omega) (by omega)).cons ?_
  refine (loading_ldo (fields_of_lt (by omega)) (by omega) (by omega)).cons ?_
  refine (loading_addi (k := 2) (fields_of_lt (by omega)) (by omega) (by omega) (by decide)).cons ?_
  refine (loading_ldmo (fields_of_lt (by omega)) rfl (by omega) (by omega) (by omega) hrd (by decide)).cons ?_
  refine (loading_addi (k := 32) (fields_of_lt (by omega)) (by omega) (by omega) (by decide)).cons ?_
  refine (loading_ldmo (fields_of_lt (by omega)) rfl (by omega) (by omega) (by omega) hrb (by decide)).cons ?_
  refine (loading_addi (k := 32) (fields_of_lt (by omega)) (by omega) (by omega) (by decide)).cons ?_
  refine (loading_ldmo (fields_of_lt (by omega)) rfl (by omega) (by omega) (by omega) hrf (by decide)).cons ?_
  refine (loading_addi (k := 32) (fields_of_lt (by omega)) (by omega) (by omega) (by decide)).cons ?_
  refine (loading_ldmo (fields_of_lt (by omega)) rfl (by omega) (by omega) (by omega) hra (by decide)).cons ?_
  refine (loading_addi (k := 64) (fields_of_lt (by omega)) (by omega) (by omega) (by decide)).cons ?_
  exact triple_result hs

end Dadao.Newlib
