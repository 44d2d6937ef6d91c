import Dadao.Bfd.SetSymbol
import Dadao.Gcc.IntInsns

set_option relaxedAutoImplicit false
set_option autoImplicit false

/-!
# The integer patterns compute their RTL

For each pattern the operands for which the printed statements are accepted and leave the value of the RTL
expression in the destination. What goes wrong for the others: an input is read after the destination has been
written; `%` stands on a subtraction; a negated constant has no place in the instruction.

## Main results

* `Dadao.Gcc.DefineInsn.correct_iff_set` — patterns with one result, by what their statements do.
* `Dadao.Gcc.correct_addConst_iff`, `Dadao.Gcc.correct_rdMem_iff`, `Dadao.Gcc.correct_rb2rd_reg_iff` — families
  of patterns.
* `Dadao.Gcc.intInsns_correct_iff` — all patterns.
-/

namespace Dadao.Gcc

open Qemu Tcg

/-! ## Operands of a legal insn -/

lemma isRd_iff {n : ℕ} : isRd n = true ↔ n < 64 ∧ n ≠ 0 ∧ n ≠ 7 := by
  simp [isRd, and_assoc]

lemma isRb_iff {n : ℕ} : isRb n = true ↔ n < 64 ∧ n ≠ 0 := by
  simp [isRb]

lemma isRdClass_iff {o : Operand} :
    isRdClass o = true ↔ ∃ a, o = .reg .rd a ∧ a < 64 ∧ a ≠ 0 ∧ a ≠ 7 := by
  cases o with
  | reg file a => cases file <;> simp [isRdClass, isRd_iff]
  | _ => simp [isRdClass]

lemma isRbClass_iff {o : Operand} : isRbClass o = true ↔ ∃ a, o = .reg .rb a ∧ a < 64 ∧ a ≠ 0 := by
  cases o with
  | reg file a => cases file <;> simp [isRbClass, isRb_iff]
  | _ => simp [isRbClass]

lemma isConst_iff {p : ℤ → Bool} {o : Operand} :
    isConst p o = true ↔ ∃ v, o = .constInt v ∧ isHostWideInt v = true ∧ p v = true := by
  cases o <;> simp [isConst]

lemma isMem_iff {p : Address → Bool} {o : Operand} :
    isMem p o = true ↔ ∃ a, o = .mem a ∧ a.legitimate = true ∧ p a = true := by
  cases o <;> simp [isMem]

/-- A state is as good for the statements as any that meets the precondition. -/
lemma Does.weaken {pre pre' : State → Prop} {stmts : List Stmt} {f : State → State} (h : Does pre stmts f)
    (hpre : ∀ s, pre' s → pre s) : Does pre' stmts f := by
  intro g
  obtain ⟨ws, hws, hy⟩ := h g
  exact ⟨ws, hws, fun m hm => hy m (hpre _ hm)⟩

/-- All registers are zero but one, and so is the memory. -/
def only (file : RegFile) (n : ℕ) (v : BitVec 64) : State where
  reg f i := if f = file ∧ i = n then v else if f = .rf ∧ i = 0 then fcsrDefault else 0
  mem := fun _ => 0

lemma isView_only {file : RegFile} {n : ℕ} (hn : n ≠ 0) (v : BitVec 64) : (only file n v).IsView where
  rd := by simp [only, hn.symm]
  rb := by simp [only, hn.symm]
  rf := by
    simp only [only, hn.symm, and_false, if_false, and_self, if_true]
    decide

@[simp] lemma only_reg_self (file : RegFile) (n : ℕ) (v : BitVec 64) : (only file n v).reg file n = v := by
  simp [only]

lemma only_reg_of_ne {file f : RegFile} {n i : ℕ} {v : BitVec 64} (h : ¬ (f = file ∧ i = n)) (hf : f ≠ .rf) :
    (only file n v).reg f i = 0 := by
  simp [only, h, hf]

@[simp] lemma only_load (file : RegFile) (n : ℕ) (v a : BitVec 64) (k : ℕ) :
    (only file n v).mem.load a k = 0 := by
  induction k generalizing a with
  | zero => rfl
  | succ k ih => simp [Memory.load, ih]; rfl

/-! ## Patterns with one result -/

/-- What statements make of the states that meet the precondition. -/
lemma Does.congr {pre : State → Prop} {stmts : List Stmt} {f f' : State → State} (h : Does pre stmts f)
    (hf : ∀ s, pre s → f s = f' s) : Does pre stmts f' := by
  intro g
  obtain ⟨ws, hws, hy⟩ := h g
  refine ⟨ws, hws, fun m hm => ?_⟩
  obtain ⟨m', hrun, hview⟩ := hy m hm
  exact ⟨m', hrun, hview.trans (hf _ hm)⟩

/-- Nothing changes but a register and `rd7`. -/
def OnlyChanges (file : RegFile) (a : ℕ) (s s' : State) : Prop :=
  s'.mem = s.mem ∧
    ∀ f n, ¬ (f = file ∧ n = a) → ¬ (f = .rd ∧ n = 7) → s'.reg f n = s.reg f n

section OnlyChanges

variable {file : RegFile} {a : ℕ} {s s' : State}

lemma onlyChanges_refl (s : State) : OnlyChanges file a s s := ⟨rfl, fun _ _ _ _ => rfl⟩

lemma onlyChanges_set (s : State) (v : BitVec 64) : OnlyChanges file a s (s.set file a v) :=
  ⟨rfl, fun _ _ h _ => if_neg h⟩

lemma onlyChanges_scratch (s : State) (v : BitVec 64) : OnlyChanges file a s (s.set .rd 7 v) :=
  ⟨rfl, fun _ _ _ h => if_neg h⟩

lemma OnlyChanges.trans {s'' : State} (h : OnlyChanges file a s s') (h' : OnlyChanges file a s' s'') :
    OnlyChanges file a s s'' :=
  ⟨h'.1.trans h.1, fun f n hne hscratch => (h'.2 f n hne hscratch).trans (h.2 f n hne hscratch)⟩

end OnlyChanges

namespace DefineInsn

section Correct

variable {p : DefineInsn} {ops : ℕ → Operand} {swapped : Bool}

/-- The alternative of a legal insn. -/
lemma Legal.alternative (h : p.Legal ops swapped) :
    (p.fits ops 0 = true ∧ p.whichAlternative ops = some 0) ∨
      (p.fits ops 0 = false ∧ p.fits ops 1 = true ∧ p.whichAlternative ops = some 1) := by
  have hfits := h.fits
  cases h0 : p.fits ops 0 <;> cases h1 : p.fits ops 1 <;>
    simp_all [whichAlternative, List.find?]

/-- What is printed for an alternative. -/
lemma print_of_alternative {alt : ℕ} (h : p.whichAlternative ops = some alt) :
    p.print ops = (p.output alt ops).mapM (printLine ops) := by
  simp [print, h]

/-- What is printed if the alternatives are printed in the same way. -/
lemma Legal.print_eq (h : p.Legal ops swapped) (hout : p.output 1 ops = p.output 0 ops) :
    p.print ops = (p.output 0 ops).mapM (printLine ops) := by
  rcases h.alternative with ⟨-, h⟩ | ⟨-, -, h⟩
  · exact print_of_alternative h
  · rw [print_of_alternative h, hout]

/-- A pattern with known statements. -/
lemma correct_iff {stmts : List Stmt} {pre : State → Prop} {f : State → State}
    (hprint : p.print ops = some stmts) (hdoes : Does pre stmts f)
    (hpre : ∀ s, p.Defined ops swapped s → pre s) :
    p.Correct ops swapped ↔ ∀ s, s.IsView → p.Defined ops swapped s → p.Post ops swapped s (f s) := by
  rw [← (hdoes.weaken hpre).achieves_iff, Correct, hprint]
  simp

/-- A pattern that prints a rejected statement. -/
lemma not_correct_of_mem {stmts : List Stmt} {st : Stmt} (hprint : p.print ops = some stmts)
    (hmem : st ∈ stmts) (hst : st.assemble (fun _ => .const 0) = none) : ¬ p.Correct ops swapped := by
  rintro ⟨stmts', hprint', hach⟩
  obtain rfl : stmts = stmts' := Option.some.inj (hprint.symm.trans hprint')
  exact not_achieves ⟨_, assemble_eq_none_of_mem hmem hst⟩ hach

/-- A pattern that prints nothing. -/
lemma not_correct_of_print (hprint : p.print ops = none) : ¬ p.Correct ops swapped := by
  rintro ⟨stmts, hprint', -⟩
  simp [hprint] at hprint'

/-- **A pattern with one result in a register.** -/
lemma correct_iff_value {rtx : Rtx} {file : RegFile} {a : ℕ} {stmts : List Stmt} {pre : State → Prop}
    {f : State → State} (hsets : p.sets = [(0, rtx)]) (hscratch : p.scratch = [])
    (hdest : ops 0 = .reg file a) (hne : ¬ (file = .rd ∧ a = 7)) (hprint : p.print ops = some stmts)
    (hdoes : Does pre stmts f) (hpre : ∀ s, rtx.Defined (values ops swapped s) → pre s)
    (honly : ∀ s, OnlyChanges file a s (f s)) :
    p.Correct ops swapped ↔ ∀ s : State, s.IsView → rtx.Defined (values ops swapped s) →
      (f s).reg file a = rtx.value (values ops swapped s) := by
  have hdefined (s : State) : p.Defined ops swapped s ↔ rtx.Defined (values ops swapped s) := by
    simp [Defined, hsets]
  have hpost (s : State) : p.Post ops swapped s (f s) ↔
      (f s).reg file a = rtx.value (values ops swapped s) := by
    have heffect : p.effect ops swapped s = s.set file a (rtx.value (values ops swapped s)) := by
      simp [effect, hsets, hdest, Operand.assign]
    obtain ⟨hmem, hreg⟩ := honly s
    simp only [DefineInsn.Post, Scratch, hscratch, heffect, State.set_mem, State.set_reg, hmem, true_and]
    constructor
    · intro h
      simpa using h file a (by simpa using hne)
    · intro h f' n hnot
      have hnot' : ¬ (f' = .rd ∧ n = 7) := fun h7 => hnot (.inl h7)
      by_cases hsame : f' = file ∧ n = a
      · rw [if_pos hsame, hsame.1, hsame.2, h]
      · rw [if_neg hsame, hreg f' n hsame hnot']
  rw [correct_iff hprint hdoes fun s h => hpre s ((hdefined s).mp h)]
  simp only [hdefined, hpost]

/-- A pattern whose last statement assigns the result. -/
lemma correct_iff_set {rtx : Rtx} {file : RegFile} {a : ℕ} {stmts : List Stmt} {pre : State → Prop}
    {g : State → State} {v : State → BitVec 64} (hsets : p.sets = [(0, rtx)]) (hscratch : p.scratch = [])
    (hdest : ops 0 = .reg file a) (hne : ¬ (file = .rd ∧ a = 7)) (hprint : p.print ops = some stmts)
    (hdoes : Does pre stmts fun s => (g s).set file a (v s))
    (hpre : ∀ s, rtx.Defined (values ops swapped s) → pre s) (hg : ∀ s, OnlyChanges file a s (g s)) :
    p.Correct ops swapped ↔ ∀ s : State, s.IsView → rtx.Defined (values ops swapped s) →
      v s = rtx.value (values ops swapped s) := by
  rw [correct_iff_value hsets hscratch hdest hne hprint hdoes hpre fun s => (hg s).trans (onlyChanges_set _ _)]
  simp

/-! ## Operands of a legal insn -/

/-- What the predicate of an operand accepts. -/
lemma Legal.accepts' (h : p.Legal ops swapped) {k : ℕ} {m : MatchOperand} (hm : p.operands[k]? = some m) :
    m.predicate.accepts (ops k) = true :=
  h.accepts (m, k) (List.mem_zipIdx_iff_getElem?.mpr hm)

/-- An `rd` register. -/
lemma Legal.rd (h : p.Legal ops swapped) (k : ℕ) {n : ℕ} (hm : p.operands[k]? = some (rdOperand n)) :
    ∃ a, ops k = .reg .rd a ∧ a < 64 ∧ a ≠ 0 ∧ a ≠ 7 := isRdClass_iff.mp (h.accepts' hm)

/-- An `rb` register. -/
lemma Legal.rb (h : p.Legal ops swapped) (k : ℕ) {n : ℕ} (hm : p.operands[k]? = some (rbOperand n)) :
    ∃ a, ops k = .reg .rb a ∧ a < 64 ∧ a ≠ 0 := isRbClass_iff.mp (h.accepts' hm)

/-- Without the modifier `%` the inputs are not exchanged. -/
lemma Legal.not_swapped (h : p.Legal ops swapped) (hcomm : p.commutative = false) : swapped = false := by
  cases hs : swapped with
  | false => rfl
  | true => simpa [hcomm] using h.swap hs

/-- A constant is not exchanged with another input. -/
lemma Legal.not_swapped_of_const (h : p.Legal ops swapped) {v : ℤ} (hv : ops 2 = .constInt v) :
    swapped = false := by
  cases hs : swapped with
  | false => rfl
  | true => exact absurd ⟨v, hv⟩ (h.swap hs).2

end Correct

end DefineInsn

open DefineInsn

section Patterns

variable {p : DefineInsn} {ops : ℕ → Operand} {swapped : Bool}

/-! ## Moves and constants -/

/-- The moves of one register. -/
lemma correct_move {dest src : MatchOperand} {mnemonic : String} {f₀ f₁ : RegFile} {a b : ℕ}
    (h : (move dest src mnemonic).Legal ops swapped) (h0 : ops 0 = .reg f₀ a) (h1 : ops 1 = .reg f₁ b)
    (hne : ¬ (f₀ = .rd ∧ a = 7)) (hdoes : Does always [⟨mnemonic, [.reg f₀ a, .reg f₁ b, .num 1]⟩]
      fun s => s.set f₀ a (s.reg f₁ b)) : (move dest src mnemonic).Correct ops swapped := by
  have hprint : (move dest src mnemonic).print ops =
      some [⟨mnemonic, [.reg f₀ a, .reg f₁ b, .num 1]⟩] := by
    rw [h.print_eq rfl]
    simp [move, printLine, printPiece, h0, h1, Operand.print]
  obtain rfl := h.not_swapped rfl
  rw [correct_iff_set rfl rfl h0 hne hprint hdoes (fun _ _ => trivial) onlyChanges_refl]
  intro s _ _
  simp [Rtx.value, values, rtlOperand, h1, Operand.value]

/-- `rd2rd_di`. -/
lemma correct_rd2rd (h : IntInsn.rd2rd.define.Legal ops swapped) :
    IntInsn.rd2rd.define.Correct ops swapped := by
  obtain ⟨a, h0, ha, ha0, ha7⟩ := h.rd 0 rfl
  obtain ⟨b, h1, hb, -⟩ := h.rd 1 rfl
  exact correct_move h h0 h1 (by simp [ha7]) (does_rd2rd ha0 ha hb)

/-- `mov_rb2rb`. -/
lemma correct_movRb2rb (h : IntInsn.movRb2rb.define.Legal ops swapped) :
    IntInsn.movRb2rb.define.Correct ops swapped := by
  obtain ⟨a, h0, ha, ha0⟩ := h.rb 0 rfl
  obtain ⟨b, h1, hb, hb0⟩ := h.rb 1 rfl
  exact correct_move h h0 h1 (by simp) (does_rb2rb ha0 ha hb0 hb)

/-- `mov_rd2rb`. -/
lemma correct_movRd2rb (h : IntInsn.movRd2rb.define.Legal ops swapped) :
    IntInsn.movRd2rb.define.Correct ops swapped := by
  obtain ⟨a, h0, ha, ha0⟩ := h.rb 0 rfl
  obtain ⟨b, h1, hb, -⟩ := h.rd 1 rfl
  exact correct_move h h0 h1 (by simp) (does_rd2rb ha0 ha hb)

/-- `mov_rb2rd`. -/
lemma correct_movRb2rd (h : IntInsn.movRb2rd.define.Legal ops swapped) :
    IntInsn.movRb2rd.define.Correct ops swapped := by
  obtain ⟨a, h0, ha, ha0, ha7⟩ := h.rd 0 rfl
  obtain ⟨b, h1, hb, hb0⟩ := h.rb 1 rfl
  exact correct_move h h0 h1 (by simp [ha7]) (does_rb2rd ha0 ha hb0 hb)

/-- A constant is loaded. -/
lemma correct_load {dest src : MatchOperand} {mnemonic : String} {file : RegFile} {a : ℕ} {v : ℤ}
    (h : (binary (.operand 1) [dest, src] false (mnemonic, [.operand 0, .operand 1])).Legal ops swapped)
    (h0 : ops 0 = .reg file a) (h1 : ops 1 = .constInt v) (hne : ¬ (file = .rd ∧ a = 7))
    (hdoes : Does always [⟨mnemonic, [.reg file a, .num v]⟩] fun s => s.set file a (BitVec.ofInt 64 v)) :
    (binary (.operand 1) [dest, src] false (mnemonic, [.operand 0, .operand 1])).Correct ops swapped := by
  have hprint : (binary (.operand 1) [dest, src] false (mnemonic, [.operand 0, .operand 1])).print ops =
      some [⟨mnemonic, [.reg file a, .num v]⟩] := by
    rw [h.print_eq rfl]
    simp [binary, printLine, printPiece, h0, h1, Operand.print]
  obtain rfl := h.not_swapped rfl
  rw [correct_iff_set rfl rfl h0 hne hprint hdoes (fun _ _ => trivial) onlyChanges_refl]
  intro s _ _
  simp [Rtx.value, values, rtlOperand, h1, Operand.value]

/-- `dd_ldimm_constdi`. -/
lemma correct_ddLdimmConst (h : IntInsn.ddLdimmConst.define.Legal ops swapped) :
    IntInsn.ddLdimmConst.define.Correct ops swapped := by
  obtain ⟨a, h0, ha, ha0, ha7⟩ := h.rd 0 rfl
  obtain ⟨v, h1, -⟩ := isConst_iff.mp (h.accepts' (k := 1) rfl)
  exact correct_load h h0 h1 (by simp [ha7]) (does_setrd ha0 ha v)

/-- `dd_ldrbimm`. -/
lemma correct_ddLdrbimm (h : IntInsn.ddLdrbimm.define.Legal ops swapped) :
    IntInsn.ddLdrbimm.define.Correct ops swapped := by
  obtain ⟨a, h0, ha, ha0⟩ := h.rb 0 rfl
  obtain ⟨v, h1, -⟩ := isConst_iff.mp (h.accepts' (k := 1) rfl)
  exact correct_load h h0 h1 (by simp) (does_setrb ha0 ha v)

/-! ## Registers only -/

/-- The instruction of `RD_ARITH`. -/
lemma does_arith (code : RdArith) {a b c : ℕ} (ha : a ≠ 0) (ha' : a < 64) (hb : b < 64) (hc : c < 64) :
    Does always [⟨code.insn, [rd a, rd b, rd c]⟩] fun s => s.set .rd a
      ((code.rtx (.operand 1) (.operand 2)).value fun k => s.reg .rd (if k = 1 then b else c)) := by
  cases code with
  | and =>
    exact does_logic (k := .and) (r := ⟨"and", 3, 16, 8, .op, .rd, .rd, .rd, .normal⟩) (by simp [gccRows])
      (by decide) (by decide) (by decide) (by decide) (fun pc w h => by rw [disasMinor10, h]; rfl) ha ha' hb hc
  | ior =>
    exact does_logic (k := .or) (r := ⟨"orr", 3, 16, 9, .op, .rd, .rd, .rd, .normal⟩) (by simp [gccRows])
      (by decide) (by decide) (by decide) (by decide) (fun pc w h => by rw [disasMinor10, h]; rfl) ha ha' hb hc
  | xor =>
    exact does_logic (k := .xor) (r := ⟨"xor", 3, 16, 10, .op, .rd, .rd, .rd, .normal⟩) (by simp [gccRows])
      (by decide) (by decide) (by decide) (by decide) (fun pc w h => by rw [disasMinor10, h]; rfl) ha ha' hb hc

/-- `<code>di3`. -/
lemma correct_arith (code : RdArith) (h : (IntInsn.arith code).define.Legal ops swapped) :
    (IntInsn.arith code).define.Correct ops swapped := by
  obtain ⟨a, h0, ha, ha0, ha7⟩ := h.rd 0 rfl
  obtain ⟨b, h1, hb, -⟩ := h.rd 1 rfl
  obtain ⟨c, h2, hc, -⟩ := h.rd 2 rfl
  have hprint : (IntInsn.arith code).define.print ops = some [⟨code.insn, [rd a, rd b, rd c]⟩] := by
    rw [h.print_eq rfl]
    simp [IntInsn.define, binary, printLine, printPiece, h0, h1, h2, Operand.print]
  rw [correct_iff_set rfl rfl h0 (by simp [ha7]) hprint (does_arith code ha0 ha hb hc) (fun _ _ => trivial)
    onlyChanges_refl]
  intro s _ _
  cases code <;> cases swapped <;>
    simp [RdArith.rtx, Rtx.value, values, rtlOperand, h1, h2, Operand.value, BitVec.and_comm,
      BitVec.or_comm, BitVec.xor_comm]

/-- `dd_addrd`. -/
lemma correct_ddAddrd (h : IntInsn.ddAddrd.define.Legal ops swapped) :
    IntInsn.ddAddrd.define.Correct ops swapped := by
  obtain ⟨a, h0, ha, ha0, ha7⟩ := h.rd 0 rfl
  obtain ⟨b, h1, hb, -⟩ := h.rd 1 rfl
  obtain ⟨c, h2, hc, -⟩ := h.rd 2 rfl
  have hprint : IntInsn.ddAddrd.define.print ops = some [⟨"add", [rd 0, rd a, rd b, rd c]⟩] := by
    rw [h.print_eq rfl]
    simp [IntInsn.define, binary, printLine, printPiece, h0, h1, h2, Operand.print]
  rw [correct_iff_set rfl rfl h0 (by simp [ha7]) hprint (does_add ha0 ha hb hc) (fun _ _ => trivial)
    onlyChanges_refl]
  intro s _ _
  cases swapped <;> simp [Rtx.value, values, rtlOperand, h1, h2, Operand.value, BitVec.add_comm]

/-- `negdi2`. -/
lemma correct_negdi2 (h : IntInsn.negdi2.define.Legal ops swapped) :
    IntInsn.negdi2.define.Correct ops swapped := by
  obtain ⟨a, h0, ha, ha0, ha7⟩ := h.rd 0 rfl
  obtain ⟨b, h1, hb, -⟩ := h.rd 1 rfl
  have hprint : IntInsn.negdi2.define.print ops = some [⟨"sub", [rd 0, rd a, rd 0, rd b]⟩] := by
    rw [h.print_eq rfl]
    simp [IntInsn.define, binary, printLine, printPiece, h0, h1, Operand.print]
  obtain rfl := h.not_swapped rfl
  rw [correct_iff_set rfl rfl h0 (by simp [ha7]) hprint (does_sub ha0 ha (by omega) hb) (fun _ _ => trivial)
    onlyChanges_refl]
  intro s hs _
  simp [Rtx.value, values, rtlOperand, h1, Operand.value, hs.rd]

/-- `one_cmpldi2`. -/
lemma correct_oneCmpldi2 (h : IntInsn.oneCmpldi2.define.Legal ops swapped) :
    IntInsn.oneCmpldi2.define.Correct ops swapped := by
  obtain ⟨a, h0, ha, ha0, ha7⟩ := h.rd 0 rfl
  obtain ⟨b, h1, hb, -⟩ := h.rd 1 rfl
  have hprint : IntInsn.oneCmpldi2.define.print ops = some [⟨"xnor", [rd a, rd b, rd 0]⟩] := by
    rw [h.print_eq rfl]
    simp [IntInsn.define, binary, printLine, printPiece, h0, h1, Operand.print]
  obtain rfl := h.not_swapped rfl
  rw [correct_iff_set rfl rfl h0 (by simp [ha7]) hprint (does_xnor ha0 ha hb (by omega)) (fun _ _ => trivial)
    onlyChanges_refl]
  intro s hs _
  simp [Rtx.value, values, rtlOperand, h1, Operand.value, hs.rd]

/-- `*nor`: the second instruction reads what the first one has written. -/
lemma correct_nor (h : IntInsn.nor.define.Legal ops swapped) : IntInsn.nor.define.Correct ops swapped := by
  obtain ⟨a, h0, ha, ha0, ha7⟩ := h.rd 0 rfl
  obtain ⟨b, h1, hb, -⟩ := h.rd 1 rfl
  obtain ⟨c, h2, hc, -⟩ := h.rd 2 rfl
  have hprint : IntInsn.nor.define.print ops =
      some [⟨"orr", [rd a, rd b, rd c]⟩, ⟨"xnor", [rd a, rd a, rd 0]⟩] := by
    rw [h.print_eq rfl]
    simp [IntInsn.define, nor, printLine, printPiece, h0, h1, h2, Operand.print]
  have hdoes := (does_arith .ior ha0 ha hb hc).cons (does_xnor (c := 0) ha0 ha ha (by omega)) fun _ _ => trivial
  rw [correct_iff_set rfl rfl h0 (by simp [ha7]) hprint hdoes (fun _ _ => trivial)
    fun s => onlyChanges_set s _]
  intro s hs _
  cases swapped <;>
    simp [RdArith.rtx, Rtx.value, values, rtlOperand, h1, h2, Operand.value, hs.rd, ha0.symm, BitVec.not_or,
      BitVec.and_comm]

/-- The operation of `RD_SHIFT`. -/
def RdShift.op : RdShift → BinOp
  | .ashift => .shl
  | .ashiftrt => .sar
  | .lshiftrt => .shr

lemma RdShift.eval_op (code : RdShift) {x y : BitVec 64} (hy : y.toNat < 64) :
    code.op.eval x y = (code.rtx (.operand 1) (.operand 2)).value fun k => if k = 1 then x else y := by
  cases code <;> simp [op, rtx, Rtx.value, BinOp.eval, Nat.mod_eq_of_lt hy]

/-- The instruction of `RD_SHIFT` on registers. -/
lemma does_shift (code : RdShift) {a b c : ℕ} (ha : a ≠ 0) (ha' : a < 64) (hb : b < 64) (hc : c < 64) :
    Does always [⟨code.insn, [rd a, rd b, rd c]⟩]
      fun s => s.set .rd a (code.op.eval (s.reg .rd b) (s.reg .rd c)) := by
  cases code with
  | ashift =>
    exact does_logic (r := ⟨"shlu", 3, 16, 17, .op, .rd, .rd, .rd, .normal⟩) (by simp [gccRows])
      (by decide) (by decide) (by decide) (by decide) (fun pc w h => by rw [disasMinor10, h]; rfl) ha ha' hb hc
  | ashiftrt =>
    exact does_logic (r := ⟨"shrs", 3, 16, 18, .op, .rd, .rd, .rd, .normal⟩) (by simp [gccRows])
      (by decide) (by decide) (by decide) (by decide) (fun pc w h => by rw [disasMinor10, h]; rfl) ha ha' hb hc
  | lshiftrt =>
    exact does_logic (r := ⟨"shru", 3, 16, 19, .op, .rd, .rd, .rd, .normal⟩) (by simp [gccRows])
      (by decide) (by decide) (by decide) (by decide) (fun pc w h => by rw [disasMinor10, h]; rfl) ha ha' hb hc

/-- The instruction of `RD_SHIFT` on a register and an amount. -/
lemma does_shift_const (code : RdShift) {a b c : ℕ} (ha : a ≠ 0) (ha' : a < 64) (hb : b < 64) (hc : c < 64) :
    Does always [⟨code.insn, [rd a, rd b, .num c]⟩]
      fun s => s.set .rd a (code.op.eval (s.reg .rd b) (BitVec.ofNat 64 c)) := by
  cases code with
  | ashift =>
    exact does_shift_num (r := ⟨"shlu", 3, 16, 25, .op, .rd, .rd, .immu6, .normal⟩) (by simp [gccRows])
      (by decide) (by decide) (by decide) (by decide) (fun pc w h => by rw [disasMinor10, h]; rfl) ha ha' hb hc
  | ashiftrt =>
    exact does_shift_num (r := ⟨"shrs", 3, 16, 26, .op, .rd, .rd, .immu6, .normal⟩) (by simp [gccRows])
      (by decide) (by decide) (by decide) (by decide) (fun pc w h => by rw [disasMinor10, h]; rfl) ha ha' hb hc
  | lshiftrt =>
    exact does_shift_num (r := ⟨"shru", 3, 16, 27, .op, .rd, .rd, .immu6, .normal⟩) (by simp [gccRows])
      (by decide) (by decide) (by decide) (by decide) (fun pc w h => by rw [disasMinor10, h]; rfl) ha ha' hb hc

/-- `<rd_shift_name>di3`. -/
lemma correct_shift (code : RdShift) (h : (IntInsn.shift code).define.Legal ops swapped) :
    (IntInsn.shift code).define.Correct ops swapped := by
  obtain ⟨a, h0, ha, ha0, ha7⟩ := h.rd 0 rfl
  obtain ⟨b, h1, hb, -⟩ := h.rd 1 rfl
  obtain rfl := h.not_swapped rfl
  have haccepts : (isRdClass (ops 2) || isConst satisfiesJs (ops 2)) = true := h.accepts' (k := 2) rfl
  have hdefined (s : State) (hs : (code.rtx (.operand 1) (.operand 2)).Defined (values ops false s)) :
      ((ops 2).value s).toNat < 64 := by
    cases code <;> exact hs.2.2
  have hvalue (s : State) (hs : (code.rtx (.operand 1) (.operand 2)).Defined (values ops false s)) :
      code.op.eval (s.reg .rd b) ((ops 2).value s) =
        (code.rtx (.operand 1) (.operand 2)).value (values ops false s) := by
    rw [code.eval_op (hdefined s hs)]
    cases code <;> simp [RdShift.rtx, Rtx.value, values, rtlOperand, h1, Operand.value]
  rcases Bool.or_eq_true_iff.mp haccepts with hrd | hconst
  · obtain ⟨c, h2, hc, -⟩ := isRdClass_iff.mp hrd
    have hprint : (IntInsn.shift code).define.print ops = some [⟨code.insn, [rd a, rd b, rd c]⟩] := by
      rw [h.print_eq rfl]
      simp [IntInsn.define, binary, printLine, printPiece, h0, h1, h2, Operand.print]
    rw [correct_iff_set rfl rfl h0 (by simp [ha7]) hprint (does_shift code ha0 ha hb hc)
      (fun _ _ => trivial) onlyChanges_refl]
    intro s _ hs
    simpa [h2, Operand.value] using hvalue s hs
  · obtain ⟨v, h2, -, hv⟩ := isConst_iff.mp hconst
    obtain ⟨hv0, hv1⟩ : 0 ≤ v ∧ v ≤ 0x1F := by simpa [satisfiesJs] using hv
    obtain ⟨c, rfl⟩ := Int.eq_ofNat_of_zero_le hv0
    have hprint : (IntInsn.shift code).define.print ops = some [⟨code.insn, [rd a, rd b, .num c]⟩] := by
      rw [h.print_eq rfl]
      simp [IntInsn.define, binary, printLine, printPiece, h0, h1, h2, Operand.print]
    rw [correct_iff_set rfl rfl h0 (by simp [ha7]) hprint (does_shift_const code ha0 ha hb (by omega))
      (fun _ _ => trivial) onlyChanges_refl]
    intro s _ hs
    simpa [h2, Operand.value] using hvalue s hs

/-- `addrb_ctry`. -/
lemma correct_addrbCtry (h : IntInsn.addrbCtry.define.Legal ops swapped) :
    IntInsn.addrbCtry.define.Correct ops swapped := by
  obtain ⟨a, h0, ha, ha0⟩ := h.rb 0 rfl
  obtain ⟨b, h1, hb, -⟩ := h.rd 1 rfl
  obtain ⟨c, h2, hc, hc0⟩ := h.rb 2 rfl
  have hprint : IntInsn.addrbCtry.define.print ops = some [⟨"add", [rb a, rb c, rd b]⟩] := by
    rw [h.print_eq rfl]
    simp [IntInsn.define, binary, printLine, printPiece, h0, h1, h2, Operand.print]
  rw [correct_iff_set rfl rfl h0 (by simp) hprint (does_add_rb ha0 ha hc0 hc hb) (fun _ _ => trivial)
    onlyChanges_refl]
  intro s _ _
  cases swapped <;> simp [Rtx.value, values, rtlOperand, h1, h2, Operand.value, BitVec.add_comm]

/-- `1` and `-1` are different. -/
lemma zero_sub_one_ne : (0 : BitVec 64) - 1 ≠ 1 - 0 := by decide

/-- `subrb_rd`. -/
lemma correct_subrbRd_iff (h : IntInsn.subrbRd.define.Legal ops swapped) :
    IntInsn.subrbRd.define.Correct ops swapped ↔ swapped = false := by
  obtain ⟨a, h0, ha, ha0⟩ := h.rb 0 rfl
  obtain ⟨b, h1, hb, hb0⟩ := h.rb 1 rfl
  obtain ⟨c, h2, hc, hc0, -⟩ := h.rd 2 rfl
  have hprint : IntInsn.subrbRd.define.print ops = some [⟨"sub", [rb a, rb b, rd c]⟩] := by
    rw [h.print_eq rfl]
    simp [IntInsn.define, binary, printLine, printPiece, h0, h1, h2, Operand.print]
  rw [correct_iff_set rfl rfl h0 (by simp) hprint (does_sub_rb ha0 ha hb0 hb hc) (fun _ _ => trivial)
    onlyChanges_refl]
  cases swapped with
  | false => simp [Rtx.value, values, rtlOperand, h1, h2, Operand.value]
  | true =>
    simp only [Bool.true_eq_false, iff_false]
    intro hall
    have hone := hall (only .rd c 1) (isView_only hc0 1) ⟨trivial, trivial⟩
    simp only [Rtx.value, values, rtlOperand, h1, h2, Operand.value, if_true, only_reg_self, OfNat.ofNat_ne_one,
      only_reg_of_ne (show ¬ (RegFile.rb = .rd ∧ b = c) by simp) (by simp), if_false] at hone
    exact zero_sub_one_ne hone

/-- `subrb_ctry`: the inputs are printed the other way. -/
lemma correct_subrbCtry_iff (h : IntInsn.subrbCtry.define.Legal ops swapped) :
    IntInsn.subrbCtry.define.Correct ops swapped ↔ swapped = true := by
  obtain ⟨a, h0, ha, ha0⟩ := h.rb 0 rfl
  obtain ⟨b, h1, hb, hb0, -⟩ := h.rd 1 rfl
  obtain ⟨c, h2, hc, hc0⟩ := h.rb 2 rfl
  have hprint : IntInsn.subrbCtry.define.print ops = some [⟨"sub", [rb a, rb c, rd b]⟩] := by
    rw [h.print_eq rfl]
    simp [IntInsn.define, binary, printLine, printPiece, h0, h1, h2, Operand.print]
  rw [correct_iff_set rfl rfl h0 (by simp) hprint (does_sub_rb ha0 ha hc0 hc hb) (fun _ _ => trivial)
    onlyChanges_refl]
  cases swapped with
  | true => simp [Rtx.value, values, rtlOperand, h1, h2, Operand.value]
  | false =>
    simp only [Bool.false_eq_true, iff_false]
    intro hall
    have hone := hall (only .rd b 1) (isView_only hb0 1) ⟨trivial, trivial⟩
    simp only [Rtx.value, values, rtlOperand, h1, h2, Operand.value, only_reg_self, if_false,
      only_reg_of_ne (show ¬ (RegFile.rb = .rd ∧ c = b) by simp) (by simp), Bool.false_eq_true] at hone
    exact zero_sub_one_ne hone

/-! ## Constants as inputs -/

/-- A long constant goes by way of `rd7`. -/
lemma does_long {file : RegFile} {a b : ℕ} {st : Stmt} (hb : ¬ (file = .rd ∧ b = 7)) (w : ℤ)
    (hst : Does always [st] fun s => s.set file a (s.reg file b + s.reg .rd 7)) :
    Does always [⟨"setrd", [rd 7, .num w]⟩, st]
      fun s => (s.set .rd 7 (BitVec.ofInt 64 w)).set file a (s.reg file b + BitVec.ofInt 64 w) := by
  refine ((does_setrd (by omega) (by omega) w).cons hst fun _ _ => trivial).congr fun s _ => ?_
  simp [hb]

/-- A test of the templates. -/
lemma isLong_iff {v : ℤ} : isLong (.constInt v) = true ↔ ¬ (-0x800 ≤ v ∧ v ≤ 0x7FF) := by
  simp only [isLong, Bool.or_eq_true, decide_eq_true_eq]
  omega

/-- `InRange` of twelve bits with a sign. -/
lemma inRange_imms12 {v : ℤ} : Gas.InRange .imms12 v ↔ -0x800 ≤ v ∧ v ≤ 0x7FF := by
  simp only [Gas.InRange, Gas.operandSigned, Gas.operandWidth, if_true]
  omega

/-- An addition or subtraction of a constant, printed as the addition of `w`. -/
lemma correct_addConst_iff {rtx : Rtx → Rtx → Rtx} {input : MatchOperand} {const : ℕ → Piece}
    {add : List Piece → List Piece} {file : RegFile} {a b : ℕ} {v w : ℤ} {st : Stmt}
    (h : (addConst rtx input const add).Legal ops swapped) (h0 : ops 0 = .reg file a)
    (h1 : ops 1 = .reg file b) (h2 : ops 2 = .constInt v) (ha7 : ¬ (file = .rd ∧ a = 7))
    (hb7 : ¬ (file = .rd ∧ b = 7)) (hconst : printPiece ops (const 2) = some [.num w])
    (hadd : printLine ops ("add", add [.operand 0, .operand 1, .reg 7]) = some st)
    (hst : Does always [st] fun s => s.set file a (s.reg file b + s.reg .rd 7))
    (haddi : Gas.InRange .imms12 w → Does always [⟨"addi", [.reg file a, .reg file b, .num w]⟩]
      fun s => s.set file a (s.reg file b + BitVec.ofInt 64 w))
    (hvalue : ∀ s, (rtx (.operand 1) (.operand 2)).value (values ops false s) =
      s.reg file b + BitVec.ofInt 64 w) :
    (addConst rtx input const add).Correct ops swapped ↔
      (-0x800 ≤ v ∧ v ≤ 0x7FF → -0x800 ≤ w ∧ w ≤ 0x7FF) := by
  obtain rfl := h.not_swapped_of_const h2
  by_cases hlong : isLong (ops 2) = true
  · have hprint : (addConst rtx input const add).print ops =
        some [⟨"setrd", [rd 7, .num w]⟩, st] := by
      rw [h.print_eq rfl]
      have hset : printLine ops ("setrd", [.reg 7, const 2]) = some ⟨"setrd", [rd 7, .num w]⟩ := by
        simp only [printLine, List.mapM_cons, List.mapM_nil, hconst]
        simp [printPiece]
      simp [addConst, hlong, hset, hadd]
    have hiff := isLong_iff.mp (h2 ▸ hlong)
    rw [correct_iff_set rfl rfl h0 ha7 hprint (does_long hb7 w hst) (fun _ _ => trivial)
      fun s => onlyChanges_scratch s _]
    exact ⟨fun _ hv => absurd hv hiff, fun _ s _ _ => (hvalue s).symm⟩
  · have hprint : (addConst rtx input const add).print ops =
        some [⟨"addi", [.reg file a, .reg file b, .num w]⟩] := by
      rw [h.print_eq rfl]
      simp [addConst, hlong, printLine, hconst]
      simp [printPiece, h0, h1, Operand.print]
    have hiff : -0x800 ≤ v ∧ v ≤ 0x7FF := not_not.mp (isLong_iff.not.mp (h2 ▸ hlong))
    by_cases hw : -0x800 ≤ w ∧ w ≤ 0x7FF
    · rw [correct_iff_set rfl rfl h0 ha7 hprint (haddi (inRange_imms12.mpr hw)) (fun _ _ => trivial)
        onlyChanges_refl]
      exact ⟨fun _ _ => hw, fun _ s _ _ => (hvalue s).symm⟩
    · have hnot : ¬ Correct _ ops false := not_correct_of_mem hprint (List.mem_cons_self ..)
        (addi_rejected _ file file a b (by omega))
      exact ⟨fun hc => absurd hc hnot, fun hall => absurd (hall hiff) hw⟩

/-- Subtracting a constant is adding the negated one. -/
lemma sub_ofInt (x : BitVec 64) (v : ℤ) : x - BitVec.ofInt 64 v = x + BitVec.ofInt 64 (-v) := by
  rw [BitVec.ofInt_neg, BitVec.sub_eq_add_neg]

/-- `dd_addrd_const`. -/
lemma correct_ddAddrdConst (h : IntInsn.ddAddrdConst.define.Legal ops swapped) :
    IntInsn.ddAddrdConst.define.Correct ops swapped := by
  obtain ⟨a, h0, ha, ha0, ha7⟩ := h.rd 0 rfl
  obtain ⟨b, h1, hb, -, hb7⟩ := h.rd 1 rfl
  obtain ⟨v, h2, -⟩ := isConst_iff.mp (h.accepts' (k := 2) rfl)
  refine (correct_addConst_iff (w := v) h h0 h1 h2 (by simp [ha7]) (by simp [hb7]) ?_ ?_
    (does_add ha0 ha hb (by omega)) (does_addi_rd ha0 ha hb) fun s => ?_).mpr fun hv => hv
  · simp [printPiece, h2, Operand.print]
  · simp [printLine, printPiece, h0, h1, Operand.print]
  · simp [Rtx.value, values, rtlOperand, h1, h2, Operand.value]

/-- `addrb_imm`. -/
lemma correct_addrbImm (h : IntInsn.addrbImm.define.Legal ops swapped) :
    IntInsn.addrbImm.define.Correct ops swapped := by
  obtain ⟨a, h0, ha, ha0⟩ := h.rb 0 rfl
  obtain ⟨b, h1, hb, hb0⟩ := h.rb 1 rfl
  obtain ⟨v, h2, -⟩ := isConst_iff.mp (h.accepts' (k := 2) rfl)
  refine (correct_addConst_iff (w := v) h h0 h1 h2 (by simp) (by simp) ?_ ?_
    (does_add_rb ha0 ha hb0 hb (by omega)) (does_addi_rb ha0 ha hb0 hb) fun s => ?_).mpr fun hv => hv
  · simp [printPiece, h2, Operand.print]
  · simp [printLine, printPiece, h0, h1, Operand.print]
  · simp [Rtx.value, values, rtlOperand, h1, h2, Operand.value]

/-- The negated constant of twelve bits does not fit at one end. -/
lemma neg_fits_iff (v : ℤ) : (-0x800 ≤ v ∧ v ≤ 0x7FF → -0x800 ≤ -v ∧ -v ≤ 0x7FF) ↔
    Operand.constInt v ≠ .constInt (-0x800) := by
  simp only [ne_eq, Operand.constInt.injEq]
  omega

/-- `dd_subrd_const`. -/
lemma correct_ddSubrdConst_iff (h : IntInsn.ddSubrdConst.define.Legal ops swapped) :
    IntInsn.ddSubrdConst.define.Correct ops swapped ↔ ops 2 ≠ .constInt (-0x800) := by
  obtain ⟨a, h0, ha, ha0, ha7⟩ := h.rd 0 rfl
  obtain ⟨b, h1, hb, -, hb7⟩ := h.rd 1 rfl
  obtain ⟨v, h2, -⟩ := isConst_iff.mp (h.accepts' (k := 2) rfl)
  rw [h2, ← neg_fits_iff]
  refine correct_addConst_iff h h0 h1 h2 (by simp [ha7]) (by simp [hb7]) ?_ ?_
    (does_add ha0 ha hb (by omega)) (does_addi_rd ha0 ha hb) fun s => ?_
  · simp [printPiece, h2]
  · simp [printLine, printPiece, h0, h1, Operand.print]
  · simp [Rtx.value, values, rtlOperand, h1, h2, Operand.value, sub_ofInt]

/-- `subrb_imm`. -/
lemma correct_subrbImm_iff (h : IntInsn.subrbImm.define.Legal ops swapped) :
    IntInsn.subrbImm.define.Correct ops swapped ↔ ops 2 ≠ .constInt (-0x800) := by
  obtain ⟨a, h0, ha, ha0⟩ := h.rb 0 rfl
  obtain ⟨b, h1, hb, hb0⟩ := h.rb 1 rfl
  obtain ⟨v, h2, -⟩ := isConst_iff.mp (h.accepts' (k := 2) rfl)
  rw [h2, ← neg_fits_iff]
  refine correct_addConst_iff h h0 h1 h2 (by simp) (by simp) ?_ ?_
    (does_add_rb ha0 ha hb0 hb (by omega)) (does_addi_rb ha0 ha hb0 hb) fun s => ?_
  · simp [printPiece, h2]
  · simp [printLine, printPiece, h0, h1, Operand.print]
  · simp [Rtx.value, values, rtlOperand, h1, h2, Operand.value, sub_ofInt]

/-- A pattern of which the second alternative is for long constants, with a constant. -/
lemma correct_regls_const (rtx : Rtx → Rtx → Rtx) {file : RegFile} {a b : ℕ} {v w : ℤ} {st : Stmt}
    (h : p.Legal ops swapped) (hsets : p.sets = [(0, rtx (.operand 1) (.operand 2))])
    (hscratch : p.scratch = []) (h0 : ops 0 = .reg file a) (h2 : ops 2 = .constInt v)
    (ha7 : ¬ (file = .rd ∧ a = 7)) (hb7 : ¬ (file = .rd ∧ b = 7))
    (hprint : p.print ops = some [⟨"setrd", [rd 7, .num w]⟩, st])
    (hst : Does always [st] fun s => s.set file a (s.reg file b + s.reg .rd 7))
    (hvalue : ∀ s, (rtx (.operand 1) (.operand 2)).value (values ops false s) =
      s.reg file b + BitVec.ofInt 64 w) : p.Correct ops swapped := by
  obtain rfl := h.not_swapped_of_const h2
  rw [correct_iff_set hsets hscratch h0 ha7 hprint (does_long hb7 w hst) (fun _ _ => trivial)
    fun s => onlyChanges_scratch s _]
  exact fun s _ _ => (hvalue s).symm

/-- The alternative is that of the last input, a register or a long constant. -/
lemma regls_cases (h : p.Legal ops swapped) {m m' : MatchOperand}
    (hops : p.operands = [m, m', ⟨.ddRdLsOperand, [[.Rd], [.i]]⟩]) :
    (∃ c, ops 2 = .reg .rd c ∧ c < 64 ∧ c ≠ 0 ∧ p.whichAlternative ops = some 0) ∨
      ∃ v, ops 2 = .constInt v ∧ p.whichAlternative ops = some 1 := by
  have haccepts : (isRdClass (ops 2) || isConst (fun v => !satisfiesIt v) (ops 2)) = true :=
    h.accepts' (m := ⟨.ddRdLsOperand, [[.Rd], [.i]]⟩) (by rw [hops]; rfl)
  rcases Bool.or_eq_true_iff.mp haccepts with hrd | hconst
  · obtain ⟨c, h2, hc, hc0, -⟩ := isRdClass_iff.mp hrd
    rcases h.alternative with ⟨-, halt⟩ | ⟨-, hfits, -⟩
    · exact .inl ⟨c, h2, hc, hc0, halt⟩
    · simp [fits, hops, h2, Constraint.allows, isConst] at hfits
  · obtain ⟨v, h2, -⟩ := isConst_iff.mp hconst
    rcases h.alternative with ⟨hfits, -⟩ | ⟨-, -, halt⟩
    · simp [fits, hops, h2, Constraint.allows, isRdClass] at hfits
    · exact .inr ⟨v, h2, halt⟩

/-- `dd_addrd_regls`. -/
lemma correct_ddAddrdRegls (h : IntInsn.ddAddrdRegls.define.Legal ops swapped) :
    IntInsn.ddAddrdRegls.define.Correct ops swapped := by
  obtain ⟨a, h0, ha, ha0, ha7⟩ := h.rd 0 rfl
  obtain ⟨b, h1, hb, -, hb7⟩ := h.rd 1 rfl
  rcases regls_cases h rfl with ⟨c, h2, hc, -, halt⟩ | ⟨v, h2, halt⟩
  · have hprint : IntInsn.ddAddrdRegls.define.print ops = some [⟨"add", [rd 0, rd a, rd b, rd c]⟩] := by
      rw [print_of_alternative halt]
      simp [IntInsn.define, addRegls, printLine, printPiece, h0, h1, h2, Operand.print]
    rw [correct_iff_set rfl rfl h0 (by simp [ha7]) hprint (does_add ha0 ha hb hc) (fun _ _ => trivial)
      onlyChanges_refl]
    intro s _ _
    cases swapped <;> simp [Rtx.value, values, rtlOperand, h1, h2, Operand.value, BitVec.add_comm]
  · refine correct_regls_const .plus h rfl rfl h0 h2 (by simp [ha7]) (by simp [hb7]) (w := v) ?_
      (does_add ha0 ha hb (by omega)) fun s => ?_
    · rw [print_of_alternative halt]
      simp [IntInsn.define, addRegls, printLine, printPiece, h0, h1, h2, Operand.print]
    · simp [Rtx.value, values, rtlOperand, h1, h2, Operand.value]

/-- `addrb_rd`. -/
lemma correct_addrbRd (h : IntInsn.addrbRd.define.Legal ops swapped) :
    IntInsn.addrbRd.define.Correct ops swapped := by
  obtain ⟨a, h0, ha, ha0⟩ := h.rb 0 rfl
  obtain ⟨b, h1, hb, hb0⟩ := h.rb 1 rfl
  rcases regls_cases h rfl with ⟨c, h2, hc, -, halt⟩ | ⟨v, h2, halt⟩
  · have hprint : IntInsn.addrbRd.define.print ops = some [⟨"add", [rb a, rb b, rd c]⟩] := by
      rw [print_of_alternative halt]
      simp [IntInsn.define, addrbRd, printLine, printPiece, h0, h1, h2, Operand.print]
    rw [correct_iff_set rfl rfl h0 (by simp) hprint (does_add_rb ha0 ha hb0 hb hc) (fun _ _ => trivial)
      onlyChanges_refl]
    intro s _ _
    cases swapped <;> simp [Rtx.value, values, rtlOperand, h1, h2, Operand.value, BitVec.add_comm]
  · refine correct_regls_const .plus h rfl rfl h0 h2 (by simp) (by simp) (w := v) ?_
      (does_add_rb ha0 ha hb0 hb (by omega)) fun s => ?_
    · rw [print_of_alternative halt]
      simp [IntInsn.define, addrbRd, printLine, printPiece, h0, h1, h2, Operand.print]
    · simp [Rtx.value, values, rtlOperand, h1, h2, Operand.value]

/-- `dd_subrd_regls`. -/
lemma correct_ddSubrdRegls_iff (h : IntInsn.ddSubrdRegls.define.Legal ops swapped) :
    IntInsn.ddSubrdRegls.define.Correct ops swapped ↔ (swapped = true → ops 1 = ops 2) := by
  obtain ⟨a, h0, ha, ha0, ha7⟩ := h.rd 0 rfl
  obtain ⟨b, h1, hb, hb0, hb7⟩ := h.rd 1 rfl
  rcases regls_cases h rfl with ⟨c, h2, hc, -, halt⟩ | ⟨v, h2, halt⟩
  · have hprint : IntInsn.ddSubrdRegls.define.print ops = some [⟨"sub", [rd 0, rd a, rd b, rd c]⟩] := by
      rw [print_of_alternative halt]
      simp [IntInsn.define, addRegls, printLine, printPiece, h0, h1, h2, Operand.print]
    rw [correct_iff_set rfl rfl h0 (by simp [ha7]) hprint (does_sub ha0 ha hb hc) (fun _ _ => trivial)
      onlyChanges_refl]
    by_cases hbc : b = c
    · cases swapped <;> simp [Rtx.value, values, rtlOperand, h1, h2, Operand.value, hbc]
    · cases swapped with
      | false => simp [Rtx.value, values, rtlOperand, h1, h2, Operand.value]
      | true =>
        have hne : ops 1 ≠ ops 2 := by simp [h1, h2, hbc]
        simp only [hne, imp_false, not_true_eq_false, iff_false]
        intro hall
        have hone := hall (only .rd b 1) (isView_only hb0 1) ⟨trivial, trivial⟩
        simp only [Rtx.value, values, rtlOperand, h1, h2, Operand.value, only_reg_self, if_true, if_false,
          only_reg_of_ne (show ¬ (RegFile.rd = .rd ∧ c = b) by simp [Ne.symm hbc]) (by simp),
          OfNat.ofNat_ne_one] at hone
        exact zero_sub_one_ne hone.symm
  · obtain rfl := h.not_swapped_of_const h2
    simp only [Bool.false_eq_true, false_implies, iff_true]
    refine correct_regls_const .minus h rfl rfl h0 h2 (by simp [ha7]) (by simp [hb7]) (w := -v) ?_
      (does_add ha0 ha hb (by omega)) fun s => ?_
    · rw [print_of_alternative halt]
      simp [IntInsn.define, addRegls, printLine, printPiece, h0, h1, h2, Operand.print]
    · simp [Rtx.value, values, rtlOperand, h1, h2, Operand.value, sub_ofInt]

/-! ## Operands in memory -/

/-- An address is printed and loaded from, by the instruction for its form. -/
lemma exists_load {k k' : ℕ} {file : RegFile} {a : ℕ} {ad : Address} (hfile : file = .rd ∨ file = .rb)
    (h0 : ops k = .reg file a) (h1 : ops k' = .mem ad) (ha : a ≠ 0) (ha' : a < 64)
    (hlegit : ad.legitimate = true) (hind : ∀ b a', ad ≠ .indirect b a') :
    ∃ st, printLine ops (if ad.isIndex then ("ldmo", [.operand k, .operand k', .num 1])
        else ("ldo", [.operand k, .operand k'])) = some st ∧
      Does always [st] fun s => s.set file a (s.mem.load (ad.value s) 8) := by
  have hzero : Gas.InRange .imms12 0 := by rw [inRange_imms12]; omega
  cases ad with
  | base b =>
    obtain ⟨hb, hb0⟩ := isRb_iff.mp hlegit
    refine ⟨⟨"ldo", [.reg file a, rb b, .num 0]⟩, ?_, ?_⟩
    · simp [Address.isIndex, printLine, printPiece, h0, h1, Operand.print, Address.print]
    · rcases hfile with rfl | rfl
      · simpa [Address.value] using does_ldo_rd ha ha' hb0 hb hzero
      · simpa [Address.value] using does_ldo_rb ha ha' hb0 hb hzero
  | offset b v =>
    obtain ⟨hb, hv⟩ : isRb b = true ∧ satisfiesId v = true := by simpa [Address.legitimate] using hlegit
    obtain ⟨hb, hb0⟩ := isRb_iff.mp hb
    have hv' : Gas.InRange .imms12 v := by
      rw [inRange_imms12]
      simpa [satisfiesId] using hv
    refine ⟨⟨"ldo", [.reg file a, rb b, .num v]⟩, ?_, ?_⟩
    · simp [Address.isIndex, printLine, printPiece, h0, h1, Operand.print, Address.print]
    · rcases hfile with rfl | rfl
      · exact does_ldo_rd ha ha' hb0 hb hv'
      · exact does_ldo_rb ha ha' hb0 hb hv'
  | index b d =>
    obtain ⟨hb, hd⟩ : isRb b = true ∧ isRd d = true := by simpa [Address.legitimate] using hlegit
    obtain ⟨hb, hb0⟩ := isRb_iff.mp hb
    obtain ⟨hd, -⟩ := isRd_iff.mp hd
    refine ⟨⟨"ldmo", [.reg file a, rb b, rd d, .num 1]⟩, ?_, ?_⟩
    · simp [Address.isIndex, printLine, printPiece, h0, h1, Operand.print, Address.print]
    · rcases hfile with rfl | rfl
      · exact does_ldmo_rd ha ha' hb0 hb hd
      · exact does_ldmo_rb ha ha' hb0 hb hd
  | indirect b a' => exact absurd rfl (hind b a')

/-- The alternative is that of the operand in memory. -/
lemma mem_alternative {ad : Address} (h0 : p.fits ops 0 = ad.isIndex) (h1 : p.fits ops 1 = true) :
    p.whichAlternative ops = some (if ad.isIndex then 0 else 1) := by
  cases hidx : ad.isIndex <;> simp [whichAlternative, List.find?, h0, h1, hidx]

/-- An address in memory is not printed. -/
lemma printLine_indirect {k : ℕ} {b : ℕ} {a' : Address} (h : ops k = .mem (.indirect b a')) (name : String)
    (l l' : List Piece) : printLine ops (name, l ++ .operand k :: l') = none := by
  have hnone : (l ++ .operand k :: l').mapM (printPiece ops) = none := by
    induction l with
    | nil => simp [printPiece, h, Operand.print, Address.print]
    | cons x l ih => simp [ih]
  simp [printLine, hnone]

section RdMem

variable {rtx : Rtx → Rtx → Rtx} {mnemonic : String}

variable (rtx mnemonic) in
/-- What is printed for an operation with an input in memory. -/
lemma print_rdMem {a b : ℕ} {ad : Address} (h0 : ops 0 = .reg .rd a) (h1 : ops 1 = .reg .rd b)
    (h2 : ops 2 = .mem ad) (ha : isRd a = true) (hb : isRd b = true) (hlegit : ad.legitimate = true) :
    (rdMem rtx mnemonic).print ops = do
      let st ← printLine ops (if ad.isIndex then ("ldmo", [.operand 0, .operand 2, .num 1])
        else ("ldo", [.operand 0, .operand 2]))
      return [st, ⟨mnemonic, [rd 0, rd a, rd b, rd a]⟩] := by
  have halt : (rdMem rtx mnemonic).whichAlternative ops = some (if ad.isIndex then 0 else 1) := by
    refine mem_alternative ?_ ?_
    · simp [fits, rdMem, rdOperand, memOperand, h0, h1, h2, Constraint.allows, isRdClass, isMem, ha, hb, hlegit]
    · simp [fits, rdMem, rdOperand, memOperand, h0, h1, h2, Constraint.allows, isRdClass, isMem, ha, hb, hlegit]
  have hop : printLine ops (mnemonic, [.reg 0, .operand 0, .operand 1, .operand 0]) =
      some ⟨mnemonic, [rd 0, rd a, rd b, rd a]⟩ := by
    simp [printLine, printPiece, h0, h1, Operand.print]
  rw [print_of_alternative halt]
  cases hidx : ad.isIndex <;> simp [rdMem, hop]

/-- **An operation with an input in memory** reads its other input after it has written the
destination. -/
lemma correct_rdMem_iff (op : BitVec 64 → BitVec 64 → BitVec 64)
    (h : (rdMem rtx mnemonic).Legal ops swapped)
    (hdoes : ∀ {a b c : ℕ}, a ≠ 0 → a < 64 → b < 64 → c < 64 →
      Does always [⟨mnemonic, [rd 0, rd a, rd b, rd c]⟩] fun s => s.set .rd a (op (s.reg .rd b) (s.reg .rd c)))
    (hvalue : ∀ f, (rtx (.operand 1) (.operand 2)).value f = op (f 1) (f 2))
    (hdefined : ∀ f, (rtx (.operand 1) (.operand 2)).Defined f)
    (hone : op 0 0 ≠ op 1 0) (hone' : op 0 0 ≠ op 0 1) (hcomm : op 1 0 = op 0 1 → ∀ x y, op x y = op y x) :
    (rdMem rtx mnemonic).Correct ops swapped ↔ ops 0 ≠ ops 1 ∧ (∀ b a, ops 2 ≠ .mem (.indirect b a)) ∧
      (op 1 0 ≠ op 0 1 → swapped = false) := by
  obtain ⟨a, h0, ha, ha0, ha7⟩ := h.rd 0 rfl
  obtain ⟨b, h1, hb, hb0, hb7⟩ := h.rd 1 rfl
  obtain ⟨ad, h2, hlegit, -⟩ := isMem_iff.mp (h.accepts' (k := 2) rfl)
  have hprint := print_rdMem rtx mnemonic h0 h1 h2
    (isRd_iff.mpr ⟨ha, ha0, ha7⟩) (isRd_iff.mpr ⟨hb, hb0, hb7⟩) hlegit
  by_cases hind : ∃ b' a', ad = .indirect b' a'
  · obtain ⟨b', a', rfl⟩ := hind
    have hnone : (rdMem rtx mnemonic).print ops = none := by
      have hline := printLine_indirect h2 "ldo" [.operand 0] []
      simp only [List.cons_append, List.nil_append] at hline
      simp [hprint, Address.isIndex, hline]
    refine ⟨fun hc => absurd hc (not_correct_of_print hnone), fun hall => absurd h2 (hall.2.1 b' a')⟩
  · simp only [not_exists] at hind
    obtain ⟨st, hst, hload⟩ := exists_load (.inl rfl) h0 h2 ha0 ha hlegit hind
    rw [hst] at hprint
    have hboth := hload.cons (hdoes (c := a) ha0 ha hb ha) fun _ _ => trivial
    rw [correct_iff_set rfl rfl h0 (by simp [ha7]) hprint hboth (fun _ _ => trivial)
      fun s => onlyChanges_set s _]
    simp only [hvalue, hdefined, State.set_reg, true_and, if_true]
    have hzero : (only .rd b 1).mem.load (ad.value (only .rd b 1)) 8 = 0 := only_load ..
    have hnind : ∀ b' a', ops 2 ≠ .mem (.indirect b' a') := by simpa [h2] using hind
    by_cases hba : b = a
    · have hfalse : ¬ (ops 0 ≠ ops 1) := by simp [h0, h1, hba]
      simp only [hfalse, false_and, iff_false]
      intro hall
      have hcex := hall (only .rd b 1) (isView_only hb0 1) trivial
      simp only [if_pos hba, hzero] at hcex
      cases swapped with
      | false => exact hone (by simpa [values, rtlOperand, h1, h2, Operand.value] using hcex)
      | true => exact hone' (by simpa [values, rtlOperand, h1, h2, Operand.value] using hcex)
    · have htrue : ops 0 ≠ ops 1 := by simp [h0, h1, Ne.symm hba]
      simp only [if_neg hba]
      cases swapped with
      | false =>
        refine ⟨fun _ => ⟨htrue, hnind, fun _ => rfl⟩, fun _ s _ _ => ?_⟩
        simp [values, rtlOperand, h1, h2, Operand.value]
      | true =>
        refine ⟨fun hall => ⟨htrue, hnind, fun hop => ?_⟩, fun hall s _ _ => ?_⟩
        · have hcex := hall (only .rd b 1) (isView_only hb0 1) trivial
          exact absurd (by simpa [values, rtlOperand, h1, h2, Operand.value] using hcex) hop
        · have hsame : op 1 0 = op 0 1 := by simpa using hall.2.2
          simp [values, rtlOperand, h1, h2, Operand.value, hcomm hsame]

end RdMem

/-- `dd_addrd_mem`. -/
lemma correct_ddAddrdMem_iff (h : IntInsn.ddAddrdMem.define.Legal ops swapped) :
    IntInsn.ddAddrdMem.define.Correct ops swapped ↔
      ops 0 ≠ ops 1 ∧ ∀ b a, ops 2 ≠ .mem (.indirect b a) := by
  have hiff : IntInsn.ddAddrdMem.define.Correct ops swapped ↔ _ :=
    correct_rdMem_iff (· + ·) h does_add (fun _ => rfl) (fun _ => ⟨trivial, trivial⟩)
    (by decide) (by decide) fun _ x y => BitVec.add_comm x y
  simpa using hiff

/-- `dd_subrd_mem`. -/
lemma correct_ddSubrdMem_iff (h : IntInsn.ddSubrdMem.define.Legal ops swapped) :
    IntInsn.ddSubrdMem.define.Correct ops swapped ↔
      ops 0 ≠ ops 1 ∧ (∀ b a, ops 2 ≠ .mem (.indirect b a)) ∧ swapped = false := by
  have hiff : IntInsn.ddSubrdMem.define.Correct ops swapped ↔ _ :=
    correct_rdMem_iff (· - ·) h does_sub (fun _ => rfl) (fun _ => ⟨trivial, trivial⟩)
    (by decide) (by decide) fun hsame => absurd hsame (by decide)
  have hne : (1 : BitVec 64) - 0 ≠ 0 - 1 := by decide
  simpa only [hne, ne_eq, not_false_eq_true, true_implies] using hiff

/-- `dd_ld_rb`. -/
lemma correct_ddLdRb_iff (h : IntInsn.ddLdRb.define.Legal ops swapped) :
    IntInsn.ddLdRb.define.Correct ops swapped ↔ ∀ b a, ops 1 ≠ .mem (.indirect b a) := by
  obtain ⟨a, h0, ha, ha0⟩ := h.rb 0 rfl
  obtain ⟨ad, h1, hlegit, -⟩ := isMem_iff.mp (h.accepts' (k := 1) rfl)
  have hrb := isRb_iff.mpr ⟨ha, ha0⟩
  have halt : ddLdRb.whichAlternative ops = some (if ad.isIndex then 0 else 1) := by
    refine mem_alternative ?_ ?_
    · simp [fits, ddLdRb, rbOperand, memOperand, h0, h1, Constraint.allows, isRbClass, isMem, hrb, hlegit]
    · simp [fits, ddLdRb, rbOperand, memOperand, h0, h1, Constraint.allows, isRbClass, isMem, hrb, hlegit]
  have hprint : IntInsn.ddLdRb.define.print ops = do
      let st ← printLine ops (if ad.isIndex then ("ldmo", [.operand 0, .operand 1, .num 1])
        else ("ldo", [.operand 0, .operand 1]))
      return [st] := by
    rw [IntInsn.define, print_of_alternative halt]
    cases hidx : ad.isIndex <;> simp [ddLdRb]
  by_cases hind : ∃ b' a', ad = .indirect b' a'
  · obtain ⟨b', a', rfl⟩ := hind
    have hline := printLine_indirect h1 "ldo" [.operand 0] []
    simp only [List.cons_append, List.nil_append] at hline
    have hnone : IntInsn.ddLdRb.define.print ops = none := by
      simp [hprint, Address.isIndex, hline]
    exact ⟨fun hc => absurd hc (not_correct_of_print hnone), fun hall => absurd h1 (hall b' a')⟩
  · simp only [not_exists] at hind
    obtain ⟨st, hst, hload⟩ := exists_load (.inr rfl) h0 h1 ha0 ha hlegit hind
    rw [hst] at hprint
    obtain rfl := h.not_swapped rfl
    rw [correct_iff_set rfl rfl h0 (by simp) hprint hload (fun _ _ => trivial) onlyChanges_refl]
    simp [Rtx.value, values, rtlOperand, h1, Operand.value, hind]

/-- A register is stored at an address, by the instruction for its form. -/
lemma exists_store {k k' : ℕ} {a : ℕ} {ad : Address} (h0 : ops k = .mem ad) (h1 : ops k' = .reg .rb a)
    (ha : a ≠ 0) (ha' : a < 64) (hlegit : ad.legitimate = true) (hind : ∀ b a', ad ≠ .indirect b a') :
    ∃ st, printLine ops (if ad.isIndex then ("stmo", [.operand k', .operand k, .num 1])
        else ("sto", [.operand k', .operand k])) = some st ∧
      Does always [st] fun s => { s with mem := s.mem.store (ad.value s) 8 (s.reg .rb a) } := by
  have hzero : Gas.InRange .imms12 0 := by rw [inRange_imms12]; omega
  cases ad with
  | base b =>
    obtain ⟨hb, hb0⟩ := isRb_iff.mp hlegit
    refine ⟨⟨"sto", [rb a, rb b, .num 0]⟩, ?_, ?_⟩
    · simp [Address.isIndex, printLine, printPiece, h0, h1, Operand.print, Address.print]
    · simpa [Address.value] using does_sto_rb ha ha' hb0 hb hzero
  | offset b v =>
    obtain ⟨hb, hv⟩ : isRb b = true ∧ satisfiesId v = true := by simpa [Address.legitimate] using hlegit
    obtain ⟨hb, hb0⟩ := isRb_iff.mp hb
    have hv' : Gas.InRange .imms12 v := by
      rw [inRange_imms12]
      simpa [satisfiesId] using hv
    refine ⟨⟨"sto", [rb a, rb b, .num v]⟩, ?_, does_sto_rb ha ha' hb0 hb hv'⟩
    simp [Address.isIndex, printLine, printPiece, h0, h1, Operand.print, Address.print]
  | index b d =>
    obtain ⟨hb, hd⟩ : isRb b = true ∧ isRd d = true := by simpa [Address.legitimate] using hlegit
    obtain ⟨hb, hb0⟩ := isRb_iff.mp hb
    obtain ⟨hd, -⟩ := isRd_iff.mp hd
    refine ⟨⟨"stmo", [rb a, rb b, rd d, .num 1]⟩, ?_, does_stmo_rb ha ha' hb0 hb hd⟩
    simp [Address.isIndex, printLine, printPiece, h0, h1, Operand.print, Address.print]
  | indirect b a' => exact absurd rfl (hind b a')

/-- `dd_st_rb`. -/
lemma correct_ddStRb_iff (h : IntInsn.ddStRb.define.Legal ops swapped) :
    IntInsn.ddStRb.define.Correct ops swapped ↔ ∀ b a, ops 0 ≠ .mem (.indirect b a) := by
  obtain ⟨ad, h0, hlegit, -⟩ := isMem_iff.mp (h.accepts' (k := 0) rfl)
  obtain ⟨a, h1, ha, ha0⟩ := h.rb 1 rfl
  have hrb := isRb_iff.mpr ⟨ha, ha0⟩
  have halt : ddStRb.whichAlternative ops = some (if ad.isIndex then 0 else 1) := by
    refine mem_alternative ?_ ?_
    · simp [fits, ddStRb, rbOperand, memOperand, h0, h1, Constraint.allows, isRbClass, isMem, hrb, hlegit]
    · simp [fits, ddStRb, rbOperand, memOperand, h0, h1, Constraint.allows, isRbClass, isMem, hrb, hlegit]
  have hprint : IntInsn.ddStRb.define.print ops = do
      let st ← printLine ops (if ad.isIndex then ("stmo", [.operand 1, .operand 0, .num 1])
        else ("sto", [.operand 1, .operand 0]))
      return [st] := by
    rw [IntInsn.define, print_of_alternative halt]
    cases hidx : ad.isIndex <;> simp [ddStRb]
  by_cases hind : ∃ b' a', ad = .indirect b' a'
  · obtain ⟨b', a', rfl⟩ := hind
    have hline := printLine_indirect h0 "sto" [.operand 1] []
    simp only [List.cons_append, List.nil_append] at hline
    have hnone : IntInsn.ddStRb.define.print ops = none := by
      simp [hprint, Address.isIndex, hline]
    exact ⟨fun hc => absurd hc (not_correct_of_print hnone), fun hall => absurd h0 (hall b' a')⟩
  · simp only [not_exists] at hind
    obtain ⟨st, hst, hstore⟩ := exists_store h0 h1 ha0 ha hlegit hind
    rw [hst] at hprint
    obtain rfl := h.not_swapped rfl
    rw [correct_iff hprint hstore fun _ _ => trivial]
    simp [DefineInsn.Post, effect, IntInsn.define, ddStRb, Operand.assign, Rtx.value, values, rtlOperand, h0, h1,
      Operand.value, hind]

/-! ## From `rb` to `rd` -/

section Rb2rd

variable {a b : ℕ} {rtx : Rtx → Rtx → Rtx}
variable (hsets : p.sets = [(0, rtx (.operand 1) (.operand 2))]) (hscratch : p.scratch = [])
variable (h0 : ops 0 = .reg .rd a) (h1 : ops 1 = .reg .rb b)
variable (ha : a < 64 ∧ a ≠ 0 ∧ a ≠ 7) (hb : b < 64 ∧ b ≠ 0)

include hsets hscratch h0 h1 ha hb

variable (swapped rtx) in
/-- **The other input is read after the destination is written.** -/
lemma correct_rb2rd_reg_iff (op : BitVec 64 → BitVec 64 → BitVec 64) {c : ℕ} {mnemonic : String}
    (h2 : ops 2 = .reg .rd c) (hprint : p.print ops = some
      [⟨"rb2rd", [rd a, rb b, .num 1]⟩, ⟨mnemonic, [rd 0, rd a, rd a, rd c]⟩])
    (hdoes : Does always [⟨mnemonic, [rd 0, rd a, rd a, rd c]⟩]
      fun s => s.set .rd a (op (s.reg .rd a) (s.reg .rd c)))
    (hvalue : ∀ f, (rtx (.operand 1) (.operand 2)).value f = op (f 1) (f 2))
    (hdefined : ∀ f, (rtx (.operand 1) (.operand 2)).Defined f)
    (hone : op 1 1 ≠ op 1 0) (hone' : op 1 1 ≠ op 0 1) (hcomm : op 1 0 = op 0 1 → ∀ x y, op x y = op y x) :
    p.Correct ops swapped ↔ ops 0 ≠ ops 2 ∧ (op 1 0 ≠ op 0 1 → swapped = false) := by
  obtain ⟨ha, ha0, ha7⟩ := ha
  obtain ⟨hb, hb0⟩ := hb
  have hboth := (does_rb2rd ha0 ha hb0 hb).cons hdoes fun _ _ => trivial
  rw [correct_iff_set hsets hscratch h0 (by simp [ha7]) hprint hboth (fun _ _ => trivial)
    fun s => onlyChanges_set s _]
  simp only [hvalue, hdefined, State.set_reg, true_and, if_true]
  have hzero (v : BitVec 64) : (only .rb b v).reg .rd c = 0 := only_reg_of_ne (by simp) (by simp)
  by_cases hca : c = a
  · have hfalse : ¬ (ops 0 ≠ ops 2) := by simp [h0, h2, hca]
    simp only [hfalse, false_and, iff_false]
    intro hall
    have hcex := hall (only .rb b 1) (isView_only hb0 1) trivial
    simp only [if_pos hca, only_reg_self] at hcex
    cases swapped with
    | false => exact hone (by simpa [values, rtlOperand, h1, h2, Operand.value, hzero] using hcex)
    | true => exact hone' (by simpa [values, rtlOperand, h1, h2, Operand.value, hzero] using hcex)
  · have htrue : ops 0 ≠ ops 2 := by simp [h0, h2, Ne.symm hca]
    simp only [if_neg hca]
    cases swapped with
    | false =>
      refine ⟨fun _ => ⟨htrue, fun _ => rfl⟩, fun _ s _ _ => ?_⟩
      simp [values, rtlOperand, h1, h2, Operand.value]
    | true =>
      refine ⟨fun hall => ⟨htrue, fun hop => ?_⟩, fun hall s _ _ => ?_⟩
      · have hcex := hall (only .rb b 1) (isView_only hb0 1) trivial
        exact absurd (by simpa [values, rtlOperand, h1, h2, Operand.value, hzero] using hcex) hop
      · have hsame : op 1 0 = op 0 1 := by simpa using hall.2
        simp [values, rtlOperand, h1, h2, Operand.value, hcomm hsame]

omit h1 in
variable (swapped rtx) in
/-- A short constant is added to what has been moved. -/
lemma correct_rb2rd_addi_iff {w : ℤ} (hprint : p.print ops = some
      [⟨"rb2rd", [rd a, rb b, .num 1]⟩, ⟨"addi", [rd a, rd a, .num w]⟩])
    (hvalue : ∀ s, (rtx (.operand 1) (.operand 2)).value (values ops swapped s) =
      s.reg .rb b + BitVec.ofInt 64 w) :
    p.Correct ops swapped ↔ -0x800 ≤ w ∧ w ≤ 0x7FF := by
  obtain ⟨ha, ha0, ha7⟩ := ha
  obtain ⟨hb, hb0⟩ := hb
  by_cases hw : -0x800 ≤ w ∧ w ≤ 0x7FF
  · have hboth := (does_rb2rd ha0 ha hb0 hb).cons (does_addi_rd ha0 ha ha (inRange_imms12.mpr hw))
      fun _ _ => trivial
    rw [correct_iff_set hsets hscratch h0 (by simp [ha7]) hprint hboth (fun _ _ => trivial)
      fun s => onlyChanges_set s _]
    simp [hvalue, hw]
  · refine iff_of_false (not_correct_of_mem hprint (List.mem_cons_of_mem _ (List.mem_cons_self ..))
      (addi_rejected _ .rd .rd a a (by omega))) hw

end Rb2rd

/-- `dd_rd_s18_operand`. -/
lemma rdS18_cases (h : p.Legal ops swapped) {m m' : MatchOperand}
    (hops : p.operands = [m, m', ⟨.ddRdS18Operand, [[.It], [.Rd]]⟩]) :
    (∃ c, ops 2 = .reg .rd c ∧ c < 64) ∨ ∃ v, ops 2 = .constInt v := by
  have haccepts : (isRdClass (ops 2) || isConst satisfiesIt (ops 2)) = true :=
    h.accepts' (m := ⟨.ddRdS18Operand, [[.It], [.Rd]]⟩) (by rw [hops]; rfl)
  rcases Bool.or_eq_true_iff.mp haccepts with hrd | hconst
  · obtain ⟨c, h2, hc, -⟩ := isRdClass_iff.mp hrd
    exact .inl ⟨c, h2, hc⟩
  · obtain ⟨v, h2, -⟩ := isConst_iff.mp hconst
    exact .inr ⟨v, h2⟩

/-- `addrb2rd`. -/
lemma correct_addrb2rd_iff (h : IntInsn.addrb2rd.define.Legal ops swapped) :
    IntInsn.addrb2rd.define.Correct ops swapped ↔ ops 0 ≠ ops 2 := by
  obtain ⟨a, h0, ha⟩ := h.rd 0 rfl
  obtain ⟨b, h1, hb⟩ := h.rb 1 rfl
  have ⟨ha', ha0, ha7⟩ := ha
  have ⟨hb', hb0⟩ := hb
  rcases rdS18_cases h rfl with ⟨c, h2, hc⟩ | ⟨v, h2⟩
  · have hprint : IntInsn.addrb2rd.define.print ops = some
        [⟨"rb2rd", [rd a, rb b, .num 1]⟩, ⟨"add", [rd 0, rd a, rd a, rd c]⟩] := by
      rw [h.print_eq rfl]
      simp [IntInsn.define, addrb2rd, isConstInt, printLine, printPiece, h0, h1, h2, Operand.print]
    have hiff := correct_rb2rd_reg_iff swapped .plus rfl rfl h0 h1 ha hb (· + ·) h2
      hprint (does_add ha0 ha' ha' hc) (fun _ => rfl) (fun _ => ⟨trivial, trivial⟩) (by decide) (by decide)
      fun _ x y => BitVec.add_comm x y
    simpa using hiff
  · have hne : ops 0 ≠ ops 2 := by simp [h0, h2]
    obtain rfl := h.not_swapped_of_const h2
    refine iff_of_true ?_ hne
    by_cases hlong : isLong (ops 2) = true
    · have hprint : IntInsn.addrb2rd.define.print ops = some [⟨"setrd", [rd 7, .num v]⟩,
          ⟨"rb2rd", [rd a, rb b, .num 1]⟩, ⟨"add", [rd 0, rd a, rd a, rd 7]⟩] := by
        rw [h.print_eq rfl]
        simp only [IntInsn.define, addrb2rd, hlong, if_true]
        simp [isConstInt, printLine, printPiece, h0, h1, h2, Operand.print]
      have hall := (does_setrd (a := 7) (by omega) (by omega) v).cons ((does_rb2rd ha0 ha' hb0 hb').cons
        (does_add (c := 7) ha0 ha' ha' (by omega)) fun _ _ => trivial) fun _ _ => trivial
      rw [correct_iff_set rfl rfl h0 (by simp [ha7]) hprint hall (fun _ _ => trivial)
        fun s => (onlyChanges_scratch s _).trans (onlyChanges_set _ _)]
      intro s _ _
      simp [Rtx.value, values, rtlOperand, h1, h2, Operand.value, Ne.symm ha7]
    · have hprint : IntInsn.addrb2rd.define.print ops = some
          [⟨"rb2rd", [rd a, rb b, .num 1]⟩, ⟨"addi", [rd a, rd a, .num v]⟩] := by
        rw [h.print_eq rfl]
        simp only [IntInsn.define, addrb2rd, hlong]
        simp [isConstInt, printLine, printPiece, h0, h1, h2, Operand.print]
      have hshort : -0x800 ≤ v ∧ v ≤ 0x7FF := not_not.mp (isLong_iff.not.mp (h2 ▸ hlong))
      refine (correct_rb2rd_addi_iff _ .plus rfl rfl h0 ha hb hprint fun s => ?_).mpr hshort
      simp [Rtx.value, values, rtlOperand, h1, h2, Operand.value]

/-- `subrb2rd`. -/
lemma correct_subrb2rd_iff (h : IntInsn.subrb2rd.define.Legal ops swapped) :
    IntInsn.subrb2rd.define.Correct ops swapped ↔
      (∀ v, ops 2 = .constInt v → -0x800 < v ∧ v ≤ 0x7FF) ∧ ops 0 ≠ ops 2 ∧ swapped = false := by
  obtain ⟨a, h0, ha⟩ := h.rd 0 rfl
  obtain ⟨b, h1, hb⟩ := h.rb 1 rfl
  have ⟨ha', ha0, ha7⟩ := ha
  have ⟨hb', hb0⟩ := hb
  rcases rdS18_cases h rfl with ⟨c, h2, hc⟩ | ⟨v, h2⟩
  · have hprint : IntInsn.subrb2rd.define.print ops = some
        [⟨"rb2rd", [rd a, rb b, .num 1]⟩, ⟨"sub", [rd 0, rd a, rd a, rd c]⟩] := by
      rw [h.print_eq rfl]
      simp [IntInsn.define, subrb2rd, isConstInt, printLine, printPiece, h0, h1, h2, Operand.print]
    have hiff := correct_rb2rd_reg_iff swapped .minus rfl rfl h0 h1 ha hb (· - ·)
      h2 hprint (does_sub ha0 ha' ha' hc) (fun _ => rfl) (fun _ => ⟨trivial, trivial⟩) (by decide) (by decide)
      fun hsame => absurd hsame (by decide)
    have hne : (1 : BitVec 64) - 0 ≠ 0 - 1 := by decide
    have hnum : ∀ v, ops 2 = .constInt v → -0x800 < v ∧ v ≤ 0x7FF := by simp [h2]
    simp only [hne, ne_eq, not_false_eq_true, true_implies] at hiff
    rw [hiff]
    exact ⟨fun hc => ⟨hnum, hc⟩, fun hc => hc.2⟩
  · have hne : ops 0 ≠ ops 2 := by simp [h0, h2]
    have hrange : (∀ w, ops 2 = .constInt w → -0x800 < w ∧ w ≤ 0x7FF) ↔ -0x800 < v ∧ v ≤ 0x7FF := by
      simp [h2]
    obtain rfl := h.not_swapped_of_const h2
    simp only [hrange, hne, ne_eq, not_false_eq_true, and_true]
    by_cases hlong : isLong (ops 2) = true
    · have hprint : IntInsn.subrb2rd.define.print ops = some [⟨"setrd", [rd 7, .num v]⟩,
          ⟨"rb2rd", [rd a, rb b, .num 1]⟩, ⟨"sub", [rd 0, rd a, rd a, .num v]⟩] := by
        rw [h.print_eq rfl]
        simp only [IntInsn.define, subrb2rd, hlong, if_true]
        simp [isConstInt, printLine, printPiece, h0, h1, h2, Operand.print]
      have hiff := isLong_iff.mp (h2 ▸ hlong)
      exact iff_of_false (not_correct_of_mem hprint (List.mem_cons_of_mem _ (List.mem_cons_of_mem _
        (List.mem_cons_self ..))) (sub_rejected _ .rd .rd .rd 0 a a v)) (by omega)
    · have hprint : IntInsn.subrb2rd.define.print ops = some
          [⟨"rb2rd", [rd a, rb b, .num 1]⟩, ⟨"addi", [rd a, rd a, .num (-v)]⟩] := by
        rw [h.print_eq rfl]
        simp only [IntInsn.define, subrb2rd, hlong]
        simp [isConstInt, printLine, printPiece, h0, h1, h2, Operand.print]
      have hshort : -0x800 ≤ v ∧ v ≤ 0x7FF := not_not.mp (isLong_iff.not.mp (h2 ▸ hlong))
      have hiff := correct_rb2rd_addi_iff false .minus rfl rfl h0 ha hb hprint fun s => by
        simp [Rtx.value, values, rtlOperand, h1, h2, Operand.value, sub_ofInt]
      rw [hiff]
      omega

/-- `addrb2rd_larde_scale`. -/
lemma correct_addrb2rdLardeScale (h : IntInsn.addrb2rdLardeScale.define.Legal ops swapped) :
    IntInsn.addrb2rdLardeScale.define.Correct ops swapped := by
  obtain ⟨a, h0, ha, ha0, ha7⟩ := h.rd 0 rfl
  obtain ⟨b, h1, hb, hb0⟩ := h.rb 1 rfl
  obtain ⟨v, h2, -⟩ := isConst_iff.mp (h.accepts' (k := 2) rfl)
  have hprint : IntInsn.addrb2rdLardeScale.define.print ops = some [⟨"rb2rd", [rd a, rb b, .num 1]⟩,
      ⟨"setrd", [rd 7, .num v]⟩, ⟨"add", [rd 0, rd a, rd 7, rd a]⟩] := by
    rw [h.print_eq rfl]
    simp [IntInsn.define, addrb2rdLardeScale, printLine, printPiece, h0, h1, h2, Operand.print]
  obtain rfl := h.not_swapped rfl
  have hall := (does_rb2rd ha0 ha hb0 hb).cons ((does_setrd (a := 7) (by omega) (by omega) v).cons
    (does_add (b := 7) ha0 ha (by omega) ha) fun _ _ => trivial) fun _ _ => trivial
  rw [correct_iff_set rfl rfl h0 (by simp [ha7]) hprint hall (fun _ _ => trivial)
    fun s => (onlyChanges_set s _).trans (onlyChanges_scratch _ _)]
  intro s _ _
  simp [Rtx.value, values, rtlOperand, h1, h2, Operand.value, ha7, BitVec.add_comm]

/-! ## Two results -/

/-- `muldi3`. -/
lemma correct_muldi3 (h : IntInsn.muldi3.define.Legal ops swapped) :
    IntInsn.muldi3.define.Correct ops swapped := by
  obtain ⟨a, h0, ha, ha0, -⟩ := h.rd 0 rfl
  obtain ⟨b, h1, hb, -⟩ := h.rd 1 rfl
  obtain ⟨c, h2, hc, -⟩ := h.rd 2 rfl
  obtain ⟨d, h3, hd, hd0, -⟩ := h.rd 3 rfl
  have hprint : IntInsn.muldi3.define.print ops = some [⟨"mulu", [rd d, rd a, rd b, rd c]⟩] := by
    rw [h.print_eq rfl]
    simp [IntInsn.define, muldi3, printLine, printPiece, h0, h1, h2, h3, Operand.print]
  rw [correct_iff hprint (does_mulu hd0 hd ha0 ha hb hc) fun _ _ => trivial]
  intro s _ _
  have hvalue : values ops swapped s 1 * values ops swapped s 2 = s.reg .rd b * s.reg .rd c := by
    cases swapped <;> simp [values, rtlOperand, h1, h2, Operand.value, BitVec.mul_comm]
  have heffect : IntInsn.muldi3.define.effect ops swapped s = s.set .rd a (s.reg .rd b * s.reg .rd c) := by
    simp [effect, IntInsn.define, muldi3, h0, Operand.assign, Rtx.value, hvalue]
  rw [DefineInsn.Post, heffect]
  refine ⟨rfl, fun f n hscratch => ?_⟩
  have hne : ¬ (f = .rd ∧ n = d) := by
    rintro ⟨rfl, rfl⟩
    exact hscratch (.inr ⟨3, by simp [IntInsn.define, muldi3], h3⟩)
  simp [hne]

/-- Quotient and remainder. -/
lemma correct_divmod {divide modulo : Rtx → Rtx → Rtx} {mnemonic : String}
    {q r : BitVec 64 → BitVec 64 → BitVec 64} (h : (divmod divide modulo mnemonic).Legal ops swapped)
    (hdoes : ∀ {a b c d : ℕ}, a ≠ 0 → a < 64 → b ≠ 0 → b < 64 → c < 64 → d < 64 →
      Does (fun s => s.reg .rd d ≠ 0) [⟨mnemonic, [rd a, rd b, rd c, rd d]⟩] fun s =>
        (s.set .rd a (r (s.reg .rd c) (s.reg .rd d))).set .rd b (q (s.reg .rd c) (s.reg .rd d)))
    (hq : ∀ f, (divide (.operand 1) (.operand 2)).value f = q (f 1) (f 2))
    (hr : ∀ f, (modulo (.operand 1) (.operand 2)).value f = r (f 1) (f 2))
    (hdefined : ∀ f, (divide (.operand 1) (.operand 2)).Defined f → f 2 ≠ 0) :
    (divmod divide modulo mnemonic).Correct ops swapped := by
  obtain ⟨a, h0, ha, ha0, -⟩ := h.rd 0 rfl
  obtain ⟨b, h1, hb, -⟩ := h.rd 1 rfl
  obtain ⟨c, h2, hc, -⟩ := h.rd 2 rfl
  obtain ⟨d, h3, hd, hd0, -⟩ := h.rd 3 rfl
  have hne : a ≠ d := by simpa [divmod, h0, h3] using h.outputs
  obtain rfl := h.not_swapped rfl
  have hprint : (divmod divide modulo mnemonic).print ops = some [⟨mnemonic, [rd d, rd a, rd b, rd c]⟩] := by
    rw [h.print_eq rfl]
    simp [divmod, printLine, printPiece, h0, h1, h2, h3, Operand.print]
  have hpre : ∀ s, (divmod divide modulo mnemonic).Defined ops false s → s.reg .rd c ≠ 0 := by
    intro s hs
    simpa [values, rtlOperand, h2, Operand.value] using hdefined _ (hs _ (List.mem_cons_self ..))
  rw [correct_iff hprint (hdoes hd0 hd ha0 ha hb hc) hpre]
  intro s _ _
  have heffect : (divmod divide modulo mnemonic).effect ops false s =
      (s.set .rd a (q (s.reg .rd b) (s.reg .rd c))).set .rd d (r (s.reg .rd b) (s.reg .rd c)) := by
    simp [effect, divmod, h0, h3, Operand.assign, hq, hr, values, rtlOperand, h1, h2, Operand.value]
  rw [DefineInsn.Post, heffect]
  refine ⟨rfl, fun f n _ => ?_⟩
  by_cases hn : f = .rd ∧ n = a
  · simp [hn, hne]
  · simp [hn]

/-- `divmoddi4`. -/
lemma correct_divmoddi4 (h : IntInsn.divmoddi4.define.Legal ops swapped) :
    IntInsn.divmoddi4.define.Correct ops swapped :=
  correct_divmod h does_divs (fun _ => rfl) (fun _ => rfl) fun _ hf => hf.2.2

/-- `udivmoddi4`. -/
lemma correct_udivmoddi4 (h : IntInsn.udivmoddi4.define.Legal ops swapped) :
    IntInsn.udivmoddi4.define.Correct ops swapped :=
  correct_divmod h does_divu (fun _ => rfl) (fun _ => rfl) fun _ hf => hf.2.2

end Patterns

/-! ## All patterns -/

namespace IntInsn

variable {ops : ℕ → Operand} {swapped : Bool}

/-- A pattern is right for the operands it is right for. -/
lemma correct_iff (i : IntInsn) (h : i.define.Legal ops swapped) :
    i.define.Correct ops swapped ↔ i.Meets ops swapped := by
  cases i with
  | rd2rd => exact iff_of_true (correct_rd2rd h) trivial
  | arith code => exact iff_of_true (correct_arith code h) trivial
  | ddLdimmConst => exact iff_of_true (correct_ddLdimmConst h) trivial
  | ddAddrdMem => exact correct_ddAddrdMem_iff h
  | ddAddrdConst => exact iff_of_true (correct_ddAddrdConst h) trivial
  | ddAddrdRegls => exact iff_of_true (correct_ddAddrdRegls h) trivial
  | ddAddrd => exact iff_of_true (correct_ddAddrd h) trivial
  | ddSubrdMem => exact correct_ddSubrdMem_iff h
  | ddSubrdConst => exact correct_ddSubrdConst_iff h
  | ddSubrdRegls => exact correct_ddSubrdRegls_iff h
  | muldi3 => exact iff_of_true (correct_muldi3 h) trivial
  | divmoddi4 => exact iff_of_true (correct_divmoddi4 h) trivial
  | udivmoddi4 => exact iff_of_true (correct_udivmoddi4 h) trivial
  | shift code => exact iff_of_true (correct_shift code h) trivial
  | negdi2 => exact iff_of_true (correct_negdi2 h) trivial
  | oneCmpldi2 => exact iff_of_true (correct_oneCmpldi2 h) trivial
  | nor => exact iff_of_true (correct_nor h) trivial
  | movRb2rb => exact iff_of_true (correct_movRb2rb h) trivial
  | movRd2rb => exact iff_of_true (correct_movRd2rb h) trivial
  | movRb2rd => exact iff_of_true (correct_movRb2rd h) trivial
  | addrbRd => exact iff_of_true (correct_addrbRd h) trivial
  | subrbRd => exact correct_subrbRd_iff h
  | addrbImm => exact iff_of_true (correct_addrbImm h) trivial
  | subrbImm => exact correct_subrbImm_iff h
  | addrbCtry => exact iff_of_true (correct_addrbCtry h) trivial
  | subrbCtry => exact correct_subrbCtry_iff h
  | ddLdRb => exact correct_ddLdRb_iff h
  | ddStRb => exact correct_ddStRb_iff h
  | ddLdrbimm => exact iff_of_true (correct_ddLdrbimm h) trivial
  | addrb2rd => exact correct_addrb2rd_iff h
  | subrb2rd => exact correct_subrb2rd_iff h
  | addrb2rdLardeScale => exact iff_of_true (correct_addrb2rdLardeScale h) trivial

end IntInsn

/-- The destination of a symbol is a register that can be set. -/
lemma SymbolInsn.wellFormed {i : SymbolInsn} {dest : Operand} (h : i.accepts dest = true)
    {c : Bfd.SetSymbol} (hreg : c.reg = dest.regno) : c.WellFormed ∧ c.reg < 0x80 := by
  have hclass : isRdClass dest = true ∨ isRbClass dest = true := by
    cases i with
    | ddLdimmSymbolic => exact Bool.or_eq_true_iff.mp h
    | ddLdrbimm => exact .inr h
  rw [Bfd.SetSymbol.WellFormed, hreg]
  rcases hclass with hrd | hrb
  · obtain ⟨a, rfl, ha, ha0, -⟩ := isRdClass_iff.mp hrd
    simp only [Operand.regno, fileBase]
    omega
  · obtain ⟨a, rfl, ha, ha0⟩ := isRbClass_iff.mp hrb
    simp only [Operand.regno, fileBase]
    omega

/-- **The integer patterns.** The statements a pattern prints are accepted by the assembler and compute its
RTL from every state it is defined for if and only if the operands are among those that `Meets` names; the
address of a symbol is loaded unless it is in the last 64 KiB. -/
theorem intInsns_correct_iff (i : IntInsn) (ops : ℕ → Operand) (swapped : Bool) (j : SymbolInsn) (dest : Operand)
    (c : Bfd.SetSymbol) (ov : Bfd.CheckOverflow) :
    (i.define.Legal ops swapped → (i.define.Correct ops swapped ↔ i.Meets ops swapped)) ∧
      (j.accepts dest = true → c.reg = dest.regno → (c.LoadsAddress ov ↔ c.addr.toNat < 2 ^ 64 - 2 ^ 16)) := by
  refine ⟨fun h => i.correct_iff h, fun h hreg => ⟨fun hloads => ?_, fun haddr => ?_⟩⟩
  · by_contra haddr
    exact Bfd.SetSymbol.not_loadsAddress_of_le (SymbolInsn.wellFormed h hreg).1 ov (by omega) hloads
  · obtain ⟨hwf, hlt⟩ := SymbolInsn.wellFormed h hreg
    exact Bfd.SetSymbol.loadsAddress_of_lt hwf ov hlt haddr

/-- Operands from a list. -/
def opsOf (l : List Operand) (k : ℕ) : Operand := l.getD k (.constInt 0)

/-- The operands of `rd16 := rd17 + mem[rb8]`, and of the same with one register. -/
def addrdMemOps (b : ℕ) : ℕ → Operand := opsOf [.reg .rd 16, .reg .rd b, .mem (.base 8)]

lemma legal_addrdMemOps {b : ℕ} (hb : b = 16 ∨ b = 17) :
    IntInsn.ddAddrdMem.define.Legal (addrdMemOps b) false := by
  rcases hb with rfl | rfl
  · exact ⟨by decide, by decide, by decide, by simp⟩
  · exact ⟨by decide, by decide, by decide, by simp⟩

/-- The sum with a different register, and `setrd rb1` with a symbol. -/
theorem intInsns_correct_iff_addrdMem_rd17 :
    IntInsn.ddAddrdMem.define.Correct (addrdMemOps 17) false ∧
      (Bfd.SetSymbol.setRb1 0x56789abc0000def0).LoadsAddress .documented := by
  obtain ⟨hsum, hsymbol⟩ := intInsns_correct_iff .ddAddrdMem (addrdMemOps 17) false .ddLdimmSymbolic (.reg .rb 1)
    (Bfd.SetSymbol.setRb1 0x56789abc0000def0) .documented
  constructor
  · exact (hsum (legal_addrdMemOps (.inr rfl))).mpr ⟨by decide, by intro b a; simp [addrdMemOps, opsOf]⟩
  · exact (hsymbol (by decide) (by decide)).mpr (by decide)

/-- **`ldo rd16, rb8, 0` and `add rd0, rd16, rd16, rd16`** double what is in memory. -/
theorem addrdMem_rd16_not_correct : IntInsn.ddAddrdMem.define.Legal (addrdMemOps 16) false ∧
    ¬ IntInsn.ddAddrdMem.define.Correct (addrdMemOps 16) false := by
  refine ⟨legal_addrdMemOps (.inl rfl), fun hc => ?_⟩
  exact ((correct_ddAddrdMem_iff (legal_addrdMemOps (.inl rfl))).mp hc).1 rfl

end Dadao.Gcc
