import Dadao.Lib.Trace
import Dadao.Qemu.Execute

set_option relaxedAutoImplicit false
set_option autoImplicit false

/-!
# What an instruction reads, writes and where it can fault

The execution of everything the translator emits, the calls of the floating point helpers included, and
three facts that the translation functions have in common: they leave `rd0`, `rb0` and the return
address stack alone, nothing that can fault stands behind an assignment, and branches stay inside the
instruction. The calls, `RET`, the moves of several registers and the illegal instructions are the
exceptions.

## Main definitions

* `Dadao.Qemu.Fpu.dialect` — the meaning of an emission.
* `Dadao.Qemu.Tame` — the three facts.

## Main results

* `Dadao.Qemu.exec_eq_final` — without helpers this is the execution of `Dadao.Tcg.exec`.
* `Dadao.Qemu.disasDadao_tame` — the instructions on single registers.
-/

namespace Dadao.Qemu

open Tcg

/-! ## The helpers -/

/-- The arithmetic the helpers call: the value and the exception flags for a `fcsr` and operands. -/
structure Fpu where
  ret : Helper → BitVec 64 → List (BitVec 64) → BitVec 64
  flags : Helper → BitVec 64 → List (BitVec 64) → BitVec 64

/-- A helper between `dadao_fpu_head` and `dadao_fpu_tail`. -/
def Helper.hasStatus : Helper → Bool
  | .ftcls | .focls | .ftsgnj | .ftsgnn | .fosgnj | .fosgnn => false
  | _ => true

/-- The register `rf[0]` that holds `fcsr`. -/
abbrev Elem.fcsr : Elem := .reg .rf 0

/-- The call of a helper: `dadao_fpu_tail` sets the flags in `rf[0]`, then the value is assigned. -/
def Fpu.call (fpu : Fpu) (fn : Helper) (d : Elem) (args : List Elem) (s : Machine Elem) : Machine Elem :=
  let fcsr := s.env.globals .fcsr
  let vs := args.map s.env.globals
  (if fn.hasStatus then s.write (.global .fcsr) (fcsr ||| (fpu.flags fn fcsr vs &&& 0x1F)) else s).write
    (.global d) (fpu.ret fn fcsr vs)

/-- **The meaning of an emission.** -/
def Fpu.dialect (fpu : Fpu) : Dialect Emission (Machine Elem) where
  step
    | .op o => stepOp (o.map Global.elem)
    | .elemOp o => stepOp o
    | .helper fn d args => fun s => (fpu.call fn d args s, .next)
  label
    | .op (.setLabel l) | .elemOp (.setLabel l) => some l
    | _ => none

namespace Emission

/-- The array elements an emission reads. -/
def reads : Emission → List Elem
  | .op o => (globalsOf o.reads).map Global.elem
  | .elemOp o => globalsOf o.reads
  | .helper fn _ args => if fn.hasStatus then .fcsr :: args else args

/-- The array elements an emission assigns. -/
def writes : Emission → List Elem
  | .op o => (globalsOf o.writes).map Global.elem
  | .elemOp o => globalsOf o.writes
  | .helper fn d _ => if fn.hasStatus then [.fcsr, d] else [d]

/-- An access to memory. -/
def accesses : Emission → Bool
  | .op o => o.accesses
  | .elemOp o => o.accesses
  | .helper .. => false

/-- An emission that can be the last one executed. -/
def mayFault : Emission → Bool
  | .op o => o.mayFault
  | .elemOp o => o.mayFault
  | .helper .. => false

end Emission

attribute [local simp] Emission.reads Emission.writes

section Dialect

variable (fpu : Fpu)

/-- The elements of an operation over globals are those of the operation over elements. -/
lemma globalsOf_map (vs : List (Var Global)) :
    globalsOf (vs.map (Var.map Global.elem)) = (globalsOf vs).map Global.elem := by
  induction vs with
  | nil => rfl
  | cons v vs ih =>
    cases v with
    | global g => exact congrArg (g.elem :: ·) ih
    | temp n => exact ih
    | const c => exact ih

lemma writes_map (o : Op Global) :
    (o.map Global.elem).writes = o.writes.map (Var.map Global.elem) := by
  cases o <;> rfl

/-- A variable among the globals of a list. -/
lemma mem_globalsOf {G : Type} {vs : List (Var G)} {g : G} : g ∈ globalsOf vs ↔ .global g ∈ vs := by
  constructor
  · intro h
    obtain ⟨v, hv, hg⟩ := List.mem_filterMap.mp h
    cases v with
    | global g' =>
      rw [← Option.some.inj hg]
      exact hv
    | temp n => simp at hg
    | const c => simp at hg
  · exact fun h => List.mem_filterMap.mpr ⟨_, h, rfl⟩

/-- **An element that an emission does not assign** keeps its value. -/
lemma step_globals {e : Emission} {r : Elem} (h : r ∉ e.writes) (s : Machine Elem) :
    (fpu.dialect.step e s).1.env.globals r = s.env.globals r := by
  cases e with
  | op o =>
    refine stepOp_globals (fun hmem => h ?_) s
    rw [← mem_globalsOf, writes_map, globalsOf_map] at hmem
    exact hmem
  | elemOp o => exact stepOp_globals (fun hmem => h (mem_globalsOf.mpr hmem)) s
  | helper fn d args =>
    have hd : r ≠ d ∧ (fn.hasStatus = true → r ≠ .fcsr) := by
      constructor
      · rintro rfl
        refine h ?_
        rw [Emission.writes]
        split_ifs <;> simp
      · rintro hstatus rfl
        exact h (by rw [Emission.writes, if_pos hstatus]; exact List.mem_cons_self)
    simp only [Fpu.dialect, Fpu.call]
    rw [Machine.globals_write_of_ne _ hd.1]
    split_ifs with hstatus
    · exact Machine.globals_write_of_ne _ (hd.2 hstatus) _
    · rfl

/-- Two machines with the same registers and memory; their temporaries can differ. -/
def SameCpu (s t : Machine Elem) : Prop := s.env.globals = t.env.globals ∧ s.mem = t.mem

lemma SameCpu.refl (s : Machine Elem) : SameCpu s s := ⟨rfl, rfl⟩

lemma SameCpu.trans {s t u : Machine Elem} (h : SameCpu s t) (h' : SameCpu t u) : SameCpu s u :=
  ⟨h.1.trans h'.1, h.2.trans h'.2⟩

/-- An operation without effect changes temporaries only. -/
lemma sameCpu_stepOp {o : Op Elem} (h : o.hasEffect = false) (s : Machine Elem) :
    SameCpu (stepOp o s).1 s := by
  have hwrite : ∀ (s : Machine Elem) (d : Var Elem) (v : BitVec 64), (∀ g, d ≠ .global g) →
      SameCpu (s.write d v) s := by
    intro s d v hd
    cases d with
    | global g => exact absurd rfl (hd g)
    | temp n => exact ⟨rfl, rfl⟩
    | const c => exact ⟨rfl, rfl⟩
  cases o with
  | wide f dl dh al ah bl bh =>
    have hl : ∀ g, dl ≠ .global g := by
      rintro g rfl
      simp [Op.hasEffect] at h
    have hh : ∀ g, dh ≠ .global g := by
      rintro g rfl
      cases dl <;> simp [Op.hasEffect] at h
    exact (hwrite _ _ _ hh).trans (hwrite _ _ _ hl)
  | qemuSt | atomicCmpxchg => simp [Op.hasEffect] at h
  | brcond | br | setLabel | mb | exception => exact SameCpu.refl s
  | _ =>
    refine hwrite _ _ _ ?_
    rintro g rfl
    simp [Op.hasEffect] at h

lemma hasEffect_map (o : Op Global) : (o.map Global.elem).hasEffect = o.hasEffect := by
  cases o with
  | wide f dl dh al ah bl bh => cases dl <;> cases dh <;> rfl
  | mov d | bin _ d | setcond _ d | movcond _ d | qemuLd d => cases d <;> rfl
  | _ => rfl

/-- **An emission without effect** changes temporaries only. -/
lemma sameCpu_step {e : Emission} (h : e.hasEffect = false) (s : Machine Elem) :
    SameCpu (fpu.dialect.step e s).1 s := by
  cases e with
  | op o => exact sameCpu_stepOp (by rw [hasEffect_map]; exact h) s
  | elemOp o => exact sameCpu_stepOp h s
  | helper fn d args => exact absurd h (by simp [Emission.hasEffect])

/-- Without helpers this is the execution of a list of operations. -/
lemma exec_eq_final {es : List Emission} {ops : List (Op Elem)} (h : es.mapM Emission.toOp = some ops)
    (l : Option ℕ) (s : Machine Elem) : exec ops l s =
      (fpu.dialect.final es l s).2.elim (.done (fpu.dialect.final es l s).1)
        fun e => .raised e (fpu.dialect.final es l s).1 := by
  induction es generalizing ops l s with
  | nil =>
    obtain rfl : ops = [] := by simpa using h.symm
    cases l <;> rfl
  | cons e es ih =>
    rw [List.mapM_cons] at h
    obtain ⟨o, ho, h⟩ := Option.bind_eq_some_iff.mp h
    obtain ⟨os, hos, h⟩ := Option.bind_eq_some_iff.mp h
    obtain rfl := Option.some.inj h
    have hlabel : ∀ k, o = .setLabel k ↔ fpu.dialect.label e = some k := by
      intro k
      cases e with
      | op o' =>
        obtain rfl := Option.some.inj ho
        cases o' <;> simp [Fpu.dialect]
      | elemOp o' =>
        obtain rfl := Option.some.inj ho
        cases o' <;> simp [Fpu.dialect]
      | helper => simp [Emission.toOp] at ho
    have hstep : fpu.dialect.step e s = stepOp o s := by
      cases e with
      | op o' =>
        obtain rfl := Option.some.inj ho
        rfl
      | elemOp o' =>
        obtain rfl := Option.some.inj ho
        rfl
      | helper => simp [Emission.toOp] at ho
    cases l with
    | some k =>
      rw [exec, Dialect.final]
      by_cases hk : o = .setLabel k
      · rw [if_pos hk, if_pos ((hlabel k).mp hk)]
        exact ih hos none s
      · rw [if_neg hk, if_neg fun h' => hk ((hlabel k).mpr h')]
        exact ih hos (some k) s
    | none =>
      rw [exec, Dialect.final, hstep]
      cases hcontrol : stepOp o s with
      | mk s' c =>
        cases c with
        | next => exact ih hos none s'
        | skip k => exact ih hos (some k) s'
        | raise e' => rfl

end Dialect

/-! ## Instructions on single registers -/

/-- A destination that is not `rd0`, `rb0` or in the return address stack. -/
def Global.Ordinary : Global → Prop
  | .rd i | .rb i => i ≠ 0
  | .ra _ => False
  | _ => True

@[simp] lemma ordinary_rd {i : ℕ} : (Global.rd i).Ordinary ↔ i ≠ 0 := Iff.rfl

@[simp] lemma ordinary_rb {i : ℕ} : (Global.rb i).Ordinary ↔ i ≠ 0 := Iff.rfl

@[simp] lemma ordinary_rf {i : ℕ} : (Global.rf i).Ordinary := trivial

@[simp] lemma ordinary_other : Global.jmpPc.Ordinary ∧ Global.loadRes.Ordinary ∧
    Global.loadVal.Ordinary := ⟨trivial, trivial, trivial⟩

/-- **Tame operations**: ordinary destinations, no operation that can fault behind an assignment, and
branches that stay inside. -/
def Tame : List (Op Global) → Prop
  | [] => True
  | o :: os => (∀ g ∈ globalsOf o.writes, g.Ordinary) ∧
    (o.hasEffect = true → ∀ o' ∈ os, o'.mayFault = false) ∧ (∀ l, o.target = some l → .setLabel l ∈ os) ∧
    Tame os

section Tame

variable {reg : ℕ → Global} (pc : BitVec 64) (w : BitVec 32)

@[simp] lemma tame_nil : Tame [] := trivial

@[simp] lemma tame_insnLdRrii {anyReg : Bool} (hreg : ∀ i, i ≠ 0 ∨ anyReg = true → (reg i).Ordinary)
    (op : MemOp) : Tame (insnLdRrii reg anyReg op w).ops := by
  unfold insnLdRrii
  by_cases h : fieldHa w ≠ 0 ∨ anyReg = true
  · rw [if_pos h]
    simp [Emitted.next, Tame, globalsOf, Op.writes, Op.hasEffect, Op.mayFault, Op.accesses, Op.target,
      hreg _ h]
  · rw [if_neg h]
    simp [Emitted.next, Tame, globalsOf, Op.writes, Op.hasEffect, Op.target]

@[simp] lemma tame_insnStRrii (op : MemOp) : Tame (insnStRrii reg op w).ops := by
  simp [insnStRrii, Emitted.next, Tame, globalsOf, Op.writes, Op.hasEffect, Op.target]

@[simp] lemma tame_insnCmpOrrr (cond : Cond) : Tame (insnCmpOrrr reg cond w).ops := by
  unfold insnCmpOrrr
  split_ifs with h <;>
    simp [Emitted.next, Tame, globalsOf, Op.writes, Op.hasEffect, Op.target, h]

section Immediate

variable (hreg : ∀ i, i ≠ 0 → (reg i).Ordinary)

include hreg

@[simp] lemma tame_insnSetzwRwii : Tame (insnSetzwRwii reg w).ops := by
  unfold insnSetzwRwii
  split_ifs with h <;>
    simp [Emitted.next, Tame, movi, globalsOf, Op.writes, Op.hasEffect, Op.target, hreg, h]

@[simp] lemma tame_insnOrwRwii : Tame (insnOrwRwii reg w).ops := by
  unfold insnOrwRwii
  split_ifs with h <;> simp [Emitted.next, Tame, globalsOf, Op.writes, Op.hasEffect, Op.target, hreg, h]

@[simp] lemma tame_insnAndnwRwii : Tame (insnAndnwRwii reg w).ops := by
  unfold insnAndnwRwii
  split_ifs with h <;> simp [Emitted.next, Tame, globalsOf, Op.writes, Op.hasEffect, Op.target, hreg, h]

@[simp] lemma tame_insnAlg1Rrii : Tame (insnAlg1Rrii reg w).ops := by
  unfold insnAlg1Rrii
  split_ifs with h <;> simp [Emitted.next, Tame, globalsOf, Op.writes, Op.hasEffect, Op.target, hreg, h]

end Immediate

@[simp] lemma tame_insnCset1Rrrr (cond : Cond) : Tame (insnCset1Rrrr cond w).ops := by
  unfold insnCset1Rrrr
  split_ifs with h <;> simp [Emitted.next, Tame, globalsOf, Op.writes, Op.hasEffect, Op.target, h]

@[simp] lemma tame_insnCset2Rrrr (cond : Cond) : Tame (insnCset2Rrrr cond w).ops := by
  unfold insnCset2Rrrr
  split_ifs with h <;> simp [Emitted.next, Tame, globalsOf, Op.writes, Op.hasEffect, Op.target, h]

@[simp] lemma tame_insnFcsetRrrr (cond : Cond) : Tame (insnFcsetRrrr cond w).ops := by
  simp [insnFcsetRrrr, Emitted.next, Tame, globalsOf, Op.writes, Op.hasEffect, Op.target]

@[simp] lemma tame_insnFcsetOrrr (cond : Cond) : Tame (insnFcsetOrrr cond w).ops := by
  simp [insnFcsetOrrr, Emitted.next, Tame, globalsOf, Op.writes, Op.hasEffect, Op.target]

@[simp] lemma tame_insnCmpRrii (imm : BitVec 64) (cond : Cond) : Tame (insnCmpRrii imm cond w).ops := by
  unfold insnCmpRrii
  split_ifs with h <;> simp [Emitted.next, Tame, globalsOf, Op.writes, Op.hasEffect, Op.target, h]

@[simp] lemma tame_insnAlg1Orrr (op : BinOp) : Tame (insnAlg1Orrr op w).ops := by
  unfold insnAlg1Orrr
  split_ifs with h <;> simp [Emitted.next, Tame, globalsOf, Op.writes, Op.hasEffect, Op.target, h]

@[simp] lemma tame_insnLogicOrrr (op : BinOp) : Tame (insnLogicOrrr op w).ops := by
  unfold insnLogicOrrr
  split_ifs with h <;> simp [Emitted.next, Tame, globalsOf, Op.writes, Op.hasEffect, Op.target, h]

@[simp] lemma tame_insnLogicOrri (op : BinOp) : Tame (insnLogicOrri op w).ops := by
  unfold insnLogicOrri
  split_ifs with h <;> simp [Emitted.next, Tame, globalsOf, Op.writes, Op.hasEffect, Op.target, h]

@[simp] lemma tame_insnExtOrrr (op : BinOp) : Tame (insnExtOrrr op w).ops := by
  unfold insnExtOrrr
  split_ifs with h <;>
    simp [Emitted.next, Tame, globalsOf, Op.writes, Op.hasEffect, Op.mayFault, Op.accesses, Op.target, h]

@[simp] lemma tame_insnExtOrri (op : BinOp) : Tame (insnExtOrri op w).ops := by
  unfold insnExtOrri
  split_ifs with h <;>
    simp [Emitted.next, Tame, globalsOf, Op.writes, Op.hasEffect, Op.mayFault, Op.accesses, Op.target, h]

@[simp] lemma tame_insnAlg1Rrrr (op : BinOp) (op2 : WideOp) : Tame (insnAlg1Rrrr op op2 w).ops := by
  unfold insnAlg1Rrrr
  by_cases ha : fieldHa w = 0 <;> by_cases hb : fieldHb w = 0 <;>
    simp [Emitted.next, Tame, globalsOf, Op.writes, Op.hasEffect, Op.mayFault, Op.accesses, Op.target,
      ha, hb]

/-- The assignments at the end of a product or a quotient. -/
lemma tame_movHaHb : Tame (movHaHb w) ∧ ∀ o ∈ movHaHb w, o.mayFault = false := by
  unfold movHaHb
  by_cases ha : fieldHa w = 0 <;> by_cases hb : fieldHb w = 0 <;>
    simp [Tame, globalsOf, Op.writes, Op.hasEffect, Op.mayFault, Op.accesses, Op.target, ha, hb]

@[simp] lemma tame_insnMulRrrr (op2 : WideOp) : Tame (insnMulRrrr op2 w).ops := by
  simp [insnMulRrrr, Emitted.next, Tame, globalsOf, Op.writes, Op.hasEffect, Op.target, tame_movHaHb w]

@[simp] lemma tame_insnDivRrrr (op op' : BinOp) : Tame (insnDivRrrr op op' w).ops := by
  simp [insnDivRrrr, Emitted.next, Tame, globalsOf, Op.writes, Op.hasEffect, Op.target, tame_movHaHb w]

@[simp] lemma tame_insnBrRrii (cond : Cond) : Tame (insnBrRrii cond pc w).ops := by
  simp [insnBrRrii, Emitted.jump, Tame, globalsOf, Op.writes, Op.target]

@[simp] lemma tame_insnBrRiii (cond : Cond) : Tame (insnBrRiii cond pc w).ops := by
  simp [insnBrRiii, Emitted.jump, Tame, globalsOf, Op.writes, Op.target]

@[simp] lemma tame_transJUMPr : Tame (transJUMPr w).ops := by
  simp [transJUMPr, Emitted.jump, Tame, globalsOf, Op.writes, Op.mayFault, Op.accesses, Op.target]

@[simp] lemma tame_transSETOW : Tame (transSETOW w).ops := by
  unfold transSETOW
  split_ifs with h <;> simp [Emitted.next, Tame, movi, globalsOf, Op.writes, Op.target, h]

@[simp] lemma tame_transSETW : Tame (transSETW w).ops := by
  simp [transSETW, Emitted.next, Tame, globalsOf, Op.writes, Op.mayFault, Op.accesses, Op.target]

@[simp] lemma tame_transADRP : Tame (transADRP pc w).ops := by
  unfold transADRP
  split_ifs with h <;>
    simp [Emitted.next, Tame, globalsOf, Op.writes, Op.mayFault, Op.accesses, Op.target, h]

@[simp] lemma tame_transXNOR : Tame (transXNOR w).ops := by
  unfold transXNOR
  split_ifs with h <;>
    simp [Emitted.next, Tame, globalsOf, Op.writes, Op.mayFault, Op.accesses, Op.target, h]

@[simp] lemma tame_transANDI : Tame (transANDI w).ops := by
  unfold transANDI
  split_ifs with h <;> simp [Emitted.next, Tame, globalsOf, Op.writes, Op.target, h]

lemma tame_transLRO {rel acq : Bool} {e : Emitted} (h : transLRO rel acq w = some e) : Tame e.ops := by
  unfold transLRO at h
  split_ifs at h with hd hc <;> obtain rfl := Option.some.inj h
  · exact tame_nil
  all_goals
    simp [Emitted.next, Tame, globalsOf, Op.writes, Op.hasEffect, Op.mayFault, Op.accesses, Op.target, hc]

lemma tame_transSCO {e : Emitted} (h : transSCO w = some e) : Tame e.ops := by
  unfold transSCO at h
  split_ifs at h with hd
  obtain rfl := Option.some.inj h
  rw [not_or] at hd
  simp [Emitted.next, Tame, movi, globalsOf, Op.writes, Op.hasEffect, Op.mayFault, Op.accesses, Op.target,
    hd.2]

lemma tame_transTRAP {e : Emitted} (h : transTRAP w = some e) : Tame e.ops := by
  unfold transTRAP at h
  split_ifs at h
  obtain rfl := Option.some.inj h
  simp [Tame, globalsOf, Op.writes, Op.hasEffect, Op.target]

/-- The instructions that use the return address stack. -/
def UsesStack (e : Emitted) : Prop :=
  ((w >>> 24).toNat = 0x6c ∧ e = transCALLi pc w) ∨ ((w >>> 24).toNat = 0x6d ∧ e = transCALLr pc w) ∨
    ((w >>> 24).toNat = 0x6e ∧ e = transRET w)

/-- The instructions with opcode byte `0x10`. -/
lemma disasMinor10_tame {e : Emitted} (h : disasMinor10 pc w = some (some e)) :
    Tame e.ops ∨ e = illegalInstruction pc := by
  unfold disasMinor10 at h
  split at h <;> simp only [reduceCtorEq, Option.some.injEq] at h <;> subst h
  case h_32 => exact .inr rfl
  all_goals
    refine .inl ?_
    simp [transADDrb, transAND, transCMP, transCMPSr, transCMPUr, transCSNP1, transCSP1, transEXTSi,
      transEXTSr, transEXTZi, transEXTZr, transORR, transSHLUi, transSHLUr, transSHRSi,
      transSHRSr, transSHRUi, transSHRUr, transSUBrb, transXOR, Emitted.next]

/-- The instructions with opcode byte `0x70`. -/
lemma disasMinor70_tame {e : Emitted} (h : disasMinor70 w = some (some e)) : Tame e.ops := by
  unfold disasMinor70 at h
  split at h <;> simp only [reduceCtorEq, Option.some.injEq] at h
  case h_1 =>
    subst h
    exact tame_nil
  all_goals first
    | exact tame_transLRO w h
    | exact tame_transSCO w h

/-- **The instructions on single registers** are tame but for the calls, `RET` and the illegal one. -/
lemma disasDadao_tame {e : Emitted} (h : disasDadao pc w = some (some e)) :
    Tame e.ops ∨ e = illegalInstruction pc ∨ UsesStack pc w e := by
  unfold disasDadao at h
  unfold UsesStack
  split at h
  case h_1 =>
    rcases disasMinor10_tame pc w h with htame | hillegal
    · exact .inl htame
    · exact .inr (.inl hillegal)
  case h_82 => exact .inl (disasMinor70_tame w h)
  case h_83 => exact .inl (tame_transTRAP w (Option.some.inj h))
  all_goals simp only [reduceCtorEq, Option.some.injEq] at h
  case h_78 hop => exact .inr (.inr (.inl ⟨hop, h.symm⟩))
  case h_79 hop => exact .inr (.inr (.inr (.inl ⟨hop, h.symm⟩)))
  case h_80 hop => exact .inr (.inr (.inr (.inr ⟨hop, h.symm⟩)))
  all_goals subst h
  all_goals
    refine .inl ?_
    simp [transADDIrb, transADDIrd, transADDrd, transANDNWrb, transANDNWrd, transBREQ, transBRN,
      transBRNE, transBRNN, transBRNP, transBRNZ, transBRP, transBRZ, transCMPSi, transCMPUi,
      transCSEQ, transCSNE, transCSNrd, transCSNrf, transCSPrd, transCSPrf, transCSZrd, transCSZrf,
      transDIVS, transDIVU, transLDBS, transLDBU, transLDOrb, transLDOrd, transLDOrf, transLDT,
      transLDTS, transLDTU, transLDWS, transLDWU, transMULS, transMULU, transORWrb, transORWrd,
      transSETZWrb, transSETZWrd, transSTB, transSTOrb, transSTOrd, transSTOrf, transSTTrd,
      transSTTrf, transSTW, transSUBrd, transJUMPi]

end Tame

/-! ## Translations -/

/-- The instructions that may change the return address stack: the calls, `RET`, `RD2RA` and
`LDMOra`. -/
def ChangesStack (w : BitVec 32) : Prop :=
  (w >>> 24).toNat ∈ [0x6c, 0x6d, 0x6e] ∨ multiOf w = some transRD2RA ∨ multiOf w = some transLDMOra

/-- A translation that starts with the illegal-instruction exception. -/
def Translation.Illegal (pc : BitVec 64) (t : Translation) : Prop :=
  t.isJmp = .noreturn ∧ ∃ rest, t.emitted = (illegalInstruction pc).ops.map .op ++ rest

/-- **An orderly translation**: it leaves the program counter alone, and the return address stack
unless it is meant to change it; it does not read `rd0` where it assigns it; its branches stay inside. -/
structure Translation.Orderly (w : BitVec 32) (t : Translation) : Prop where
  writes : ∀ e ∈ t.emitted, ∀ r ∈ e.writes, r ≠ .pc ∧ ∀ i, r = .reg .ra i → ChangesStack w
  zero : (∀ e ∈ t.emitted, .reg .rd 0 ∉ e.writes) ∨ ∀ e ∈ t.emitted, .reg .rd 0 ∉ e.reads
  closed : ∀ fpu : Fpu, fpu.dialect.Closed t.emitted

section Orderly

variable {pc : BitVec 64} {w : BitVec 32}

/-- Branches that stay inside a list of operations. -/
def OpsClosed : List (Op Global) → Prop
  | [] => True
  | o :: os => (∀ l, o.target = some l → .setLabel l ∈ os) ∧ OpsClosed os

lemma Tame.opsClosed {ops : List (Op Global)} (h : Tame ops) : OpsClosed ops := by
  induction ops with
  | nil => trivial
  | cons o ops ih => exact ⟨h.2.2.1, ih h.2.2.2⟩

lemma Tame.ordinary {ops : List (Op Global)} (h : Tame ops) :
    ∀ o ∈ ops, ∀ g ∈ globalsOf o.writes, g.Ordinary := by
  induction ops with
  | nil => simp
  | cons o ops ih =>
    intro o' ho'
    rcases List.mem_cons.mp ho' with rfl | ho'
    · exact h.1
    · exact ih h.2.2.2 o' ho'

lemma OpsClosed.append {xs ys : List (Op Global)} (hx : OpsClosed xs) (hy : OpsClosed ys) :
    OpsClosed (xs ++ ys) := by
  induction xs with
  | nil => exact hy
  | cons o xs ih => exact ⟨fun l hl => List.mem_append_left ys (hx.1 l hl), ih hx.2⟩

lemma opsClosed_of_straight {ops : List (Op Global)} (h : ∀ o ∈ ops, o.target = none) :
    OpsClosed ops := by
  induction ops with
  | nil => trivial
  | cons o ops ih =>
    refine ⟨fun l hl => ?_, ih fun o' ho' => h o' (List.mem_cons_of_mem o ho')⟩
    rw [h o List.mem_cons_self] at hl
    exact absurd hl (by simp)

/-- Branches of the emitted operations stay inside too. -/
lemma OpsClosed.closed {ops : List (Op Global)} (h : OpsClosed ops) (fpu : Fpu) :
    fpu.dialect.Closed (ops.map .op) := by
  induction ops with
  | nil => trivial
  | cons o ops ih =>
    refine ⟨fun s l hskip => ?_, ih h.2⟩
    have htarget : o.target = some l := by
      rw [← target_of_stepOp hskip]
      cases o <;> rfl
    exact ⟨.op (.setLabel l), List.mem_map_of_mem (h.1 l htarget), rfl⟩

/-- An ordinary destination is neither the program counter nor `rd0` nor in the stack. -/
lemma Global.Ordinary.elem {g : Global} (h : g.Ordinary) :
    g.elem ≠ .pc ∧ g.elem ≠ .reg .rd 0 ∧ ∀ i, g.elem ≠ .reg .ra i := by
  cases g with
  | rd i | rb i =>
    have hi : i ≠ 0 := h
    simp [Global.elem, hi]
  | ra i => exact h.elim
  | _ => simp [Global.elem]

/-- **Tame operations** are orderly. -/
lemma Tame.orderly {e : Emitted} (h : Tame e.ops) : e.translation.Orderly w := by
  have hord : ∀ x ∈ e.translation.emitted, ∀ r ∈ x.writes,
      r ≠ .pc ∧ r ≠ .reg .rd 0 ∧ ∀ i, r ≠ .reg .ra i := by
    intro x hx r hr
    obtain ⟨o, ho, rfl⟩ := List.mem_map.mp hx
    obtain ⟨g, hg, rfl⟩ := List.mem_map.mp hr
    exact (h.ordinary o ho g hg).elem
  refine ⟨fun x hx r hr => ⟨(hord x hx r hr).1, fun i hi => ?_⟩, .inl fun x hx hr => ?_,
    h.opsClosed.closed⟩
  · exact absurd hi ((hord x hx r hr).2.2 i)
  · exact (hord x hx _ hr).2.1 rfl

/-! ### The return address stack -/

/-- Operations on the stack: they assign `ra`, `jmp_pc` or a register other than `rd0`. -/
def OnStack (o : Op Global) : Prop :=
  ∀ g ∈ globalsOf o.writes, g.Ordinary ∨ ∃ i, g = .ra i

lemma onStack_push : ∀ o ∈ pushReturnAddress pc, OnStack o := by
  intro o ho
  rw [pushReturnAddress, List.mem_append, List.mem_append, List.mem_map] at ho
  rcases ho with (ho | ⟨i, -, rfl⟩) | ho
  · simp only [List.mem_cons, List.not_mem_nil, or_false] at ho
    rcases ho with rfl | rfl | rfl | rfl | rfl | rfl | rfl <;> simp [OnStack, globalsOf, Op.writes]
  · simp [OnStack, globalsOf, Op.writes]
  · obtain rfl := List.mem_singleton.mp ho
    simp [OnStack, movi, globalsOf, Op.writes]

lemma onStack_pop : ∀ o ∈ popReturnAddress, OnStack o := by
  intro o ho
  rw [popReturnAddress, List.mem_append, List.mem_append, List.mem_map] at ho
  rcases ho with (ho | ⟨i, -, rfl⟩) | ho
  · simp only [List.mem_cons, List.not_mem_nil, or_false] at ho
    rcases ho with rfl | rfl | rfl | rfl | rfl | rfl | rfl | rfl | rfl <;>
      simp [OnStack, globalsOf, Op.writes]
  · simp [OnStack, globalsOf, Op.writes]
  · simp only [List.mem_cons, List.not_mem_nil, or_false] at ho
    rcases ho with rfl | rfl <;> simp [OnStack, globalsOf, Op.writes]

lemma opsClosed_push : OpsClosed (pushReturnAddress pc) := by
  refine OpsClosed.append (OpsClosed.append ?_ ?_) ?_
  · simp [OpsClosed, Op.target]
  · refine opsClosed_of_straight fun o ho => ?_
    obtain ⟨i, -, rfl⟩ := List.mem_map.mp ho
    rfl
  · simp [OpsClosed, movi, Op.target]

lemma opsClosed_pop : OpsClosed popReturnAddress := by
  have hmoves : ∀ o ∈ (List.range 62).map fun i =>
      (.mov (glob (.ra (63 - i))) (glob (.ra (62 - i))) : Op Global), o.target = none := by
    intro o ho
    obtain ⟨i, -, rfl⟩ := List.mem_map.mp ho
    rfl
  have htail : OpsClosed ((List.range 62).map (fun i =>
      (.mov (glob (.ra (63 - i))) (glob (.ra (62 - i))) : Op Global)) ++
      [.mov (glob (.ra 1)) (.const 0), .setLabel 2]) :=
    (opsClosed_of_straight hmoves).append (by simp [OpsClosed, Op.target])
  rw [popReturnAddress, List.append_assoc]
  simp only [List.cons_append, List.nil_append, OpsClosed, Op.target, Option.some.injEq, forall_eq',
    reduceCtorEq, false_implies, implies_true, true_and]
  refine ⟨?_, ?_, ?_, htail⟩ <;> simp

/-- The calls and `RET` are orderly. -/
lemma UsesStack.orderly {e : Emitted} (h : UsesStack pc w e) : e.translation.Orderly w := by
  have hopcode : ChangesStack w := by
    refine .inl ?_
    rcases h with ⟨hop, -⟩ | ⟨hop, -⟩ | ⟨hop, -⟩ <;> simp [hop]
  have hops : (∀ o ∈ e.ops, OnStack o) ∧ OpsClosed e.ops := by
    rcases h with ⟨-, rfl⟩ | ⟨-, rfl⟩ | ⟨-, rfl⟩
    · rw [transCALLi]
      simpa [transJUMPi] using ⟨onStack_push, opsClosed_push⟩
    · have hjump : Tame (transJUMPr w).ops := tame_transJUMPr w
      refine ⟨fun o ho => ?_, opsClosed_push.append hjump.opsClosed⟩
      rcases List.mem_append.mp ho with ho | ho
      · exact onStack_push o ho
      · exact fun g hg => .inl (hjump.ordinary o ho g hg)
    · refine ⟨fun o ho => ?_, OpsClosed.append ?_ opsClosed_pop⟩
      · rcases List.mem_append.mp ho with ho | ho
        · split_ifs at ho with hha
          · obtain rfl := List.mem_singleton.mp ho
            simp [OnStack, movi, globalsOf, Op.writes, hha]
          · exact absurd ho List.not_mem_nil
        · exact onStack_pop o ho
      · split_ifs <;> simp [OpsClosed, movi, Op.target]
  have hwrites : ∀ x ∈ e.translation.emitted, ∀ r ∈ x.writes, r ≠ .pc ∧ r ≠ .reg .rd 0 := by
    intro x hx r hr
    obtain ⟨o, ho, rfl⟩ := List.mem_map.mp hx
    obtain ⟨g, hg, rfl⟩ := List.mem_map.mp hr
    rcases hops.1 o ho g hg with hg | ⟨i, rfl⟩
    · exact ⟨hg.elem.1, hg.elem.2.1⟩
    · simp [Global.elem]
  exact ⟨fun x hx r hr => ⟨(hwrites x hx r hr).1, fun _ _ => hopcode⟩,
    .inl fun x hx hr => (hwrites x hx _ hr).2 rfl, hops.2.closed⟩

/-! ### Several registers and helpers -/

/-- An emission of a loop: a straight one whose destination is not read only. -/
def InLoop (file : RegFile) (e : Emission) : Prop :=
  (∀ r ∈ e.writes, r ≠ .pc ∧ r ≠ .reg .rd 0 ∧ ∀ i, r = .reg .ra i → file = .ra) ∧
    ∀ (fpu : Fpu) s, (fpu.dialect.step e s).2 = .next

/-- The register file an instruction on several registers assigns. -/
def Multi.destFile : Multi → RegFile
  | .ldm dest _ | .r2r _ dest | .fcvt _ _ dest => dest
  | .stm .. => .rd

lemma inLoop_ldmBody {dest : RegFile} {op : MemOp} {ha : ℤ} :
    ∀ e ∈ ldmBody dest op ha, InLoop dest e := by
  intro e he
  unfold ldmBody at he
  split_ifs at he with h
  · simp only [List.cons_append, List.nil_append, List.mem_cons, List.not_mem_nil, or_false] at he
    rcases he with rfl | rfl | rfl
    · exact ⟨by simp [Emission.writes, globalsOf, Op.writes], fun _ _ => rfl⟩
    · refine ⟨?_, fun _ _ => rfl⟩
      simp only [Emission.writes, globalsOf, Op.writes, List.filterMap_cons, List.filterMap_nil,
        List.mem_singleton, forall_eq, Elem.pc, ne_eq, Elem.reg.injEq, not_and, and_imp]
      refine ⟨?_, ?_, fun _ hfile _ => hfile⟩
      · rintro rfl
        simpa using h
      · rintro rfl
        simpa using h
    · exact ⟨by simp [Emission.writes, globalsOf, Op.writes], fun _ _ => rfl⟩
  · simp only [List.append_nil, List.cons_append, List.nil_append, List.mem_cons, List.not_mem_nil,
      or_false] at he
    rcases he with rfl | rfl <;>
      exact ⟨by simp [Emission.writes, globalsOf, Op.writes], fun _ _ => rfl⟩

lemma inLoop_stmBody {src : RegFile} (file : RegFile) {op : MemOp} {ha : ℤ} :
    ∀ e ∈ stmBody src op ha, InLoop file e := by
  intro e he
  simp only [stmBody, List.mem_cons, List.not_mem_nil, or_false] at he
  rcases he with rfl | rfl <;>
    exact ⟨by simp [Emission.writes, globalsOf, Op.writes], fun _ _ => rfl⟩

lemma inLoop_r2rBody {src dest : RegFile} {hb hc : ℤ} :
    ∀ e ∈ r2rBody src dest hb hc, InLoop dest e := by
  intro e he
  unfold r2rBody at he
  split_ifs at he with h
  · obtain rfl := List.mem_singleton.mp he
    refine ⟨?_, fun _ _ => rfl⟩
    simp only [Emission.writes, globalsOf, Op.writes, List.filterMap_cons, List.filterMap_nil,
      List.mem_singleton, forall_eq, Elem.pc, ne_eq, Elem.reg.injEq, not_and, and_imp]
    refine ⟨?_, ?_, fun _ hfile _ => hfile⟩
    · rintro rfl
      simpa using h
    · rintro rfl
      simpa using h
  · exact absurd he List.not_mem_nil

/-- A helper: the destination and `fcsr`. -/
lemma writes_helper {fn : Helper} {d : Elem} {args : List Elem} {r : Elem}
    (h : r ∈ (Emission.helper fn d args).writes) : r = d ∨ r = .fcsr := by
  rw [Emission.writes] at h
  split_ifs at h <;> simp at h <;> tauto

lemma inLoop_fcvtBody {fn : Helper} {src dest : RegFile} {hb hc : ℤ} :
    ∀ e ∈ fcvtBody fn src dest hb hc, InLoop dest e := by
  intro e he
  unfold fcvtBody at he
  split_ifs at he with h
  · obtain rfl := List.mem_singleton.mp he
    refine ⟨fun r hr => ?_, fun _ _ => rfl⟩
    rcases writes_helper hr with rfl | rfl
    · simp [h]
    · simp
  · exact absurd he List.not_mem_nil

/-- Emissions of a loop are orderly. -/
lemma orderly_of_inLoop {file : RegFile} {emitted : List Emission} {isJmp : DisasJump}
    (h : ∀ e ∈ emitted, InLoop file e) (hfile : file = .ra → ChangesStack w) :
    Translation.Orderly w ⟨emitted, isJmp, -1⟩ := by
  refine ⟨fun e he r hr => ?_, .inl fun e he hr => ?_, fun fpu => ?_⟩
  · obtain ⟨hpc, -, hra⟩ := (h e he).1 r hr
    exact ⟨hpc, fun i hi => hfile (hra i hi)⟩
  · exact ((h e he).1 _ hr).2.1 rfl
  · exact Dialect.Straight.closed fun e he s => (h e he).2 fpu s

/-- Of several reports one is made. -/
lemma exists_report {p : Prop} [Decidable p] {reports : List Emission}
    (h : p ∨ ∃ rest, reports = (illegalInstruction pc).ops.map .op ++ rest) :
    ∃ rest, illegalWhen p pc ++ reports = (illegalInstruction pc).ops.map .op ++ rest := by
  by_cases hp : p
  · exact ⟨reports, by rw [illegalWhen, if_pos hp]⟩
  · rw [illegalWhen, if_neg hp, List.nil_append]
    exact h.resolve_left hp

/-- `INSN_LDM_RRRI` and `INSN_STM_RRRI` with an illegal count. -/
lemma insnMemRrri_illegal {body : ℤ → List Emission} {fuel : ℕ} {t : Translation}
    (hillegal : fieldHd w = 0 ∨ fieldHa w + fieldHd w > 64)
    (h : insnMemRrri body fuel pc w = some t) : t.Illegal pc := by
  obtain ⟨emitted, hwalk, rfl⟩ := Option.map_eq_some_iff.mp h
  refine ⟨if_pos hillegal, ?_⟩
  rw [Translation.unless, List.append_assoc, List.append_assoc]
  refine exists_report (hillegal.imp_right fun hover => ?_)
  exact ⟨_, by rw [illegalWhen, if_pos hover]⟩

/-- `INSN_R2R_ORRI` and `INSN_FCVT_ORRI` with an illegal count. -/
lemma insnRegOrri_illegal {body : ℤ → ℤ → List Emission} {fuel : ℕ} {t : Translation}
    (hillegal : fieldHd w = 0 ∨ fieldHb w + fieldHd w > 64 ∨ fieldHc w + fieldHd w > 64)
    (h : insnRegOrri body fuel pc w = some t) : t.Illegal pc := by
  obtain ⟨emitted, hwalk, rfl⟩ := Option.map_eq_some_iff.mp h
  refine ⟨if_pos hillegal, ?_⟩
  rw [Translation.unless, List.append_assoc, List.append_assoc]
  refine exists_report (hillegal.imp_right fun hover => exists_report (hover.imp_right fun hover => ?_))
  exact ⟨_, by rw [illegalWhen, if_pos hover]⟩

/-- **An illegal count** is reported first. -/
lemma Multi.illegal_of_not_legal {m : Multi} (hm : ¬ m.Legal w) {fuel : ℕ} {t : Translation}
    (h : m.trans fuel pc w = some t) : t.Illegal pc := by
  have hcount : fieldHd w = 0 ∨ ∃ first ∈ m.firsts w, first + fieldHd w > 64 := by
    by_contra hnone
    push Not at hnone
    exact hm ⟨hnone.1, fun first hfirst => hnone.2 first hfirst⟩
  cases m with
  | ldm dest op | stm src op =>
    refine insnMemRrri_illegal (hcount.imp_right ?_) h
    simp [firsts]
  | r2r src dest | fcvt fn src dest =>
    refine insnRegOrri_illegal (hcount.imp_right ?_) h
    simp [firsts]

/-- `INSN_LDM_RRRI` and `INSN_STM_RRRI`. -/
lemma insnMemRrri_cases {file : RegFile} {body : ℤ → List Emission} {fuel : ℕ} {t : Translation}
    (hbody : ∀ i, ∀ e ∈ body i, InLoop file e) (hfile : file = .ra → ChangesStack w)
    (h : insnMemRrri body fuel pc w = some t) : t.Illegal pc ∨ t.Orderly w := by
  by_cases hillegal : fieldHd w = 0 ∨ fieldHa w + fieldHd w > 64
  · exact .inl (insnMemRrri_illegal hillegal h)
  · obtain ⟨emitted, hwalk, rfl⟩ := Option.map_eq_some_iff.mp h
    refine .inr ?_
    rw [Translation.unless, if_neg hillegal]
    rw [not_or] at hillegal
    rw [illegalWhen_of_not hillegal.1, illegalWhen_of_not hillegal.2]
    refine orderly_of_inLoop (fun e he => ?_) hfile
    rcases List.mem_append.mp he with he | he
    · simp only [List.nil_append, List.mem_singleton] at he
      subst he
      exact ⟨by simp [Emission.writes, globalsOf, Op.writes], fun _ _ => rfl⟩
    · rw [walkUp] at hwalk
      exact Loop.forall_doWhile (fun s : ℤ × ℤ => hbody s.1) hwalk e he

/-- `INSN_R2R_ORRI` and `INSN_FCVT_ORRI`. -/
lemma insnRegOrri_cases {file : RegFile} {body : ℤ → ℤ → List Emission} {fuel : ℕ} {t : Translation}
    (hbody : ∀ i j, ∀ e ∈ body i j, InLoop file e) (hfile : file = .ra → ChangesStack w)
    (h : insnRegOrri body fuel pc w = some t) : t.Illegal pc ∨ t.Orderly w := by
  by_cases hillegal : fieldHd w = 0 ∨ fieldHb w + fieldHd w > 64 ∨ fieldHc w + fieldHd w > 64
  · exact .inl (insnRegOrri_illegal hillegal h)
  · obtain ⟨emitted, hwalk, rfl⟩ := Option.map_eq_some_iff.mp h
    refine .inr ?_
    rw [Translation.unless, if_neg hillegal]
    rw [not_or, not_or] at hillegal
    rw [illegalWhen_of_not hillegal.1, illegalWhen_of_not hillegal.2.1, illegalWhen_of_not hillegal.2.2]
    rw [walkTwo] at hwalk
    exact orderly_of_inLoop (Loop.forall_doWhile (fun s : ℤ × ℤ × ℤ => hbody s.1 s.2.1) hwalk) hfile

/-- An instruction on several registers. -/
lemma Multi.trans_cases {m : Multi} (hfile : m.destFile = .ra → ChangesStack w) {fuel : ℕ}
    {t : Translation} (h : m.trans fuel pc w = some t) : t.Illegal pc ∨ t.Orderly w := by
  cases m with
  | ldm dest op => exact insnMemRrri_cases (fun _ => inLoop_ldmBody) hfile h
  | stm src op => exact insnMemRrri_cases (fun _ => inLoop_stmBody _) hfile h
  | r2r src dest => exact insnRegOrri_cases (fun _ _ => inLoop_r2rBody) hfile h
  | fcvt fn src dest => exact insnRegOrri_cases (fun _ _ => inLoop_fcvtBody) hfile h

/-- The instructions on several registers that assign the stack. -/
lemma changesStack_of_multiOf {m : Multi} (hm : multiOf w = some m) (hfile : m.destFile = .ra) :
    ChangesStack w := by
  refine .inr ?_
  rw [hm]
  unfold multiOf multiMinor10 multiMinor50 at hm
  repeat' split at hm
  all_goals simp only [reduceCtorEq, Option.some.injEq] at hm
  all_goals subst hm
  all_goals first
    | exact .inl rfl
    | exact .inr rfl
    | exact absurd hfile (by decide)

/-- The call of one helper: operands in `rf`, the destination in `rf` or `rd`. -/
def Translation.IsCall (t : Translation) : Prop :=
  ∃ fn file i args, file ∈ [RegFile.rd, .rf] ∧ (∀ a ∈ args, ∃ j, a = .reg .rf j) ∧
    t = ⟨[.helper fn (.reg file i) args], .next, -1⟩

/-- The instructions with one call of a helper. -/
lemma helperInsn_cases {t : Translation} (h : helperInsn pc w = some t) : t.Illegal pc ∨ t.IsCall := by
  have horrr : ∀ fn, (insnFalgOrrr fn w).IsCall :=
    fun fn => ⟨fn, .rf, fieldHb w, _, by simp, by simp, rfl⟩
  have hrrrr : ∀ fn, (insnFalgRrrr fn w).IsCall :=
    fun fn => ⟨fn, .rf, fieldHa w, _, by simp, by simp, rfl⟩
  have hcmp : ∀ fn, (insnFcmpOrrr fn w).IsCall :=
    fun fn => ⟨fn, .rd, fieldHb w, _, by simp, by simp, rfl⟩
  have horri : ∀ fn, (insnFalgOrri fn pc w).Illegal pc ∨ (insnFalgOrri fn pc w).IsCall := by
    intro fn
    rw [insnFalgOrri]
    by_cases himm : fieldHd w ≠ 2
    · refine .inl ⟨if_pos himm, ?_⟩
      exact ⟨_, by rw [Translation.unless, illegalWhen, if_pos himm]⟩
    · refine .inr ⟨fn, .rf, fieldHb w, [elemOf .rf fieldHc w], by simp, by simp, ?_⟩
      rw [illegalWhen_of_not himm, Translation.unless, if_neg himm]
      rfl
  unfold helperInsn at h
  split at h <;> simp only [reduceCtorEq, Option.some.injEq] at h <;> subst h <;>
    simp [transFTADD, transFTSUB, transFTMUL, transFTDIV, transFTREM, transFOADD, transFOSUB,
      transFOMUL, transFODIV, transFOREM, transFTSGNJ, transFTSGNN, transFOSGNJ, transFOSGNN,
      transFTMADD, transFOMADD, transFTROOT, transFOROOT, transFTLOG, transFOLOG, transFTQCMP,
      transFTSCMP, transFOQCMP, transFOSCMP, horrr, hrrrr, hcmp, horri]

/-- The call of a helper is orderly. -/
lemma Translation.IsCall.orderly {t : Translation} (h : t.IsCall) : t.Orderly w := by
  obtain ⟨fn, file, i, args, hfile, hargs, rfl⟩ := h
  refine ⟨fun e he r hr => ?_, .inr fun e he hr => ?_, fun fpu => ?_⟩
  · obtain rfl := List.mem_singleton.mp he
    rcases writes_helper hr with rfl | rfl
    · simp only [List.mem_cons, List.not_mem_nil, or_false] at hfile
      rcases hfile with rfl | rfl <;> simp
    · simp
  · obtain rfl := List.mem_singleton.mp he
    rw [Emission.reads] at hr
    have hmem : .reg .rd 0 ∈ args := by
      split_ifs at hr
      · rcases List.mem_cons.mp hr with heq | hmem
        · exact absurd heq (by simp)
        · exact hmem
      · exact hr
    obtain ⟨j, hj⟩ := hargs _ hmem
    exact absurd hj (by simp)
  · refine Dialect.Straight.closed fun e he s => ?_
    obtain rfl := List.mem_singleton.mp he
    rfl

/-- The illegal-instruction exception. -/
lemma illegal_illegalInstruction : (illegalInstruction pc).translation.Illegal pc :=
  ⟨rfl, [], (List.append_nil _).symm⟩

/-- **Every translation** is the illegal-instruction exception or orderly. -/
lemma disasInsn_cases {fuel : ℕ} {t : Translation} (h : disasInsn fuel pc w = some t) :
    t.Illegal pc ∨ t.Orderly w := by
  rw [disasInsn] at h
  cases hm : multiOf w with
  | some m =>
    rw [hm] at h
    exact Multi.trans_cases (changesStack_of_multiOf hm) h
  | none =>
    rw [hm] at h
    cases hhelper : helperInsn pc w with
    | some t' =>
      rw [hhelper] at h
      obtain rfl := Option.some.inj h
      exact (helperInsn_cases hhelper).imp_right Translation.IsCall.orderly
    | none =>
      rw [hhelper] at h
      obtain rfl := Option.some.inj h
      cases hdisas : disasDadao pc w with
      | none => exact .inl illegal_illegalInstruction
      | some e =>
        cases e with
        | none => exact .inl illegal_illegalInstruction
        | some e =>
          rcases disasDadao_tame pc w hdisas with htame | rfl | hstack
          · exact .inr htame.orderly
          · exact .inl illegal_illegalInstruction
          · exact .inr hstack.orderly

end Orderly

end Dadao.Qemu
