import Dadao.Qemu.Safety

set_option relaxedAutoImplicit false
set_option autoImplicit false

/-!
# The execution of a word in the simulator

A translation block that holds one instruction, executed on a machine whose globals are the elements of
the arrays of `translate.c`. The instructions with a floating point helper have no execution here.

## Main definitions

* `Dadao.Qemu.Translation.run` — the execution of a translation.
* `Dadao.Qemu.Executes` — the execution of a word.

## Main results

* `Dadao.Qemu.executes_iff` — a word has the one outcome of its translation.
* `Dadao.Qemu.translateInsn_unique` — the fuel of the translator makes no difference.
-/

namespace Dadao.Qemu

open Tcg

@[simp] lemma Global.elem_rd (i : ℕ) : (Global.rd i).elem = .reg .rd i := rfl

@[simp] lemma Global.elem_rb (i : ℕ) : (Global.rb i).elem = .reg .rb i := rfl

@[simp] lemma Global.elem_rf (i : ℕ) : (Global.rf i).elem = .reg .rf i := rfl

@[simp] lemma Global.elem_jmpPc : Global.jmpPc.elem = .jmpPc := rfl

/-- The operation of an emission; a helper has none. -/
def Emission.toOp : Emission → Option (Op Elem)
  | .op o => some (o.map Global.elem)
  | .elemOp o => some o
  | .helper .. => none

/-- The program counter, `cpu_rb[0]`. -/
abbrev Elem.pc : Elem := .reg .rb 0

/-- `dadao_tr_tb_stop` after a jump. -/
def Translation.stop (t : Translation) : List (Op Elem) :=
  if t.isJmp = .jump then
    if t.jmpPcImm = -1 then [.mov (.global .pc) (.global .jmpPc)]
    else [.mov (.global .pc) (.const t.jmpPcImm)]
  else []

/-- **The execution of a translation**; `none` if a helper is called. -/
def Translation.run (t : Translation) (s : Machine Elem) : Option (Outcome Elem) :=
  (t.emitted.mapM Emission.toOp).map fun ops => exec (ops ++ t.stop) none s

/-- **The simulator executes a word** at the program counter, with this outcome. -/
def Executes (w : BitVec 32) (s : Machine Elem) (out : Outcome Elem) : Prop :=
  ∃ fuel t, translateInsn fuel (s.env.globals .pc) w = some t ∧ t.run s = some out

/-! ## The fuel -/

/-- More fuel does not change what is emitted. -/
lemma Multi.trans_mono {m : Multi} {fuel fuel' : ℕ} (hle : fuel ≤ fuel') {pc : BitVec 64} {w : BitVec 32}
    {t : Translation} (h : m.trans fuel pc w = some t) : m.trans fuel' pc w = some t := by
  cases m <;>
    simp only [Multi.trans, insnMemRrri, insnRegOrri, walkUp, walkTwo, Option.map_eq_some_iff] at h ⊢ <;>
    obtain ⟨emitted, hwalk, ht⟩ := h <;>
    exact ⟨emitted, Loop.doWhile_mono hle hwalk, ht⟩

/-- More fuel does not change the translation. -/
lemma translateInsn_mono {fuel fuel' : ℕ} (hle : fuel ≤ fuel') {pc : BitVec 64} {w : BitVec 32}
    {t : Translation} (h : translateInsn fuel pc w = some t) : translateInsn fuel' pc w = some t := by
  obtain ⟨t, hdisas, rfl⟩ := Option.map_eq_some_iff.mp h
  rw [translateInsn, Option.map_eq_some_iff]
  refine ⟨t, ?_, rfl⟩
  rw [disasInsn] at hdisas ⊢
  cases hmulti : multiOf w with
  | some m =>
    rw [hmulti] at hdisas
    exact Multi.trans_mono hle hdisas
  | none =>
    rw [hmulti] at hdisas
    exact hdisas

/-- **The fuel makes no difference.** -/
lemma translateInsn_unique {fuel fuel' : ℕ} {pc : BitVec 64} {w : BitVec 32} {t t' : Translation}
    (h : translateInsn fuel pc w = some t) (h' : translateInsn fuel' pc w = some t') : t = t' := by
  have hmax := translateInsn_mono (Nat.le_max_left fuel fuel') h
  have hmax' := translateInsn_mono (Nat.le_max_right fuel fuel') h'
  rw [hmax] at hmax'
  exact Option.some.inj hmax'

/-! ## Outcomes -/

section Outcomes

variable {w : BitVec 32} {s : Machine Elem} {fuel : ℕ} {t : Translation} {ops : List (Op Elem)}

/-- **A word has the one outcome of its translation.** -/
lemma executes_iff (ht : translateInsn fuel (s.env.globals .pc) w = some t)
    (hops : t.emitted.mapM Emission.toOp = some ops) (out : Outcome Elem) :
    Executes w s out ↔ out = exec (ops ++ t.stop) none s := by
  have hrun : t.run s = some (exec (ops ++ t.stop) none s) := by rw [Translation.run, hops, Option.map_some]
  constructor
  · rintro ⟨fuel', t', ht', hout⟩
    rw [translateInsn_unique ht' ht, hrun] at hout
    exact (Option.some.inj hout).symm
  · rintro rfl
    exact ⟨fuel, t, ht, hrun⟩

/-- The operations of emissions without helpers. -/
lemma mapM_toOp_op (os : List (Op Global)) :
    (os.map Emission.op).mapM Emission.toOp = some (os.map (Op.map Global.elem)) := by
  induction os with
  | nil => rfl
  | cons o os ih => simp [Emission.toOp, ih]

/-- Straight operations stay straight as operations on elements. -/
lemma all_isStraight_map (os : List (Op Global)) :
    (os.map (Op.map Global.elem)).all Op.isStraight = os.all Op.isStraight := by
  rw [List.all_map]
  congr 1
  funext op
  cases op <;> rfl

/-- The operations that are emitted before every instruction. -/
def prologue : List (Op Elem) := insnPrologue.map (Op.map Global.elem)

/-- The operations of a block with one instruction. -/
lemma mapM_toOp_around (hops : t.emitted.mapM Emission.toOp = some ops) (pc : BitVec 64) :
    (t.around pc).emitted.mapM Emission.toOp =
      some (prologue ++ ops ++ if t.isJmp = .next then [.mov (.global .pc) (.const (pc + 4))] else []) := by
  have hend : ((if t.isJmp = .next then [Emission.op (movi cpuPc (pc + 4))] else []).mapM Emission.toOp) =
      some (if t.isJmp = .next then [.mov (.global .pc) (.const (pc + 4))] else []) := by
    split_ifs <;> rfl
  rw [Translation.around, List.mapM_append, List.mapM_append, mapM_toOp_op, hops, hend]
  rfl

/-- **A word that is translated as a whole**: the operations of its block. -/
lemma executes_around (ht : disasInsn fuel (s.env.globals .pc) w = some t)
    (hops : t.emitted.mapM Emission.toOp = some ops) (out : Outcome Elem) :
    Executes w s out ↔ out = exec (prologue ++ (ops ++
      ((if t.isJmp = .next then [.mov (.global .pc) (.const (s.env.globals .pc + 4))] else []) ++ t.stop)))
        none s := by
  have haround : translateInsn fuel (s.env.globals .pc) w = some (t.around (s.env.globals .pc)) := by
    rw [translateInsn, ht, Option.map_some]
  have hstop : (t.around (s.env.globals .pc)).stop = t.stop := rfl
  rw [executes_iff haround (mapM_toOp_around hops _), hstop]
  simp only [List.append_assoc]

end Outcomes

end Dadao.Qemu
