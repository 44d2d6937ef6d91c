import Dadao.Llvm.Words
import Dadao.Qemu.Integer

set_option relaxedAutoImplicit false
set_option autoImplicit false

/-!
# Loads and stores

The instructions of `DadaoInstrInfo.td` that access memory at a displacement from a register, and what the
simulator makes of their words. Register 0 of the base file reads as the program counter.

## Main definitions

* `Dadao.Llvm.MemAccess` — what is loaded or stored.
* `Dadao.Llvm.rriiAccess` — the instructions.

## Main results

* `Dadao.Llvm.acts_access` — the access of an instruction is at its base and displacement.
-/

namespace Dadao.Llvm

open Qemu Tcg Fields

/-- An access to memory: a load into a register of a file, or a store of one. -/
structure MemAccess where
  isLoad : Bool
  file : RegFile
  op : MemOp
  deriving DecidableEq, Repr

/-- What an access at an address makes of a state. -/
def MemAccess.after (acc : MemAccess) (i : ℕ) (addr : BitVec 64) (s : State) : State :=
  if acc.isLoad then s.put acc.file i (acc.op.load s.mem addr)
  else { s with mem := s.mem.store addr acc.op.bytes (s.reg acc.file i) }

/-- The instructions that access memory at a displacement. -/
def rriiAccess : Opcode → Option MemAccess
  | .ldbsRrii => some ⟨true, .rd, ⟨1, true⟩⟩
  | .ldwsRrii => some ⟨true, .rd, ⟨2, true⟩⟩
  | .ldtsRrii => some ⟨true, .rd, ⟨4, true⟩⟩
  | .ldoRrii => some ⟨true, .rd, moTeuq⟩
  | .ldbuRrii => some ⟨true, .rd, ⟨1, false⟩⟩
  | .ldwuRrii => some ⟨true, .rd, ⟨2, false⟩⟩
  | .ldtuRrii => some ⟨true, .rd, ⟨4, false⟩⟩
  | .ldoRbRrii => some ⟨true, .rb, moTeuq⟩
  | .stbRrii => some ⟨false, .rd, ⟨1, false⟩⟩
  | .stwRrii => some ⟨false, .rd, ⟨2, false⟩⟩
  | .sttRrii => some ⟨false, .rd, ⟨4, false⟩⟩
  | .stoRrii => some ⟨false, .rd, moTeuq⟩
  | .stoRbRrii => some ⟨false, .rb, moTeuq⟩
  | _ => none

section Words

variable {w : BitVec 32} {file : RegFile} {mo : MemOp}

/-- A load at a displacement. -/
lemma acts_insnLdRrii {dest : ℕ → Global} (hw : Plain w) (hfile : ∀ i, (dest i).elem = .reg file i)
    (hdisas : ∀ pc, disasDadao pc w = some (some (insnLdRrii dest false mo w))) :
    Acts always w fun s => s.put file (fieldHa w) (mo.load s.mem (s.reg .rb (fieldHb w) + fieldImms 12 w)) := by
  by_cases ha : fieldHa w = 0
  · refine acts_next hw.1 hw.2 (fun pc => by
      rw [hdisas, insnLdRrii, if_neg (by simp [ha])]) (fun _ => rfl) fun m hm => ?_
    rw [ha, State.put_zero]
    simp [stepOp]
  · refine acts_next hw.1 hw.2 (fun pc => by
      rw [hdisas, insnLdRrii, if_pos (Or.inl ha)]) (fun _ => rfl) fun m hm => ?_
    simp only [State.put, if_neg ha]
    simp [stepOp, hfile, reads_write_reg _ ha, hm.read, BinOp.eval]

/-- A store at a displacement. -/
lemma acts_insnStRrii {src : ℕ → Global} (hw : Plain w) (hfile : ∀ i, (src i).elem = .reg file i)
    (hdisas : ∀ pc, disasDadao pc w = some (some (insnStRrii src mo w))) :
    Acts always w fun s =>
      { s with mem := s.mem.store (s.reg .rb (fieldHb w) + fieldImms 12 w) mo.bytes (s.reg file (fieldHa w)) } := by
  refine acts_next hw.1 hw.2 (fun pc => by rw [hdisas, insnStRrii]) (fun _ => rfl) fun m hm => ?_
  simp [stepOp, hfile, hm.read, BinOp.eval]
  rfl

end Words

section Opcodes

variable {opcode : Opcode} {op : ℕ} {mnemonic : String} {x : RegClass} {file : RegFile} {mo : MemOp}
variable (hop : op < 2 ^ 8) (hplain : PlainOpcode op) (r₁ r₂ : Register) {v : BitVec 64}
variable (hv : -2048 ≤ v.toInt ∧ v.toInt < 2048)

include hop hplain hv

/-- A load, by its record and its translation. -/
lemma access_load (h : opcode.Has (loadRRII op mnemonic x)) {dest : ℕ → Global} (hfile : ∀ i, (dest i).elem = .reg file i)
    (hdisas : ∀ (pc : BitVec 64) (w : BitVec 32), (w >>> 24).toNat = op →
      disasDadao pc w = some (some (insnLdRrii dest false mo w))) :
    ∃ w, Emits ⟨opcode, [.reg r₁, .reg r₂, .imm v]⟩ w ∧ Acts always w fun s =>
      MemAccess.after ⟨true, file, mo⟩ (getDadaoRegisterNumbering r₁)
        (s.reg .rb (getDadaoRegisterNumbering r₂) + v) s := by
  have hf := fields_imm12 op hop (getDadaoRegisterNumbering_lt r₁) (getDadaoRegisterNumbering_lt r₂) v
  have hacts := acts_insnLdRrii (hf.plain hplain) hfile (fun pc => hdisas pc _ hf.opcode)
  rw [hf.ha, hf.hb, hf.imms12, signExtend_imm12 hv] at hacts
  exact ⟨_, emits_mem hop (.inl h) hv, hacts⟩

/-- A store. -/
lemma access_store (h : opcode.Has (storeRRII op mnemonic x)) {src : ℕ → Global} (hfile : ∀ i, (src i).elem = .reg file i)
    (hdisas : ∀ (pc : BitVec 64) (w : BitVec 32), (w >>> 24).toNat = op →
      disasDadao pc w = some (some (insnStRrii src mo w))) :
    ∃ w, Emits ⟨opcode, [.reg r₁, .reg r₂, .imm v]⟩ w ∧ Acts always w fun s =>
      MemAccess.after ⟨false, file, mo⟩ (getDadaoRegisterNumbering r₁)
        (s.reg .rb (getDadaoRegisterNumbering r₂) + v) s := by
  have hf := fields_imm12 op hop (getDadaoRegisterNumbering_lt r₁) (getDadaoRegisterNumbering_lt r₂) v
  have hacts := acts_insnStRrii (hf.plain hplain) hfile (fun pc => hdisas pc _ hf.opcode)
  rw [hf.ha, hf.hb, hf.imms12, signExtend_imm12 hv] at hacts
  exact ⟨_, emits_mem hop (.inr h) hv, hacts⟩

end Opcodes

/-- **An access at a displacement**: its word accesses memory there, whatever the registers. -/
lemma acts_access {opcode : Opcode} {acc : MemAccess} (h : rriiAccess opcode = some acc) (r₁ r₂ : Register)
    {v : BitVec 64} (hv : -2048 ≤ v.toInt ∧ v.toInt < 2048) :
    ∃ w, Emits ⟨opcode, [.reg r₁, .reg r₂, .imm v]⟩ w ∧ Acts always w fun s =>
      acc.after (getDadaoRegisterNumbering r₁) (s.reg .rb (getDadaoRegisterNumbering r₂) + v) s := by
  unfold rriiAccess at h
  split at h
  case h_14 => exact absurd h (by simp)
  case h_1 | h_2 | h_3 | h_4 | h_5 | h_6 | h_7 =>
    obtain rfl := Option.some.inj h
    exact access_load (by decide) (by simp [PlainOpcode]) r₁ r₂ hv ⟨rfl, fun _ => rfl⟩ Global.elem_rd
      fun pc w hop => by rw [disasDadao, hop]; rfl
  case h_8 =>
    obtain rfl := Option.some.inj h
    exact access_load (by decide) (by simp [PlainOpcode]) r₁ r₂ hv ⟨rfl, fun _ => rfl⟩ Global.elem_rb
      fun pc w hop => by rw [disasDadao, hop]; rfl
  case h_9 | h_10 | h_11 | h_12 =>
    obtain rfl := Option.some.inj h
    exact access_store (by decide) (by simp [PlainOpcode]) r₁ r₂ hv ⟨rfl, fun _ => rfl⟩ Global.elem_rd
      fun pc w hop => by rw [disasDadao, hop]; rfl
  case h_13 =>
    obtain rfl := Option.some.inj h
    exact access_store (by decide) (by simp [PlainOpcode]) r₁ r₂ hv ⟨rfl, fun _ => rfl⟩ Global.elem_rb
      fun pc w hop => by rw [disasDadao, hop]; rfl

end Dadao.Llvm
