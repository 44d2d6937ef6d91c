import Dadao.Gas.Assemble
import Mathlib.Logic.Relation

set_option relaxedAutoImplicit false
set_option autoImplicit false

/-!
# Scanning the operands

The first part of `dadao_md_assemble`: the mnemonic is copied into `insn_alt`, and `get_operands` scans the rest of
the line. A string is kept as its bytes without the terminating zero, and a pointer into it as the bytes from there
on; what would read behind the zero or write outside an array is a fault.

## Main definitions

* `Dadao.Gas.Reader` — the tables and the parser of the assembler.
* `Dadao.Gas.Reader.step` — the loop of `get_operands`, step by step.
* `Dadao.Gas.Reader.Safe` — the line is scanned as it should be.

## Main results

* `Dadao.Gas.Reader.run_spec` — the loop always ends, and without a fault if every state meets a condition.
* `Dadao.Gas.Reader.safe_iff` — which lines are scanned as they should be.
-/

namespace Dadao.Gas

open Dadao.Opcodes

/-! ## Bytes -/

/-- A byte of a string. -/
abbrev Byte := BitVec 8

/-- The byte of a character. -/
def chr (c : Char) : Byte := BitVec.ofNat 8 c.toNat

/-- The byte at a pointer: behind the last one there is the terminating zero. -/
def deref (text : List Byte) : Byte := text.headD 0

/-- **The parts of the assembler that are used**: the table of the bytes of names, that of the ends of lines, and the
parser of an expression, which tells how many bytes it has passed; it does not pass a zero. -/
structure Reader where
  isPartOfName : Byte → Bool
  isEndOfLine : Byte → Bool
  expression : List Byte → ExpressionS × ℕ
  isPartOfName_zero : isPartOfName 0 = false
  isEndOfLine_zero : isEndOfLine 0 = true
  expression_le : ∀ text, (expression text).2 ≤ (text.takeWhile (· ≠ 0)).length

/-- What is done outside the memory of a string or an array: a read behind the terminating zero, a write behind
`insn_alt` or behind `exp`. -/
inductive Fault where
  | read | insnAlt | exp
  deriving DecidableEq, Repr

/-- The errors that are reported. -/
inductive OperandError where
  | tooMany | invalid | missing | junk
  deriving DecidableEq, Repr

/-! ## The loops over the string -/

/-- `while (*p == ' ' || *p == '\t') p++;`. -/
def skipBlanks (text : List Byte) : List Byte := text.dropWhile fun c => c == chr ' ' || c == chr '\t'

/-- `while (*q != '%') q++;`: without that byte, the loop goes on behind the end. -/
def findPercent : List Byte → Except Fault (List Byte)
  | [] => .error .read
  | c :: rest => if c ≠ chr '%' then findPercent rest else .ok (c :: rest)

/-- Two letters follow the byte at a pointer. -/
def isFollowedBy (q : List Byte) (a b : Char) : Bool := deref q.tail == chr a && deref q.tail.tail == chr b

/-- `while (*q != '\0') { *q = '\0'; q++; }`. -/
def clearRest : List Byte → List Byte
  | [] => []
  | c :: rest => if c ≠ 0 then 0 :: clearRest rest else c :: rest

/-- `while (*(q+1) != ')') { *q = *(q + 1); q++; }`, and the loop behind it. -/
def moveDown : List Byte → Except Fault (List Byte)
  | [] => .error .read
  | [_] => .error .read
  | c :: d :: rest => if d ≠ chr ')' then (moveDown (d :: rest)).map (d :: ·) else .ok (clearRest (c :: d :: rest))

/-! ## `get_operands` -/

/-- Where in its loop the function is: at the head, before an operand is read, or behind the loop. -/
inductive ScanPhase where
  | head | operand | left
  deriving DecidableEq, Repr

/-- The state of `get_operands`. -/
structure Scan where
  phase : ScanPhase
  text : List Byte
  numexp : ℕ
  adrpFlag : Bool
  isAdrp : Bool
  retCode : Option InsnType
  exps : List ExpressionS
  errors : List OperandError

/-- The state at the begin. -/
def Scan.start (operands : List Byte) : Scan := ⟨.head, operands, 0, false, false, none, [], []⟩

/-- What is returned: the number of operands, with the state. -/
structure ScanResult where
  count : ℕ
  scan : Scan

/-- The number of `exp` in the caller, and `max_operands`. -/
def maxOperands : ℕ := 4

/-- The head of the loop: blanks are skipped, and a group in parentheses is opened. -/
def Scan.openGroup (s : Scan) : Except Fault Scan :=
  let text := skipBlanks s.text
  if deref text = chr '(' then do
    let q ← findPercent text
    let lo := isFollowedBy q 'l' 'o'
    let adrpFlag := s.adrpFlag || isFollowedBy q 'h' 'i' || lo
    let retCode := if lo then some .lo12 else s.retCode
    let text ← if adrpFlag then moveDown text else .ok text
    return { s with phase := .operand, text, adrpFlag, isAdrp := s.isAdrp || lo, retCode }
  else return { s with phase := .operand, text }

/-- No operand is left. -/
def Scan.isStop (s : Scan) : Bool :=
  let c := deref s.text
  c == 0 || c == chr '\n' || c == chr '\r'

namespace Reader

variable (R : Reader)

/-- An operand and the text behind it. `0 <= ww_number <= 3` holds of every number, so that `w` with any byte and a
comma behind it is taken for a wyde; for a `w` that is the last byte, the byte behind the zero is read. -/
def readOperand (text : List Byte) : Except Fault (ExpressionS × List Byte) :=
  if deref text = chr 'w' ∧ text.tail = [] then .error .read
  else if deref text = chr 'w' ∧ deref text.tail.tail = chr ',' then
    .ok (⟨.wyde, (deref text.tail).toInt - 48, 0, 0⟩, text.tail.tail)
  else .ok ((R.expression text).1, text.drop (R.expression text).2)

/-- The errors of an operand. -/
def operandErrors (e : ExpressionS) : List OperandError :=
  if e.xOp = .illegal then [.invalid] else if e.xOp = .absent then [.missing] else []

/-- The error of `demand_empty_rest_of_line`. -/
def lineErrors (nextchar : Byte) : List OperandError :=
  if nextchar ≠ chr ',' ∧ R.isEndOfLine nextchar = false then [.junk] else []

/-- The errors that are reported at an operand. -/
def complaints (s : Scan) : List OperandError :=
  if s.phase ≠ .operand ∨ s.isStop = true then []
  else if s.numexp = maxOperands then [.tooMany]
  else match R.readOperand s.text with
    | .error _ => []
    | .ok (e, rest) => operandErrors e ++ R.lineErrors (deref (skipBlanks rest))

/-- **One step**: to the next state, or to the result. -/
def step (s : Scan) : Except Fault (Scan ⊕ ScanResult) :=
  match s.phase with
  | .head => s.openGroup.map .inl
  | .operand =>
    if s.isStop = true then .ok (.inl { s with phase := .left })
    else if s.numexp = maxOperands then .ok (.inr ⟨0, { s with errors := s.errors ++ R.complaints s }⟩)
    else (R.readOperand s.text).map fun p =>
      let nextchar := deref (skipBlanks p.2)
      .inl { s with
        phase := if nextchar = chr ',' then .head else .left
        text := (skipBlanks p.2).tail
        numexp := s.numexp + 1
        exps := s.exps ++ [p.1]
        errors := s.errors ++ R.complaints s }
  | .left => if s.numexp < maxOperands then .ok (.inr ⟨s.numexp, s⟩) else .error .exp

/-- The steps in turn; `none` when the fuel is used up. -/
def run : ℕ → Scan → Option (Except Fault ScanResult)
  | 0, _ => none
  | fuel + 1, s => match R.step s with
    | .error f => some (.error f)
    | .ok (.inl s') => run fuel s'
    | .ok (.inr r) => some (.ok r)

/-- `get_operands`. -/
def getOperands (operands : List Byte) : Option (Except Fault ScanResult) := R.run 11 (Scan.start operands)

/-! ## `dadao_md_assemble` -/

/-- The size of `insn_alt`. -/
def insnAltSize : ℕ := 16

/-- The loop that copies the mnemonic: the number of its bytes and the operands. -/
def copyName : List Byte → ℕ → Except Fault (ℕ × List Byte)
  | [], i => .ok (i, [])
  | c :: rest, i =>
    if R.isPartOfName c = true then (if i < insnAltSize then copyName rest (i + 1) else .error .insnAlt)
    else .ok (i, c :: rest)

/-- The mnemonic is copied, the operands are scanned and the copy is ended by a zero. -/
def mdAssembleScan (str : List Byte) : Option (Except Fault ScanResult) :=
  match R.copyName str 0 with
  | .error f => some (.error f)
  | .ok (i, operands) => (R.getOperands operands).map fun r =>
    r.bind fun result => if i < insnAltSize then .ok result else .error .insnAlt

/-! ## What it is for -/

/-- A state that follows another one. -/
def Steps (s s' : Scan) : Prop := R.step s = .ok (.inl s')

/-- A state of the scan of a line. -/
def Reached (operands : List Byte) (s : Scan) : Prop := Relation.ReflTransGen R.Steps (Scan.start operands) s

/-- The operands of a line, behind its mnemonic. -/
def operandsOf (str : List Byte) : List Byte := str.dropWhile R.isPartOfName

end Reader

/-- An operand with `%hi` or `%lo` behind a parenthesis. -/
def IsHiLo (text : List Byte) : Prop :=
  deref text = chr '(' ∧ ∃ q, findPercent text = .ok q ∧ (isFollowedBy q 'h' 'i' || isFollowedBy q 'l' 'o') = true

/-- Such an operand as it should be: something in parentheses, the operator right behind it, and then a blank, a
comma or the end of the line. -/
def WellFormedHiLo (text : List Byte) : Prop :=
  ∃ sym op tail, text = chr '(' :: sym ++ [chr ')', chr '%'] ++ op ++ tail ∧ sym ≠ [] ∧ chr ')' ∉ sym ∧
    (op = [chr 'h', chr 'i'] ∨ op = [chr 'l', chr 'o']) ∧
      deref tail ∈ [0, chr ' ', chr '\t', chr ',', chr '\n', chr '\r']

/-- A malformed operand with `%hi` or `%lo`. -/
def Scan.Malformed (s : Scan) : Prop :=
  s.phase = .head ∧ IsHiLo (skipBlanks s.text) ∧ ¬WellFormedHiLo (skipBlanks s.text)

/-- An operand behind the fourth one. -/
def Scan.Surplus (s : Scan) : Prop := s.phase = .operand ∧ s.isStop = false ∧ s.numexp = maxOperands

namespace Reader

variable (R : Reader)

/-- **The line is scanned as it should be**: the scan ends, stays inside its buffers and reports malformed operands
and more than four of them. -/
def Safe (str : List Byte) : Prop := ∃ r, R.mdAssembleScan str = some (.ok r) ∧
  ((∃ s, R.Reached (R.operandsOf str) s ∧ s.Malformed) → r.scan.errors ≠ []) ∧
    ((∃ s, R.Reached (R.operandsOf str) s ∧ s.Surplus) → r.scan.errors ≠ [])

end Reader

/-- The condition before a step: a group has `%`, and `)` where it is taken for `%hi` or `%lo`; an operand is not a
`w` at the end of the string; the loop is left with less than four operands. -/
def Scan.Fits (s : Scan) : Prop :=
  match s.phase with
  | .head =>
    let text := skipBlanks s.text
    deref text = chr '(' → chr '%' ∈ text ∧ ((s.adrpFlag = true ∨ IsHiLo text) → chr ')' ∈ text.tail)
  | .operand => s.isStop = false → s.numexp ≠ maxOperands → s.text ≠ [chr 'w']
  | .left => s.numexp < maxOperands

/-- An error is reported at an operand: it is a fifth one, or the parser rejects it, or what follows it does not
belong to it. -/
def Reader.Rejects (R : Reader) (s : Scan) : Prop :=
  s.phase = .operand ∧ s.isStop = false ∧ (s.numexp = maxOperands ∨ ∃ e rest, R.readOperand s.text = .ok (e, rest) ∧
    (e.xOp = .illegal ∨ e.xOp = .absent ∨
      deref (skipBlanks rest) ≠ chr ',' ∧ R.isEndOfLine (deref (skipBlanks rest)) = false))

/-- The lines with steps that meet the condition, a mnemonic that fits into `insn_alt`, and malformed operands only
beside one with an error. -/
def Reader.Fits (R : Reader) (str : List Byte) : Prop :=
  (str.takeWhile R.isPartOfName).length < Reader.insnAltSize ∧
    (∀ s, R.Reached (R.operandsOf str) s → s.Fits) ∧
      ((∃ s, R.Reached (R.operandsOf str) s ∧ s.Malformed) → ∃ s, R.Reached (R.operandsOf str) s ∧ R.Rejects s)

/-! ## The loops -/

lemma findPercent_isOk_iff (text : List Byte) : (∃ q, findPercent text = .ok q) ↔ chr '%' ∈ text := by
  induction text with
  | nil => simp [findPercent]
  | cons c rest ih =>
    rw [findPercent]
    by_cases hc : c ≠ chr '%'
    · rw [if_pos hc, ih, List.mem_cons]
      exact ⟨.inr, fun h => h.resolve_left hc.symm⟩
    · rw [if_neg hc]
      exact iff_of_true ⟨_, rfl⟩ (by simp [not_not.mp hc])

lemma moveDown_isOk_iff (text : List Byte) : (∃ t, moveDown text = .ok t) ↔ chr ')' ∈ text.tail := by
  induction text using moveDown.induct with
  | case1 => simp [moveDown]
  | case2 c => simp [moveDown]
  | case3 c d rest hd ih =>
    rw [moveDown, if_pos hd, List.tail_cons, List.mem_cons]
    rw [List.tail_cons] at ih
    have hmap : (∃ t, (moveDown (d :: rest)).map (d :: ·) = .ok t) ↔ ∃ t, moveDown (d :: rest) = .ok t := by
      cases moveDown (d :: rest) with
      | error f => simp [Except.map]
      | ok t => simp [Except.map]
    rw [hmap, ih]
    exact ⟨.inr, fun h => h.resolve_left (Ne.symm hd)⟩
  | case4 c d rest hd =>
    rw [moveDown, if_neg hd]
    exact iff_of_true ⟨_, rfl⟩ (by simp [not_not.mp hd])

/-- A sequence without a fault. -/
lemma bind_ok {α β : Type} {x : Except Fault α} {f : α → Except Fault β} {b : β} (h : (x >>= f) = .ok b) :
    ∃ a, x = .ok a ∧ f a = .ok b := by
  cases x with
  | error fault => exact absurd h (by simp [bind, Except.bind])
  | ok a => exact ⟨a, rfl, h⟩

namespace Scan

variable (s : Scan)

/-- The head of the loop, without a fault. -/
lemma openGroup_isOk_iff : (∃ t, s.openGroup = .ok t) ↔ (deref (skipBlanks s.text) = chr '(' →
    chr '%' ∈ skipBlanks s.text ∧
      ((s.adrpFlag = true ∨ IsHiLo (skipBlanks s.text)) → chr ')' ∈ (skipBlanks s.text).tail)) := by
  rw [openGroup]
  by_cases hopen : deref (skipBlanks s.text) = chr '('
  · simp only [hopen, true_imp_iff, ← findPercent_isOk_iff, ← moveDown_isOk_iff, IsHiLo, true_and]
    cases hq : findPercent (skipBlanks s.text) with
    | error f => simp [bind, Except.bind]
    | ok q =>
      by_cases hflag : (s.adrpFlag || isFollowedBy q 'h' 'i' || isFollowedBy q 'l' 'o') = true
      · have hright : s.adrpFlag = true ∨ ∃ q', (.ok q : Except Fault (List Byte)) = .ok q' ∧
            (isFollowedBy q' 'h' 'i' || isFollowedBy q' 'l' 'o') = true := by
          rw [Bool.or_assoc, Bool.or_eq_true] at hflag
          exact hflag.imp_right fun h => ⟨q, rfl, h⟩
        simp only [bind, Except.bind, hflag, if_true, hright, true_imp_iff]
        cases moveDown (skipBlanks s.text) with
        | error f => simp
        | ok t => simp [pure, Except.pure]
      · have hright : ¬(s.adrpFlag = true ∨ ∃ q', (.ok q : Except Fault (List Byte)) = .ok q' ∧
            (isFollowedBy q' 'h' 'i' || isFollowedBy q' 'l' 'o') = true) := by
          rintro (h | ⟨q', hq', h⟩)
          · exact hflag (by simp [h])
          · obtain rfl := Except.ok.inj hq'
            rw [Bool.or_assoc, h, Bool.or_true] at hflag
            exact hflag rfl
        simp only [bind, Except.bind, hflag, hright, false_imp_iff]
        simp [pure, Except.pure]
  · simp only [hopen, false_imp_iff, iff_true]
    exact ⟨_, rfl⟩

/-- What the head of the loop keeps. -/
lemma openGroup_keeps {s t : Scan} (h : s.openGroup = .ok t) :
    t.phase = .operand ∧ t.numexp = s.numexp ∧ t.errors = s.errors := by
  rw [openGroup] at h
  by_cases hopen : deref (skipBlanks s.text) = chr '('
  · simp only [if_pos hopen] at h
    obtain ⟨q, -, h⟩ := bind_ok h
    split at h
    · obtain ⟨text, -, h⟩ := bind_ok h
      obtain rfl := Except.ok.inj h
      exact ⟨rfl, rfl, rfl⟩
    · obtain rfl := Except.ok.inj h
      exact ⟨rfl, rfl, rfl⟩
  · rw [if_neg hopen] at h
    obtain rfl := Except.ok.inj h
    exact ⟨rfl, rfl, rfl⟩

/-- An operand that is left has a first byte. -/
lemma text_ne_nil {s : Scan} (h : s.isStop = false) : s.text ≠ [] := by
  intro hnil
  rw [isStop, hnil] at h
  exact absurd h (by decide)

/-- The steps that are left at most. -/
def remaining : ℕ :=
  match s.phase with
  | .head => 2 * (maxOperands - s.numexp) + 3
  | .operand => 2 * (maxOperands - s.numexp) + 2
  | .left => 1

end Scan

namespace Reader

variable {R : Reader}

lemma readOperand_isOk_iff {text : List Byte} (hne : text ≠ []) :
    (∃ p, R.readOperand text = .ok p) ↔ text ≠ [chr 'w'] := by
  obtain ⟨c, rest, rfl⟩ := List.exists_cons_of_ne_nil hne
  have hiff : (deref (c :: rest) = chr 'w' ∧ (c :: rest).tail = []) ↔ c :: rest = [chr 'w'] := by
    simp [deref]
  rw [readOperand]
  by_cases h : c :: rest = [chr 'w']
  · rw [if_pos (hiff.mpr h)]
    simp [h]
  · rw [if_neg fun hw => h (hiff.mp hw)]
    refine iff_of_true ?_ h
    split_ifs
    · exact ⟨_, rfl⟩
    · exact ⟨_, rfl⟩

/-- **A step is without a fault** if the state meets the condition, and only then. -/
lemma step_isOk_iff (s : Scan) : (∃ r, R.step s = .ok r) ↔ s.Fits := by
  rw [step, Scan.Fits]
  cases hphase : s.phase with
  | head =>
    simp only
    rw [← s.openGroup_isOk_iff]
    cases s.openGroup with
    | error f => simp [Except.map]
    | ok t => simp [Except.map]
  | operand =>
    simp only
    by_cases hstop : s.isStop = true
    · rw [if_pos hstop]
      exact iff_of_true ⟨_, rfl⟩ fun h => absurd (hstop.symm.trans h) (by simp)
    · rw [if_neg hstop]
      have hgo : s.isStop = false := Bool.eq_false_iff.mpr hstop
      by_cases hmax : s.numexp = maxOperands
      · rw [if_pos hmax]
        exact iff_of_true ⟨_, rfl⟩ fun _ hne => absurd hmax hne
      · rw [if_neg hmax]
        simp only [hgo, hmax, ne_eq, not_false_eq_true, true_imp_iff]
        rw [← ne_eq, ← readOperand_isOk_iff (R := R) (Scan.text_ne_nil hgo)]
        cases R.readOperand s.text with
        | error f => simp [Except.map]
        | ok p => simp [Except.map]
  | left =>
    simp only
    by_cases hlt : s.numexp < maxOperands
    · rw [if_pos hlt]
      exact iff_of_true ⟨_, rfl⟩ hlt
    · rw [if_neg hlt]
      exact iff_of_false (by simp) hlt

/-- The errors that a step adds. -/
lemma step_errors {s : Scan} {r : Scan ⊕ ScanResult} (h : R.step s = .ok r) :
    (Sum.elim Scan.errors (fun r => r.scan.errors) r) = s.errors ++ R.complaints s := by
  rw [step] at h
  cases hphase : s.phase with
  | head =>
    have hnone : R.complaints s = [] := by
      rw [complaints, if_pos (.inl (by simp [hphase]))]
    simp only [hphase] at h
    cases hopen : s.openGroup with
    | error f =>
      rw [hopen] at h
      exact absurd h (by simp [Except.map])
    | ok t =>
      rw [hopen] at h
      obtain rfl := Except.ok.inj h
      rw [hnone, List.append_nil]
      exact (Scan.openGroup_keeps hopen).2.2
  | operand =>
    simp only [hphase] at h
    by_cases hstop : s.isStop = true
    · have hnone : R.complaints s = [] := by
        rw [complaints, if_pos (.inr hstop)]
      rw [if_pos hstop] at h
      obtain rfl := Except.ok.inj h
      rw [hnone, List.append_nil]
      rfl
    · rw [if_neg hstop] at h
      by_cases hmax : s.numexp = maxOperands
      · rw [if_pos hmax] at h
        obtain rfl := Except.ok.inj h
        rfl
      · rw [if_neg hmax] at h
        cases hread : R.readOperand s.text with
        | error f =>
          rw [hread] at h
          exact absurd h (by simp [Except.map])
        | ok p =>
          rw [hread] at h
          obtain rfl := Except.ok.inj h
          rfl
  | left =>
    have hnone : R.complaints s = [] := by
      rw [complaints, if_pos (.inl (by simp [hphase]))]
    simp only [hphase] at h
    by_cases hlt : s.numexp < maxOperands
    · rw [if_pos hlt] at h
      obtain rfl := Except.ok.inj h
      rw [hnone, List.append_nil]
      rfl
    · rw [if_neg hlt] at h
      exact absurd h (by simp)

/-- **A step comes closer to the end**, and never to more than four operands. -/
lemma Steps.remaining {s s' : Scan} (h : R.Steps s s') (hmax : s.numexp ≤ maxOperands) :
    s'.numexp ≤ maxOperands ∧ s'.remaining < s.remaining := by
  rw [Steps, step] at h
  cases hphase : s.phase with
  | head =>
    simp only [hphase] at h
    cases hopen : s.openGroup with
    | error f =>
      rw [hopen] at h
      exact absurd h (by simp [Except.map])
    | ok t =>
      rw [hopen] at h
      obtain rfl := Sum.inl.inj (Except.ok.inj h)
      obtain ⟨hp, hn, -⟩ := Scan.openGroup_keeps hopen
      simp only [Scan.remaining, hphase, hp, hn]
      omega
  | operand =>
    simp only [hphase] at h
    by_cases hstop : s.isStop = true
    · rw [if_pos hstop] at h
      obtain rfl := Sum.inl.inj (Except.ok.inj h)
      simp only [Scan.remaining, hphase]
      omega
    · rw [if_neg hstop] at h
      by_cases heq : s.numexp = maxOperands
      · rw [if_pos heq] at h
        exact absurd h (by simp)
      · rw [if_neg heq] at h
        cases hread : R.readOperand s.text with
        | error f =>
          rw [hread] at h
          exact absurd h (by simp [Except.map])
        | ok p =>
          rw [hread] at h
          obtain rfl := Sum.inl.inj (Except.ok.inj h)
          simp only [Scan.remaining, hphase]
          split_ifs <;> simp only <;> omega
  | left =>
    simp only [hphase] at h
    split_ifs at h
    exact absurd h (by simp)

/-- The states behind a state are itself and those behind the next one. -/
lemma forall_steps_iff {s s' : Scan} (h : R.Steps s s') (P : Scan → Prop) :
    (∀ t, Relation.ReflTransGen R.Steps s t → P t) ↔ P s ∧ ∀ t, Relation.ReflTransGen R.Steps s' t → P t := by
  constructor
  · intro hall
    exact ⟨hall s .refl, fun t ht => hall t (.head h ht)⟩
  · rintro ⟨hs, hall⟩ t ht
    rcases Relation.ReflTransGen.cases_head ht with rfl | ⟨u, hu, hut⟩
    · exact hs
    · obtain rfl := Sum.inl.inj (Except.ok.inj (h.symm.trans hu))
      exact hall t hut

/-- Behind a state without a next one there is no other. -/
lemma forall_last_iff {s : Scan} (h : ∀ s', ¬R.Steps s s') (P : Scan → Prop) :
    (∀ t, Relation.ReflTransGen R.Steps s t → P t) ↔ P s := by
  constructor
  · exact fun hall => hall s .refl
  · intro hs t ht
    rcases Relation.ReflTransGen.cases_head ht with rfl | ⟨u, hu, -⟩
    · exact hs
    · exact absurd hu (h u)

/-- **The loop always ends**, and without a fault if every state of it meets the condition, and only then; an error
is reported if one is reported at a state. -/
lemma run_spec (fuel : ℕ) {s : Scan} (hmax : s.numexp ≤ maxOperands) (hfuel : s.remaining ≤ fuel) :
    (∃ f, R.run fuel s = some (.error f) ∧ ¬∀ t, Relation.ReflTransGen R.Steps s t → t.Fits) ∨
      ∃ r, R.run fuel s = some (.ok r) ∧ (∀ t, Relation.ReflTransGen R.Steps s t → t.Fits) ∧
        (r.scan.errors = [] ↔
          s.errors = [] ∧ ∀ t, Relation.ReflTransGen R.Steps s t → R.complaints t = []) := by
  induction fuel generalizing s with
  | zero =>
    rw [Scan.remaining] at hfuel
    split at hfuel <;> omega
  | succ fuel ih =>
    rw [run]
    cases hstep : R.step s with
    | error f =>
      refine .inl ⟨f, rfl, fun hall => ?_⟩
      obtain ⟨r, hr⟩ := (step_isOk_iff (R := R) s).mpr (hall s .refl)
      exact absurd (hstep.symm.trans hr) (by simp)
    | ok r =>
      have hfits : s.Fits := (step_isOk_iff (R := R) s).mp ⟨r, hstep⟩
      have herrors := step_errors hstep
      cases r with
      | inl s' =>
        have hs : R.Steps s s' := hstep
        obtain ⟨hmax', hlt⟩ := hs.remaining hmax
        simp only [forall_steps_iff hs]
        rcases ih hmax' (by omega) with ⟨f, hrun, hnot⟩ | ⟨r, hrun, hall, hiff⟩
        · exact .inl ⟨f, hrun, fun h => hnot h.2⟩
        · refine .inr ⟨r, hrun, ⟨hfits, hall⟩, hiff.trans ?_⟩
          have hboth : s'.errors = [] ↔ s.errors = [] ∧ R.complaints s = [] := by
            rw [show s'.errors = s.errors ++ R.complaints s from herrors, List.append_eq_nil_iff]
          rw [hboth, and_assoc]
      | inr r =>
        have hlast (s' : Scan) : ¬R.Steps s s' := fun hs => absurd (hstep.symm.trans hs) (by simp)
        refine .inr ⟨r, rfl, (forall_last_iff hlast _).mpr hfits, ?_⟩
        rw [forall_last_iff hlast, ← List.append_eq_nil_iff]
        exact Eq.congr herrors rfl

/-! ## The errors -/

/-- The errors at a state are those of a rejected operand. -/
lemma complaints_ne_nil_iff {s : Scan} (hfits : s.Fits) : R.complaints s ≠ [] ↔ R.Rejects s := by
  rw [complaints, Rejects]
  by_cases hhead : s.phase ≠ .operand ∨ s.isStop = true
  · rw [if_pos hhead]
    refine iff_of_false (by simp) ?_
    rintro ⟨hphase, hstop, -⟩
    rcases hhead with hne | hstop'
    · exact hne hphase
    · exact absurd (hstop'.symm.trans hstop) (by simp)
  · rw [if_neg hhead]
    obtain ⟨hphase, hstop⟩ := not_or.mp hhead
    have hgo : s.isStop = false := Bool.eq_false_iff.mpr hstop
    rw [not_not] at hphase
    by_cases hmax : s.numexp = maxOperands
    · rw [if_pos hmax]
      exact iff_of_true (by simp) ⟨hphase, hgo, .inl hmax⟩
    · rw [if_neg hmax]
      simp only [Scan.Fits, hphase] at hfits
      obtain ⟨⟨e, rest⟩, hread⟩ := (readOperand_isOk_iff (R := R) (Scan.text_ne_nil hgo)).mpr (hfits hgo hmax)
      simp only [hread, hphase, hgo, hmax, false_or, true_and, Except.ok.injEq, Prod.mk.injEq]
      rw [ne_eq, List.append_eq_nil_iff, not_and_or, operandErrors, lineErrors]
      constructor
      · rintro (h | h)
        · split_ifs at h with h₁ h₂
          · exact ⟨e, rest, ⟨rfl, rfl⟩, .inl h₁⟩
          · exact ⟨e, rest, ⟨rfl, rfl⟩, .inr (.inl h₂)⟩
          · exact absurd rfl h
        · split_ifs at h with h₁
          · exact ⟨e, rest, ⟨rfl, rfl⟩, .inr (.inr h₁)⟩
          · exact absurd rfl h
      · rintro ⟨e', rest', ⟨rfl, rfl⟩, h | h | h⟩
        · exact .inl (by simp [h])
        · exact .inl (by simp [h])
        · exact .inr (by rw [if_pos h]; simp)

/-- A fifth operand is rejected. -/
lemma rejects_of_surplus {s : Scan} (h : s.Surplus) : R.Rejects s := ⟨h.1, h.2.1, .inl h.2.2⟩

/-! ## The mnemonic -/

/-- The mnemonic is copied if it is not longer than the array. -/
lemma copyName_eq (text : List Byte) {i : ℕ} (hi : i ≤ insnAltSize) : R.copyName text i =
    if i + (text.takeWhile R.isPartOfName).length ≤ insnAltSize then
      .ok (i + (text.takeWhile R.isPartOfName).length, text.dropWhile R.isPartOfName)
    else .error .insnAlt := by
  induction text generalizing i with
  | nil => simp [copyName, hi]
  | cons c rest ih =>
    rw [copyName]
    by_cases hc : R.isPartOfName c = true
    · rw [if_pos hc, List.takeWhile_cons_of_pos hc, List.dropWhile_cons_of_pos hc, List.length_cons]
      by_cases hlt : i < insnAltSize
      · rw [if_pos hlt, ih (by omega), Nat.add_right_comm, Nat.add_assoc]
      · rw [if_neg hlt, if_neg (by omega)]
    · rw [if_neg hc, List.takeWhile_cons_of_neg hc, List.dropWhile_cons_of_neg hc, List.length_nil, Nat.add_zero,
        if_pos hi]

/-- The operands are scanned to the end. -/
lemma getOperands_spec (operands : List Byte) :
    (∃ f, R.getOperands operands = some (.error f) ∧ ¬∀ s, R.Reached operands s → s.Fits) ∨
      ∃ r, R.getOperands operands = some (.ok r) ∧ (∀ s, R.Reached operands s → s.Fits) ∧
        (r.scan.errors ≠ [] ↔ ∃ s, R.Reached operands s ∧ R.Rejects s) := by
  have hremaining : (Scan.start operands).remaining ≤ 11 := Nat.le_refl _
  rcases run_spec (R := R) 11 (Nat.zero_le _) hremaining with ⟨f, hrun, hnot⟩ | ⟨r, hrun, hall, hiff⟩
  · exact .inl ⟨f, hrun, hnot⟩
  · refine .inr ⟨r, hrun, hall, ?_⟩
    rw [ne_eq, hiff, not_and_or]
    constructor
    · rintro (h | h)
      · exact absurd rfl h
      · obtain ⟨s, hs⟩ := not_forall.mp h
        obtain ⟨hs, hne⟩ := Classical.not_imp.mp hs
        exact ⟨s, hs, (complaints_ne_nil_iff (hall s hs)).mp hne⟩
    · rintro ⟨s, hs, hrejects⟩
      exact .inr fun h => (complaints_ne_nil_iff (hall s hs)).mpr hrejects (h s hs)

/-- What becomes of a line by its mnemonic and its operands. -/
lemma mdAssembleScan_eq (R : Reader) (str : List Byte) : R.mdAssembleScan str =
    if (str.takeWhile R.isPartOfName).length ≤ insnAltSize then
      (R.getOperands (R.operandsOf str)).map fun r => r.bind fun result =>
        if (str.takeWhile R.isPartOfName).length < insnAltSize then .ok result else .error .insnAlt
    else some (.error .insnAlt) := by
  have hcopy := R.copyName_eq str (Nat.zero_le insnAltSize)
  rw [Nat.zero_add] at hcopy
  rw [mdAssembleScan, hcopy]
  by_cases hle : (str.takeWhile R.isPartOfName).length ≤ insnAltSize
  · rw [if_pos hle, if_pos hle]
    rfl
  · rw [if_neg hle, if_neg hle]

/-- The line is scanned without a fault if its operands are and its mnemonic is shorter than `insn_alt`. -/
lemma mdAssembleScan_ok_iff {str : List Byte} {r : ScanResult} : R.mdAssembleScan str = some (.ok r) ↔
    (str.takeWhile R.isPartOfName).length < insnAltSize ∧ R.getOperands (R.operandsOf str) = some (.ok r) := by
  rw [mdAssembleScan_eq]
  by_cases hlt : (str.takeWhile R.isPartOfName).length < insnAltSize
  · rw [if_pos (Nat.le_of_lt hlt)]
    simp only [hlt, if_true, true_and]
    rcases R.getOperands (R.operandsOf str) with _ | _ | r'
    · simp
    · simp [Except.bind]
    · simp [Except.bind]
  · refine iff_of_false ?_ fun h => hlt h.1
    by_cases hle : (str.takeWhile R.isPartOfName).length ≤ insnAltSize
    · rw [if_pos hle]
      simp only [hlt, if_false]
      rcases R.getOperands (R.operandsOf str) with _ | _ | r'
      · simp
      · simp [Except.bind]
      · simp [Except.bind]
    · rw [if_neg hle]
      simp

/-- **A line is scanned as it should be** exactly if its mnemonic is shorter than `insn_alt`, every state of the scan
meets the condition, and a malformed operand stands beside one that is rejected. -/
theorem safe_iff (R : Reader) (str : List Byte) : R.Safe str ↔ R.Fits str := by
  rw [Safe, Reader.Fits]
  simp only [mdAssembleScan_ok_iff]
  rcases getOperands_spec (R := R) (R.operandsOf str) with ⟨f, hrun, hnot⟩ | ⟨r, hrun, hall, hiff⟩
  · refine iff_of_false ?_ fun h => hnot h.2.1
    rintro ⟨r, ⟨-, hr⟩, -⟩
    exact absurd (hrun.symm.trans hr) (by simp)
  · constructor
    · rintro ⟨r', ⟨hlt, hr'⟩, hmalformed, -⟩
      obtain rfl := Except.ok.inj (Option.some.inj (hrun.symm.trans hr'))
      exact ⟨hlt, hall, fun h => hiff.mp (hmalformed h)⟩
    · rintro ⟨hlt, -, hmalformed⟩
      refine ⟨r, ⟨hlt, hrun⟩, fun h => hiff.mpr (hmalformed h), ?_⟩
      rintro ⟨s, hs, hsurplus⟩
      exact hiff.mpr ⟨s, hs, rejects_of_surplus hsurplus⟩

end Reader

/-! ## A line with four operands -/

/-- Letters are parts of names, a line ends at the zero, and an operand ends at a comma. -/
def plainReader : Reader where
  isPartOfName c := decide (97 ≤ c.toNat ∧ c.toNat ≤ 122)
  isEndOfLine c := c == 0
  expression text := (⟨.symbol, 0, 0, 0⟩, ((text.takeWhile (· ≠ 0)).takeWhile (· ≠ chr ',')).length)
  isPartOfName_zero := rfl
  isEndOfLine_zero := rfl
  expression_le _ := (List.takeWhile_sublist _).length_le

/-- `add a,b,c,d`. -/
def fourOperands : List Byte := "add a,b,c,d".toList.map chr

/-- The fault of a scan that has one. -/
def faultOf : Option (Except Fault ScanResult) → Option Fault
  | some (.error f) => some f
  | _ => none

/-- With four operands, the mark behind them is written behind `exp`. -/
theorem fourOperands_not_safe : ¬plainReader.Safe fourOperands := by
  rintro ⟨r, hr, -⟩
  have hfault : faultOf (plainReader.mdAssembleScan fourOperands) = some Fault.exp := by decide +kernel
  rw [hr] at hfault
  exact absurd hfault (by simp [faultOf])

end Dadao.Gas
