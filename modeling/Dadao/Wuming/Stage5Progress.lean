import Dadao.Wuming.Stage5Program

set_option relaxedAutoImplicit false
set_option autoImplicit false

/-!
# Progress of the five-stage core

A word waits in decode for the registers of the words before it, and the fetch waits for a redirect, for
what it has to drop and for the word itself. None of these waits for another: with every cycle in which
the memories answer the next word is nearer to leaving decode.

## Main definitions

* `Dadao.Wuming.Stage5.Machine.wait` — the cycles until the next word leaves decode.

## Main results

* `Dadao.Wuming.Stage5.granted_le` — at most seven cycles in which the memories answer to each word.
-/

namespace Dadao

namespace Wuming

namespace Stage5

open Clocked

/-! ### What is waited for -/

/-- The memories take and answer whatever they are asked in a cycle. -/
def Grants.all (c : Grants) : Bool := c.accept && c.respond && c.dmem

/-- The destinations of a stage hit no source. -/
def Dest.silent (d : Dest) : Bool := d.wbRf == .x2 && d.wb2Rf == .x2

/-- The cycles until the destinations on their way are written. -/
def held (s : State) : ℕ :=
  if !s.exeDest.silent then 3 else if !s.memDest.silent then 2 else if !s.wbDest.silent then 1 else 0

/-- The cycles until a word of the program is in decode. -/
def fetchWait (s : State) : ℕ :=
  if branchSel s.exe ≠ .plus4 then 3
  else if s.dec.valid then 0
  else if s.ifKilled || s.regFencei then 2
  else 1

/-- **The cycles until the next word leaves decode**, if the memories answer. -/
def Machine.wait {μ : Type} (x : Machine μ) : ℕ := held x.core + fetchWait x.core

lemma held_le (s : State) : held s ≤ 3 := by
  unfold held
  split_ifs <;> omega

lemma fetchWait_le (s : State) : fetchWait s ≤ 3 := by
  unfold fetchWait
  split_ifs <;> omega

/-- Nothing on its way is nothing to wait for. -/
lemma hazard_of_held {s : State} (hcsr : s.exeIsCsr = false) (h : held s = 0) : hazard s = false := by
  unfold held at h
  split_ifs at h with hexe hmem hwb
  have hsilent : ∀ {d : Dest}, ¬ (!d.silent) = true → d.wbRf = .x2 ∧ d.wb2Rf = .x2 := by
    intro d hd
    simpa [Dest.silent] using hd
  have hno : NoDest s := ⟨hsilent hexe, hsilent hmem, hsilent hwb⟩
  rw [hno.hazard_eq, hcsr]

/-- The destinations after a cycle that does not wait for the data memory. -/
lemma held_step {s : State} {i : Inputs} (hstall : fullStall s i = false)
    (hexe : (step s i).exeDest.silent = true) : held (step s i) ≤ held s - 1 := by
  have hmem : (step s i).memDest = s.exeDest := by simp [step, hstall]
  have hwb : (step s i).wbDest = s.memDest := by simp [step, hstall]
  unfold held
  rw [hexe, hmem, hwb]
  cases s.exeDest.silent <;> cases s.memDest.silent <;> cases s.wbDest.silent <;> decide

/-- The destinations after a cycle that waits for the data memory. -/
lemma held_step_of_fullStall {s : State} {i : Inputs} (hstall : fullStall s i = true) :
    held (step s i) = held s := by
  have hexe : (step s i).exeDest = s.exeDest := by simp [step, advances, hstall]
  have hmem : (step s i).memDest = s.memDest := by simp [step, hstall]
  have hwb : (step s i).wbDest = s.wbDest := by simp [step, hstall]
  unfold held
  rw [hexe, hmem, hwb]

/-! ### The fetch -/

section Fetch

variable {prog : BitVec 64 → BitVec 32} {t : Fetching} {p : Ports}

/-- An instruction memory that answers has a word for an empty buffer. -/
lemma ifOut_of_respond (haccept : p.accept = true) (hrespond : p.respond = true) :
    (t.core.ifBuffer.isSome || (portInputs prog t p).imemValid) = true := by
  cases hbuf : t.core.ifBuffer with
  | some w => rfl
  | none =>
    cases hpending : t.pending <;>
      simp [portInputs, request, hpending, imemReqValid, hbuf, haccept, hrespond]

/-- **A redirect** is over after a cycle that does not wait for the data memory. -/
lemma Redirects.fetchWait_step (h : Redirects t) (hplain : Plain prog t p) :
    fetchWait (t.step prog p).core + (if fullStall t.core (portInputs prog t p) then 0 else 1) ≤
      fetchWait t.core := by
  have hnow : fetchWait t.core = 3 := by rw [fetchWait, if_pos h.sel]
  have hsel := exePcSel_eq hplain.kill
  have hdecKill : decKill t.core (portInputs prog t p) = true := by simp [decKill, hsel, h.sel]
  have hifKill : ifKill t.core (portInputs prog t p) = true := by simp [ifKill, hsel, h.sel]
  have hissues : issues t.core (portInputs prog t p) = false := by simp [issues, hdecKill]
  cases hstall : fullStall t.core (portInputs prog t p) with
  | true =>
    rw [hnow]
    exact fetchWait_le _
  | false =>
    have hexe : branchSel (t.step prog p).core.exe = .plus4 :=
      branchSel_of_x (exeNext_of_not_issues hissues (Or.inr hstall)).2.2.1
    have hdec : (t.step prog p).core.dec.valid = false := decNext_of_ifKill (by simp [hifKill])
    have hnext : fetchWait (t.step prog p).core ≤ 2 := by
      rw [fetchWait, if_neg (by simp [hexe]), hdec]
      split_ifs <;> omega
    rw [hnow]
    exact Nat.add_le_add_right hnext 1

/-- The fetch after a cycle with a word in decode that stays there. -/
lemma Straight.fetchWait_step_of_valid (h : Straight prog t) (hinv : t.Inv prog)
    (hplain : Plain prog t p) (hvalid : t.core.dec.valid = true)
    (hleaves : leaves prog t p = false) : fetchWait (t.step prog p).core = 0 := by
  have hreg : t.core.regFencei = false := by
    cases hreg : t.core.regFencei with
    | false => rfl
    | true =>
      rw [(h.fence hreg).1] at hvalid
      cases hvalid
  have hkilled : t.core.ifKilled = false := by
    cases hk : t.core.ifKilled with
    | false => rfl
    | true =>
      rw [(h.killed hk).1] at hvalid
      cases hvalid
  have hissues : issues t.core (portInputs prog t p) = false := by simpa [leaves, hvalid] using hleaves
  have hdecKill : decKill t.core (portInputs prog t p) = false := by
    simp [decKill, exePcSel_eq hplain.kill, h.sel]
  have hadv : advances t.core (portInputs prog t p) = false := by
    simpa [issues, hdecKill, hplain.kill] using hissues
  have hifKill : ifKill t.core (portInputs prog t p) = false := (h.ifKill_eq hinv hplain).trans hreg
  have hdec : (t.step prog p).core.dec = t.core.dec := by
    show decNext t.core (portInputs prog t p) = t.core.dec
    simp [decNext, hplain.kill, hadv, hifKill, hkilled]
  have hexe : branchSel (t.step prog p).core.exe = .plus4 := by
    show branchSel (exeNext t.core (portInputs prog t p)) = .plus4
    cases hstall : fullStall t.core (portInputs prog t p) with
    | true =>
      rw [exeNext_of_fullStall hplain.kill hstall]
      exact h.sel
    | false => exact branchSel_of_x (exeNext_of_not_issues hissues (Or.inr hstall)).2.2.1
  rw [fetchWait, if_neg (by simp [hexe]), hdec, if_pos hvalid]

/-- The fetch after a cycle without a word in decode. -/
lemma Straight.fetchWait_step_of_bubble (h : Straight prog t) (hinv : t.Inv prog)
    (hplain : Plain prog t p) (hvalid : t.core.dec.valid = false) :
    fetchWait (t.step prog p).core ≤ fetchWait t.core := by
  have hexe := h.sel_of_bubble hinv hplain hvalid
  have hreg' : (t.step prog p).core.regFencei = false := h.fencei_eq hinv hplain
  have hnow : fetchWait t.core = if t.core.ifKilled || t.core.regFencei then 2 else 1 := by
    rw [fetchWait, if_neg (by simp [h.sel]), hvalid]
    rfl
  have hnext : fetchWait (t.step prog p).core ≤ if (t.step prog p).core.ifKilled then 2 else 1 := by
    rw [fetchWait, if_neg (by simp [hexe]), hreg', Bool.or_false]
    split_ifs <;> omega
  cases hreg : t.core.regFencei with
  | true =>
    rw [hnow, hreg, Bool.or_true, if_pos rfl]
    refine hnext.trans ?_
    split_ifs <;> omega
  | false =>
    cases hk : t.core.ifKilled with
    | true =>
      rw [hnow, hk, Bool.true_or, if_pos rfl]
      refine hnext.trans ?_
      split_ifs <;> omega
    | false =>
      rw [(h.fetch_step hinv hplain hreg hk).1] at hnext
      rw [hnow, hk, hreg]
      exact hnext

/-- **The fetch comes nearer** to the word in every cycle in which the memories answer. -/
lemma Straight.fetchWait_lt_of_bubble (h : Straight prog t) (hinv : t.Inv prog)
    (hplain : Plain prog t p) (hcsr : t.core.exeIsCsr = false) (hvalid : t.core.dec.valid = false)
    (haccept : p.accept = true) (hrespond : p.respond = true)
    (hstall : fullStall t.core (portInputs prog t p) = false) :
    fetchWait (t.step prog p).core < fetchWait t.core := by
  have hexe := h.sel_of_bubble hinv hplain hvalid
  have hreg' : (t.step prog p).core.regFencei = false := h.fencei_eq hinv hplain
  have hhaz : hazard t.core = false := (hinv.named.hazard_of_bubble (hinv.bubble hvalid)).trans hcsr
  have hadv : advances t.core (portInputs prog t p) = true := by simp [advances, hhaz, hstall]
  have hout : (t.core.ifBuffer.isSome || (portInputs prog t p).imemValid) = true :=
    ifOut_of_respond haccept hrespond
  have hfire : ifOutFire t.core (portInputs prog t p) = true := by rw [ifOutFire, hout, hadv]; rfl
  have hkilled : (t.step prog p).core.ifKilled = false := by
    show (Stage5.step t.core (portInputs prog t p)).ifKilled = false
    rw [ifKilled_step hplain.kill, hfire]
    cases t.core.ifKilled <;> simp
  have hnow : fetchWait t.core = if t.core.ifKilled || t.core.regFencei then 2 else 1 := by
    rw [fetchWait, if_neg (by simp [h.sel]), hvalid]
    rfl
  have hnext : fetchWait (t.step prog p).core = if (t.step prog p).core.dec.valid then 0 else 1 := by
    rw [fetchWait, if_neg (by simp [hexe]), hkilled, hreg']
    rfl
  rw [hnow, hnext]
  cases hdrop : t.core.ifKilled || t.core.regFencei with
  | true =>
    rw [if_pos rfl]
    split_ifs <;> omega
  | false =>
    -- nothing is dropped, and the word comes to decode
    obtain ⟨hk, hreg⟩ := Bool.or_eq_false_iff.mp hdrop
    have hifKill : ifKill t.core (portInputs prog t p) = false := (h.ifKill_eq hinv hplain).trans hreg
    have hdec : (t.step prog p).core.dec.valid = true := by
      show (decNext t.core (portInputs prog t p)).valid = true
      simp [decNext, hplain.kill, hadv, hifKill, hk, hout]
    rw [hdec]
    decide

end Fetch

section Step

variable {μ : Type} {prog : BitVec 64 → BitVec 32} {access : μ → MemReq → BitVec 64 × μ}
  {evec : Cause → BitVec 64} {st : Arch × μ} {k : ℕ} {x : Machine μ} {t : Fetching} {c : Grants}

/-- The destinations of a cycle in which no word of the program leaves decode. -/
lemma At.silent_step (h : At prog access evec st k x t)
    (hleaves : x.leaves prog access c = false)
    (hstall : fullStall x.core (x.inputs prog access c) = false) :
    (x.step prog access c).core.exeDest.silent = true := by
  have hnone : Dest.none.silent = true := rfl
  show Dest.silent (if _ then if _ then _ else _ else if _ then _ else _) = true
  cases hadv : advances x.core (x.inputs prog access c) with
  | false =>
    have hhaz : hazard x.core = true := by simpa [advances, hstall] using hadv
    simp [hhaz, hstall, hnone]
  | true =>
    cases hdec : decKill x.core (x.inputs prog access c) with
    | true => exact hnone
    | false =>
      -- a bubble leaves decode
      have hissues : issues x.core (x.inputs prog access c) = true := by
        simp [issues, hadv, hdec, h.clean.kill]
      have hvalid : x.core.dec.valid = false := by simpa [Machine.leaves, hissues] using hleaves
      have hinst := h.inv.bubble (by rw [h.core]; exact hvalid)
      rw [h.core] at hinst
      simp only [if_true, if_false, Bool.false_eq_true, decDest, cs, hinst]
      decide

/-- **The destinations on their way** come nearer to write back in every cycle in which no word of the
program leaves decode. -/
lemma At.held_le (h : At prog access evec st k x t) (hleaves : x.leaves prog access c = false) :
    held (x.step prog access c).core ≤ held x.core := by
  have hcore : (x.step prog access c).core = Stage5.step x.core (x.inputs prog access c) := rfl
  cases hstall : fullStall x.core (x.inputs prog access c) with
  | true =>
    rw [hcore, held_step_of_fullStall hstall]
  | false =>
    have hheld := held_step hstall (h.silent_step hleaves hstall)
    rw [hcore]
    omega

/-- **The fetch does not fall back** in a cycle in which no word of the program leaves decode. -/
lemma At.fetchWait_le (h : At prog access evec st k x t) (hsuits : Suits prog access evec st k)
    (hleaves : x.leaves prog access c = false) :
    fetchWait (x.step prog access c).core ≤ fetchWait x.core := by
  have hplain := h.plain (c := c) hsuits
  have hleaves' : Stage5.leaves prog t (x.ports access c) = false := by
    rw [Stage5.leaves, h.portInputs_eq, h.core]
    exact hleaves
  rw [← h.core_step, ← h.core]
  rcases h.inv.way with hred | hstraight
  · exact le_trans (Nat.le_add_right _ _) (hred.fetchWait_step hplain)
  · cases hvalid : t.core.dec.valid with
    | true =>
      rw [hstraight.fetchWait_step_of_valid h.inv hplain hvalid hleaves']
      exact Nat.zero_le _
    | false => exact hstraight.fetchWait_step_of_bubble h.inv hplain hvalid

/-- **The next word comes nearer to leaving decode** in every cycle in which the memories answer and no
word does. -/
lemma At.wait_lt (h : At prog access evec st k x t) (hsuits : Suits prog access evec st k)
    (hcsr : x.core.exeIsCsr = false) (hleaves : x.leaves prog access c = false) (hall : c.all = true) :
    (x.step prog access c).wait < x.wait := by
  have hplain := h.plain (c := c) hsuits
  obtain ⟨⟨haccept, hrespond⟩, hdmem⟩ : (c.accept = true ∧ c.respond = true) ∧ c.dmem = true := by
    simpa [Grants.all] using hall
  have hstall : fullStall x.core (x.inputs prog access c) = false := by
    rw [h.clean.fullStall_eq, hdmem, Bool.not_true, Bool.and_false]
  have hstall' : fullStall t.core (portInputs prog t (x.ports access c)) = false := by
    rw [h.portInputs_eq, h.core]
    exact hstall
  have hheld := h.held_le hleaves
  have hfetch := h.fetchWait_le hsuits hleaves
  have hcore : (x.step prog access c).core = Stage5.step x.core (x.inputs prog access c) := rfl
  have hcase : fetchWait (x.step prog access c).core < fetchWait x.core ∨
      held (x.step prog access c).core < held x.core := by
    rcases h.inv.way with hred | hstraight
    · left
      have hlt := hred.fetchWait_step hplain
      rw [hstall', h.core_step, h.core] at hlt
      exact hlt
    · cases hvalid : t.core.dec.valid with
      | false =>
        left
        rw [← h.core_step, ← h.core]
        exact hstraight.fetchWait_lt_of_bubble h.inv hplain (by rw [h.core]; exact hcsr) hvalid haccept
          hrespond hstall'
      | true =>
        -- the word in decode waits for a register
        right
        rw [h.core] at hvalid
        have hsel : branchSel x.core.exe = .plus4 := by
          rw [← h.core]
          exact hstraight.sel
        have hdec : decKill x.core (x.inputs prog access c) = false := by
          simp [decKill, exePcSel_eq h.clean.kill, hsel]
        have hissues : issues x.core (x.inputs prog access c) = false := by
          simpa [Machine.leaves, hvalid] using hleaves
        have hhaz : hazard x.core = true := by
          simpa [issues, advances, hstall, hdec, h.clean.kill] using hissues
        have hpos : held x.core ≠ 0 := by
          intro hzero
          rw [hazard_of_held hcsr hzero] at hhaz
          cases hhaz
        have hlt := held_step hstall (h.silent_step hleaves hstall)
        rw [hcore]
        omega
  unfold Machine.wait
  omega

/-- No CSR is accessed after a cycle. -/
lemma At.isCsr_step (h : At prog access evec st k x t) (hsuits : Suits prog access evec st k)
    (hcsr : x.core.exeIsCsr = false) : (x.step prog access c).core.exeIsCsr = false := by
  show (if _ then if _ then _ else _ else if _ then _ else _) = false
  split_ifs with hadv hdec
  · rfl
  · have hissues : issues x.core (x.inputs prog access c) = true := by
      simp [issues, hadv, hdec, h.clean.kill]
    have hcmd : (cs x.core).csrCmd = .n := by
      cases hvalid : x.core.dec.valid with
      | true =>
        rw [cs, (h.inst_eq (h.plain hsuits) hissues hvalid).2]
        exact hsuits.plain
      | false =>
        have hinst := h.inv.bubble (by rw [h.core]; exact hvalid)
        rw [h.core] at hinst
        rw [cs, hinst]
        decide
    rw [hcmd]
    rfl
  · rfl
  · exact hcsr

end Step

section Runs

variable {μ : Type} {prog : BitVec 64 → BitVec 32} {access : μ → MemReq → BitVec 64 × μ}
  (evec : Cause → BitVec 64)

/-- **The pipeline never comes to a standstill.** In every run from a reset, with any latencies of the two
memories, there are at most seven cycles in which both memories answer to each word that leaves decode,
and one for the first. -/
theorem granted_le (hloads : LoadsIgnoreData (harvard prog access)) (vector : BitVec 64) (r : Regs)
    (m : μ) (cs : List Grants) :
    let st : Arch × μ := (⟨vector, r.rd, r.rb, r.rf, (reset vector).ras⟩, m)
    let n := events (Machine.step prog access) (Machine.leaves prog access) (Machine.init vector r m) cs
    (∀ k ≤ n, Suits prog access evec st k) → cs.countP Grants.all ≤ 7 * n + 1 := by
  intro st n hsuits
  have hcount : ∀ (x : Machine μ) (cs : List Grants),
      events (Machine.step prog access) (fun _ c => c.all) x cs = cs.countP Grants.all := by
    intro x cs
    induction cs generalizing x with
    | nil => rfl
    | cons c cs ih =>
      rw [events, List.countP_cons, ih, Nat.add_comm]
  rw [← hcount (Machine.init vector r m)]
  refine events_le Machine.wait (b := 6) (G := Suits prog access evec st) (k := 0)
    (R := fun x k => (∃ t, At prog access evec st k x t) ∧ x.core.exeIsCsr = false) ?_ ?_
    ⟨⟨_, at_init vector r m⟩, rfl⟩ fun j _ hj => hsuits j (by omega)
  · rintro x c k ⟨⟨t, h⟩, hcsr⟩ hk
    exact ⟨⟨_, h.step hloads hk⟩, h.isCsr_step hk hcsr⟩
  · rintro x c k ⟨⟨t, h⟩, hcsr⟩ hk
    cases hleaves : x.leaves prog access c with
    | true =>
      have hheld := held_le (x.step prog access c).core
      have hfetch := fetchWait_le (x.step prog access c).core
      show held _ + fetchWait _ + _ ≤ 7
      split_ifs <;> omega
    | false =>
      cases hall : c.all with
      | true => exact h.wait_lt hk hcsr hleaves hall
      | false =>
        show held _ + fetchWait _ ≤ held x.core + fetchWait x.core
        exact Nat.add_le_add (h.held_le hleaves) (h.fetchWait_le hk hleaves)

/-- The loop, with a data memory that answers in every other cycle. -/
theorem granted_le_storeLoad :
    let cs := (List.replicate 12 [⟨true, true, false, 0, 0⟩, ⟨true, true, true, 0, 0⟩]).flatten
    cs.countP Grants.all ≤ 7 * events (Machine.step storeLoad octa) (Machine.leaves storeLoad octa)
      (Machine.init 0x10000 ⟨fun _ => 0, fun _ => 0, fun _ => 0⟩ 0) cs + 1 := by
  intro cs
  refine granted_le (fun _ => 0) ?_ 0x10000 ⟨fun _ => 0, fun _ => 0, fun _ => 0⟩ 0 cs ?_
  · rintro m req d hload
    simp [harvard, octa, hload]
  · decide +kernel

end Runs

end Stage5

end Wuming

end Dadao
