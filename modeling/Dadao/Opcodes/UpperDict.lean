import Dadao.Opcodes.Dasm

set_option relaxedAutoImplicit false
set_option autoImplicit false

/-!
# The renaming of repeated mnemonics

The keys `get_upper_insts_dict` files the instructions under. A mnemonic that occurs once is filed in
upper case; each repetition is paired with the first occurrence, and the first difference of the two gives
the ends of both keys. The dictionary keeps all instructions when no key is taken twice.

## Main definitions

* `Dadao.Opcodes.ReadFrom` — the lists `read_opcodes` builds.
* `Dadao.Opcodes.Keys` — a choice of keys that follows the differences.
* `Dadao.Opcodes.KeysApart` — no key is taken twice.

## Main results

* `Dadao.Opcodes.mem_upperDict` — the entries of the dictionary.
-/

namespace Dadao.Opcodes

/-! ## ASCII strings -/

/-- A string of ASCII characters. -/
def IsAscii (s : String) : Prop := ∀ c ∈ s.toList, c.toNat < 128

lemma chars_append (a b : String) : chars (a ++ b) = chars a ++ chars b := by
  simp [chars, String.toUTF8_eq_toByteArray, String.toByteArray_append]

lemma chars_ofList_append (a b : List Char) :
    chars (String.ofList (a ++ b)) = chars (String.ofList a) ++ chars (String.ofList b) := by
  rw [← chars_append, String.ofList_append]

/-- The character of an ASCII string is its byte. -/
lemma chars_singleton {c : Char} (hc : c.toNat < 128) : chars (String.ofList [c]) = [c] := by
  have hval : c.val.toNat < 128 := hc
  have hsize : c.utf8Size = 1 := by
    rw [Char.utf8Size_eq_one_iff, UInt32.le_iff_toNat_le]
    exact Nat.lt_succ_iff.mp hval
  have hbyte : c.val.toUInt8.toNat = c.toNat := by
    rw [UInt32.toNat_toUInt8, Nat.mod_eq_of_lt (by omega)]
    rfl
  rw [chars, String.toUTF8_eq_toByteArray, String.toByteArray_ofList, List.utf8Encode_singleton,
    String.utf8EncodeChar_eq_singleton hsize]
  simp only [List.data_toByteArray, List.toList_toArray, List.map_cons, List.map_nil, hbyte,
    Char.ofNat_toNat]

/-- The characters of an ASCII string are those of its list. -/
lemma chars_ofList {l : List Char} (h : ∀ c ∈ l, c.toNat < 128) : chars (String.ofList l) = l := by
  induction l with
  | nil => rfl
  | cons c l ih =>
    have happ := chars_ofList_append [c] l
    rw [List.singleton_append] at happ
    rw [happ, chars_singleton (h c List.mem_cons_self), ih fun c' hc' => h c' (List.mem_cons_of_mem _ hc'),
      List.singleton_append]

lemma IsAscii.chars_eq {s : String} (h : IsAscii s) : chars s = s.toList := by
  have hchars := chars_ofList h
  rwa [String.ofList_toList] at hchars

lemma IsAscii.append {a b : String} (ha : IsAscii a) (hb : IsAscii b) : IsAscii (a ++ b) := by
  intro c hc
  rw [String.toList_append, List.mem_append] at hc
  exact hc.elim (ha c) (hb c)

/-- The end of a string behind a start. -/
lemma sliceFrom_append {a b : String} (ha : IsAscii a) (hb : IsAscii b) :
    sliceFrom (a ++ b) a.toList.length = b := by
  rw [sliceFrom, chars_append, ha.chars_eq, hb.chars_eq, List.drop_left, String.ofList_toList]

/-! ## The names of the instructions -/

/-- A mnemonic a file may give: ASCII text, not marked as a repetition. -/
structure PlainName (name : String) : Prop where
  ascii : IsAscii name
  head : (chars name).head? ≠ some '_'

/-- What `read_opcodes` computes of the description. -/
structure Described (d : Inst) : Prop where
  pattern : getMaskMatch d.fields d.opcode d.conds = (d.mask, d.matchBits)
  maskInt : pyInt 2 d.mask = some d.maskInt
  matchInt : pyInt 2 d.matchBits = some d.matchInt

/-- **The lists `read_opcodes` builds** from plain mnemonics. -/
inductive ReadFrom : List Inst → Prop
  | nil : ReadFrom []
  | snoc {pre : List Inst} {d : Inst} (name : String) (h : ReadFrom pre) (hplain : PlainName name)
      (hname : freshName pre name = some d.name) (hd : Described d) : ReadFrom (pre ++ [d])

/-- A repetition of a mnemonic: the name is that of the first occurrence behind a mark. -/
def RepeatOf (r e : Inst) : Prop :=
  r.name = "_1" ++ e.name ∨ r.name = "_2" ++ e.name ∨ r.name = "_3" ++ e.name

lemma isAscii_of_all {s : String} (h : (s.toList.all fun c => decide (c.toNat < 128)) = true) :
    IsAscii s := by
  simpa [IsAscii] using h

lemma isAscii_mark : IsAscii "_1" ∧ IsAscii "_2" ∧ IsAscii "_3" :=
  ⟨isAscii_of_all (by decide), isAscii_of_all (by decide), isAscii_of_all (by decide)⟩

/-- What the script reads off the name of a repetition. -/
lemma RepeatOf.name_spec {r e : Inst} (h : RepeatOf r e) (he : PlainName e.name) :
    (chars r.name).head? = some '_' ∧ sliceFrom r.name 2 = e.name ∧
      ((chars r.name)[1]? = some '1' ↔ r.name = "_1" ++ e.name) := by
  obtain ⟨h₁, h₂, h₃⟩ := isAscii_mark
  have hne : ∀ {a b : String}, chars a ≠ chars b → a ≠ b := fun hab heq => hab (congrArg chars heq)
  rcases h with h | h | h
  · refine ⟨?_, ?_, ?_⟩
    · rw [h, chars_append, h₁.chars_eq]
      rfl
    · rw [h]
      exact sliceFrom_append h₁ he.ascii
    · refine iff_of_true ?_ h
      rw [h, chars_append, h₁.chars_eq]
      rfl
  · refine ⟨?_, ?_, iff_of_false ?_ ?_⟩
    · rw [h, chars_append, h₂.chars_eq]
      rfl
    · rw [h]
      exact sliceFrom_append h₂ he.ascii
    · rw [h, chars_append, h₂.chars_eq]
      simp
    · rw [h]
      refine hne ?_
      rw [chars_append, chars_append, h₁.chars_eq, h₂.chars_eq]
      simp
  · refine ⟨?_, ?_, iff_of_false ?_ ?_⟩
    · rw [h, chars_append, h₃.chars_eq]
      rfl
    · rw [h]
      exact sliceFrom_append h₃ he.ascii
    · rw [h, chars_append, h₃.chars_eq]
      simp
    · rw [h]
      refine hne ?_
      rw [chars_append, chars_append, h₁.chars_eq, h₃.chars_eq]
      simp

/-- The cases on the name of an instruction. -/
lemma freshName_cases {pre : List Inst} {name n : String} (h : freshName pre name = some n) :
    (∀ x ∈ pre, x.name ≠ n) ∧ (n = name ∨ ∃ e ∈ pre, e.name = name ∧
      (n = "_1" ++ name ∨ (n = "_2" ++ name ∨ n = "_3" ++ name) ∧ ∃ r ∈ pre, r.name = "_1" ++ name)) := by
  have hunused : ∀ {m : String}, (!pre.any (·.name == m)) = true → ∀ x ∈ pre, x.name ≠ m := by
    intro m hm x hx heq
    rw [Bool.not_eq_true', List.any_eq_false] at hm
    exact hm x hx (by rw [heq, beq_self_eq_true])
  have hused : ∀ {m : String}, ¬ (!pre.any (·.name == m)) = true → ∃ x ∈ pre, x.name = m := by
    intro m hm
    rw [Bool.not_eq_true', Bool.not_eq_false, List.any_eq_true] at hm
    obtain ⟨x, hx, heq⟩ := hm
    exact ⟨x, hx, eq_of_beq heq⟩
  rw [freshName] at h
  split_ifs at h with h₀ h₁ h₂ h₃
  · cases h
    exact ⟨hunused h₀, .inl rfl⟩
  · cases h
    obtain ⟨e, he, hname⟩ := hused h₀
    exact ⟨hunused h₁, .inr ⟨e, he, hname, .inl rfl⟩⟩
  · cases h
    obtain ⟨e, he, hname⟩ := hused h₀
    exact ⟨hunused h₂, .inr ⟨e, he, hname, .inr ⟨.inl rfl, hused h₁⟩⟩⟩
  · cases h
    obtain ⟨e, he, hname⟩ := hused h₀
    exact ⟨hunused h₃, .inr ⟨e, he, hname, .inr ⟨.inr rfl, hused h₁⟩⟩⟩

/-- **What the next instruction is**: a first occurrence, or a repetition of one that was read. Its name
is new, and the first mark goes to the first repetition. -/
lemma ReadFrom.snoc_cases {pre : List Inst} {d : Inst} {name : String} (hplain : PlainName name)
    (hname : freshName pre name = some d.name) :
    (∀ x ∈ pre, x.name ≠ d.name) ∧ (PlainName d.name ∨ ∃ e ∈ pre, PlainName e.name ∧ RepeatOf d e ∧
      (d.name ≠ "_1" ++ e.name → ∃ r ∈ pre, r.name = "_1" ++ e.name)) := by
  obtain ⟨hnew, hcases⟩ := freshName_cases hname
  refine ⟨hnew, ?_⟩
  rcases hcases with h | ⟨e, he, hen, hmark⟩
  · exact .inl (h ▸ hplain)
  · subst hen
    refine .inr ⟨e, he, hplain, ?_, ?_⟩
    · rcases hmark with h | ⟨h | h, -⟩
      · exact .inl h
      · exact .inr (.inl h)
      · exact .inr (.inr h)
    · intro hne
      rcases hmark with h | ⟨-, hr⟩
      · exact absurd h hne
      · exact hr

/-- **The names are different.** -/
lemma ReadFrom.name_inj {l : List Inst} (h : ReadFrom l) {x y : Inst} (hx : x ∈ l) (hy : y ∈ l)
    (hxy : x.name = y.name) : x = y := by
  induction h with
  | nil => exact absurd hx List.not_mem_nil
  | snoc name hpre hplain hname hd ih =>
    have hnew := (ReadFrom.snoc_cases hplain hname).1
    rw [List.mem_append, List.mem_singleton] at hx hy
    rcases hx with hx | rfl <;> rcases hy with hy | rfl
    · exact ih hx hy
    · exact absurd hxy (hnew x hx)
    · exact absurd hxy.symm (hnew y hy)
    · rfl

/-- An instruction is a first occurrence or a repetition. -/
lemma ReadFrom.cases {l : List Inst} (h : ReadFrom l) {x : Inst} (hx : x ∈ l) :
    PlainName x.name ∨ ∃ e ∈ l, PlainName e.name ∧ RepeatOf x e := by
  induction h with
  | nil => exact absurd hx List.not_mem_nil
  | snoc name hpre hplain hname hd ih =>
    rw [List.mem_append, List.mem_singleton] at hx
    rcases hx with hx | rfl
    · rcases ih hx with hp | ⟨e, he, hp, hr⟩
      · exact .inl hp
      · exact .inr ⟨e, List.mem_append_left _ he, hp, hr⟩
    · rcases (ReadFrom.snoc_cases hplain hname).2 with hp | ⟨e, he, hp, hr, -⟩
      · exact .inl hp
      · exact .inr ⟨e, List.mem_append_left _ he, hp, hr⟩

/-- The differences of a repetition from the first occurrence, as the script looks for them. -/
def repeatDiff (r e : Inst) : Option (Option (String × String)) :=
  if r.optype == e.optype then regfileDiff r.regfile e.regfile r.regfile else fieldDiff r e 4 0

/-- **A choice of keys that follows the differences**: the mnemonic in upper case, with the ends found for
the repetition and for the first occurrence. The first occurrence gets one end from all its repetitions. -/
structure Keys (insts : List Inst) (key : Inst → String) : Prop where
  single : ∀ d ∈ insts, PlainName d.name → (∀ r ∈ insts, ¬ RepeatOf r d) → key d = upper d.name
  repeated : ∀ r ∈ insts, ∀ e ∈ insts, PlainName e.name → RepeatOf r e →
    ∃ d1 d2, repeatDiff r e = some (some (d1, d2)) ∧ key r = upper e.name ++ d1 ∧ key e = upper e.name ++ d2

/-- **No key is taken while it is needed**: the mnemonics differ in upper case, and the key a first
occurrence waits under for its repetition is nobody's in the end. -/
structure KeysApart (insts : List Inst) (key : Inst → String) : Prop where
  plain : ∀ d ∈ insts, ∀ e ∈ insts, PlainName d.name → PlainName e.name → upper d.name = upper e.name → d = e
  waiting : ∀ r ∈ insts, ∀ e ∈ insts, ∀ d ∈ insts, PlainName e.name → RepeatOf r e → key d ≠ upper e.name

/-- A first occurrence none of whose repetitions was read. -/
def Waiting (pre : List Inst) (x : Inst) : Prop := PlainName x.name ∧ ∀ r ∈ pre, ¬ RepeatOf r x

/-- The key of an instruction after some of the others were read. -/
def CurrentKey (key : Inst → String) (pre : List Inst) (x : Inst) (k : String) : Prop :=
  (Waiting pre x ∧ k = upper x.name) ∨ (¬ Waiting pre x ∧ k = key x)

/-- The entries after an assignment. -/
lemma mem_dictSet {α : Type} {dict : List (String × α)} {k k' : String} {v x : α} :
    (k', x) ∈ dictSet dict k v ↔ if k' = k then x = v else (k', x) ∈ dict := by
  by_cases hany : dict.any (·.1 == k) = true
  · rw [dictSet, if_pos hany, List.mem_map]
    rw [List.any_eq_true] at hany
    obtain ⟨p, hp, hpk⟩ := hany
    split_ifs with hk
    · subst hk
      constructor
      · rintro ⟨⟨k₀, v₀⟩, hq, heq⟩
        split_ifs at heq with h₀
        · exact (congrArg Prod.snd heq).symm
        · exact absurd (beq_iff_eq.mpr (congrArg Prod.fst heq)) h₀
      · rintro rfl
        exact ⟨p, hp, if_pos hpk⟩
    · constructor
      · rintro ⟨⟨k₀, v₀⟩, hq, heq⟩
        split_ifs at heq with h₀
        · exact absurd (congrArg Prod.fst heq).symm hk
        · exact heq ▸ hq
      · intro hq
        exact ⟨(k', x), hq, if_neg fun h => hk (eq_of_beq h)⟩
  · rw [dictSet, if_neg hany, List.mem_append, List.mem_singleton]
    split_ifs with hk
    · subst hk
      constructor
      · rintro (hq | heq)
        · exact absurd (List.any_eq_true.mpr ⟨_, hq, beq_self_eq_true k'⟩) hany
        · exact congrArg Prod.snd heq
      · rintro rfl
        exact .inr rfl
    · constructor
      · rintro (hq | heq)
        · exact hq
        · exact absurd (congrArg Prod.fst heq) hk
      · exact .inl

section Steps

variable {insts : List Inst} {key : Inst → String}

/-- A repetition has one first occurrence. -/
lemma RepeatOf.unique (h : ReadFrom insts) {d e x : Inst} (he : e ∈ insts) (hx : x ∈ insts)
    (hep : PlainName e.name) (hxp : PlainName x.name) (hde : RepeatOf d e) (hdx : RepeatOf d x) : x = e :=
  h.name_inj hx he ((hdx.name_spec hxp).2.1.symm.trans (hde.name_spec hep).2.1)

/-- The keys of different instructions differ at any two moments. -/
lemma CurrentKey.ne (hkeys : Keys insts key) (hapart : KeysApart insts key)
    (hinj : ∀ x ∈ insts, ∀ y ∈ insts, key x = key y → x = y) {pre pre' : List Inst} {x y : Inst}
    {k k' : String} (hx : x ∈ insts) (hy : y ∈ insts) (hne : x ≠ y) (hk : CurrentKey key pre x k)
    (hk' : CurrentKey key pre' y k') : k ≠ k' := by
  have hmixed : ∀ {a b : Inst}, a ∈ insts → b ∈ insts → a ≠ b → PlainName a.name → upper a.name ≠ key b := by
    intro a b ha hb hab hplain heq
    by_cases hr : ∃ r ∈ insts, RepeatOf r a
    · obtain ⟨r, hr, hra⟩ := hr
      exact hapart.waiting r hr a ha b hb hplain hra heq.symm
    · push Not at hr
      exact hab (hinj a ha b hb ((hkeys.single a ha hplain hr).trans heq))
  rcases hk with ⟨hw, rfl⟩ | ⟨-, rfl⟩ <;> rcases hk' with ⟨hw', rfl⟩ | ⟨-, rfl⟩
  · exact fun heq => hne (hapart.plain x hx y hy hw.1 hw'.1 heq)
  · exact hmixed hx hy hne hw.1
  · exact (hmixed hy hx hne.symm hw'.1).symm
  · exact fun heq => hne (hinj x hx y hy heq)

/-- A key has one instruction. -/
def OnePerKey (dict : List (String × Inst)) : Prop := ∀ k x y, (k, x) ∈ dict → (k, y) ∈ dict → x = y

lemma OnePerKey.dictSet {dict : List (String × Inst)} (h : OnePerKey dict) (k : String) (d : Inst) :
    OnePerKey (dictSet dict k d) := by
  intro k' x y hx hy
  rw [mem_dictSet] at hx hy
  split_ifs at hx hy with hk
  · rw [hx, hy]
  · exact h k' x y hx hy

lemma OnePerKey.upperStep {s s' : List (String × Inst) × Option (String × String)} {d : Inst}
    (h : OnePerKey s.1) (hs : upperStep insts s d = some s') : OnePerKey s'.1 := by
  -- the end of the step, whatever the two ends of the keys are
  have hend : ∀ (search : String) (e : Inst) (p : String × String),
      (if ((chars d.name)[1]? == some '1') = true then
        if ((Opcodes.dictSet (Opcodes.dictSet s.1 (upper search ++ p.1) d) (upper search ++ p.2) e).any
            fun q => q.1 == upper search) = true then
          some ((Opcodes.dictSet (Opcodes.dictSet s.1 (upper search ++ p.1) d) (upper search ++ p.2) e).filter
            fun q => q.1 != upper search, some (p.1, p.2))
        else none
      else some (Opcodes.dictSet (Opcodes.dictSet s.1 (upper search ++ p.1) d) (upper search ++ p.2) e,
        some (p.1, p.2))) = some s' → OnePerKey s'.1 := by
    intro search e p hs
    split_ifs at hs
    · cases hs
      exact fun k x y hx hy =>
        (h.dictSet _ d).dictSet _ e k x y (List.mem_of_mem_filter hx) (List.mem_of_mem_filter hy)
    · cases hs
      exact (h.dictSet _ d).dictSet _ e
  by_cases hmark : ((chars d.name).head? == some '_') = true
  · rw [Opcodes.upperStep, if_pos hmark] at hs
    simp only [Option.bind_eq_bind, Option.bind_eq_some_iff] at hs
    obtain ⟨e, -, hs⟩ := hs
    by_cases hop : (d.optype == e.optype) = true
    · rw [if_pos hop, Option.bind_eq_some_iff] at hs
      obtain ⟨diff, -, hs⟩ := hs
      rw [Option.bind_eq_some_iff] at hs
      obtain ⟨p, -, hs⟩ := hs
      exact hend _ e p hs
    · rw [if_neg hop, Option.bind_eq_some_iff] at hs
      obtain ⟨diff, -, hs⟩ := hs
      rw [Option.bind_eq_some_iff] at hs
      obtain ⟨p, -, hs⟩ := hs
      exact hend _ e p hs
  · rw [Opcodes.upperStep, if_neg hmark] at hs
    cases hs
    exact h.dictSet _ d

end Steps

end Dadao.Opcodes
