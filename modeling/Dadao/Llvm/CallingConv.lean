import Dadao.Lib.Banks
import Dadao.Qemu.Multiple

set_option relaxedAutoImplicit false
set_option autoImplicit false

/-!
# Arguments in the LLVM back end

The places that `LowerCCCCallTo` gives the arguments of a call and those that `LowerCCCArguments` and
`LowerVASTART` read them from, by value number: a wide argument is two values.

## Main definitions

* `Dadao.Llvm.FnType`, `Dadao.Llvm.Callee` — the type of a function and what a call names.
* `Dadao.Llvm.lowerCCCCallTo`, `Dadao.Llvm.lowerCCCArguments` — the two sides.
* `Dadao.Llvm.Agree` — they agree on every value.
-/

namespace Dadao.Llvm

open Banks

/-! ## Types and values -/

/-- The value types of arguments: `MVT::i64` and `MVT::bp64`. -/
inductive ValueType where
  | i64 | bp64
  deriving DecidableEq

/-- The types of arguments: an integer of up to 64 bits, a pointer, an integer of 128 bits. -/
inductive ArgType where
  | int | pointer | i128
  deriving DecidableEq

/-- The values of an argument. -/
def ArgType.values : ArgType → List ValueType
  | .int => [.i64]
  | .pointer => [.bp64]
  | .i128 => [.i64, .i64]

/-- A parameter: its type and its attribute `inreg`. -/
structure Param where
  type : ArgType
  inReg : Bool

/-- A value: its type and its flag `InReg`. -/
structure Value where
  type : ValueType
  inReg : Bool

/-- **The type of a function**: the convention (`fastcc` or C) and the values of its result are part of it. -/
structure FnType where
  fixed : List Param
  isVarArg : Bool
  fast : Bool
  result : List ValueType

/-- What a call names: a function, another global symbol, or a pointer. -/
inductive Callee where
  | function (name : String)
  | globalAlias
  | pointer

/-- `CanLowerReturn`: `RetCC_Dadao32` has one register. -/
def canLowerReturn (result : List ValueType) : Bool := result.length ≤ 1

namespace FnType

variable (ty : FnType)

/-- The hidden pointer to the result, where it cannot be returned in registers. -/
def demoted : List ValueType := if canLowerReturn ty.result then [] else [.bp64]

/-- The types of the fixed arguments as the caller sees them, with the hidden pointer. -/
def callTypes : List ArgType :=
  (if canLowerReturn ty.result then [] else [.pointer]) ++ ty.fixed.map Param.type

/-- The types of the parameters as the callee sees them. -/
def formalTypes : List ArgType := ty.fixed.map Param.type

/-- The values of the parameters, `Ins`. -/
def ins : List Value :=
  ty.demoted.map (⟨·, false⟩) ++ ty.fixed.flatMap fun p => p.type.values.map (⟨·, p.inReg⟩)

/-- The values of a call, `Outs`: `LowerCall` flags each of them. -/
def outs (variadic : List ArgType) : List Value :=
  (ty.demoted ++ ty.fixed.flatMap (·.type.values) ++ variadic.flatMap ArgType.values).map (⟨·, true⟩)

end FnType

/-! ## Assignment -/

/-- The lists of registers. -/
inductive RegList where
  | dataRegList | addrRegList
  deriving DecidableEq

/-- `RD16` to `RD31`, `RB16` to `RB31`. -/
def regList : RegList → List (Qemu.RegFile × ℕ)
  | .dataRegList => (List.range' 16 16).map (.rd, ·)
  | .addrRegList => (List.range' 16 16).map (.rb, ·)

/-- An assignment function: the list of registers that a value is assigned from, by its number, or none for
the stack, which is also behind each list; undefined where a table is accessed out of range. -/
abbrev AssignFn := ℕ → Value → Option (Option RegList)

/-- `CC_Dadao32`. -/
def ccDadao32 : AssignFn := fun _ v =>
  match v.type with
  | .i64 | .bp64 => some (some .dataRegList)

/-- `CC_Dadao_AssignToReg`. -/
def ccDadaoAssignToReg (argTypeList : List ArgType) (valNo : ℕ) : Option RegList := do
  return if (← argTypeList[valNo]?) = .pointer then .addrRegList else .dataRegList

/-- `CC_Dadao32_Fast`. -/
def ccDadao32Fast (isVarArg : Bool) (argTypeList : List ArgType) : AssignFn := fun valNo v =>
  if !isVarArg && v.inReg && v.type == .i64 then (ccDadaoAssignToReg argTypeList valNo).map some
  else some none

/-- `CC_Dadao32_VarArg`. -/
def ccDadao32VarArg (numFixedArgs : ℕ) : AssignFn := fun valNo v =>
  if valNo < numFixedArgs then ccDadao32 valNo v else some none

/-- The requests of values. -/
def requests (fn : AssignFn) (vals : List Value) : Option (List (Option RegList)) :=
  vals.zipIdx.mapM fun v => fn v.2 v.1

/-- `AnalyzeCallOperands` and `AnalyzeFormalArguments`: the places of values and what is used then. -/
def analyze (fn : AssignFn) (vals : List Value) :
    Option (List (Place (Qemu.RegFile × ℕ)) × Used RegList) := do
  return allocs regList ⟨fun _ => 0, 0⟩ (← requests fn vals)

/-! ## The two sides -/

/-- The assignment function of a call; none where the name of an alias is read through a null pointer. -/
def callAssignFn (ty : FnType) (callee : Callee) (variadic : List ArgType) : Option AssignFn :=
  let default := if ty.fast then ccDadao32Fast ty.isVarArg (ty.callTypes ++ variadic) else ccDadao32
  if ty.isVarArg then
    match callee with
    | .function name =>
      let numFixedArgs := ty.fixed.length
      if numFixedArgs ≠ 0 ∧ name ≠ "printf" then some (ccDadao32VarArg numFixedArgs) else some default
    | .globalAlias => none
    | .pointer => some default
  else some default

/-- **`LowerCCCCallTo`**: the places of the values of a call. -/
def lowerCCCCallTo (ty : FnType) (callee : Callee) (variadic : List ArgType) :
    Option (List (Place (Qemu.RegFile × ℕ))) := do
  return (← analyze (← callAssignFn ty callee variadic) (ty.outs variadic)).1

/-- **`LowerCCCArguments`**: the places of the parameters, and the offset of the first variable argument. -/
def lowerCCCArguments (ty : FnType) : Option (List (Place (Qemu.RegFile × ℕ)) × ℕ) := do
  let (places, used) ← analyze
    (if ty.fast then ccDadao32Fast ty.isVarArg ty.formalTypes else ccDadao32) ty.ins
  return (places, used.stack)

/-- The places `va_arg` reads, in units of eight bytes from where `LowerVASTART` points. -/
def vaArgs (vaArgOffset n : ℕ) : List (Place (Qemu.RegFile × ℕ)) :=
  (List.range n).map fun k => .stack (vaArgOffset + 8 * k)

/-- **The sides agree**: no table is accessed out of range, every value has its own place in the call, and the
callee reads it from there. -/
def Agree (ty : FnType) (callee : Callee) (variadic : List ArgType) : Prop :=
  ∃ places formals vaArgOffset, lowerCCCCallTo ty callee variadic = some places ∧ places.Nodup ∧
    lowerCCCArguments ty = some (formals, vaArgOffset) ∧
    places = formals ++ vaArgs vaArgOffset (variadic.flatMap ArgType.values).length

/-! ## When they agree -/

/-- Whether the value with a number is assigned by `CC_Dadao_AssignToReg`, and if so whether the type it
finds in the caller's table is a pointer. -/
def FnType.kindAt (ty : FnType) (i : ℕ) : Option Bool :=
  match ty.ins[i]?, ty.callTypes[i]? with
  | some v, some t => if v.type = .i64 then some (t = .pointer) else none
  | _, _ => none

/-- The registers for a kind have all been assigned. -/
def FnType.Exhausted (ty : FnType) (pointer : Bool) (i : ℕ) : Prop :=
  16 ≤ (List.range i).countP fun j => ty.kindAt j = some pointer

instance (ty : FnType) (pointer : Bool) (i : ℕ) : Decidable (ty.Exhausted pointer i) :=
  inferInstanceAs (Decidable (16 ≤ _))

/-- The condition for `fastcc` without variable arguments: each integer value has its type in the caller's
table; with `inreg` it has one of the same kind in the callee's table; registers are left for none of those
that differ. -/
def FnType.FastMeets (ty : FnType) : Prop :=
  ∀ i (v : Value), ty.ins[i]? = some v → v.type = .i64 → ∃ t : ArgType, ty.callTypes[i]? = some t ∧
    if v.inReg then ∃ t' : ArgType, ty.formalTypes[i]? = some t' ∧ ((t = .pointer ↔ t' = .pointer) ∨
      ty.Exhausted (t = .pointer) i ∧ ty.Exhausted (t' = .pointer) i)
    else ty.Exhausted (t = .pointer) i

/-- A call that `CC_Dadao32_VarArg` is taken for. -/
def Callee.counted (callee : Callee) (ty : FnType) : Prop :=
  ∃ name, callee = .function name ∧ name ≠ "printf" ∧ ty.fixed ≠ []

/-- **When the sides agree**, by the type, what the call names and the variable arguments. -/
def Meets (ty : FnType) (callee : Callee) (variadic : List ArgType) : Prop :=
  if ty.isVarArg then callee ≠ .globalAlias ∧
    (callee.counted ty → ty.fast = false ∧ (ty.ins.length = ty.fixed.length ∨ 16 ≤ ty.fixed.length)) ∧
    (¬ callee.counted ty → ty.fast = true ∨ variadic = [] ∨ 16 ≤ ty.ins.length)
  else ty.fast = true → ty.FastMeets

/-! ## Requests -/

lemma mapM_eq_some_iff {α β : Type} {f : α → Option β} {l : List α} {l' : List β} :
    l.mapM f = some l' ↔ List.Forall₂ (fun a b => f a = some b) l l' := by
  induction l generalizing l' with
  | nil => simp [eq_comm]
  | cons a l ih =>
    cases l' with
    | nil => cases h : f a <;> cases h' : l.mapM f <;> simp [h, h']
    | cons b l' =>
      rw [List.forall₂_cons, ← ih]
      cases h : f a <;> cases h' : l.mapM f <;> simp [h, h']

/-- The requests of values, one by one. -/
lemma requests_eq_some_iff {fn : AssignFn} {vals : List Value} {rq : List (Option RegList)} :
    requests fn vals = some rq ↔ rq.length = vals.length ∧
      ∀ i v, vals[i]? = some v → ∃ r, fn i v = some r ∧ rq[i]? = some r := by
  rw [requests, mapM_eq_some_iff, List.forall₂_iff_get]
  simp only [List.length_zipIdx, List.get_eq_getElem, List.getElem_zipIdx, Nat.zero_add]
  constructor
  · rintro ⟨hlen, h⟩
    refine ⟨hlen.symm, fun i v hv => ?_⟩
    obtain ⟨hi, rfl⟩ := List.getElem?_eq_some_iff.mp hv
    exact ⟨_, h i hi (hlen ▸ hi), List.getElem?_eq_getElem _⟩
  · rintro ⟨hlen, h⟩
    refine ⟨hlen.symm, fun i hi hi' => ?_⟩
    obtain ⟨r, hr, hri⟩ := h i vals[i] (List.getElem?_eq_getElem hi)
    obtain ⟨hlt, heq⟩ := List.getElem?_eq_some_iff.mp hri
    rw [heq, hr]

/-- Values with a request each have requests. -/
lemma exists_requests {fn : AssignFn} {vals : List Value}
    (h : ∀ i v, vals[i]? = some v → (fn i v).isSome = true) : ∃ rq, requests fn vals = some rq := by
  cases hrq : requests fn vals with
  | some rq => exact ⟨rq, rfl⟩
  | none =>
    exfalso
    have hnone : ∀ (l : List (Value × ℕ)), (∀ v ∈ l, (fn v.2 v.1).isSome = true) →
        (l.mapM fun v => fn v.2 v.1).isSome = true := by
      intro l
      induction l with
      | nil => simp
      | cons v l ih =>
        intro hl
        obtain ⟨r, hr⟩ := Option.isSome_iff_exists.mp (hl v (List.mem_cons_self ..))
        obtain ⟨rs, hrs⟩ := Option.isSome_iff_exists.mp (ih fun v' hv' => hl v' (List.mem_cons_of_mem _ hv'))
        simp [hr, hrs]
    have hsome := hnone vals.zipIdx fun v hv => h v.2 v.1 (List.mem_zipIdx_iff_getElem?.mp hv)
    rw [requests] at hrq
    rw [hrq] at hsome
    exact Bool.false_ne_true hsome

/-- Requests that depend on the number only. -/
lemma requests_of_index {fn : AssignFn} {r : ℕ → Option RegList} {vals : List Value}
    (h : ∀ i v, i < vals.length → fn i v = some (r i)) :
    requests fn vals = some ((List.range vals.length).map r) := by
  refine requests_eq_some_iff.mpr ⟨by simp, fun i v hv => ?_⟩
  have hi := (List.getElem?_eq_some_iff.mp hv).1
  exact ⟨r i, h i v hi, by simp [List.getElem?_range hi]⟩

/-- The first `p` of `n` values ask for a register, the others for the stack. -/
def split (p n : ℕ) : List (Option RegList) :=
  (List.range n).map fun i => if i < p then some .dataRegList else none

@[simp] lemma length_split (p n : ℕ) : (split p n).length = n := by simp [split]

lemma split_eq_append {p n : ℕ} (h : p ≤ n) (k : ℕ) :
    split p (n + k) = split p n ++ List.replicate k none := by
  induction k with
  | zero => simp
  | succ k ih =>
    have hlast : ¬ n + k < p := by omega
    rw [← Nat.add_assoc, split, List.range_succ, List.map_append, ← split, ih, List.replicate_succ',
      List.append_assoc]
    simp [hlast]

lemma count_take_split {p n i : ℕ} (hi : i ≤ n) :
    ((split p n).take i).count (some .dataRegList) = min i p := by
  have htake : (split p n).take i = split p i := by
    rw [split, ← List.map_take, List.take_range, Nat.min_eq_left hi, split]
  rw [htake]
  clear htake hi
  induction i with
  | zero => simp [split]
  | succ i ih =>
    rw [split, List.range_succ, List.map_append, List.count_append, ← split, ih]
    by_cases h : i < p
    · simp [h]
      omega
    · simp [h]
      omega

/-- The lists of registers are disjoint. -/
lemma regList_inj {b c : RegList} {i j : ℕ} {r : Qemu.RegFile × ℕ} (hb : (regList b)[i]? = some r)
    (hc : (regList c)[j]? = some r) : b = c ∧ i = j := by
  cases b <;> cases c <;>
    (simp only [regList, List.getElem?_map, Option.map_eq_some_iff] at hb hc
     obtain ⟨x, hx, rfl⟩ := hb
     obtain ⟨y, hy, h⟩ := hc
     simp only [Prod.mk.injEq, reduceCtorEq, false_and, true_and] at h
     try
       subst h
       obtain ⟨hi, hx⟩ := List.getElem?_eq_some_iff.mp hx
       obtain ⟨hj, hy⟩ := List.getElem?_eq_some_iff.mp hy
       simp only [List.getElem_range'] at hx hy
       exact ⟨rfl, by omega⟩)

lemma length_regList (b : RegList) : (regList b).length = 16 := by cases b <;> rfl

/-- Two splits get the same places if they are the same where registers are left. -/
lemma allocs_split_iff {p p' n : ℕ} (hp : p ≤ n) (hp' : p' ≤ n) :
    (allocs regList ⟨fun _ => 0, 0⟩ (split p n)).1 = (allocs regList ⟨fun _ => 0, 0⟩ (split p' n)).1 ↔
      p = p' ∨ 16 ≤ p ∧ 16 ≤ p' := by
  have hget (q i : ℕ) (hi : i < n) : (split q n)[i]? = some (if i < q then some .dataRegList else none) := by
    simp [split, List.getElem?_range hi]
  have hgranted (i : ℕ) (hi : i < n) : granted regList ⟨fun _ => 0, 0⟩ (split p n) i (some .dataRegList) =
      if min i p < 16 then some .dataRegList else none := by
    rw [granted, count_take_split (by omega), length_regList]
    simp only [Nat.zero_add]
  rw [allocs_eq_iff regList regList_inj _ (by simp)]
  constructor
  · intro h
    by_contra hne
    rcases Nat.lt_or_ge p p' with hlt | hge
    · have hat := h p _ _ (hget p p (by omega)) (hget p' p (by omega))
      rw [if_neg (by omega), if_pos hlt, hgranted p (by omega), if_pos (by omega)] at hat
      simp at hat
    · have hlt : p' < p := by omega
      have hat := h p' _ _ (hget p p' (by omega)) (hget p' p' (by omega))
      rw [if_pos hlt, if_neg (by omega), hgranted p' (by omega), if_pos (by omega)] at hat
      simp at hat
  · intro h i q q' hq hq'
    have hi : i < n := by simpa using (List.getElem?_eq_some_iff.mp hq).1
    rw [hget p i hi, Option.some.injEq] at hq
    rw [hget p' i hi, Option.some.injEq] at hq'
    subst hq hq'
    rcases h with rfl | ⟨h16, h16'⟩
    · rfl
    · by_cases hlt : i < p
      · by_cases hlt' : i < p'
        · rw [if_pos hlt, if_pos hlt']
        · rw [if_pos hlt, if_neg hlt', hgranted i hi, if_neg (by omega)]
          rfl
      · by_cases hlt' : i < p'
        · rw [if_neg hlt, if_pos hlt', hgranted i hi, if_neg (by omega)]
          rfl
        · rw [if_neg hlt, if_neg hlt']

/-! ## The sides as requests -/

lemma lowerCCCCallTo_eq_some_iff {ty : FnType} {callee : Callee} {variadic : List ArgType}
    {places : List (Place (Qemu.RegFile × ℕ))} : lowerCCCCallTo ty callee variadic = some places ↔
      ∃ fn rq, callAssignFn ty callee variadic = some fn ∧ requests fn (ty.outs variadic) = some rq ∧
        (allocs regList ⟨fun _ => 0, 0⟩ rq).1 = places := by
  rw [lowerCCCCallTo]
  cases hfn : callAssignFn ty callee variadic with
  | none => simp
  | some fn => cases hrq : requests fn (ty.outs variadic) <;> simp [analyze, hrq]

lemma lowerCCCArguments_eq_some_iff {ty : FnType} {formals : List (Place (Qemu.RegFile × ℕ))} {off : ℕ} :
    lowerCCCArguments ty = some (formals, off) ↔ ∃ rf,
      requests (if ty.fast then ccDadao32Fast ty.isVarArg ty.formalTypes else ccDadao32) ty.ins = some rf ∧
      (allocs regList ⟨fun _ => 0, 0⟩ rf).1 = formals ∧
      (allocs regList ⟨fun _ => 0, 0⟩ rf).2.stack = off := by
  rw [lowerCCCArguments]
  cases hrf : requests (if ty.fast then ccDadao32Fast ty.isVarArg ty.formalTypes else ccDadao32) ty.ins <;>
    simp [analyze, hrf]

/-- The sides agree if their requests get the same places, the variable arguments asking for the stack. -/
lemma agree_iff_requests {ty : FnType} {callee : Callee} {variadic : List ArgType} :
    Agree ty callee variadic ↔ ∃ fn rq rf, callAssignFn ty callee variadic = some fn ∧
      requests fn (ty.outs variadic) = some rq ∧
      requests (if ty.fast then ccDadao32Fast ty.isVarArg ty.formalTypes else ccDadao32) ty.ins = some rf ∧
      (allocs regList ⟨fun _ => 0, 0⟩ rq).1 = (allocs regList ⟨fun _ => 0, 0⟩
        (rf ++ List.replicate (variadic.flatMap ArgType.values).length none)).1 := by
  simp only [allocs_append, allocs_replicate_none]
  constructor
  · rintro ⟨places, formals, off, hcall, -, hformals, hplaces⟩
    obtain ⟨fn, rq, hfn, hrq, rfl⟩ := lowerCCCCallTo_eq_some_iff.mp hcall
    obtain ⟨rf, hrf, rfl, rfl⟩ := lowerCCCArguments_eq_some_iff.mp hformals
    exact ⟨fn, rq, rf, hfn, hrq, hrf, hplaces⟩
  · rintro ⟨fn, rq, rf, hfn, hrq, hrf, hplaces⟩
    exact ⟨_, _, _, lowerCCCCallTo_eq_some_iff.mpr ⟨fn, rq, hfn, hrq, rfl⟩,
      (nodup_allocs regList regList_inj _ rq).1,
      lowerCCCArguments_eq_some_iff.mpr ⟨rf, hrf, rfl, rfl⟩, hplaces⟩

lemma agree_iff_of_fn {ty : FnType} {callee : Callee} {variadic : List ArgType} {fn : AssignFn}
    (hfn : callAssignFn ty callee variadic = some fn) :
    Agree ty callee variadic ↔ ∃ rq rf, requests fn (ty.outs variadic) = some rq ∧
      requests (if ty.fast then ccDadao32Fast ty.isVarArg ty.formalTypes else ccDadao32) ty.ins = some rf ∧
      (allocs regList ⟨fun _ => 0, 0⟩ rq).1 = (allocs regList ⟨fun _ => 0, 0⟩
        (rf ++ List.replicate (variadic.flatMap ArgType.values).length none)).1 := by
  rw [agree_iff_requests]
  constructor
  · rintro ⟨fn', rq, rf, hfn', h⟩
    obtain rfl : fn = fn' := Option.some.inj (hfn.symm.trans hfn')
    exact ⟨rq, rf, h⟩
  · exact fun ⟨rq, rf, h⟩ => ⟨fn, rq, rf, hfn, h⟩

@[simp] lemma length_outs (ty : FnType) (variadic : List ArgType) :
    (ty.outs variadic).length = ty.ins.length + (variadic.flatMap ArgType.values).length := by
  simp [FnType.outs, FnType.ins, List.length_flatMap, Nat.add_assoc]

/-- Each argument has a value. -/
lemma length_values_pos (t : ArgType) : 0 < t.values.length := by cases t <;> simp [ArgType.values]

lemma values_eq_zero_iff (variadic : List ArgType) :
    (variadic.flatMap ArgType.values).length = 0 ↔ variadic = [] := by
  cases variadic with
  | nil => simp
  | cons t ts =>
    have hpos := length_values_pos t
    simp
    intro h
    simp [h] at hpos

/-- There are at least as many values as parameters. -/
lemma length_fixed_le (ty : FnType) : ty.fixed.length ≤ ty.ins.length := by
  have hfixed (ps : List Param) :
      ps.length ≤ (ps.flatMap fun p => p.type.values.map (Value.mk · p.inReg)).length := by
    induction ps with
    | nil => simp
    | cons p ps ih =>
      have hpos := length_values_pos p.type
      simp only [List.length_cons, List.flatMap_cons, List.length_append, List.length_map]
      omega
  have h := hfixed ty.fixed
  rw [FnType.ins, List.length_append]
  omega

/-- **Numbers only.** The caller asks for a register for the first `p` values and the callee for the first
`q`; the others are on the stack. -/
lemma agree_iff_of_index {ty : FnType} {callee : Callee} {variadic : List ArgType} {fn : AssignFn} {p q : ℕ}
    (hfn : callAssignFn ty callee variadic = some fn)
    (hcall : ∀ i v, i < (ty.outs variadic).length → fn i v = some (if i < p then some .dataRegList else none))
    (hformals : ∀ i v, i < ty.ins.length →
      (if ty.fast then ccDadao32Fast ty.isVarArg ty.formalTypes else ccDadao32) i v =
        some (if i < q then some .dataRegList else none))
    (hp : p ≤ ty.ins.length + (variadic.flatMap ArgType.values).length) (hq : q ≤ ty.ins.length) :
    Agree ty callee variadic ↔ p = q ∨ 16 ≤ p ∧ 16 ≤ q := by
  have hrq := requests_of_index hcall
  rw [length_outs] at hrq
  have hrf := requests_of_index hformals
  rw [← allocs_split_iff hp (Nat.le_add_right_of_le hq), split_eq_append hq, agree_iff_of_fn hfn]
  constructor
  · rintro ⟨rq', rf', hrq', hrf', hsame⟩
    obtain rfl : _ = rq' := Option.some.inj (hrq.symm.trans hrq')
    obtain rfl : _ = rf' := Option.some.inj (hrf.symm.trans hrf')
    exact hsame
  · exact fun hsame => ⟨_, _, hrq, hrf, hsame⟩

/-! ## Calls of the C convention -/

lemma ccDadao32_eq (i : ℕ) (v : Value) : ccDadao32 i v = some (some .dataRegList) := by
  cases h : v.type <;> simp [ccDadao32, h]

/-- The parameters of the C convention ask for registers. -/
lemma formals_c {ty : FnType} (hfast : ty.fast = false) (i : ℕ) (v : Value) (hi : i < ty.ins.length) :
    (if ty.fast then ccDadao32Fast ty.isVarArg ty.formalTypes else ccDadao32) i v =
      some (if i < ty.ins.length then some .dataRegList else none) := by
  rw [hfast, if_neg Bool.false_ne_true, if_pos hi, ccDadao32_eq]

/-- The parameters of a `fastcc` function with variable arguments are on the stack. -/
lemma formals_fast {ty : FnType} (hfast : ty.fast = true) (hvar : ty.isVarArg = true) (i : ℕ) (v : Value) :
    (if ty.fast then ccDadao32Fast ty.isVarArg ty.formalTypes else ccDadao32) i v =
      some (if i < 0 then some .dataRegList else none) := by
  simp [hfast, hvar, ccDadao32Fast]

/-- A call that counts the fixed arguments: as many values ask for registers as there are parameters. -/
lemma agree_counted_iff {ty : FnType} {callee : Callee} {variadic : List ArgType}
    (hvar : ty.isVarArg = true) (hcounted : callee.counted ty) : Agree ty callee variadic ↔
      ty.fast = false ∧ (ty.ins.length = ty.fixed.length ∨ 16 ≤ ty.fixed.length) := by
  obtain ⟨name, rfl, hname, hfixed⟩ := hcounted
  have hpos : ty.fixed.length ≠ 0 := by simpa using hfixed
  have hfn : callAssignFn ty (.function name) variadic = some (ccDadao32VarArg ty.fixed.length) := by
    simp [callAssignFn, hvar, hfixed, hname]
  have hcall (i : ℕ) (v : Value) : ccDadao32VarArg ty.fixed.length i v =
      some (if i < ty.fixed.length then some .dataRegList else none) := by
    by_cases h : i < ty.fixed.length <;> simp [ccDadao32VarArg, h, ccDadao32_eq]
  have hle := length_fixed_le ty
  cases hfast : ty.fast with
  | true =>
    rw [agree_iff_of_index (q := 0) hfn (fun i v _ => hcall i v) (fun i v _ => formals_fast hfast hvar i v)
      (Nat.le_add_right_of_le hle) (Nat.zero_le _)]
    simp [hfixed]
  | false =>
    rw [agree_iff_of_index hfn (fun i v _ => hcall i v) (formals_c hfast) (Nat.le_add_right_of_le hle)
      (Nat.le_refl _)]
    simp only [true_and]
    omega

/-- Any other call of a function with variable arguments: each value asks for a register in the C convention
and none does in `fastcc`. -/
lemma agree_uncounted_iff {ty : FnType} {callee : Callee} {variadic : List ArgType}
    (hvar : ty.isVarArg = true) (hcounted : ¬ callee.counted ty) : Agree ty callee variadic ↔
      callee ≠ .globalAlias ∧ (ty.fast = true ∨ variadic = [] ∨ 16 ≤ ty.ins.length) := by
  have hfn (hne : callee ≠ .globalAlias) : callAssignFn ty callee variadic =
      some (if ty.fast then ccDadao32Fast ty.isVarArg (ty.callTypes ++ variadic) else ccDadao32) := by
    cases callee with
    | function name =>
      have hnot : ¬ (ty.fixed.length ≠ 0 ∧ name ≠ "printf") := fun h =>
        hcounted ⟨name, rfl, h.2, by simpa using h.1⟩
      rw [callAssignFn, if_pos hvar]
      exact if_neg hnot
    | globalAlias => exact absurd rfl hne
    | pointer => simp [callAssignFn, hvar]
  by_cases hne : callee = .globalAlias
  · subst hne
    have hnone : callAssignFn ty .globalAlias variadic = none := by simp [callAssignFn, hvar]
    simp [agree_iff_requests, hnone]
  simp only [ne_eq, hne, not_false_eq_true, true_and]
  cases hfast : ty.fast with
  | true =>
    rw [agree_iff_of_index (p := 0) (q := 0) (hfn hne) (fun i v _ => by simp [hfast, hvar, ccDadao32Fast])
      (fun i v _ => formals_fast hfast hvar i v) (Nat.zero_le _) (Nat.zero_le _)]
    simp
  | false =>
    have hcall (i : ℕ) (v : Value) (hi : i < (ty.outs variadic).length) :
        (if ty.fast then ccDadao32Fast ty.isVarArg (ty.callTypes ++ variadic) else ccDadao32) i v =
          some (if i < (ty.outs variadic).length then some .dataRegList else none) := by
      rw [hfast, if_neg Bool.false_ne_true, if_pos hi, ccDadao32_eq]
    rw [agree_iff_of_index (hfn hne) hcall (formals_c hfast) (by rw [length_outs]) (Nat.le_refl _),
      length_outs]
    have hzero := values_eq_zero_iff variadic
    simp only [Bool.false_eq_true, false_or, ← hzero]
    omega

/-! ## Calls of the fast convention -/

lemma outs_nil (ty : FnType) : ty.outs [] = ty.ins.map fun v => ⟨v.type, true⟩ := by
  simp [FnType.outs, FnType.ins, List.map_flatMap, Function.comp_def]

/-- The list of registers for a kind. -/
def regListOf (pointer : Bool) : RegList := if pointer then .addrRegList else .dataRegList

lemma regListOf_inj {a b : Bool} : regListOf a = regListOf b ↔ a = b := by
  cases a <;> cases b <;> simp [regListOf]

/-- One value of the fast convention without variable arguments. -/
lemma ccDadao32Fast_eq_some_iff {types : List ArgType} {i : ℕ} {v : Value} {r : Option RegList} :
    ccDadao32Fast false types i v = some r ↔
      if v.inReg = true ∧ v.type = .i64 then
        ∃ t : ArgType, types[i]? = some t ∧ r = some (regListOf (t = .pointer))
      else r = none := by
  by_cases h : v.inReg = true ∧ v.type = .i64
  · rw [if_pos h]
    cases ht : types[i]? with
    | none => simp [ccDadao32Fast, h, ccDadaoAssignToReg, ht]
    | some t => simp [ccDadao32Fast, h, ccDadaoAssignToReg, ht, regListOf, eq_comm]
  · rw [if_neg h]
    have hnot : ¬ (!false && v.inReg && v.type == .i64) = true := by simpa using h
    rw [ccDadao32Fast, if_neg hnot, Option.some.injEq, eq_comm]

/-- What the caller asks for: the kind it finds in its table. -/
lemma requests_outs {ty : FnType} {rq : List (Option RegList)}
    (hrq : requests (ccDadao32Fast false ty.callTypes) (ty.outs []) = some rq) :
    rq = (List.range ty.ins.length).map fun i => (ty.kindAt i).map regListOf := by
  obtain ⟨hlen, h⟩ := requests_eq_some_iff.mp hrq
  rw [outs_nil, List.length_map] at hlen
  refine List.ext_getElem? fun i => ?_
  rcases Nat.lt_or_ge i ty.ins.length with hi | hi
  · obtain ⟨r, hr, hri⟩ := h i ⟨ty.ins[i].type, true⟩ (by simp [outs_nil, hi])
    rw [hri]
    simp only [List.getElem?_map, List.getElem?_range hi, Option.map_some, FnType.kindAt,
      List.getElem?_eq_getElem hi]
    rw [ccDadao32Fast_eq_some_iff] at hr
    by_cases hv : ty.ins[i].type = .i64
    · simp only [hv, and_self, if_true] at hr
      obtain ⟨t, ht, rfl⟩ := hr
      simp [ht, hv]
    · simp only [hv, and_false, if_false] at hr
      subst hr
      cases ht : ty.callTypes[i]? <;> simp [hv]
  · rw [List.getElem?_eq_none (by omega), List.getElem?_eq_none (by simpa using hi)]

/-- A register is granted for a kind unless they are exhausted. -/
lemma granted_kind (ty : FnType) {n i : ℕ} (hi : i ≤ n) (pointer : Bool) :
    granted regList ⟨fun _ => 0, 0⟩ ((List.range n).map fun i => (ty.kindAt i).map regListOf) i
      (some (regListOf pointer)) = if ty.Exhausted pointer i then none else some (regListOf pointer) := by
  have hcount : (((List.range n).map fun i => (ty.kindAt i).map regListOf).take i).count
      (some (regListOf pointer)) = (List.range i).countP fun j => ty.kindAt j = some pointer := by
    rw [← List.map_take, List.take_range, Nat.min_eq_left hi, List.count, List.countP_map]
    refine List.countP_congr fun j _ => ?_
    cases hkind : ty.kindAt j <;> simp [hkind, regListOf_inj]
  rw [granted, hcount, length_regList]
  by_cases h : ty.Exhausted pointer i
  · have hle : 16 ≤ (List.range i).countP fun j => ty.kindAt j = some pointer := h
    rw [if_neg (by simp only; omega), if_pos h]
  · have hlt : (List.range i).countP (fun j => ty.kindAt j = some pointer) < 16 := Nat.lt_of_not_le h
    rw [if_pos (by simp only; omega), if_neg h]

/-- A request for the other list or for the stack is granted the same if the registers are exhausted. -/
lemma granted_kind_eq_iff (ty : FnType) {n i : ℕ} (hi : i ≤ n) (a b : Bool) :
    granted regList ⟨fun _ => 0, 0⟩ ((List.range n).map fun i => (ty.kindAt i).map regListOf) i
        (some (regListOf a)) =
      granted regList ⟨fun _ => 0, 0⟩ ((List.range n).map fun i => (ty.kindAt i).map regListOf) i
        (some (regListOf b)) ↔ a = b ∨ ty.Exhausted a i ∧ ty.Exhausted b i := by
  rw [granted_kind ty hi, granted_kind ty hi]
  by_cases ha : ty.Exhausted a i
  · by_cases hb : ty.Exhausted b i
    · simp [ha, hb]
    · rw [if_pos ha, if_neg hb]
      simp only [ha, hb, and_false, or_false, reduceCtorEq, false_iff]
      rintro rfl
      exact hb ha
  · rw [if_neg ha]
    by_cases hb : ty.Exhausted b i
    · rw [if_pos hb]
      simp only [ha, false_and, or_false, reduceCtorEq, false_iff]
      rintro rfl
      exact ha hb
    · rw [if_neg hb]
      simp [ha, regListOf_inj]

/-- **The fast convention without variable arguments.** -/
lemma agree_fast_iff {ty : FnType} {callee : Callee} (hvar : ty.isVarArg = false) (hfast : ty.fast = true) :
    Agree ty callee [] ↔ ty.FastMeets := by
  have hfn : callAssignFn ty callee [] = some (ccDadao32Fast false ty.callTypes) := by
    simp [callAssignFn, hvar, hfast]
  rw [agree_iff_of_fn hfn]
  simp only [hfast, if_true, hvar, List.flatMap_nil, List.length_nil, List.replicate_zero, List.append_nil]
  constructor
  · rintro ⟨rq, rf, hrq, hrf, hsame⟩ i v hv hi64
    have hi := (List.getElem?_eq_some_iff.mp hv).1
    obtain ⟨hlen, hformal⟩ := requests_eq_some_iff.mp hrf
    obtain ⟨r', hr', hri'⟩ := hformal i v hv
    obtain ⟨r, hr, hri⟩ := (requests_eq_some_iff.mp hrq).2 i ⟨v.type, true⟩ (by simp [outs_nil, hv])
    rw [ccDadao32Fast_eq_some_iff, if_pos ⟨rfl, hi64⟩] at hr
    obtain ⟨t, ht, rfl⟩ := hr
    obtain rfl := requests_outs hrq
    have hgranted := (allocs_eq_iff regList regList_inj _ (by simp [hlen])).mp hsame i _ _ hri hri'
    refine ⟨t, ht, ?_⟩
    rw [ccDadao32Fast_eq_some_iff] at hr'
    by_cases hin : v.inReg = true
    · rw [if_pos ⟨hin, hi64⟩] at hr'
      obtain ⟨t', ht', rfl⟩ := hr'
      rw [granted_kind_eq_iff ty (Nat.le_of_lt hi)] at hgranted
      rw [if_pos hin]
      exact ⟨t', ht', by simpa using hgranted⟩
    · rw [if_neg (fun h => hin h.1)] at hr'
      subst hr'
      rw [granted_kind ty (Nat.le_of_lt hi), granted_none] at hgranted
      rw [if_neg hin]
      by_contra hnot
      simp [hnot] at hgranted
  · intro hmeets
    obtain ⟨rq, hrq⟩ : ∃ rq, requests (ccDadao32Fast false ty.callTypes) (ty.outs []) = some rq := by
      refine exists_requests fun i w hw => Option.isSome_iff_exists.mpr ?_
      simp only [outs_nil, List.getElem?_map, Option.map_eq_some_iff] at hw
      obtain ⟨v, hv, rfl⟩ := hw
      by_cases hi64 : v.type = .i64
      · obtain ⟨t, ht, -⟩ := hmeets i v hv hi64
        exact ⟨_, ccDadao32Fast_eq_some_iff.mpr (by rw [if_pos ⟨rfl, hi64⟩]; exact ⟨t, ht, rfl⟩)⟩
      · exact ⟨_, ccDadao32Fast_eq_some_iff.mpr (by rw [if_neg fun h => hi64 h.2])⟩
    obtain ⟨rf, hrf⟩ : ∃ rf, requests (ccDadao32Fast false ty.formalTypes) ty.ins = some rf := by
      refine exists_requests fun i v hv => Option.isSome_iff_exists.mpr ?_
      by_cases h : v.inReg = true ∧ v.type = .i64
      · obtain ⟨t, -, hif⟩ := hmeets i v hv h.2
        rw [if_pos h.1] at hif
        obtain ⟨t', ht', -⟩ := hif
        exact ⟨_, ccDadao32Fast_eq_some_iff.mpr (by rw [if_pos h]; exact ⟨t', ht', rfl⟩)⟩
      · exact ⟨_, ccDadao32Fast_eq_some_iff.mpr (by rw [if_neg h])⟩
    refine ⟨rq, rf, hrq, hrf, ?_⟩
    obtain ⟨hlen, hformal⟩ := requests_eq_some_iff.mp hrf
    have hcall := (requests_eq_some_iff.mp hrq).2
    obtain rfl := requests_outs hrq
    refine (allocs_eq_iff regList regList_inj _ (by simp [hlen])).mpr fun i q q' hq hq' => ?_
    have hi : i < ty.ins.length := by simpa using (List.getElem?_eq_some_iff.mp hq).1
    obtain ⟨r, hr, hri⟩ := hcall i ⟨ty.ins[i].type, true⟩ (by simp [outs_nil, hi])
    obtain ⟨r', hr', hri'⟩ := hformal i ty.ins[i] (List.getElem?_eq_getElem hi)
    obtain rfl : r = q := Option.some.inj (hri.symm.trans hq)
    obtain rfl : r' = q' := Option.some.inj (hri'.symm.trans hq')
    rw [ccDadao32Fast_eq_some_iff] at hr hr'
    by_cases hi64 : ty.ins[i].type = .i64
    · rw [if_pos ⟨rfl, hi64⟩] at hr
      obtain ⟨t, ht, rfl⟩ := hr
      obtain ⟨s, hs, hif⟩ := hmeets i _ (List.getElem?_eq_getElem hi) hi64
      obtain rfl : t = s := Option.some.inj (ht.symm.trans hs)
      by_cases hin : ty.ins[i].inReg = true
      · rw [if_pos ⟨hin, hi64⟩] at hr'
        obtain ⟨t', ht', rfl⟩ := hr'
        rw [if_pos hin] at hif
        obtain ⟨s', hs', hkind⟩ := hif
        obtain rfl : t' = s' := Option.some.inj (ht'.symm.trans hs')
        rw [granted_kind_eq_iff ty (Nat.le_of_lt hi)]
        simpa using hkind
      · rw [if_neg fun h => hin h.1] at hr'
        rw [if_neg hin] at hif
        rw [hr', granted_kind ty (Nat.le_of_lt hi), granted_none, if_pos hif]
    · rw [if_neg fun h => hi64 h.2] at hr hr'
      rw [hr, hr']

/-! ## All calls -/

/-- **The two sides of a call agree on the place of every value if and only if the call meets the
condition.** A call of a function without variable arguments has none. -/
theorem agree_iff_meets (ty : FnType) (callee : Callee) (variadic : List ArgType)
    (hvariadic : ty.isVarArg = false → variadic = []) :
    Agree ty callee variadic ↔ Meets ty callee variadic := by
  cases hvar : ty.isVarArg with
  | false =>
    obtain rfl := hvariadic hvar
    rw [Meets, hvar, if_neg Bool.false_ne_true]
    cases hfast : ty.fast with
    | true => rw [agree_fast_iff hvar hfast]; simp
    | false =>
      have hfn : callAssignFn ty callee [] = some ccDadao32 := by simp [callAssignFn, hvar, hfast]
      rw [agree_iff_of_index hfn (fun i v hi => by rw [if_pos hi, ccDadao32_eq]) (formals_c hfast)
        (by rw [length_outs]) (Nat.le_refl _), length_outs]
      simp
  | true =>
    rw [Meets, hvar, if_pos rfl]
    by_cases hcounted : callee.counted ty
    · have hne : callee ≠ .globalAlias := by
        obtain ⟨name, rfl, -⟩ := hcounted
        simp
      rw [agree_counted_iff hvar hcounted]
      simp [hcounted, hne]
    · rw [agree_uncounted_iff hvar hcounted]
      simp [hcounted]

/-- `int f(int, ...)`, called by its name with a variable argument. -/
theorem agree_iff_meets_direct : Agree ⟨[⟨.int, false⟩], true, false, [.i64]⟩ (.function "f") [.int] := by
  refine (agree_iff_meets _ _ _ (by simp)).mpr ?_
  have hcounted : (Callee.function "f").counted ⟨[⟨.int, false⟩], true, false, [.i64]⟩ :=
    ⟨"f", rfl, by simp, by simp⟩
  rw [Meets, if_pos rfl]
  exact ⟨by simp, fun _ => ⟨rfl, .inl rfl⟩, fun h => absurd hcounted h⟩

/-- `int f(int, ...)`, called through a pointer: the variable argument is in `rd17` and read from the
stack. -/
theorem pointer_not_agree : ¬ Agree ⟨[⟨.int, false⟩], true, false, [.i64]⟩ .pointer [.int] := by
  rintro ⟨places, formals, off, hcall, -, hformals, hplaces⟩
  have hcall' : lowerCCCCallTo ⟨[⟨.int, false⟩], true, false, [.i64]⟩ .pointer [.int] =
      some [.reg (.rd, 16), .reg (.rd, 17)] := rfl
  have hformals' : lowerCCCArguments ⟨[⟨.int, false⟩], true, false, [.i64]⟩ =
      some ([.reg (.rd, 16)], 0) := rfl
  obtain rfl := Option.some.inj (hcall'.symm.trans hcall)
  obtain ⟨rfl, rfl⟩ := Prod.mk.inj (Option.some.inj (hformals'.symm.trans hformals))
  simp [vaArgs, ArgType.values] at hplaces

end Dadao.Llvm
