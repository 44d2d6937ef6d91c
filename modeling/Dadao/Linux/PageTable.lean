import Dadao.Lib.Bits
import Dadao.Lib.Radix
import Mathlib.Data.BitVec

set_option relaxedAutoImplicit false
set_option autoImplicit false

/-!
# Page tables of the kernel

The accessors and offsets of `pgtable.h`, the populate macros and allocators of `pgalloc.h`, and the
address spaces that are made of them: a memory of 64-bit entries, by their addresses in the linear map of
the kernel, and the top table of every `mm_struct`. `pud_alloc_one`, `pmd_alloc_one` and the generic
`pte_alloc_one` ask the page allocator for a cleared page; `pgd_alloc` takes the page as it is.

## Main definitions

* `Dadao.Linux.Kernel.walkPte` — the walk through the four levels.
* `Dadao.Linux.Kernel.step`, `Dadao.Linux.run` — the operations on address spaces.
* `Dadao.Linux.IsMap` — what page tables are for.

## Main results

* `Dadao.Linux.isMap_run` — the tables are a map if `pgd_alloc` gets cleared pages.
-/

namespace Dadao.Linux

/-! ## Levels and entries -/

/-- `PAGE_SHIFT`. -/
def pageShift : ℕ := 12

/-- `PAGE_OFFSET`. -/
def pageOffset : BitVec 64 := 0x80000000

/-- `__PGTABLE_LVL_SHIFT`. -/
def pgtableLvlShift (n : ℕ) : ℕ := (pageShift - 3) * (4 - n) + 3

/-- `PGDIR_SHIFT`. -/
def pgdirShift : ℕ := pgtableLvlShift 0

/-- `PUD_SHIFT`. -/
def pudShift : ℕ := pgtableLvlShift 1

/-- `PMD_SHIFT`. -/
def pmdShift : ℕ := pgtableLvlShift 2

/-- `PTRS_PER_PGD`. -/
def ptrsPerPgd : ℕ := 1 <<< (pageShift - 3)

/-- `PTRS_PER_PUD`. -/
def ptrsPerPud : ℕ := 1 <<< (pageShift - 3)

/-- `PTRS_PER_PMD`. -/
def ptrsPerPmd : ℕ := 1 <<< (pageShift - 3)

/-- `PTRS_PER_PTE`. -/
def ptrsPerPte : ℕ := 1 <<< (pageShift - 3)

/-- `PTE_ADDR_MASK`. -/
def pteAddrMask : BitVec 64 := (1#64 <<< (48 - pageShift) - 1) <<< pageShift

/-- `PUD_TYPE_TABLE`. -/
def pudTypeTable : BitVec 64 := 3 <<< 0

/-- `PMD_TYPE_TABLE`. -/
def pmdTypeTable : BitVec 64 := 3 <<< 0

/-- The index of an address in a table. -/
def tableIndex (shift ptrs : ℕ) (addr : BitVec 64) : BitVec 64 :=
  addr >>> shift &&& BitVec.ofNat 64 (ptrs - 1)

/-- `pgd_index`. -/
def pgdIndex : BitVec 64 → BitVec 64 := tableIndex pgdirShift ptrsPerPgd

/-- `pud_index`. -/
def pudIndex : BitVec 64 → BitVec 64 := tableIndex pudShift ptrsPerPud

/-- `pmd_index`. -/
def pmdIndex : BitVec 64 → BitVec 64 := tableIndex pmdShift ptrsPerPmd

/-- `pte_index`. -/
def pteIndex : BitVec 64 → BitVec 64 := tableIndex pageShift ptrsPerPte

/-- `__va`. -/
def va (x : BitVec 64) : BitVec 64 := x + pageOffset

/-- `__pa`. -/
def pa (x : BitVec 64) : BitVec 64 := x - pageOffset

/-- `pgd_none`, `pud_none`, `pmd_none` and `pte_none`. -/
def entryNone (v : BitVec 64) : Bool := v == 0

/-- The table an entry refers to, with an index: the common body of `pud_offset` and the others. -/
def tableOffset (entry index : BitVec 64) : BitVec 64 := va ((entry &&& pteAddrMask) + index * 8)

/-- `pgd_offset`, from `mm->pgd`. -/
def pgdOffset (pgd addr : BitVec 64) : BitVec 64 := pgd + pgdIndex addr * 8

/-- `pud_offset`, from the entry it reads. -/
def pudOffset (pgd addr : BitVec 64) : BitVec 64 := tableOffset pgd (pudIndex addr)

/-- `pmd_offset`. -/
def pmdOffset (pud addr : BitVec 64) : BitVec 64 := tableOffset pud (pmdIndex addr)

/-- `pte_offset_kernel`. -/
def pteOffsetKernel (pmd addr : BitVec 64) : BitVec 64 := tableOffset pmd (pteIndex addr)

/-- The entry of `pgd_populate`. -/
def pgdPopulate (table : BitVec 64) : BitVec 64 := pa table ||| pudTypeTable

/-- The entry of `pud_populate`. -/
def pudPopulate (table : BitVec 64) : BitVec 64 := pa table ||| pmdTypeTable

/-- The entry of `pmd_populate`, from the address of the page. -/
def pmdPopulate (table : BitVec 64) : BitVec 64 := pa table ||| pmdTypeTable

/-! ## Address spaces -/

/-- The memory of entries, the top table of every address space, and the pages in use as tables. -/
structure Kernel where
  mem : BitVec 64 → BitVec 64
  pgd : ℕ → Option (BitVec 64)
  tables : List (BitVec 64)

/-- The operations. A page comes from the page allocator; the contents are what `pgd_alloc` finds. -/
inductive Op where
  | pgdAlloc (mm : ℕ) (page : BitVec 64) (contents : Fin 512 → BitVec 64)
  | pgdPopulate (mm : ℕ) (addr page : BitVec 64)
  | pudPopulate (mm : ℕ) (addr page : BitVec 64)
  | pmdPopulate (mm : ℕ) (addr page : BitVec 64)
  | setPte (mm : ℕ) (addr v : BitVec 64)
  | pteClear (mm : ℕ) (addr : BitVec 64)

/-- What the page allocator returns: a page of the linear map, below the 48 bits of a physical address,
that is not in use. -/
def FreshPage (tables : List (BitVec 64)) (page : BitVec 64) : Prop :=
  page.toNat % 4096 = 0 ∧ (pa page).toNat < 2 ^ 48 ∧ page ∉ tables

instance (tables : List (BitVec 64)) (page : BitVec 64) : Decidable (FreshPage tables page) :=
  inferInstanceAs (Decidable (_ ∧ _ ∧ _))

/-- The memory with new contents of a page. -/
def fillPage (mem : BitVec 64 → BitVec 64) (page : BitVec 64) (contents : Fin 512 → BitVec 64) :
    BitVec 64 → BitVec 64 := fun a =>
  if h : (a - page).toNat < 4096 then contents ⟨(a - page).toNat / 8, by omega⟩ else mem a

namespace Kernel

variable (k : Kernel)

/-- `pgd_offset` of an address space. -/
def walkPgd (mm : ℕ) (addr : BitVec 64) : Option (BitVec 64) := (k.pgd mm).map (pgdOffset · addr)

/-- The next level, unless the entry is missing. -/
def below (offset : BitVec 64 → BitVec 64) (entryp : BitVec 64) : Option (BitVec 64) :=
  if entryNone (k.mem entryp) then none else some (offset (k.mem entryp))

/-- The walk to `pud_offset`. -/
def walkPud (mm : ℕ) (addr : BitVec 64) : Option (BitVec 64) :=
  (k.walkPgd mm addr).bind (k.below (pudOffset · addr))

/-- The walk to `pmd_offset`. -/
def walkPmd (mm : ℕ) (addr : BitVec 64) : Option (BitVec 64) :=
  (k.walkPud mm addr).bind (k.below (pmdOffset · addr))

/-- **The walk** to `pte_offset_kernel`. -/
def walkPte (mm : ℕ) (addr : BitVec 64) : Option (BitVec 64) :=
  (k.walkPmd mm addr).bind (k.below (pteOffsetKernel · addr))

/-- The entry that the walk reaches. -/
def mapping (mm : ℕ) (addr : BitVec 64) : Option (BitVec 64) := (k.walkPte mm addr).map k.mem

/-- `set_pgd`, `set_pud`, `set_pmd` and `set_pte`. -/
def setEntry (entryp v : BitVec 64) : Kernel := { k with mem := Function.update k.mem entryp v }

/-- Fill in a missing entry with a cleared page. -/
def populate (entry : BitVec 64 → BitVec 64) (entryp : Option (BitVec 64)) (page : BitVec 64) :
    Option Kernel :=
  match entryp with
  | none => none
  | some entryp =>
    if entryNone (k.mem entryp) ∧ FreshPage k.tables page then
      some ({ k with mem := fillPage k.mem page fun _ => 0, tables := page :: k.tables }.setEntry entryp
        (entry page))
    else none

/-- **One operation**, if it applies: a level is filled in where it is missing, and an entry is stored
where all levels are there. -/
def step : Op → Option Kernel
  | .pgdAlloc mm page contents =>
    if k.pgd mm = none ∧ FreshPage k.tables page then
      some ⟨fillPage k.mem page contents, Function.update k.pgd mm (some page), page :: k.tables⟩
    else none
  | .pgdPopulate mm addr page => k.populate pgdPopulate (k.walkPgd mm addr) page
  | .pudPopulate mm addr page => k.populate pudPopulate (k.walkPud mm addr) page
  | .pmdPopulate mm addr page => k.populate pmdPopulate (k.walkPmd mm addr) page
  | .setPte mm addr v => (k.walkPte mm addr).map fun ptep => k.setEntry ptep v
  | .pteClear mm addr => (k.walkPte mm addr).map fun ptep => k.setEntry ptep 0

end Kernel

/-- A run of operations. -/
def run : List Op → Kernel → Option Kernel
  | [], k => some k
  | op :: ops, k => (k.step op).bind (run ops)

/-- The kernel before there are address spaces. -/
def Kernel.boot (mem : BitVec 64 → BitVec 64) : Kernel := ⟨mem, fun _ => none, []⟩

/-! ## What page tables are for -/

/-- The page of an address. -/
def pageOf (addr : BitVec 64) : BitVec 64 := addr >>> pageShift

/-- The entry an operation stores: the address space, the address and the entry. -/
def Op.stores : Op → Option (ℕ × BitVec 64 × BitVec 64)
  | .setPte mm addr v => some (mm, addr, v)
  | .pteClear mm addr => some (mm, addr, 0)
  | _ => none

/-- The entry last stored for a page, after one more operation. -/
def record (last : ℕ → BitVec 64 → Option (BitVec 64)) (op : Op) :
    ℕ → BitVec 64 → Option (BitVec 64) := fun mm page =>
  match op.stores with
  | some (mm', addr, v) => if mm = mm' ∧ page = pageOf addr then some v else last mm page
  | none => last mm page

/-- **The entry last stored** for a page of an address space. -/
def lastStored (ops : List Op) : ℕ → BitVec 64 → Option (BitVec 64) :=
  ops.foldl record fun _ _ => none

/-- The addresses an operation is called with are below `2^48`. -/
def Op.InRange : Op → Prop
  | .pgdAlloc .. => True
  | .pgdPopulate _ addr _ | .pudPopulate _ addr _ | .pmdPopulate _ addr _ | .setPte _ addr _
  | .pteClear _ addr => addr.toNat < 2 ^ 48

/-- **Page tables are a map**: the walk for a page that was never mapped meets an empty entry, for another
it reaches the entry last stored, and a store changes no other page of any address space. -/
structure IsMap (k : Kernel) (last : ℕ → BitVec 64 → Option (BitVec 64)) : Prop where
  unmapped : ∀ mm addr, addr.toNat < 2 ^ 48 → last mm (pageOf addr) = none →
    ∀ v, k.mapping mm addr = some v → entryNone v = true
  mapped : ∀ mm addr v, addr.toNat < 2 ^ 48 → last mm (pageOf addr) = some v → k.mapping mm addr = some v
  frame : ∀ op k' mm addr v, op.InRange → k.step op = some k' → op.stores = some (mm, addr, v) →
    ∀ mm' addr', addr'.toNat < 2 ^ 48 → (mm', pageOf addr') ≠ (mm, pageOf addr) →
      k'.mapping mm' addr' = k.mapping mm' addr'

/-- The page that `pgd_alloc` gets happens to be cleared. -/
def Op.Cleared : Op → Prop
  | .pgdAlloc _ _ contents => ∀ i, contents i = 0
  | _ => True

/-! ## Pages and entries -/

/-- An address of an entry. -/
def slot (t : BitVec 64) (i : Fin 512) : BitVec 64 := t + BitVec.ofNat 64 (8 * i)

/-- The entries of the tables. -/
def cells (mem : BitVec 64 → BitVec 64) (t : BitVec 64) (i : Fin 512) : BitVec 64 := mem (slot t i)

/-- The table an entry refers to. -/
def tableOf (v : BitVec 64) : BitVec 64 := va (v &&& pteAddrMask)

/-- The index of an address at a level. -/
def indexAt (shift : ℕ) (addr : BitVec 64) : Fin 512 :=
  ⟨addr.toNat / 2 ^ shift % 512, Nat.mod_lt _ (by omega)⟩

/-- The path to the last table for an address. -/
def pathOf (addr : BitVec 64) : List (Fin 512) :=
  [indexAt pgdirShift addr, indexAt pudShift addr, indexAt pmdShift addr]

section Slots

variable {t t' page : BitVec 64} {i i' : Fin 512} {mem : BitVec 64 → BitVec 64}

lemma toNat_slot (ht : t.toNat % 4096 = 0) (i : Fin 512) : (slot t i).toNat = t.toNat + 8 * i := by
  have hlt := t.isLt
  have hi := i.isLt
  rw [slot, BitVec.toNat_add, BitVec.toNat_ofNat]
  omega

/-- **Entries of pages** are apart. -/
lemma slot_inj (ht : t.toNat % 4096 = 0) (ht' : t'.toNat % 4096 = 0) (h : slot t i = slot t' i') :
    t = t' ∧ i = i' := by
  have hnat := congrArg BitVec.toNat h
  rw [toNat_slot ht, toNat_slot ht'] at hnat
  have hi := i.isLt
  have hi' := i'.isLt
  exact ⟨BitVec.eq_of_toNat_eq (by omega), Fin.ext (by omega)⟩

lemma cells_update (ht : t.toNat % 4096 = 0) (ht' : t'.toNat % 4096 = 0) (v : BitVec 64)
    (hne : (t, i) ≠ (t', i')) : cells (Function.update mem (slot t' i') v) t i = cells mem t i := by
  refine Function.update_of_ne (fun h => hne ?_) _ _
  obtain ⟨rfl, rfl⟩ := slot_inj ht ht' h
  rfl

lemma cells_fillPage_self (hpage : page.toNat % 4096 = 0) (contents : Fin 512 → BitVec 64) (i : Fin 512) :
    cells (fillPage mem page contents) page i = contents i := by
  have hoff : (slot page i - page).toNat = 8 * i := by
    have hlt := page.isLt
    have hi := i.isLt
    rw [BitVec.toNat_sub, toNat_slot hpage]
    omega
  have hi := i.isLt
  rw [cells, fillPage, dif_pos (by omega)]
  congr 1
  exact Fin.ext (by simp only [hoff]; omega)

lemma cells_fillPage_of_ne (ht : t.toNat % 4096 = 0) (hpage : page.toNat % 4096 = 0) (hne : t ≠ page)
    (contents : Fin 512 → BitVec 64) (i : Fin 512) :
    cells (fillPage mem page contents) t i = cells mem t i := by
  have hnat : t.toNat ≠ page.toNat := fun h => hne (BitVec.eq_of_toNat_eq h)
  have hi := i.isLt
  have hlt := t.isLt
  have hlt' := page.isLt
  rw [cells, fillPage, dif_neg]
  · rfl
  · rw [BitVec.toNat_sub, toNat_slot ht]
    omega

/-- The entry for a table refers to it. -/
lemma tableOf_populate (hpage : page.toNat % 4096 = 0) (hpa : (pa page).toNat < 2 ^ 48) :
    tableOf (pa page ||| 3#64) = page := by
  have hmask : pteAddrMask = 0xFFFFFFFFFFFFF000#64 &&& 0xFFFFFFFFFFFF#64 := by decide
  have haligned : (pa page).toNat % 2 ^ 12 = 0 := by
    have hlt := page.isLt
    rw [pa, BitVec.toNat_sub, show pageOffset.toNat = 0x80000000 from rfl]
    omega
  have hor : (pa page ||| 3#64).toNat = (pa page).toNat + 3 :=
    Bits.toNat_or_eq_add 12 haligned (by decide)
  have hand : (pa page ||| 3#64) &&& pteAddrMask = pa page := by
    apply BitVec.eq_of_toNat_eq
    rw [hmask, ← BitVec.and_assoc, Bits.toNat_and_mask _ _ 48 (by decide),
      Bits.toNat_and_high _ _ 12 (by decide) (by omega), hor]
    omega
  rw [tableOf, hand, va, pa, BitVec.sub_add_cancel]

/-- The index of an address is its place in the table. -/
lemma tableIndex_mul (shift : ℕ) (addr : BitVec 64) :
    tableIndex shift 512 addr * 8 = BitVec.ofNat 64 (8 * indexAt shift addr) := by
  have hindex : (tableIndex shift 512 addr).toNat = addr.toNat / 2 ^ shift % 512 := by
    rw [tableIndex, Bits.toNat_and_mask _ _ 9 rfl, BitVec.toNat_ushiftRight,
      Nat.shiftRight_eq_div_pow]
    rfl
  apply BitVec.eq_of_toNat_eq
  rw [BitVec.toNat_mul, hindex, BitVec.toNat_ofNat, Nat.mul_comm]
  rfl

/-- The four indices make up the page. -/
lemma pageOf_eq_iff {addr addr' : BitVec 64} (h : addr.toNat < 2 ^ 48) (h' : addr'.toNat < 2 ^ 48) :
    pageOf addr = pageOf addr' ↔
      pathOf addr = pathOf addr' ∧ indexAt pageShift addr = indexAt pageShift addr' := by
  have hpage : pageOf addr = pageOf addr' ↔ addr.toNat / 2 ^ 12 = addr'.toNat / 2 ^ 12 := by
    rw [← BitVec.toNat_inj, pageOf, pageOf, BitVec.toNat_ushiftRight, BitVec.toNat_ushiftRight,
      Nat.shiftRight_eq_div_pow, Nat.shiftRight_eq_div_pow]
    rfl
  have hindex : ∀ shift, indexAt shift addr = indexAt shift addr' ↔
      addr.toNat / 2 ^ shift % 512 = addr'.toNat / 2 ^ shift % 512 := fun shift => Fin.ext_iff
  have hpgd : pgdirShift = 39 := rfl
  have hpud : pudShift = 30 := rfl
  have hpmd : pmdShift = 21 := rfl
  have hpte : pageShift = 12 := rfl
  rw [hpage, pathOf, pathOf]
  simp only [List.cons.injEq, and_true, hindex, hpgd, hpud, hpmd, hpte]
  omega

end Slots

/-! ## The walk -/

section Walk

variable {k : Kernel} {mm : ℕ} {addr : BitVec 64}

/-- The table at the end of a path. -/
def Kernel.reach (k : Kernel) (mm : ℕ) (is : List (Fin 512)) : Option (BitVec 64) :=
  (k.pgd mm).bind fun t => Radix.descend tableOf 0 (cells k.mem) t is

/-- One level of the walk. -/
lemma bind_below {is : List (Fin 512)} {i : Fin 512} {entryp : Option (BitVec 64)} (shift : ℕ)
    (h : entryp = (k.reach mm is).map (slot · i)) :
    entryp.bind (k.below fun v => tableOffset v (tableIndex shift 512 addr)) =
      (k.reach mm (is ++ [i])).map (slot · (indexAt shift addr)) := by
  have hoffset : ∀ v, tableOffset v (tableIndex shift 512 addr) =
      slot (tableOf v) (indexAt shift addr) := by
    intro v
    rw [tableOffset, tableIndex_mul, slot, tableOf, va, va, BitVec.add_assoc, BitVec.add_assoc,
      BitVec.add_comm pageOffset]
  rw [h, Kernel.reach, Kernel.reach]
  cases k.pgd mm with
  | none => rfl
  | some t =>
    rw [Option.bind_some, Option.bind_some, Radix.descend_append]
    cases Radix.descend tableOf 0 (cells k.mem) t is with
    | none => rfl
    | some t' =>
      rw [Option.map_some, Option.bind_some, Option.bind_some, Kernel.below, Radix.descend]
      by_cases hnone : cells k.mem t' i = 0
      · have hentry : entryNone (k.mem (slot t' i)) = true := beq_iff_eq.mpr hnone
        rw [if_pos hentry, if_pos hnone]
        rfl
      · have hentry : ¬ entryNone (k.mem (slot t' i)) = true := fun h => hnone (beq_iff_eq.mp h)
        rw [if_neg hentry, if_neg hnone, hoffset]
        rfl

lemma walkPgd_eq : k.walkPgd mm addr = (k.reach mm []).map (slot · (indexAt pgdirShift addr)) := by
  rw [Kernel.walkPgd, Kernel.reach]
  cases k.pgd mm with
  | none => rfl
  | some t => exact congrArg (fun x => some (t + x)) (tableIndex_mul pgdirShift addr)

lemma walkPud_eq : k.walkPud mm addr =
    (k.reach mm [indexAt pgdirShift addr]).map (slot · (indexAt pudShift addr)) :=
  bind_below pudShift walkPgd_eq

lemma walkPmd_eq : k.walkPmd mm addr =
    (k.reach mm [indexAt pgdirShift addr, indexAt pudShift addr]).map
      (slot · (indexAt pmdShift addr)) :=
  bind_below pmdShift walkPud_eq

lemma walkPte_eq : k.walkPte mm addr =
    (k.reach mm (pathOf addr)).map (slot · (indexAt pageShift addr)) :=
  bind_below pageShift walkPmd_eq

/-- **The entry of an address** is the one at the end of its path. -/
lemma mapping_eq : k.mapping mm addr =
    Radix.lookup tableOf 0 (cells k.mem) k.pgd mm (pathOf addr) (indexAt pageShift addr) := by
  rw [Kernel.mapping, walkPte_eq, Option.map_map, Kernel.reach, Radix.lookup, Option.map_bind]
  rfl

end Walk

/-! ## The operations -/

/-- **The invariant**: the tables make up a forest, of pages in use. -/
structure Inv (k : Kernel) (owner : BitVec 64 → Option (ℕ × List (Fin 512))) : Prop where
  forest : Radix.Forest tableOf 0 3 (cells k.mem) k.pgd owner
  owned : ∀ t, owner t ≠ none → t ∈ k.tables
  aligned : ∀ t ∈ k.tables, t.toNat % 4096 = 0

/-- Before there are address spaces. -/
lemma inv_boot (mem : BitVec 64 → BitVec 64) : Inv (.boot mem) fun _ => none :=
  ⟨⟨by simp [Kernel.boot], by simp⟩, by simp, by simp [Kernel.boot]⟩

section Steps

variable {k k' : Kernel} {owner : BitVec 64 → Option (ℕ × List (Fin 512))} {mm : ℕ}
  {addr page v : BitVec 64} (h : Inv k owner)

include h

lemma Inv.aligned_of_owner {t : BitVec 64} (ht : owner t ≠ none) : t.toNat % 4096 = 0 :=
  h.aligned t (h.owned t ht)

/-- A fresh page is not a table. -/
lemma Inv.owner_fresh (hpage : FreshPage k.tables page) : owner page = none := by
  by_contra hne
  exact hpage.2.2 (h.owned page hne)

/-- One more table. -/
lemma Inv.owned_update (x : ℕ × List (Fin 512)) :
    ∀ t, Function.update owner page (some x) t ≠ none → t ∈ page :: k.tables := by
  intro t ht
  by_cases heq : t = page
  · rw [heq]
    exact List.mem_cons_self
  · rw [Function.update_of_ne heq] at ht
    exact List.mem_cons_of_mem _ (h.owned t ht)

lemma Inv.aligned_cons (hpage : FreshPage k.tables page) :
    ∀ t ∈ page :: k.tables, t.toNat % 4096 = 0 := by
  intro t ht
  rcases List.mem_cons.mp ht with rfl | ht
  · exact hpage.1
  · exact h.aligned t ht

/-- Filling a fresh page changes no table. -/
lemma Inv.cells_fillPage (hpage : FreshPage k.tables page) (contents : Fin 512 → BitVec 64)
    {t : BitVec 64} (i : Fin 512) (ht : owner t ≠ none) :
    cells (fillPage k.mem page contents) t i = cells k.mem t i := by
  refine cells_fillPage_of_ne (h.aligned_of_owner ht) hpage.1 ?_ contents i
  rintro rfl
  exact ht (h.owner_fresh hpage)

/-- **A new address space** with a cleared page maps nothing. -/
lemma Inv.pgdAlloc {contents : Fin 512 → BitVec 64} (hzero : ∀ i, contents i = 0)
    (hstep : k.step (.pgdAlloc mm page contents) = some k') :
    (∃ owner', Inv k' owner') ∧
      ∀ mm' addr, Radix.Grows 0 (k.mapping mm' addr) (k'.mapping mm' addr) := by
  rw [Kernel.step] at hstep
  split_ifs at hstep with hguard
  obtain rfl := Option.some.inj hstep
  obtain ⟨hnone, hpage⟩ := hguard
  have hnew : ∀ i, cells (fillPage k.mem page contents) page i = 0 := fun i => by
    rw [cells_fillPage_self hpage.1, hzero]
  have hkeep : ∀ t i, owner t ≠ none →
      cells (fillPage k.mem page contents) t i = cells k.mem t i :=
    fun t i ht => h.cells_fillPage hpage contents i ht
  refine ⟨⟨_, h.forest.plant hnew hkeep (h.owner_fresh hpage), h.owned_update _, h.aligned_cons hpage⟩,
    fun mm' addr => ?_⟩
  rw [mapping_eq, mapping_eq]
  exact h.forest.lookup_plant hnew hnone hkeep rfl

/-- **A new table** below another maps nothing. -/
lemma Inv.populate {entry : BitVec 64 → BitVec 64} {entryp : Option (BitVec 64)} {is : List (Fin 512)}
    {i : Fin 512} (hentry : ∀ page, entry page = pa page ||| 3#64)
    (hentryp : entryp = (k.reach mm is).map (slot · i)) (hlen : is.length < 3)
    (hstep : k.populate entry entryp page = some k') :
    (∃ owner', Inv k' owner') ∧
      ∀ mm' addr, Radix.Grows 0 (k.mapping mm' addr) (k'.mapping mm' addr) := by
  obtain ⟨t₀, hreach, rfl⟩ : ∃ t₀, k.reach mm is = some t₀ ∧ entryp = some (slot t₀ i) := by
    rw [hentryp] at hstep ⊢
    cases hreach : k.reach mm is with
    | none => simp [hreach, Kernel.populate] at hstep
    | some t₀ => exact ⟨t₀, rfl, rfl⟩
  rw [Kernel.populate] at hstep
  split_ifs at hstep with hguard
  obtain rfl := Option.some.inj hstep
  obtain ⟨hnone, hpage⟩ := hguard
  obtain ⟨t, hroot, hd⟩ := Option.bind_eq_some_iff.mp hreach
  have ht₀ : owner t₀ = some (mm, is) := by
    have hown := h.forest.owner_descend (h.forest.root mm t hroot) (by simp; omega) hd
    rwa [List.nil_append] at hown
  have hsome₀ : owner t₀ ≠ none := by simp [ht₀]
  have haligned₀ := h.aligned_of_owner hsome₀
  have hne₀ : t₀ ≠ page := fun heq => hsome₀ (heq ▸ h.owner_fresh hpage)
  -- the cells behind the two stores
  have hnew : ∀ j, cells (Function.update (fillPage k.mem page fun _ => 0) (slot t₀ i) (entry page))
      page j = 0 := by
    intro j
    rw [cells_update hpage.1 haligned₀ _ fun heq => hne₀ (Prod.mk.inj heq).1.symm,
      cells_fillPage_self hpage.1]
  have hdec : tableOf (cells (Function.update (fillPage k.mem page fun _ => 0) (slot t₀ i) (entry page))
      t₀ i) = page := by
    rw [cells, Function.update_self, hentry, tableOf_populate hpage.1 hpage.2.1]
  have hkeep : ∀ t j, owner t ≠ none → (t, j) ≠ (t₀, i) →
      cells (Function.update (fillPage k.mem page fun _ => 0) (slot t₀ i) (entry page)) t j =
        cells k.mem t j := by
    intro t j ht hne
    rw [cells_update (h.aligned_of_owner ht) haligned₀ _ hne, h.cells_fillPage hpage _ j ht]
  have hempty : cells k.mem t₀ i = 0 := beq_iff_eq.mp hnone
  refine ⟨⟨_, h.forest.populate hnew ht₀ hdec hkeep (h.owner_fresh hpage), h.owned_update _,
    h.aligned_cons hpage⟩, fun mm' addr => ?_⟩
  rw [mapping_eq, mapping_eq]
  exact h.forest.lookup_populate hnew ht₀ hlen hempty hdec hkeep rfl

/-- **A store** is seen by its page and by no other. -/
lemma Inv.setEntry (hrange : addr.toNat < 2 ^ 48)
    (hstep : (k.walkPte mm addr).map (fun ptep => k.setEntry ptep v) = some k') :
    Inv k' owner ∧
      (∀ addr', addr'.toNat < 2 ^ 48 → pageOf addr' = pageOf addr → k'.mapping mm addr' = some v) ∧
      ∀ mm' addr', addr'.toNat < 2 ^ 48 → (mm', pageOf addr') ≠ (mm, pageOf addr) →
        k'.mapping mm' addr' = k.mapping mm' addr' := by
  obtain ⟨ptep, hptep, rfl⟩ := Option.map_eq_some_iff.mp hstep
  rw [walkPte_eq] at hptep
  obtain ⟨t₀, hreach, rfl⟩ := Option.map_eq_some_iff.mp hptep
  obtain ⟨t, hroot, hd⟩ := Option.bind_eq_some_iff.mp hreach
  have ht₀ : owner t₀ = some (mm, pathOf addr) := by
    have hown := h.forest.owner_descend (h.forest.root mm t hroot) (by simp [pathOf]) hd
    rwa [List.nil_append] at hown
  have hkeep : ∀ t j, owner t ≠ none → (t, j) ≠ (t₀, indexAt pageShift addr) →
      cells (Function.update k.mem (slot t₀ (indexAt pageShift addr)) v) t j = cells k.mem t j :=
    fun t j ht hne => cells_update (h.aligned_of_owner ht)
      (h.aligned_of_owner (by simp [ht₀] : owner t₀ ≠ none)) v hne
  refine ⟨⟨h.forest.store ht₀ rfl hkeep, h.owned, h.aligned⟩, fun addr' hrange' hpage => ?_,
    fun mm' addr' hrange' hne => ?_⟩
  · obtain ⟨hpath, hindex⟩ := (pageOf_eq_iff hrange' hrange).mp hpage
    rw [mapping_eq, hpath, hindex]
    have hself := h.forest.lookup_store_self ht₀ rfl hkeep hroot hd
    rwa [cells, Function.update_self] at hself
  · rw [mapping_eq, mapping_eq]
    refine h.forest.lookup_store ht₀ rfl hkeep rfl fun heq => hne ?_
    simp only [Prod.mk.injEq] at heq ⊢
    exact ⟨heq.1, (pageOf_eq_iff hrange' hrange).mpr heq.2⟩

end Steps

/-! ## Runs -/

section Runs

variable {k k' : Kernel} {last : ℕ → BitVec 64 → Option (BitVec 64)} {op : Op}

/-- What the tables map, against the entries last stored. -/
structure Agrees (k : Kernel) (last : ℕ → BitVec 64 → Option (BitVec 64)) : Prop where
  unmapped : ∀ mm addr, addr.toNat < 2 ^ 48 → last mm (pageOf addr) = none →
    ∀ v, k.mapping mm addr = some v → entryNone v = true
  mapped : ∀ mm addr v, addr.toNat < 2 ^ 48 → last mm (pageOf addr) = some v → k.mapping mm addr = some v

/-- New tables agree with the entries last stored. -/
lemma Agrees.grow (h : Agrees k last)
    (hgrow : ∀ mm addr, Radix.Grows 0 (k.mapping mm addr) (k'.mapping mm addr)) : Agrees k' last := by
  refine ⟨fun mm addr hrange hlast v hv => ?_, fun mm addr v hrange hlast => ?_⟩
  · rcases hgrow mm addr with heq | ⟨-, heq⟩
    · rw [heq] at hv
      exact h.unmapped mm addr hrange hlast v hv
    · rw [heq, Option.some.injEq] at hv
      rw [← hv]
      rfl
  · have hold := h.mapped mm addr v hrange hlast
    rcases hgrow mm addr with heq | ⟨hnone, -⟩
    · rw [heq, hold]
    · rw [hold] at hnone
      exact absurd hnone (by simp)

/-- A stored entry is the last one stored. -/
lemma Agrees.store {mm : ℕ} {addr v : BitVec 64} (h : Agrees k last)
    (hstores : op.stores = some (mm, addr, v))
    (hself : ∀ addr', addr'.toNat < 2 ^ 48 → pageOf addr' = pageOf addr → k'.mapping mm addr' = some v)
    (hother : ∀ mm' addr', addr'.toNat < 2 ^ 48 → (mm', pageOf addr') ≠ (mm, pageOf addr) →
      k'.mapping mm' addr' = k.mapping mm' addr') : Agrees k' (record last op) := by
  have hrecord : ∀ mm' page, record last op mm' page =
      if mm' = mm ∧ page = pageOf addr then some v else last mm' page := by
    intro mm' page
    rw [record, hstores]
  refine ⟨fun mm' addr' hrange hlast w hw => ?_, fun mm' addr' w hrange hlast => ?_⟩
  · rw [hrecord] at hlast
    split_ifs at hlast with hpage
    rw [hother mm' addr' hrange fun heq => hpage (Prod.mk.inj heq)] at hw
    exact h.unmapped mm' addr' hrange hlast w hw
  · rw [hrecord] at hlast
    split_ifs at hlast with hpage
    · rw [hpage.1, hself addr' hrange hpage.2, hlast]
    · rw [hother mm' addr' hrange fun heq => hpage (Prod.mk.inj heq)]
      exact h.mapped mm' addr' w hrange hlast

/-- An operation that stores an entry. -/
lemma Kernel.step_of_stores {mm : ℕ} {addr v : BitVec 64} (h : op.stores = some (mm, addr, v)) :
    k.step op = (k.walkPte mm addr).map (fun ptep => k.setEntry ptep v) ∧
      (op.InRange ↔ addr.toNat < 2 ^ 48) := by
  cases op <;> simp only [Op.stores, reduceCtorEq, Option.some.injEq, Prod.mk.injEq] at h <;>
    obtain ⟨rfl, rfl, rfl⟩ := h <;> exact ⟨rfl, Iff.rfl⟩

/-- **One operation** keeps the invariant and the agreement. -/
lemma agrees_step (hinv : ∃ owner, Inv k owner) (h : Agrees k last) (hzero : op.Cleared)
    (hrange : op.InRange) (hstep : k.step op = some k') :
    (∃ owner, Inv k' owner) ∧ Agrees k' (record last op) := by
  obtain ⟨owner, hinv⟩ := hinv
  cases op with
  | pgdAlloc mm page contents =>
    obtain ⟨hinv', hgrow⟩ := hinv.pgdAlloc hzero hstep
    exact ⟨hinv', h.grow hgrow⟩
  | pgdPopulate mm addr page =>
    obtain ⟨hinv', hgrow⟩ := hinv.populate (fun _ => rfl) walkPgd_eq (by simp) hstep
    exact ⟨hinv', h.grow hgrow⟩
  | pudPopulate mm addr page =>
    obtain ⟨hinv', hgrow⟩ := hinv.populate (fun _ => rfl) walkPud_eq (by simp) hstep
    exact ⟨hinv', h.grow hgrow⟩
  | pmdPopulate mm addr page =>
    obtain ⟨hinv', hgrow⟩ := hinv.populate (fun _ => rfl) walkPmd_eq (by simp) hstep
    exact ⟨hinv', h.grow hgrow⟩
  | setPte mm addr v =>
    obtain ⟨hinv', hself, hother⟩ := hinv.setEntry hrange hstep
    exact ⟨⟨owner, hinv'⟩, h.store rfl hself hother⟩
  | pteClear mm addr =>
    obtain ⟨hinv', hself, hother⟩ := hinv.setEntry hrange hstep
    exact ⟨⟨owner, hinv'⟩, h.store rfl hself hother⟩

/-- Whole runs keep the invariant and the agreement. -/
lemma agrees_run {ops : List Op} (hinv : ∃ owner, Inv k owner) (h : Agrees k last)
    (hzero : ∀ op ∈ ops, op.Cleared) (hrange : ∀ op ∈ ops, op.InRange) (hrun : run ops k = some k') :
    (∃ owner, Inv k' owner) ∧ Agrees k' (ops.foldl record last) := by
  induction ops generalizing k last with
  | nil =>
    obtain rfl := Option.some.inj hrun
    exact ⟨hinv, h⟩
  | cons op ops ih =>
    rw [List.forall_mem_cons] at hzero hrange
    obtain ⟨k₁, hstep, hrest⟩ := Option.bind_eq_some_iff.mp hrun
    obtain ⟨hinv₁, h₁⟩ := agrees_step hinv h hzero.1 hrange.1 hstep
    exact ih hinv₁ h₁ hzero.2 hrange.2 hrest

/-- **Page tables are a map** over whole runs in which every page that `pgd_alloc` gets happens to be
cleared. -/
theorem isMap_run {mem : BitVec 64 → BitVec 64} {ops : List Op} (hrange : ∀ op ∈ ops, op.InRange)
    (hrun : run ops (.boot mem) = some k) (hzero : ∀ op ∈ ops, op.Cleared) :
    IsMap k (lastStored ops) := by
  have hboot : Agrees (.boot mem) fun _ _ => none :=
    ⟨fun mm addr _ _ v hv => by simp [Kernel.mapping, Kernel.walkPte, Kernel.walkPmd, Kernel.walkPud,
      Kernel.walkPgd, Kernel.boot] at hv, by simp⟩
  obtain ⟨⟨owner, hinv⟩, hagrees⟩ := agrees_run ⟨_, inv_boot mem⟩ hboot hzero hrange hrun
  refine ⟨hagrees.unmapped, hagrees.mapped, fun op k' mm addr v hop hstep hstores => ?_⟩
  obtain ⟨heq, hiff⟩ := Kernel.step_of_stores (k := k) hstores
  rw [heq] at hstep
  exact (hinv.setEntry (hiff.mp hop) hstep).2.2

end Runs

/-! ## A page that is not cleared -/

/-- The tables of a page at `0x40_0000_0000`, in cleared pages, and an entry stored there. -/
def mapOps : List Op :=
  [.pgdAlloc 0 0x80001000 fun _ => 0, .pgdPopulate 0 0x4000000000 0x80002000,
    .pudPopulate 0 0x4000000000 0x80003000, .pmdPopulate 0 0x4000000000 0x80004000,
    .setPte 0 0x4000000000 0x5003]

/-- Its run. -/
theorem isMap_mapOps : ∃ k, run mapOps (.boot fun _ => 0) = some k ∧ IsMap k (lastStored mapOps) := by
  have hrun : (run mapOps (.boot fun _ => 0)).isSome = true := by decide +kernel
  obtain ⟨k, hk⟩ := Option.isSome_iff_exists.mp hrun
  refine ⟨k, hk, isMap_run ?_ hk ?_⟩
  · simp [mapOps, Op.InRange]
  · simp [mapOps, Op.Cleared]

/-- **A top table that is not cleared** maps pages that were never mapped. -/
theorem not_isMap_all : ¬ ∀ (mem : BitVec 64 → BitVec 64) (ops : List Op) (k : Kernel),
    (∀ op ∈ ops, op.InRange) → run ops (.boot mem) = some k → IsMap k (lastStored ops) := by
  intro hall
  have hmap := hall (fun _ => 3) [.pgdAlloc 0 0x80001000 fun _ => 3] _ (by simp [Op.InRange]) rfl
  exact absurd (hmap.unmapped 0 0 (by decide) rfl 3 (by decide)) (by decide)

end Dadao.Linux
