import Dadao.Lib.Bytes
import Mathlib.Tactic.IntervalCases

set_option relaxedAutoImplicit false
set_option autoImplicit false

/-!
# The scratchpad of the Wuming tile

The scratchpad is a bank of 32-bit words, each kept as four byte lanes with the high byte first.
Reads shift the lanes down and mask them, writes shift the data up and mask the lanes written. The
core's data port is 64 bits wide, while a reader returns, and a writer takes, 32 bits.

## Main definitions

* `Dadao.Wuming.MemType` — the `MT_*` codes and their TileLink size and sign.
* `Dadao.Wuming.Bank.read`, `Dadao.Wuming.Bank.write` — `MemoryModule`.
* `Dadao.Wuming.Bank.dport` — a cycle of the data port of `ScratchPadMemoryBase`.
* `Dadao.Wuming.ByteMap.loadValue`, `Dadao.Wuming.ByteMap.next` — what an array of bytes does
  with a request.
* `Dadao.Wuming.Bank.BehavesAsBytes` — a sequence of requests is served as by an array of bytes.

## Main results

* `Dadao.Wuming.Bank.contents_write`, `Dadao.Wuming.Bank.byte_response` — a request on the data
  port, byte by byte.
* `Dadao.Wuming.Bank.behavesAsBytes_iff` — the sequences of requests a scratchpad serves as an array
  of bytes.
-/

namespace Dadao

namespace Wuming

/-! ### Requests -/

/-- The memory types of a request. -/
inductive MemType
  | x | b | w | t | o | bu | wu | tu
  deriving DecidableEq, Repr

namespace MemType

/-- The code of a memory type. -/
def code : MemType → BitVec 3
  | x => 0
  | b => 1
  | w => 2
  | t => 3
  | o => 4
  | bu => 5
  | wu => 6
  | tu => 7

/-- The TileLink size, a base 2 logarithm. -/
def getTLSize (typ : MemType) : BitVec 2 := (typ.code - 1).extractLsb' 0 2

/-- The TileLink signedness. -/
def getTLSigned (typ : MemType) : Bool := !(typ.code - 1).getLsbD 2

/-- The number of bytes of an access. -/
def bytes : MemType → ℕ
  | b | bu => 1
  | w | wu => 2
  | t | tu => 4
  | o | x => 8

/-- The types whose loads are sign-extended. -/
def signed : MemType → Bool
  | b | w | t | o => true
  | bu | wu | tu | x => false

/-- The TileLink size is the logarithm of the number of bytes. -/
lemma bytes_eq_two_pow (typ : MemType) : typ.bytes = 2 ^ typ.getTLSize.toNat := by
  cases typ <;> rfl

/-- The TileLink signedness is that of the type. -/
lemma getTLSigned_eq (typ : MemType) : typ.getTLSigned = typ.signed := by
  cases typ <;> rfl

/-- An access is of at most an octa. -/
lemma bytes_le (typ : MemType) : typ.bytes ≤ 8 := by
  cases typ <;> decide

end MemType

/-- A request on a memory port. -/
structure MemReq where
  /-- The address. -/
  addr : BitVec 64
  /-- The data of a store. -/
  data : BitVec 64
  /-- Whether the request is a store. -/
  fcn : Bool
  /-- The memory type. -/
  typ : MemType
  deriving DecidableEq, Repr

/-- The address is a multiple of the size. -/
def MemReq.Aligned (req : MemReq) : Prop := req.addr.toNat % req.typ.bytes = 0

/-! ### The bank -/

/-- A word of the bank: four bytes, the high byte in lane 0. -/
abbrev Lanes := Fin 4 → BitVec 8

/-- A bank of `2 ^ (n + 3)` bytes. -/
abbrev Bank (n : ℕ) := BitVec (n + 1) → Lanes

/-- The lanes side by side. -/
def Lanes.cat (v : Lanes) : BitVec 32 := v 0 ++ v 1 ++ v 2 ++ v 3

/-- A word split into lanes. -/
def splitWord (data : BitVec 32) : Lanes := fun i => data.extractLsb' (8 * (3 - i.val)) 8

/-- The number of bytes less one. -/
def sizeToBytes (size : BitVec 2) : Fin 4 :=
  if size = 0 then 0 else if size = 1 then 1 else 3

/-- The lanes of an access of `bytes + 1` bytes at an offset. -/
def getMask (bytes storeOffset : ℕ) : Fin 4 → Bool :=
  let mask : BitVec 4 := (0b00011111#11 <<< bytes).extractLsb' 4 4
  let maskWithOffset := mask <<< storeOffset
  fun i => maskWithOffset.getLsbD (3 - i.val)

/-- A byte of ones or zeros. -/
def fill (mask : Bool) : BitVec 8 := if mask then BitVec.allOnes 8 else 0

namespace Bank

variable {n : ℕ}

/-- Read from the bank. -/
def read (mem : Bank n) (addr : BitVec (n + 3)) (size : BitVec 2) (signed : Bool) : BitVec 32 :=
  let offset := addr.extractLsb' 0 2
  let shiftedVec := splitWord ((mem (addr.extractLsb' 2 (n + 1))).cat >>> (8 * offset.toNat))
  let bytes := sizeToBytes size
  let sign := (shiftedVec (3 - bytes)).getLsbD 7
  let masks := getMask bytes.val 0
  Lanes.cat fun i =>
    if sign && signed then shiftedVec i ||| ~~~ fill (masks i) else shiftedVec i &&& fill (masks i)

/-- Write to the bank. -/
def write (mem : Bank n) (addr : BitVec (n + 3)) (data : BitVec 32) (size : BitVec 2) : Bank n :=
  let offset := addr.extractLsb' 0 2
  let shiftedVec := splitWord (data <<< (8 * offset.toNat))
  let masks := getMask (sizeToBytes size).val offset.toNat
  fun i =>
    if i = addr.extractLsb' 2 (n + 1) then
      fun lane => if masks lane then shiftedVec lane else mem i lane
    else mem i

/-- A request on the data port: the response data, and the bank afterwards. The 32 bits of the
reader drive the 64-bit port, and the writer takes the low 32 bits of the data. -/
def dport (mem : Bank n) (req : MemReq) : BitVec 64 × Bank n :=
  let addr := req.addr.setWidth (n + 3)
  ((mem.read addr req.typ.getTLSize req.typ.getTLSigned).setWidth 64,
    if req.fcn then mem.write addr (req.data.setWidth 32) req.typ.getTLSize else mem)

end Bank

/-! ### The array of bytes -/

namespace ByteMap

/-- The value of a load, extended to 64 bits as its type says. -/
def loadValue (m : Memory) (a : BitVec 64) (typ : MemType) : BitVec 64 :=
  if typ.signed then ((m.load a typ.bytes).setWidth (8 * typ.bytes)).signExtend 64
  else m.load a typ.bytes

/-- The place of an address in an array of `2 ^ (n + 3)` bytes. -/
def offset (n : ℕ) (addr : BitVec 64) : BitVec 64 := BitVec.ofNat 64 (addr.toNat % 2 ^ (n + 3))

/-- The array after a request. -/
def next (n : ℕ) (m : Memory) (req : MemReq) : Memory :=
  if req.fcn then m.store (offset n req.addr) req.typ.bytes req.data else m

end ByteMap

namespace Bank

open ByteMap (offset)

variable {n : ℕ}

/-- The bytes of a bank. -/
def contents (mem : Bank n) : Memory := fun x =>
  if x.toNat < 2 ^ (n + 3) then
    mem (BitVec.ofNat (n + 1) (x.toNat / 4)) ⟨3 - x.toNat % 4, by omega⟩
  else 0

/-- **The scratchpad behaves as an array of bytes** run beside it on the same requests: before every
request and at the end the bank holds the array's bytes, and every load returns the array's value.
As the array's bytes are compared after every store, a store changes exactly the bytes it
addresses. -/
def BehavesAsBytes (mem : Bank n) (m : Memory) : List MemReq → Prop
  | [] => mem.contents = m
  | req :: reqs =>
    mem.contents = m ∧
      (req.fcn = false → (mem.dport req).1 = ByteMap.loadValue m (offset n req.addr) req.typ) ∧
      (mem.dport req).2.BehavesAsBytes (ByteMap.next n m req) reqs

end Bank

/-! ### The lanes of a word -/

/-- The bytes of lanes side by side. -/
lemma byte_cat (v : Lanes) {k : ℕ} (hk : k < 4) : byte v.cat k = v ⟨3 - k, by omega⟩ := by
  refine BitVec.eq_of_getLsbD_eq fun i hi => ?_
  rw [getLsbD_byte]
  simp only [Lanes.cat, BitVec.getLsbD_append, hi, decide_true, Bool.true_and]
  interval_cases k
  · simp [hi]
  · simp [hi, show ¬ 8 + i < 8 by omega, show 8 + i - 8 = i by omega]
  · simp [hi, show ¬ 16 + i < 8 by omega, show ¬ 16 + i - 8 < 8 by omega,
      show 16 + i - 8 - 8 = i by omega]
  · simp [show ¬ 24 + i < 8 by omega, show ¬ 24 + i - 8 < 8 by omega,
      show ¬ 24 + i - 8 - 8 < 8 by omega, show 24 + i - 8 - 8 - 8 = i by omega]

/-- The lanes of a word are its bytes. -/
lemma splitWord_apply (data : BitVec 32) (i : Fin 4) : splitWord data i = byte data (3 - i.val) := by
  refine BitVec.eq_of_getLsbD_eq fun j hj => ?_
  rw [splitWord, getLsbD_byte, BitVec.getLsbD_extractLsb']

/-- The lanes an access masks are those of its bytes. -/
lemma getMask_eq : ∀ (size : BitVec 2) (storeOffset k : Fin 4),
    getMask (sizeToBytes size).val storeOffset.val ⟨3 - k.val, by omega⟩ =
      decide (storeOffset.val ≤ k.val ∧ k.val ≤ storeOffset.val + (sizeToBytes size).val) := by
  decide

lemma and_fill_true (x : BitVec 8) : x &&& fill true = x := BitVec.and_allOnes

lemma and_fill_false (x : BitVec 8) : x &&& fill false = 0 := BitVec.and_zero

lemma or_not_fill_true (x : BitVec 8) : x ||| ~~~ fill true = x := by
  rw [show ~~~ fill true = 0#8 by decide, BitVec.or_zero]

lemma or_not_fill_false (x : BitVec 8) : x ||| ~~~ fill false = BitVec.allOnes 8 := by
  rw [show ~~~ fill false = BitVec.allOnes 8 by decide, BitVec.or_allOnes]

/-- A memory type's accesses move at most one word. -/
lemma sizeToBytes_getTLSize (typ : MemType) :
    (sizeToBytes typ.getTLSize).val + 1 = min typ.bytes 4 := by
  cases typ <;> rfl

namespace Bank

open ByteMap (offset)

variable {n : ℕ}

/-- The word of an address. -/
def word (mem : Bank n) (addr : BitVec (n + 3)) : BitVec 32 := (mem (addr.extractLsb' 2 (n + 1))).cat

/-- **The bytes of a read**: those of the word from the offset on, then copies of the sign. -/
lemma byte_read (mem : Bank n) (addr : BitVec (n + 3)) (size : BitVec 2) (signed : Bool) {k : ℕ}
    (hk : k < 4) :
    byte (mem.read addr size signed) k =
      if k ≤ (sizeToBytes size).val then byte (mem.word addr) ((addr.extractLsb' 0 2).toNat + k)
      else if (byte (mem.word addr)
          ((addr.extractLsb' 0 2).toNat + (sizeToBytes size).val)).getLsbD 7 && signed then
        BitVec.allOnes 8
      else 0 := by
  have hmask := getMask_eq size 0 ⟨k, hk⟩
  have hsign : 3 - (3 - sizeToBytes size).val = (sizeToBytes size).val := by
    generalize sizeToBytes size = b
    revert b
    decide
  simp only [read, byte_cat _ hk, splitWord_apply, byte_ushiftRight, hsign]
  simp only [Fin.val_zero, Nat.zero_le, true_and, Nat.zero_add] at hmask
  rw [hmask, show 3 - (3 - k) = k by omega]
  by_cases hkb : k ≤ (sizeToBytes size).val
  · rw [if_pos hkb, decide_eq_true hkb, or_not_fill_true, and_fill_true, ite_self, word]
  · rw [if_neg hkb, decide_eq_false hkb, or_not_fill_false, and_fill_false, word]

/-- The place of an address is inside the bank. -/
lemma toNat_offset (addr : BitVec 64) : (offset n addr).toNat = addr.toNat % 2 ^ (n + 3) := by
  have hle := Nat.mod_le addr.toNat (2 ^ (n + 3))
  have hlt := addr.isLt
  rw [offset, BitVec.toNat_ofNat, Nat.mod_eq_of_lt (by omega)]

/-- The place of an aligned address is aligned. -/
lemma offset_mod_bytes {req : MemReq} (h : req.Aligned) :
    (offset n req.addr).toNat % req.typ.bytes = 0 := by
  have hsize : req.typ.getTLSize.toNat ≤ n + 3 := by
    have := req.typ.getTLSize.isLt
    omega
  rw [toNat_offset, Nat.mod_mod_of_dvd]
  · exact h
  · rw [MemType.bytes_eq_two_pow]
    exact Nat.pow_dvd_pow 2 hsize

/-- An aligned access stays inside the bank and does not wrap around. -/
lemma offset_add_bytes_le {req : MemReq} (h : req.Aligned) :
    (offset n req.addr).toNat + req.typ.bytes ≤ 2 ^ (n + 3) ∧
      (offset n req.addr).toNat + req.typ.bytes ≤ 2 ^ 64 := by
  have hlt := (offset n req.addr).isLt
  have hmod := offset_mod_bytes (n := n) h
  have hin : (offset n req.addr).toNat < 2 ^ (n + 3) := by
    rw [toNat_offset]
    exact Nat.mod_lt _ (Nat.two_pow_pos _)
  have hpow : 2 ^ (n + 3) = 2 ^ n * 8 := Nat.pow_add 2 n 3
  cases htyp : req.typ <;> simp only [htyp, MemType.bytes] at hmod ⊢ <;> omega

/-- The bytes of a bank by their word. -/
lemma contents_apply (mem : Bank n) {x : BitVec 64} (hx : x.toNat < 2 ^ (n + 3)) :
    mem.contents x = byte (mem (BitVec.ofNat (n + 1) (x.toNat / 4))).cat (x.toNat % 4) := by
  rw [contents, if_pos hx, byte_cat _ (by omega)]

/-- The index of the word an address is in. -/
lemma extractLsb'_two_eq (addr : BitVec 64) :
    (addr.setWidth (n + 3)).extractLsb' 2 (n + 1) =
      BitVec.ofNat (n + 1) ((offset n addr).toNat / 4) := by
  apply BitVec.eq_of_toNat_eq
  rw [BitVec.extractLsb'_toNat, BitVec.toNat_setWidth, BitVec.toNat_ofNat, toNat_offset,
    Nat.shiftRight_eq_div_pow]

/-- The offset of an address in its word. -/
lemma extractLsb'_zero_eq (addr : BitVec 64) :
    ((addr.setWidth (n + 3)).extractLsb' 0 2).toNat = (offset n addr).toNat % 4 := by
  rw [BitVec.extractLsb'_toNat, BitVec.toNat_setWidth, toNat_offset, Nat.shiftRight_zero]

/-- The bytes of an aligned access of at most a word are in one word. -/
lemma offset_mod_add_le {req : MemReq} (h : req.Aligned) :
    (offset n req.addr).toNat % 4 + min req.typ.bytes 4 ≤ 4 := by
  have hmod := offset_mod_bytes (n := n) h
  cases htyp : req.typ <;> simp only [htyp, MemType.bytes] at hmod ⊢ <;> omega

/-- An address inside an aligned access. -/
lemma toNat_offset_add {req : MemReq} (h : req.Aligned) {k : ℕ} (hk : k < req.typ.bytes) :
    (offset n req.addr + BitVec.ofNat 64 k).toNat = (offset n req.addr).toNat + k := by
  have hle := (offset_add_bytes_le (n := n) h).2
  rw [BitVec.toNat_add, BitVec.toNat_ofNat, Nat.add_mod_mod, Nat.mod_eq_of_lt (by omega)]

/-- The bytes of an aligned access are bytes of its word. -/
lemma byte_word (mem : Bank n) {req : MemReq} (h : req.Aligned) {k : ℕ}
    (hk : k < min req.typ.bytes 4) :
    byte (mem.word (req.addr.setWidth (n + 3))) ((offset n req.addr).toNat % 4 + k) =
      mem.contents (offset n req.addr + BitVec.ofNat 64 k) := by
  have hadd := toNat_offset_add (n := n) h (show k < req.typ.bytes by omega)
  have hin := (offset_add_bytes_le (n := n) h).1
  have hword := offset_mod_add_le (n := n) h
  rw [contents_apply mem (by omega), hadd, word, extractLsb'_two_eq]
  rw [show ((offset n req.addr).toNat + k) / 4 = (offset n req.addr).toNat / 4 by omega,
    show ((offset n req.addr).toNat + k) % 4 = (offset n req.addr).toNat % 4 + k by omega]

/-- The last byte of a word an aligned access moves, which holds its sign. -/
def lastByte (mem : Bank n) (req : MemReq) : BitVec 8 :=
  mem.contents (offset n req.addr + BitVec.ofNat 64 (min req.typ.bytes 4 - 1))

/-- **The bytes of a response**: those addressed in the word, then copies of the sign up to the end
of the word, then zeros. -/
lemma byte_response (mem : Bank n) {req : MemReq} (h : req.Aligned) {k : ℕ} (hk : k < 8) :
    byte (mem.dport req).1 k =
      if k < min req.typ.bytes 4 then mem.contents (offset n req.addr + BitVec.ofNat 64 k)
      else if k < 4 ∧ (mem.lastByte req).getLsbD 7 ∧ req.typ.signed then BitVec.allOnes 8
      else 0 := by
  have hbytes := sizeToBytes_getTLSize req.typ
  rw [dport, byte_setWidth _ (by omega)]
  by_cases hk4 : k < 4
  · rw [byte_read _ _ _ _ hk4, extractLsb'_zero_eq, MemType.getTLSigned_eq]
    rw [show (sizeToBytes req.typ.getTLSize).val = min req.typ.bytes 4 - 1 by omega]
    by_cases hkb : k < min req.typ.bytes 4
    · rw [if_pos (by omega), if_pos hkb, byte_word mem h hkb]
    · rw [if_neg (by omega), if_neg hkb, byte_word mem h (by omega)]
      simp only [lastByte, hk4, true_and, Bool.and_eq_true]
  · rw [byte_of_le (by omega), if_neg (by omega), if_neg (by omega)]

end Bank

/-! ### Loads -/

/-- **The bytes of a loaded value**: those addressed, then copies of the sign. -/
lemma ByteMap.byte_loadValue (m : Memory) (a : BitVec 64) (typ : MemType) {k : ℕ} (hk : k < 8) :
    byte (ByteMap.loadValue m a typ) k =
      if k < typ.bytes then m (a + BitVec.ofNat 64 k)
      else if (m (a + BitVec.ofNat 64 (typ.bytes - 1))).getLsbD 7 ∧ typ.signed then
        BitVec.allOnes 8
      else 0 := by
  have hle := typ.bytes_le
  have hpos : 0 < typ.bytes := by cases typ <;> decide
  have hload := byte_load m a hle hk
  have hsign : ((m.load a typ.bytes).setWidth (8 * typ.bytes)).msb =
      (m (a + BitVec.ofNat 64 (typ.bytes - 1))).getLsbD 7 := by
    have hlast := byte_load m a hle (k := typ.bytes - 1) (by omega)
    rw [if_pos (by omega)] at hlast
    rw [← hlast, getLsbD_byte, BitVec.msb_eq_getLsbD_last, BitVec.getLsbD_setWidth,
      show 8 * (typ.bytes - 1) + 7 = 8 * typ.bytes - 1 by omega]
    simp
    omega
  cases hs : typ.signed with
  | false => simp [ByteMap.loadValue, hs, hload]
  | true =>
    rw [ByteMap.loadValue, if_pos hs, byte_signExtend _ (by omega), hsign]
    by_cases hkb : k < typ.bytes
    · rw [if_pos hkb, if_pos hkb, byte_setWidth _ (by omega), hload, if_pos hkb]
    · simp [hkb]

namespace Bank

open ByteMap (offset)

variable {n : ℕ}

/-- The loads the port answers with all 64 bits: those whose bits from 32 on are zeros. -/
def LoadFits (m : Memory) (a : BitVec 64) (typ : MemType) : Prop :=
  if typ.bytes = 8 then ∀ k < 8, 4 ≤ k → m (a + BitVec.ofNat 64 k) = 0
  else typ.signed → (m (a + BitVec.ofNat 64 (typ.bytes - 1))).getLsbD 7 = false

/-- **The loads answered** as by an array of bytes. -/
lemma response_eq_iff (mem : Bank n) {req : MemReq} (h : req.Aligned) :
    (mem.dport req).1 = ByteMap.loadValue mem.contents (offset n req.addr) req.typ ↔
      LoadFits mem.contents (offset n req.addr) req.typ := by
  have hbytes : (mem.dport req).1 = ByteMap.loadValue mem.contents (offset n req.addr) req.typ ↔
      ∀ k < 8, byte (mem.dport req).1 k =
        byte (ByteMap.loadValue mem.contents (offset n req.addr) req.typ) k :=
    ⟨fun heq k _ => by rw [heq], eq_of_byte⟩
  rw [hbytes, LoadFits]
  by_cases h8 : req.typ.bytes = 8
  · rw [if_pos h8]
    refine forall₂_congr fun k hk => ?_
    rw [byte_response mem h hk, ByteMap.byte_loadValue _ _ _ hk, h8, if_pos hk]
    by_cases hk4 : k < 4
    · rw [if_pos (by omega)]
      exact ⟨fun _ hk4' => absurd hk4 (by omega), fun _ => rfl⟩
    · rw [if_neg (by omega), if_neg (by omega)]
      exact ⟨fun heq _ => heq.symm, fun heq => (heq (by omega)).symm⟩
  · rw [if_neg h8]
    have hle : req.typ.bytes ≤ 4 := by
      cases htyp : req.typ <;> simp [htyp, MemType.bytes] at h8 ⊢
    have hmin : min req.typ.bytes 4 = req.typ.bytes := by omega
    constructor
    · intro heq hsigned
      have hlast := heq 7 (by omega)
      rw [byte_response mem h (by omega), ByteMap.byte_loadValue _ _ _ (by omega), hmin] at hlast
      rw [if_neg (by omega), if_neg (by omega), if_neg (by omega)] at hlast
      by_contra hbit
      rw [if_pos ⟨by simpa using hbit, hsigned⟩] at hlast
      exact absurd hlast (by decide)
    · intro hfits k hk
      rw [byte_response mem h hk, ByteMap.byte_loadValue _ _ _ hk, hmin, lastByte, hmin]
      by_cases hkb : k < req.typ.bytes
      · rw [if_pos hkb, if_pos hkb]
      · rw [if_neg hkb, if_neg hkb]
        cases hsigned : req.typ.signed with
        | false => simp
        | true => simp only [hfits hsigned, Bool.false_eq_true, false_and, and_false]

/-! ### Stores -/

/-- **The bytes of a bank after a write**: a store of at most the low word of the data. -/
lemma contents_write (mem : Bank n) {req : MemReq} (h : req.Aligned) :
    (mem.write (req.addr.setWidth (n + 3)) (req.data.setWidth 32) req.typ.getTLSize).contents =
      mem.contents.store (offset n req.addr) (min req.typ.bytes 4) req.data := by
  have hbytes := sizeToBytes_getTLSize req.typ
  have hword := offset_mod_add_le (n := n) h
  obtain ⟨hin, hwrap⟩ := offset_add_bytes_le (n := n) h
  have hpow : 2 ^ (n + 3) = 2 ^ (n + 1) * 4 := Nat.pow_add 2 (n + 1) 2
  funext x
  have hiff : Memory.offsetFrom (offset n req.addr) x < min req.typ.bytes 4 ↔ _ :=
    Memory.offsetFrom_lt_iff (by omega)
  rw [Memory.store]
  by_cases hx : x.toNat < 2 ^ (n + 3)
  · rw [contents, if_pos hx, write]
    by_cases hidx : x.toNat / 4 = (offset n req.addr).toNat / 4
    · -- the word written to: the mask selects the bytes of the access
      have hmask := getMask_eq req.typ.getTLSize ⟨(offset n req.addr).toNat % 4, by omega⟩
        ⟨x.toNat % 4, by omega⟩
      rw [extractLsb'_two_eq, extractLsb'_zero_eq, hidx]
      simp only [if_true, hmask, splitWord_apply]
      rw [show 3 - (3 - x.toNat % 4) = x.toNat % 4 by omega]
      by_cases hlane : Memory.offsetFrom (offset n req.addr) x < min req.typ.bytes 4
      · have hle := (hiff.mp hlane).1
        rw [if_pos hlane, if_pos (by simp; omega), byte_shiftLeft _ (by omega), if_neg (by omega),
          byte_setWidth _ (by omega), Memory.offsetFrom_of_le hle]
        exact congrArg (byte req.data) (by omega)
      · rw [if_neg hlane, if_neg (by simp; omega), contents, if_pos hx, hidx]
    · -- another word
      have hne : BitVec.ofNat (n + 1) (x.toNat / 4) ≠
          (req.addr.setWidth (n + 3)).extractLsb' 2 (n + 1) := by
        intro heq
        have hnat := congrArg BitVec.toNat heq
        rw [extractLsb'_two_eq, BitVec.toNat_ofNat, BitVec.toNat_ofNat,
          Nat.mod_eq_of_lt (by omega), Nat.mod_eq_of_lt (by omega)] at hnat
        exact hidx hnat
      simp only [if_neg hne]
      rw [if_neg (by omega), contents, if_pos hx]
  · rw [contents, if_neg hx, if_neg (by omega), contents, if_neg hx]

/-- The stores the port performs in full: those whose bytes from the fifth on are there already. -/
def StoreFits (m : Memory) (a : BitVec 64) (typ : MemType) (data : BitVec 64) : Prop :=
  typ.bytes = 8 → ∀ k < 8, 4 ≤ k → m (a + BitVec.ofNat 64 k) = byte data k

/-- **The stores performed** as by an array of bytes. -/
lemma contents_write_eq_iff (mem : Bank n) {req : MemReq} (h : req.Aligned) :
    (mem.write (req.addr.setWidth (n + 3)) (req.data.setWidth 32) req.typ.getTLSize).contents =
        mem.contents.store (offset n req.addr) req.typ.bytes req.data ↔
      StoreFits mem.contents (offset n req.addr) req.typ req.data := by
  rw [contents_write mem h, StoreFits]
  by_cases h8 : req.typ.bytes = 8
  · rw [h8, store_eq_store_iff _ _ _ (by omega) (by omega)]
    exact ⟨fun hbytes _ => hbytes, fun hbytes => hbytes rfl⟩
  · have hle : req.typ.bytes ≤ 4 := by
      cases htyp : req.typ <;> simp [htyp, MemType.bytes] at h8 ⊢
    rw [Nat.min_eq_left hle]
    exact ⟨fun _ h8' => absurd h8' h8, fun _ => rfl⟩

/-! ### Sequences of requests -/

/-- The requests served as by an array of bytes. -/
def Fits (n : ℕ) (m : Memory) (req : MemReq) : Prop :=
  if req.fcn then StoreFits m (offset n req.addr) req.typ req.data
  else LoadFits m (offset n req.addr) req.typ

/-- Every request of a sequence fits the array it finds. -/
def FitsAll (n : ℕ) (m : Memory) : List MemReq → Prop
  | [] => True
  | req :: reqs => Fits n m req ∧ FitsAll n (ByteMap.next n m req) reqs

/-- **One request** is served as by an array of bytes exactly if it fits. -/
lemma serves_iff (mem : Bank n) {req : MemReq} (h : req.Aligned) :
    (req.fcn = false →
        (mem.dport req).1 = ByteMap.loadValue mem.contents (offset n req.addr) req.typ) ∧
      (mem.dport req).2.contents = ByteMap.next n mem.contents req ↔
    Fits n mem.contents req := by
  rw [Fits, ByteMap.next]
  cases hfcn : req.fcn with
  | false =>
    rw [if_neg (by decide), if_neg (by decide), ← response_eq_iff mem h]
    have hkeep : (mem.dport req).2 = mem := by
      rw [dport, hfcn]
      rfl
    rw [hkeep]
    exact ⟨fun hserved => hserved.1 rfl, fun heq => ⟨fun _ => heq, rfl⟩⟩
  | true =>
    rw [if_pos rfl, if_pos rfl, ← contents_write_eq_iff mem h]
    have hwrite : (mem.dport req).2 =
        mem.write (req.addr.setWidth (n + 3)) (req.data.setWidth 32) req.typ.getTLSize := by
      rw [dport, hfcn]
      rfl
    rw [hwrite]
    exact ⟨fun hserved => hserved.2, fun heq => ⟨fun hload => absurd hload (by decide), heq⟩⟩

/-- A run that behaves as an array starts with the array's bytes. -/
lemma BehavesAsBytes.contents_eq {mem : Bank n} {m : Memory} {reqs : List MemReq}
    (h : mem.BehavesAsBytes m reqs) : mem.contents = m := by
  cases reqs with
  | nil => exact h
  | cons req reqs => exact h.1

/-- **The sequences of requests served as by an array of bytes**: those in which every signed load
finds its sign bit clear, every load of an octa finds its high four bytes zero, and every store of
an octa finds the high four bytes of its data in place. -/
theorem behavesAsBytes_iff (mem : Bank n) (reqs : List MemReq) (h : ∀ req ∈ reqs, req.Aligned) :
    mem.BehavesAsBytes mem.contents reqs ↔ FitsAll n mem.contents reqs := by
  induction reqs generalizing mem with
  | nil => exact ⟨fun _ => trivial, fun _ => rfl⟩
  | cons req reqs ih =>
    have haligned := h req (by simp)
    have hrest : ∀ req' ∈ reqs, req'.Aligned := fun req' hmem => h req' (by simp [hmem])
    rw [FitsAll, ← serves_iff mem haligned]
    constructor
    · rintro ⟨-, hload, hrun⟩
      have hnext := hrun.contents_eq
      rw [← hnext] at hrun ⊢
      exact ⟨⟨hload, rfl⟩, (ih _ hrest).mp hrun⟩
    · rintro ⟨⟨hload, hnext⟩, hfits⟩
      refine ⟨rfl, hload, ?_⟩
      rw [← hnext] at hfits ⊢
      exact (ih _ hrest).mpr hfits

/-- A bank of zeros. -/
def cleared (n : ℕ) : Bank n := fun _ _ => 0

/-- A wyde stored and loaded back without its sign, from a bank of zeros. -/
theorem behavesAsBytes_wyde : (cleared 0).BehavesAsBytes (cleared 0).contents
    [⟨2, 0x8001, true, .w⟩, ⟨2, 0, false, .wu⟩] := by
  refine (behavesAsBytes_iff _ _ ?_).mpr ⟨?_, ?_, trivial⟩
  · intro req hreq
    simp only [List.mem_cons, List.not_mem_nil, or_false] at hreq
    obtain rfl | rfl := hreq <;> rfl
  · exact fun h8 => absurd h8 (by decide)
  · exact fun hsigned => absurd hsigned (by decide)

/-- **A signed load of a byte that was just stored** is extended to 32 bits only: from a bank of
zeros, `0xff` comes back as `0xffffffff`. -/
theorem not_behavesAsBytes_signed_byte :
    ¬ ∀ reqs : List MemReq, (∀ req ∈ reqs, req.Aligned) →
      (cleared 0).BehavesAsBytes (cleared 0).contents reqs := by
  intro hall
  have hrun := hall [⟨0, 0xff, true, .b⟩, ⟨0, 0, false, .b⟩] (by
    intro req hreq
    simp only [List.mem_cons, List.not_mem_nil, or_false] at hreq
    obtain rfl | rfl := hreq <;> rfl)
  have hload := hrun.2.2.2.1 rfl
  exact absurd hload (by decide +kernel)

end Bank

end Wuming

end Dadao
