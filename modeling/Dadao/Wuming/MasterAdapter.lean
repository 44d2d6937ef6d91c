import Dadao.Lib.Clocked
import Dadao.Wuming.Scratchpad

set_option relaxedAutoImplicit false
set_option autoImplicit false

/-!
# The tile boundary of the Wuming core

A core port is routed by the address it presents: to the scratchpad, which answers in the same
cycle, or to the master adapter, which sends one request at a time over TileLink and answers when
channel D does. The router selects the response by the address presented in the cycle of the
response.

The load generator of the adapter and the device behind the TileLink crossbar are outside the
repository. The generator is a parameter (`Dadao.Wuming.LoadGenSpec` says what it does); the device
answers each message after any number of cycles, a `Get` with the word its address is in.

## Main definitions

* `Dadao.Wuming.Adapter.step` — `WumingMasterAdapterImp`.
* `Dadao.Wuming.Tile.step` — a core port with its router, scratchpad, adapter and device.
* `Dadao.Wuming.Tile.RespondsRight` — a valid response is the one of the outstanding request.
* `Dadao.Wuming.Tile.Held` — what the core has to hold while a request is outstanding.

## Main results

* `Dadao.Wuming.Tile.everyCycle_respondsRight` — if the core holds what it has to, every response is
  the right one.
-/

namespace Dadao

namespace Wuming

/-! ### The master adapter -/

/-- The states of the adapter. -/
inductive AdapterState
  | ready | active | inflight
  deriving DecidableEq, Repr

/-- The registers of the adapter. -/
structure Adapter where
  /-- The state. -/
  state : AdapterState
  /-- The address given to the load generator. -/
  aAddressReg : BitVec 64
  /-- The signedness given to the load generator. -/
  aSignedReg : Bool
  /-- The address of the request. -/
  reqAddressReg : BitVec 64
  /-- The size of the request. -/
  reqSizeReg : BitVec 2
  /-- The data of the request. -/
  reqDataReg : BitVec 64
  deriving DecidableEq, Repr

/-- A message on channel A. -/
inductive AMessage
  | get (addr : BitVec 64) (size : BitVec 2)
  | put (addr : BitVec 64) (size : BitVec 2) (data : BitVec 64)
  deriving DecidableEq, Repr

/-- The size of a message. -/
def AMessage.size : AMessage → BitVec 2
  | get _ size => size
  | put _ size _ => size

namespace Adapter

/-- The message on channel A: the latched request, under the function presented now. -/
def aBits (ad : Adapter) (req : MemReq) : AMessage :=
  if req.fcn = false then .get ad.reqAddressReg ad.reqSizeReg
  else .put ad.reqAddressReg ad.reqSizeReg ad.reqDataReg

/-- A cycle of the adapter. The sign register is loaded from the size: it takes its low bit. -/
def step (ad : Adapter) (valid : Bool) (req : MemReq) (aFire dFire : Bool) : Adapter :=
  match ad.state with
  | .ready =>
    if valid then
      { ad with
        state := .active
        reqAddressReg := req.addr
        reqSizeReg := req.typ.getTLSize
        reqDataReg := req.data }
    else ad
  | .active =>
    if aFire then
      { ad with
        state := .inflight
        aAddressReg := req.addr
        aSignedReg := req.typ.getTLSize.getLsbD 0 }
    else ad
  | .inflight => if dFire then { ad with state := .ready } else ad

end Adapter

/-! ### The device -/

/-- A message on channel D. -/
structure DMessage where
  /-- The size of the access answered. -/
  size : BitVec 2
  /-- The beat. -/
  data : BitVec 32
  deriving DecidableEq, Repr

/-- The device: the message it has to answer with, the message it answers, and the memory it
answered from. -/
structure Device where
  /-- The answer to send. -/
  pending : Option DMessage
  /-- The last message received. -/
  message : AMessage
  /-- The memory at that time. -/
  served : Memory

/-- The address of the word an address is in. -/
def wordBase (a : BitVec 64) : BitVec 64 := a - BitVec.ofNat 64 (a.toNat % 4)

/-- The beat of a message: the word of a `Get`; that of a `Put` carries nothing. -/
def beat (ext : Memory) (idle : BitVec 32) : AMessage → BitVec 32
  | .get addr _ => (ext.load (wordBase addr) 4).setWidth 32
  | .put _ _ _ => idle

/-- The device receives a message. -/
def Device.receive (ext : Memory) (idle : BitVec 32) (msg : AMessage) : Device :=
  ⟨some ⟨msg.size, beat ext idle msg⟩, msg, ext⟩

/-- **The load generator**: for an access of at most a word, the bytes of the beat at the address,
then copies of the sign of a signed load. -/
def LoadGenSpec (loadGen : BitVec 2 → Bool → BitVec 64 → BitVec 32 → BitVec 32) : Prop :=
  ∀ (size : BitVec 2) (signed : Bool) (addr : BitVec 64) (dat : BitVec 32),
    size.toNat ≤ 2 → addr.toNat % 2 ^ size.toNat = 0 → ∀ k < 4,
      byte (loadGen size signed addr dat) k =
        if k < 2 ^ size.toNat then byte dat (addr.toNat % 4 + k)
        else if signed ∧ (byte dat (addr.toNat % 4 + 2 ^ size.toNat - 1)).getLsbD 7 then
          BitVec.allOnes 8
        else 0

/-- A load generator: the bytes of the beat at the address, extended to 32 bits. -/
def selectLoad (size : BitVec 2) (signed : Bool) (addr : BitVec 64) (dat : BitVec 32) : BitVec 32 :=
  let bytes := (dat >>> (8 * (addr.toNat % 4))).setWidth (8 * 2 ^ size.toNat)
  if signed then bytes.signExtend 32 else bytes.setWidth 32

/-- It is as specified. -/
lemma loadGenSpec_selectLoad : LoadGenSpec selectLoad := by
  intro size signed addr dat _ _ k hk
  have hpos : 0 < 2 ^ size.toNat := Nat.two_pow_pos _
  have hbyte : ∀ i < 2 ^ size.toNat,
      byte ((dat >>> (8 * (addr.toNat % 4))).setWidth (8 * 2 ^ size.toNat)) i =
        byte dat (addr.toNat % 4 + i) := by
    intro i hi
    rw [byte_setWidth _ (by omega), byte_ushiftRight]
  have hmsb : ((dat >>> (8 * (addr.toNat % 4))).setWidth (8 * 2 ^ size.toNat)).msb =
      (byte dat (addr.toNat % 4 + 2 ^ size.toNat - 1)).getLsbD 7 := by
    rw [Nat.add_sub_assoc hpos, ← hbyte _ (by omega), getLsbD_byte, BitVec.msb_eq_getLsbD_last,
      show 8 * (2 ^ size.toNat - 1) + 7 = 8 * 2 ^ size.toNat - 1 by omega]
    rfl
  cases signed with
  | true =>
    rw [selectLoad, if_pos rfl, byte_signExtend _ (by omega), hmsb]
    by_cases hks : k < 2 ^ size.toNat
    · rw [if_pos hks, if_pos hks, hbyte k hks]
    · rw [if_neg hks, if_neg hks]
      simp
  | false =>
    rw [selectLoad, if_neg (by decide), byte_setWidth _ (by omega)]
    by_cases hks : k < 2 ^ size.toNat
    · rw [if_pos hks, hbyte k hks]
    · rw [if_neg hks, byte_of_le (by omega)]
      simp

/-! ### The tile -/

/-- A core port of the tile. `outstanding` is the request the core has had accepted and not
answered. -/
structure Tile (n : ℕ) where
  /-- The master adapter. -/
  adapter : Adapter
  /-- The scratchpad. -/
  bank : Bank n
  /-- The device behind the crossbar. -/
  device : Device
  /-- The outstanding request. -/
  outstanding : Option MemReq

/-- The inputs of a cycle: the request the core presents, the handshakes of channels A and D, the
external memory, and the data of an answer without data. -/
structure Cycle where
  /-- Whether the core presents a request. -/
  valid : Bool
  /-- The request on the core's port. -/
  req : MemReq
  /-- Whether channel A is ready. -/
  aReady : Bool
  /-- Whether the device sends its answer, if it has one. -/
  dValid : Bool
  /-- The memory outside. -/
  ext : Memory
  /-- What the beat of a `Put`'s answer holds. -/
  idle : BitVec 32

namespace Tile

variable (inRange : BitVec 64 → Bool) (loadGen : BitVec 2 → Bool → BitVec 64 → BitVec 32 → BitVec 32)
  {n : ℕ} (t : Tile n) (c : Cycle)

/-- Channel A transfers the message. -/
def aFire : Bool := t.adapter.state == .active && c.aReady

/-- Channel D transfers the answer; the adapter is always ready for it. -/
def dFire : Bool := t.device.pending.isSome && c.dValid

/-- The core's request is accepted. -/
def reqReady : Bool := if inRange c.req.addr then true else t.adapter.state == .ready

/-- The router delivers a response. -/
def respValid : Bool := if inRange c.req.addr then c.valid else t.dFire c

/-- The data of the master port: what the load generator makes of channel D, on a wider port. -/
def masterData : BitVec 64 :=
  match t.device.pending with
  | some d => (loadGen d.size t.adapter.aSignedReg t.adapter.aAddressReg d.data).setWidth 64
  | none => 0

/-- The data of the response. -/
def respData : BitVec 64 :=
  if inRange c.req.addr then (t.bank.dport c.req).1 else t.masterData loadGen

/-- The request a response in this cycle is for: the outstanding one, or one accepted now. -/
def believed : Option MemReq :=
  match t.outstanding with
  | some r => some r
  | none => if c.valid && t.reqReady inRange c then some c.req else none

/-- A cycle of the tile. -/
def step : Tile n where
  adapter := t.adapter.step (c.valid && !inRange c.req.addr) c.req (t.aFire c) (t.dFire c)
  bank := if c.valid && inRange c.req.addr then (t.bank.dport c.req).2 else t.bank
  device :=
    if t.aFire c then Device.receive c.ext c.idle (t.adapter.aBits c.req)
    else if t.dFire c then { t.device with pending := none }
    else t.device
  outstanding := if t.respValid inRange c then none else t.believed inRange c

/-- The message of a request. -/
def messageOf (r : MemReq) : AMessage :=
  if r.fcn = false then .get r.addr r.typ.getTLSize else .put r.addr r.typ.getTLSize r.data

/-- The data of a load, sized and extended. -/
def dataOf (r : MemReq) : BitVec 64 :=
  if inRange r.addr then ByteMap.loadValue t.bank.contents (ByteMap.offset n r.addr) r.typ
  else ByteMap.loadValue t.device.served r.addr r.typ

/-- **A valid response is the right one**: there is a request outstanding, the response comes from
the side that serves it and answers that very request, and a load's response carries its data. -/
def RespondsRight : Prop :=
  t.respValid inRange c → ∃ r, t.believed inRange c = some r ∧
    (if inRange c.req.addr then c.req = r
      else inRange r.addr = false ∧ t.device.message = messageOf r) ∧
    (r.fcn = false → t.respData inRange loadGen c = t.dataOf inRange r)

/-- The loads from outside whose value the port carries: aligned, of at most a word, and with a
clear sign if the type or the sign register extends it. -/
def ExtLoadFits (m : Memory) (signedReg : Bool) (r : MemReq) : Prop :=
  r.Aligned ∧ r.typ.bytes ≤ 4 ∧
    (r.typ.signed ∨ r.typ.bytes < 4 ∧ signedReg →
      (m (r.addr + BitVec.ofNat 64 (r.typ.bytes - 1))).getLsbD 7 = false)

/-- **What a cycle has to hold** for responses to be right. -/
structure Held : Prop where
  /-- No scratchpad request is presented while a request is outstanding. -/
  noScratch : t.outstanding.isSome → c.valid → inRange c.req.addr = false
  /-- When channel A fires, the function is still that of the request. -/
  fcnHeld : ∀ r, t.outstanding = some r → t.aFire c → c.req.fcn = r.fcn
  /-- When channel A fires, the address has the offset of the request in its word. -/
  offsetHeld : ∀ r, t.outstanding = some r → t.aFire c → r.fcn = false →
    c.req.addr.toNat % 4 = r.addr.toNat % 4
  /-- When channel D fires, the address presented is outside the scratchpad. -/
  outside : t.dFire c → inRange c.req.addr = false
  /-- The value of a load from outside fits. -/
  extFits : ∀ r, t.outstanding = some r → t.dFire c → r.fcn = false →
    ExtLoadFits t.device.served t.adapter.aSignedReg r
  /-- The value of a load from the scratchpad fits. -/
  scratchFits : t.outstanding = none → c.valid → inRange c.req.addr → c.req.fcn = false →
    c.req.Aligned ∧
      Bank.LoadFits t.bank.contents (ByteMap.offset n c.req.addr) c.req.typ

/-! ### The value of a load from outside -/

variable {inRange loadGen}

/-- The bytes of a word from an offset on. -/
lemma byte_beat (m : Memory) (idle : BitVec 32) (a : BitVec 64) (size : BitVec 2) {k : ℕ}
    (hk : a.toNat % 4 + k < 4) :
    byte (beat m idle (.get a size)) (a.toNat % 4 + k) = m (a + BitVec.ofNat 64 k) := by
  rw [beat, byte_setWidth _ (by omega), byte_load m _ (by omega) (by omega), if_pos hk, wordBase,
    BitVec.ofNat_add, ← BitVec.add_assoc, BitVec.sub_add_cancel]

/-- **The value of a load from outside.** The load generator extends to 32 bits, by the sign
register; the port adds zeros. -/
lemma setWidth_loadGen_eq (hspec : LoadGenSpec loadGen) {m : Memory} {r : MemReq}
    {signedReg : Bool} (hfits : ExtLoadFits m signedReg r) {addr : BitVec 64}
    (haddr : addr.toNat % 4 = r.addr.toNat % 4) (idle : BitVec 32) :
    (loadGen r.typ.getTLSize signedReg addr
        (beat m idle (.get r.addr r.typ.getTLSize))).setWidth 64 =
      ByteMap.loadValue m r.addr r.typ := by
  obtain ⟨haligned, hbytes, hsign⟩ := hfits
  have hpow := r.typ.bytes_eq_two_pow
  have hsize : r.typ.getTLSize.toNat ≤ 2 := by
    cases htyp : r.typ <;> simp [htyp, MemType.bytes] at hbytes ⊢ <;> decide
  rw [MemReq.Aligned] at haligned
  have hmod : addr.toNat % 2 ^ r.typ.getTLSize.toNat = 0 := by
    rw [← hpow]
    cases htyp : r.typ <;> simp only [htyp, MemType.bytes] at hbytes haligned ⊢ <;> omega
  have hin : r.addr.toNat % 4 + r.typ.bytes ≤ 4 := by
    cases htyp : r.typ <;> simp only [htyp, MemType.bytes] at hbytes haligned ⊢ <;> omega
  have hpos : 0 < r.typ.bytes := by cases r.typ <;> decide
  refine eq_of_byte fun k hk => ?_
  rw [byte_setWidth _ (by omega), ByteMap.byte_loadValue _ _ _ hk]
  by_cases hk4 : k < 4
  · rw [hspec _ _ _ _ hsize hmod k hk4, ← hpow, haddr]
    by_cases hkb : k < r.typ.bytes
    · rw [if_pos hkb, if_pos hkb, byte_beat _ _ _ _ (by omega)]
    · -- the sign is clear, or neither side extends it
      rw [if_neg hkb, if_neg hkb, Nat.add_sub_assoc hpos, byte_beat _ _ _ _ (by omega)]
      congr 1
      refine propext ⟨fun hext => ?_, fun hext => ?_⟩
      · exact absurd hext.2 (by rw [hsign (Or.inr ⟨by omega, hext.1⟩)]; decide)
      · exact absurd hext.1 (by rw [hsign (Or.inl hext.2)]; decide)
  · rw [byte_of_le (by omega), if_neg (by omega), if_neg]
    rintro ⟨hbit, hsigned⟩
    exact absurd hbit (by rw [hsign (Or.inl hsigned)]; decide)

/-! ### The invariant -/

/-- **What the tile knows of the outstanding request** in each state of the adapter. -/
def Inv (inRange : BitVec 64 → Bool) (t : Tile n) : Prop :=
  match t.adapter.state with
  | .ready => t.outstanding = none ∧ t.device.pending = none
  | .active => ∃ r, t.outstanding = some r ∧ inRange r.addr = false ∧
      t.adapter.reqAddressReg = r.addr ∧ t.adapter.reqSizeReg = r.typ.getTLSize ∧
      t.adapter.reqDataReg = r.data ∧ t.device.pending = none
  | .inflight => ∃ r, t.outstanding = some r ∧ inRange r.addr = false ∧
      t.device.message = messageOf r ∧
      (r.fcn = false → t.adapter.aAddressReg.toNat % 4 = r.addr.toNat % 4) ∧
      ∃ idle, t.device.pending =
        some ⟨r.typ.getTLSize, beat t.device.served idle (messageOf r)⟩

/-- The adapter sends the message of the request it holds, if the function is still there. -/
lemma aBits_eq {ad : Adapter} {r req : MemReq} (haddr : ad.reqAddressReg = r.addr)
    (hsize : ad.reqSizeReg = r.typ.getTLSize) (hdata : ad.reqDataReg = r.data)
    (hfcn : req.fcn = r.fcn) : ad.aBits req = messageOf r := by
  rw [Adapter.aBits, messageOf, haddr, hsize, hdata, hfcn]

/-- The size of a request's message. -/
lemma size_messageOf (r : MemReq) : (messageOf r).size = r.typ.getTLSize := by
  rw [messageOf]
  split <;> rfl

/-- While a request is outstanding, only channel D brings a response. -/
lemma Held.respValid_eq {t : Tile n} {c : Cycle} (hheld : Held inRange t c)
    (hout : t.outstanding.isSome) (hdFire : t.dFire c = false) : t.respValid inRange c = false := by
  rw [respValid]
  cases hrange : inRange c.req.addr with
  | false => simpa using hdFire
  | true =>
    cases hvalid : c.valid with
    | false => rfl
    | true => exact absurd (hheld.noScratch hout hvalid) (by simp [hrange])

/-- **A cycle keeps the invariant.** -/
lemma Inv.step {t : Tile n} {c : Cycle} (hinv : Inv inRange t) (hheld : Held inRange t c) :
    Inv inRange (t.step inRange c) := by
  unfold Inv at hinv
  cases hstate : t.adapter.state with
  | ready =>
    rw [hstate] at hinv
    obtain ⟨hout, hpending⟩ := hinv
    have haFire : t.aFire c = false := by simp [aFire, hstate]
    have hdFire : t.dFire c = false := by simp [dFire, hpending]
    cases hrange : inRange c.req.addr with
    | true =>
      -- a scratchpad request is answered in its cycle
      cases hvalid : c.valid <;>
        simp [Inv, Tile.step, Adapter.step, hstate, haFire, hdFire, hrange, hvalid, hpending,
          respValid, believed, hout]
    | false =>
      cases hvalid : c.valid <;>
        simp [Inv, Tile.step, Adapter.step, hstate, haFire, hdFire, hrange, hvalid, hpending,
          respValid, believed, reqReady, hout]
  | active =>
    rw [hstate] at hinv
    obtain ⟨r, hout, hrange, haddr, hsize, hdata, hpending⟩ := hinv
    have hdFire : t.dFire c = false := by simp [dFire, hpending]
    have hresp : t.respValid inRange c = false := hheld.respValid_eq (by simp [hout]) hdFire
    cases haFire : t.aFire c with
    | false =>
      simp [Inv, Tile.step, Adapter.step, hstate, haFire, hdFire, hresp, believed, hout, hrange,
        haddr, hsize, hdata, hpending]
    | true =>
      have hbits := aBits_eq haddr hsize hdata (hheld.fcnHeld r hout haFire)
      have hoffset := hheld.offsetHeld r hout haFire
      simp only [Inv, Tile.step, Adapter.step, hstate, haFire, hresp, believed, hout, if_true,
        Bool.false_eq_true, if_false, hbits]
      exact ⟨r, rfl, hrange, rfl, hoffset, c.idle, by rw [Device.receive, size_messageOf]⟩
  | inflight =>
    rw [hstate] at hinv
    obtain ⟨r, hout, hrange, hmsg, haddr, idle, hpending⟩ := hinv
    have haFire : t.aFire c = false := by simp [aFire, hstate]
    cases hdFire : t.dFire c with
    | false =>
      have hresp : t.respValid inRange c = false := hheld.respValid_eq (by simp [hout]) hdFire
      simp only [Inv, Tile.step, Adapter.step, hstate, haFire, hdFire, hresp, believed, hout,
        Bool.false_eq_true, if_false]
      exact ⟨r, rfl, hrange, hmsg, haddr, idle, hpending⟩
    | true =>
      -- the answer goes to the core, as the address presented is outside the scratchpad
      have hresp : t.respValid inRange c = true := by
        rw [respValid, hheld.outside hdFire, if_neg (by decide), hdFire]
      simp [Inv, Tile.step, Adapter.step, hstate, haFire, hdFire, hresp]

/-- **A cycle responds right.** -/
lemma Inv.respondsRight (hspec : LoadGenSpec loadGen) {t : Tile n} {c : Cycle}
    (hinv : Inv inRange t) (hheld : Held inRange t c) : RespondsRight inRange loadGen t c := by
  intro hresp
  unfold Inv at hinv
  cases hrange : inRange c.req.addr with
  | true =>
    -- the scratchpad answers the request accepted in this cycle
    have hvalid : c.valid = true := by simpa [respValid, hrange] using hresp
    have hout : t.outstanding = none := by
      cases hout : t.outstanding with
      | none => rfl
      | some r => exact absurd (hheld.noScratch (by simp [hout]) hvalid) (by simp [hrange])
    refine ⟨c.req, by simp [believed, hout, hvalid, reqReady, hrange], by simp, fun hload => ?_⟩
    obtain ⟨haligned, hfits⟩ := hheld.scratchFits hout hvalid hrange hload
    rw [respData, dataOf, if_pos hrange, if_pos hrange]
    exact (Bank.response_eq_iff t.bank haligned).mpr hfits
  | false =>
    have hdFire : t.dFire c = true := by simpa [respValid, hrange] using hresp
    have hsome : t.device.pending.isSome = true := by
      rw [dFire, Bool.and_eq_true] at hdFire
      exact hdFire.1
    cases hstate : t.adapter.state with
    | ready =>
      rw [hstate] at hinv
      simp [hinv.2] at hsome
    | active =>
      rw [hstate] at hinv
      obtain ⟨r, -, -, -, -, -, hpending⟩ := hinv
      simp [hpending] at hsome
    | inflight =>
      rw [hstate] at hinv
      obtain ⟨r, hout, hout', hmsg, haddr, idle, hpending⟩ := hinv
      refine ⟨r, by rw [believed, hout], by simp [hout', hmsg], fun hload => ?_⟩
      have hfits := hheld.extFits r hout hdFire hload
      rw [respData, dataOf, hrange, hout', if_neg (by decide), if_neg (by decide), masterData,
        hpending, messageOf, if_pos hload]
      exact setWidth_loadGen_eq hspec hfits (haddr hload) idle

/-- **Responses match requests.** From a tile with nothing outstanding, in every run in which the
core holds what it has to, every response is that of the outstanding request, with its data. -/
theorem everyCycle_respondsRight (hspec : LoadGenSpec loadGen) {t : Tile n}
    (hready : t.adapter.state = .ready) (hout : t.outstanding = none)
    (hpending : t.device.pending = none) {cs : List Cycle}
    (hrun : Clocked.EveryCycle (Tile.step inRange) (Held inRange) t cs) :
    Clocked.EveryCycle (Tile.step inRange) (RespondsRight inRange loadGen) t cs := by
  refine Clocked.EveryCycle.of_invariant (Inv inRange) (fun _ _ hinv hheld => hinv.step hheld)
    (fun _ _ hinv hheld => hinv.respondsRight hspec hheld) ?_ hrun
  rw [Inv, hready]
  exact ⟨hout, hpending⟩

/-- The addresses of a scratchpad of two megabytes at `0x80000000`. -/
def inScratchpad (a : BitVec 64) : Bool := a >>> 21 == 0x80000000#64 >>> 21

/-- A tile after reset. -/
def idle : Tile 0 :=
  ⟨⟨.ready, 0, false, 0, 0, 0⟩, Bank.cleared 0, ⟨none, .get 0 0, fun _ => 0⟩, none⟩

/-- A cycle in which a word is fetched. -/
def fetch (addr : BitVec 64) (aReady dValid : Bool) : Cycle :=
  ⟨true, ⟨addr, 0, false, .tu⟩, aReady, dValid, fun _ => 0, 0⟩

/-- A fetch from outside that is held until it is answered. -/
theorem everyCycle_respondsRight_fetch :
    Clocked.EveryCycle (Tile.step inScratchpad) (RespondsRight inScratchpad selectLoad) idle
      [fetch 0x10000 false false, fetch 0x10000 true false, fetch 0x10000 false true] := by
  refine everyCycle_respondsRight loadGenSpec_selectLoad rfl rfl rfl ⟨?_, ?_, ?_, trivial⟩
  · exact ⟨fun hout => absurd hout (by decide), fun r hr => (nomatch hr), fun r hr => (nomatch hr),
      fun hd => absurd hd (by decide), fun r hr => (nomatch hr),
      fun _ _ hrange => absurd hrange (by decide)⟩
  · refine ⟨fun _ _ => by decide, fun r hr _ => ?_, fun r hr _ _ => ?_,
      fun hd => absurd hd (by decide), fun r _ hd => absurd hd (by decide),
      fun _ _ hrange => absurd hrange (by decide)⟩
    · obtain rfl := Option.some.inj hr
      rfl
    · obtain rfl := Option.some.inj hr
      rfl
  · refine ⟨fun _ _ => by decide, fun r _ ha => absurd ha (by decide),
      fun r _ ha => absurd ha (by decide), fun _ => by decide, fun r hr _ _ => ?_,
      fun _ _ hrange => absurd hrange (by decide)⟩
    obtain rfl := Option.some.inj hr
    exact ⟨rfl, by decide, fun _ => rfl⟩

/-- **A fetch that is redirected into the scratchpad** while it is outstanding gets the scratchpad's
word as its answer. -/
theorem not_respondsRight_redirected_fetch :
    ¬ ∀ cs : List Cycle, Clocked.EveryCycle (Tile.step inScratchpad)
      (RespondsRight inScratchpad selectLoad) idle cs := by
  intro hall
  have hcycle := (hall [fetch 0x10000 false false, fetch 0x80000000 false false]).2.1
  obtain ⟨r, hbelieved, hanswers, -⟩ := hcycle (by decide)
  obtain rfl : (fetch 0x10000 false false).req = r := Option.some.inj hbelieved
  exact absurd hanswers (by decide)

end Tile

end Wuming

end Dadao
