import StreamSocket.L2Machine.NetworkInterface

/-!
# Router: the route table and the forwarding loops

`route` empties the received datagrams of each interface in turn and hands
them to the interface of the longest match. The calls of `send_datagram` are
listed beside the state, in the order in which they are made.

Results:
* `RouteRecord.applies_iff`: the comparison under the mask asks for equal
  leading bits, and for a prefix without bits behind them.
-/
namespace StreamSocket.L2

open L1

/-- mirrors src/src/router.hh:13-15 -/
structure AsyncNetworkInterface where
  base : NetworkInterface := {}
  datagramsIn : List IPv4Datagram := []

namespace AsyncNetworkInterface

/-- mirrors src/src/router.hh:30-36 -/
def recvFrame (i : AsyncNetworkInterface) (frame : EthernetFrame) :
    Option AsyncNetworkInterface :=
  (i.base.recvFrame frame).map fun (dgram, base) =>
    { base := base, datagramsIn := i.datagramsIn ++ dgram.toList }

/-- mirrors src/src/router.hh:39-48 -/
def maybeReceive (i : AsyncNetworkInterface) : Option IPv4Datagram × AsyncNetworkInterface :=
  match i.datagramsIn with
  | [] => (none, i)
  | dgram :: dgrams => (some dgram, { i with datagramsIn := dgrams })

end AsyncNetworkInterface

/-- The mask is a function of the length here: nothing but the constructor
writes it. mirrors src/src/router.hh:51-58 -/
structure RouteRecord where
  routePrefix : UInt32
  prefixLength : UInt8
  nextHop : Option Address
  interfaceNum : Nat
  deriving DecidableEq, Repr

namespace RouteRecord

/-- A length above 32 is undefined behaviour.
mirrors src/src/router.hh:65-67 -/
def mask (r : RouteRecord) : UInt32 :=
  if r.prefixLength ≠ 0 then 0xffffffff <<< (32 - r.prefixLength.toUInt32) else 0

/-- mirrors src/src/router.cc:43 -/
def applies (r : RouteRecord) (destination : UInt32) : Bool :=
  destination &&& r.mask = r.routePrefix

end RouteRecord

/-- mirrors src/src/router.hh:73-78 -/
structure Router where
  interfaces : List AsyncNetworkInterface := []
  routeTable : List RouteRecord := []

/-- A call of `send_datagram` on one of the interfaces. -/
structure SendCall where
  interfaceNum : Nat
  dgram : IPv4Datagram
  nextHop : Address
  deriving DecidableEq, Repr

namespace Router

/-- mirrors src/src/router.hh:84-88 -/
def addInterface (r : Router) (interface : AsyncNetworkInterface) : Router :=
  { r with interfaces := r.interfaces ++ [interface] }

/-- mirrors src/src/router.cc:14-24 -/
def addRoute (r : Router) (routePrefix : UInt32) (prefixLength : UInt8) (nextHop : Option Address)
    (interfaceNum : Nat) : Router :=
  { r with routeTable := r.routeTable ++
      [{ routePrefix := routePrefix, prefixLength := prefixLength, nextHop := nextHop,
         interfaceNum := interfaceNum }] }

/-- The three variables of the search, -1 for nothing found.
mirrors src/src/router.cc:38-40 -/
structure Search where
  nextHop : Option Address := none
  interfaceNum : Int := -1
  maxMatchLen : Int := -1
  deriving DecidableEq, Repr

/-- An index is converted to `int`, which is 32 bits wide.
mirrors src/src/router.cc:43-49 -/
def visit (destination : UInt32) (best : Search) (r : RouteRecord) : Search :=
  if r.applies destination then
    if best.maxMatchLen < r.prefixLength.toNat then
      { nextHop := r.nextHop
        interfaceNum := Int.bmod r.interfaceNum (2 ^ 32)
        maxMatchLen := r.prefixLength.toNat }
    else best
  else best

/-- mirrors src/src/router.cc:37-50 -/
def search (table : List RouteRecord) (destination : UInt32) : Search :=
  table.foldl (visit destination) {}

/-- `interfaces_[interface_num].send_datagram`; `none`: the index is out of
bounds, or an exception.
mirrors src/src/router.cc:59, 62 -/
def send (r : Router) (call : SendCall) : Option Router :=
  (r.interfaces[call.interfaceNum]?).bind fun interface =>
    (interface.base.sendDatagram call.dgram call.nextHop).map fun base =>
      { r with interfaces := r.interfaces.set call.interfaceNum { interface with base := base } }

/-- The call for a datagram that is forwarded; its header comes first.
mirrors src/src/router.cc:55-63 -/
def callOf (best : Search) (d : IPv4Datagram) (header : IPv4Header) : SendCall :=
  { interfaceNum := best.interfaceNum.toNat
    dgram := { d with header := header }
    nextHop := best.nextHop.getD (Address.fromIpv4Numeric d.header.dst) }

/-- One datagram.
mirrors src/src/router.cc:32-63 -/
def forward (r : Router) (d : IPv4Datagram) : Option (Router × List SendCall) :=
  if d.header.ttl ≤ 1 then some (r, [])
  else
    let best := search r.routeTable d.header.dst
    if best.interfaceNum = -1 then some (r, [])
    else if best.interfaceNum < 0 then none -- far out of bounds as a `size_t`
    else
      (IPv4Header.computeChecksum { d.header with ttl := d.header.ttl - 1 }).bind fun header =>
        (r.send (callOf best d header)).map fun r => (r, [callOf best d header])

/-- The loop over what one interface has received; `none` when `fuel` runs out.
mirrors src/src/router.cc:29-68 -/
def drain (i : Nat) : Nat → Router → Option (Router × List SendCall)
  | 0, _ => none
  | fuel + 1, r =>
    (r.interfaces[i]?).bind fun interface =>
      match interface.maybeReceive with
      | (none, _) => some (r, [])
      | (some d, interface) =>
        (forward { r with interfaces := r.interfaces.set i interface } d).bind fun (r, calls) =>
          (drain i fuel r).map fun (r, calls') => (r, calls ++ calls')

/-- The loop over the interfaces.
mirrors src/src/router.cc:28 -/
def routeAll (fuel : Nat) : List Nat → Router → Option (Router × List SendCall)
  | [], r => some (r, [])
  | i :: is, r =>
    (drain i fuel r).bind fun (r, calls) =>
      (routeAll fuel is r).map fun (r, calls') => (r, calls ++ calls')

/-- mirrors src/src/router.cc:26-70 -/
def route (fuel : Nat) (r : Router) : Option (Router × List SendCall) :=
  routeAll fuel (List.range r.interfaces.length) r

end Router

/-! ## The mask -/

namespace RouteRecord

/-- How many bits are behind the prefix. -/
def tail (r : RouteRecord) : Nat := 32 - r.prefixLength.toNat

/-- Shifting all ones left by `K` in a word of size `L * K`. -/
theorem sub_one_mul_mod {L K : Nat} (hL : 0 < L) (hK : 0 < K) :
    (L * K - 1) * K % (L * K) = (L - 1) * K := by
  have h1 : (L * K - 1) * K = L * K * K - K := Nat.sub_one_mul ..
  have h2 : L * K * (K - 1) = L * K * K - L * K := Nat.mul_sub_one ..
  have h3 : (L - 1) * K = L * K - K := Nat.sub_one_mul ..
  have h4 : K ≤ L * K := Nat.le_mul_of_pos_left K hL
  have h5 : L * K ≤ L * K * K := Nat.le_mul_of_pos_right (L * K) hK
  rw [show (L * K - 1) * K = (L - 1) * K + L * K * (K - 1) by omega, Nat.add_mul_mod_self_left,
    Nat.mod_eq_of_lt (by omega)]

theorem mask_toNat {r : RouteRecord} (h : r.prefixLength.toNat ≤ 32) :
    r.mask.toNat = (2 ^ r.prefixLength.toNat - 1) * 2 ^ r.tail := by
  unfold mask tail
  by_cases h0 : r.prefixLength = 0
  · rw [if_neg (not_not_intro h0), h0]
    rfl
  · have hpos : 0 < r.prefixLength.toNat := Nat.pos_of_ne_zero fun hz =>
      h0 (UInt8.toNat_inj.mp hz)
    have hsub : ((32 : UInt32) - r.prefixLength.toUInt32).toNat = 32 - r.prefixLength.toNat := by
      rw [UInt32.toNat_sub_of_le _ _ (by
        rw [UInt32.le_iff_toNat_le, UInt8.toNat_toUInt32]; exact h), UInt8.toNat_toUInt32,
        show (32 : UInt32).toNat = 32 from rfl]
    have hmod : (32 - r.prefixLength.toNat) % 32 = 32 - r.prefixLength.toNat :=
      Nat.mod_eq_of_lt (by omega)
    have hpow : 2 ^ 32 = 2 ^ r.prefixLength.toNat * 2 ^ (32 - r.prefixLength.toNat) := by
      rw [← Nat.pow_add, Nat.add_sub_cancel' h]
    rw [if_pos h0, UInt32.toNat_shiftLeft, hsub, hmod, Nat.shiftLeft_eq,
      show (0xffffffff : UInt32).toNat = 2 ^ 32 - 1 from rfl, hpow]
    have hK := Nat.two_pow_pos (32 - r.prefixLength.toNat)
    have hL := Nat.two_pow_pos r.prefixLength.toNat
    generalize 2 ^ (32 - r.prefixLength.toNat) = K at *
    generalize 2 ^ r.prefixLength.toNat = L at *
    exact sub_one_mul_mod hL hK

/-- The mask clears the bits behind the prefix. -/
theorem and_mask {r : RouteRecord} (h : r.prefixLength.toNat ≤ 32) (dst : UInt32) :
    (dst &&& r.mask).toNat = dst.toNat / 2 ^ r.tail * 2 ^ r.tail := by
  have hlt : dst.toNat / 2 ^ r.tail < 2 ^ r.prefixLength.toNat := by
    rw [Nat.div_lt_iff_lt_mul (Nat.two_pow_pos _), ← Nat.pow_add, tail, Nat.add_sub_cancel' h]
    exact dst.toNat_lt
  have hdiv : (dst.toNat &&& r.mask.toNat) / 2 ^ r.tail = dst.toNat / 2 ^ r.tail := by
    rw [Nat.and_div_two_pow, mask_toNat h, Nat.mul_div_cancel _ (Nat.two_pow_pos _),
      Nat.and_two_pow_sub_one_eq_mod, Nat.mod_eq_of_lt hlt]
  have hmod : (dst.toNat &&& r.mask.toNat) % 2 ^ r.tail = 0 := by
    rw [Nat.and_mod_two_pow, mask_toNat h, Nat.mul_mod_left, Nat.and_zero]
  rw [UInt32.toNat_and, ← hdiv]
  exact (Nat.div_mul_cancel (Nat.dvd_of_mod_eq_zero hmod)).symm

/-- Equal leading bits, and nothing behind them in the prefix. -/
theorem applies_iff {r : RouteRecord} (h : r.prefixLength.toNat ≤ 32) (dst : UInt32) :
    r.applies dst ↔ dst.toNat / 2 ^ r.tail = r.routePrefix.toNat / 2 ^ r.tail ∧
      r.routePrefix.toNat % 2 ^ r.tail = 0 := by
  unfold applies
  rw [decide_eq_true_iff, ← UInt32.toNat_inj, and_mask h]
  have hpos := Nat.two_pow_pos r.tail
  have hdiv := Nat.div_add_mod r.routePrefix.toNat (2 ^ r.tail)
  generalize 2 ^ r.tail = K at *
  constructor
  · intro he
    rw [← he]
    exact ⟨(Nat.mul_div_cancel _ hpos).symm, Nat.mul_mod_left ..⟩
  · rintro ⟨he, hz⟩
    rw [he, Nat.mul_comm]
    omega

end RouteRecord
end StreamSocket.L2
