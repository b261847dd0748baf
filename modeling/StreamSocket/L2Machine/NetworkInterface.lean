import StreamSocket.L1Encoding.Ethernet

/-!
# NetworkInterface: Ethernet frames, ARP cache, pending datagrams

Two maps are keyed by IP address: the cache (`ipAddrToEthernetAddr`) and the
datagrams that wait for an address (`ipAddrToEthernetDatagramQueue`), each
entry with an age in milliseconds, 32 bits wide. A `std::map` is a function
here: no operation depends on the order of the keys.

A `none` is an exception, which nothing catches.

Results:
* `sendDatagram_cases`: the four outcomes of `send_datagram` (`Sends`).
* `recvFrame_cases`: only an ARP message changes the interface (`Learns`).
-/
namespace StreamSocket.L2

open L1

/-- mirrors src/src/network_interface.hh:38-48 -/
structure NetworkInterface where
  ethernetAddress : EthernetAddress := {}
  ipAddress : Address := {}
  maybeSendQueue : List EthernetFrame := []
  ipAddrToEthernetDatagramQueue : UInt32 → Option (List IPv4Datagram × UInt32) := fun _ => none
  ipAddrToEthernetAddr : UInt32 → Option (EthernetAddress × UInt32) := fun _ => none

namespace NetworkInterface

/-- mirrors src/src/network_interface.cc:18-29 -/
def makeFrame (src dst : EthernetAddress) (type : UInt16) (payload : List Bytes) : EthernetFrame :=
  { header := { dst := dst, src := src, type := type }, payload := payload }

/-- mirrors src/src/network_interface.cc:31-44 -/
def makeArp (opcode : UInt16) (senderEthernetAddress : EthernetAddress) (senderIpAddress : UInt32)
    (targetEthernetAddress : EthernetAddress) (targetIpAddress : UInt32) : ARPMessage :=
  { opcode := opcode
    senderEthernetAddress := senderEthernetAddress
    senderIpAddress := senderIpAddress
    targetEthernetAddress := targetEthernetAddress
    targetIpAddress := targetIpAddress }

/-- `maybe_send_queue.push`. -/
def push (n : NetworkInterface) (frames : List EthernetFrame) : NetworkInterface :=
  { n with maybeSendQueue := n.maybeSendQueue ++ frames }

/-- The frame that carries a datagram to `mac`.
mirrors src/src/network_interface.cc:57-58, 130-131 -/
def dgramFrame (n : NetworkInterface) (mac : EthernetAddress) (dgram : IPv4Datagram) :
    Option EthernetFrame :=
  dgram.buffers.map (makeFrame n.ethernetAddress mac EthernetHeader.TYPE_IPv4)

/-- mirrors src/src/network_interface.cc:81-82 -/
def arpRequest (n : NetworkInterface) (nextHopIp : UInt32) : ARPMessage :=
  makeArp ARPMessage.OPCODE_REQUEST n.ethernetAddress n.ipAddress.ipv4Numeric {} nextHopIp

/-- mirrors src/src/network_interface.cc:79-86 -/
def sendRequest (n : NetworkInterface) (nextHopIp : UInt32) : Option NetworkInterface :=
  (n.arpRequest nextHopIp).buffers.map fun payload =>
    n.push [makeFrame n.ethernetAddress ETHERNET_BROADCAST EthernetHeader.TYPE_ARP payload]

/-- mirrors src/src/network_interface.cc:52-88 -/
def sendDatagram (n : NetworkInterface) (dgram : IPv4Datagram) (nextHop : Address) :
    Option NetworkInterface :=
  let nextHopIp := nextHop.ipv4Numeric
  match n.ipAddrToEthernetAddr nextHopIp with
  | some (mac, _) => (n.dgramFrame mac dgram).map fun frame => n.push [frame]
  | none =>
    match n.ipAddrToEthernetDatagramQueue nextHopIp with
    | some (_, age) =>
      -- the datagram is pushed to the copy that the lookup returned, and lost with it
      if age ≥ 5000 then n.sendRequest nextHopIp else some n
    | none =>
      sendRequest { n with
        ipAddrToEthernetDatagramQueue :=
          Function.update n.ipAddrToEthernetDatagramQueue nextHopIp (some ([dgram], 0)) } nextHopIp

/-- The loop that empties the queue of an address.
mirrors src/src/network_interface.cc:127-133 -/
def sendAll (mac : EthernetAddress) : List IPv4Datagram → NetworkInterface → Option NetworkInterface
  | [], n => some n
  | dgram :: dgrams, n =>
    (n.dgramFrame mac dgram).bind fun frame => sendAll mac dgrams (n.push [frame])

/-- The datagrams that wait for an address. -/
def waiting (n : NetworkInterface) (ipAddr : UInt32) : List IPv4Datagram :=
  ((n.ipAddrToEthernetDatagramQueue ipAddr).map Prod.fst).getD []

/-- mirrors src/src/network_interface.cc:111-136 -/
def updateMaps (n : NetworkInterface) (ipAddr : UInt32) (mac : EthernetAddress) :
    Option NetworkInterface :=
  let n := { n with
    ipAddrToEthernetAddr := Function.update n.ipAddrToEthernetAddr ipAddr (some (mac, 0)) }
  (sendAll mac (n.waiting ipAddr) n).map fun n => { n with
    ipAddrToEthernetDatagramQueue :=
      Function.update n.ipAddrToEthernetDatagramQueue ipAddr none }

/-- mirrors src/src/network_interface.cc:159-163 -/
def arpReply (n : NetworkInterface) (recv : ARPMessage) : ARPMessage :=
  makeArp ARPMessage.OPCODE_REPLY n.ethernetAddress n.ipAddress.ipv4Numeric
    recv.senderEthernetAddress recv.senderIpAddress

/-- mirrors src/src/network_interface.cc:155-168 -/
def recvArp (n : NetworkInterface) (recv : ARPMessage) : Option NetworkInterface :=
  (n.updateMaps recv.senderIpAddress recv.senderEthernetAddress).bind fun n =>
    if recv.opcode = ARPMessage.OPCODE_REQUEST ∧
        recv.targetIpAddress = n.ipAddress.ipv4Numeric then
      (n.arpReply recv).buffers.map fun payload =>
        n.push [makeFrame n.ethernetAddress recv.senderEthernetAddress EthernetHeader.TYPE_ARP
          payload]
    else some n

/-- mirrors src/src/network_interface.cc:141 -/
def accepts (n : NetworkInterface) (frame : EthernetFrame) : Bool :=
  frame.header.dst = ETHERNET_BROADCAST ∨ frame.header.dst = n.ethernetAddress

/-- Every type other than IPv4 is read as ARP.
mirrors src/src/network_interface.cc:139-172 -/
def recvFrame (n : NetworkInterface) (frame : EthernetFrame) :
    Option (Option IPv4Datagram × NetworkInterface) :=
  if n.accepts frame then
    if frame.header.type = EthernetHeader.TYPE_IPv4 then
      (L1.parse (IPv4Datagram.parse {}) frame.payload).map fun dgram => (dgram, n)
    else
      (L1.parse (ARPMessage.parse {}) frame.payload).bind fun
        | none => some (none, n)
        | some recv => (n.recvArp recv).map fun n => (none, n)
  else some (none, n)

/-- An entry of the cache grows older, and is erased at 30 seconds.
mirrors src/src/network_interface.cc:179-185, 193-197 -/
def tickAddr (ms : Nat) (e : EthernetAddress × UInt32) : Option (EthernetAddress × UInt32) :=
  let age := e.2 + UInt32.ofNat ms
  if age ≥ 30000 then none else some (e.1, age)

/-- mirrors src/src/network_interface.cc:175-198 -/
def tick (n : NetworkInterface) (msSinceLastTick : Nat) : NetworkInterface :=
  { n with
    ipAddrToEthernetAddr := fun ip => (n.ipAddrToEthernetAddr ip).bind (tickAddr msSinceLastTick)
    ipAddrToEthernetDatagramQueue := fun ip =>
      (n.ipAddrToEthernetDatagramQueue ip).map fun (queue, age) =>
        (queue, age + UInt32.ofNat msSinceLastTick) }

/-- mirrors src/src/network_interface.cc:200-208 -/
def maybeSend (n : NetworkInterface) : Option EthernetFrame × NetworkInterface :=
  match n.maybeSendQueue with
  | [] => (none, n)
  | frame :: frames => (some frame, { n with maybeSendQueue := frames })

/-! ## What one call does -/

theorem maybeSend_snd (n : NetworkInterface) :
    n.maybeSend.2 = { n with maybeSendQueue := n.maybeSendQueue.tail } := by
  unfold maybeSend
  split
  · next h => rw [h, List.tail_nil, ← h]
  · next h => rw [h, List.tail_cons]

theorem push_push (n : NetworkInterface) (xs ys : List EthernetFrame) :
    (n.push xs).push ys = n.push (xs ++ ys) := by
  unfold push
  rw [List.append_assoc]

theorem supported_makeArp {opcode : UInt16} (a : EthernetAddress) (i : UInt32)
    (b : EthernetAddress) (j : UInt32)
    (h : opcode = ARPMessage.OPCODE_REQUEST ∨ opcode = ARPMessage.OPCODE_REPLY) :
    (makeArp opcode a i b j).supported := by
  unfold ARPMessage.supported makeArp
  simp [ARPMessage.TYPE_ETHERNET, h]

/-- The broadcast that asks for an address. -/
def requestFrame (n : NetworkInterface) (ip : UInt32) : EthernetFrame :=
  makeFrame n.ethernetAddress ETHERNET_BROADCAST EthernetHeader.TYPE_ARP [(n.arpRequest ip).bytes]

theorem arpRequest_supported (n : NetworkInterface) (ip : UInt32) : (n.arpRequest ip).supported :=
  supported_makeArp _ _ _ _ (.inl rfl)

theorem arpReply_supported (n : NetworkInterface) (recv : ARPMessage) :
    (n.arpReply recv).supported := supported_makeArp _ _ _ _ (.inr rfl)

theorem sendRequest_eq (n : NetworkInterface) (ip : UInt32) :
    n.sendRequest ip = some (n.push [n.requestFrame ip]) := by
  unfold sendRequest
  rw [ARPMessage.buffers_eq (n.arpRequest_supported ip), Option.map_some]
  rfl

/-- What is left in the state by a call of `send_datagram` that returns. -/
inductive Sends (n : NetworkInterface) (dgram : IPv4Datagram) (ip : UInt32) :
    NetworkInterface → Prop
  /-- The address is known. -/
  | now (mac : EthernetAddress) (age : UInt32) (frame : EthernetFrame) :
      n.ipAddrToEthernetAddr ip = some (mac, age) → n.dgramFrame mac dgram = some frame →
      Sends n dgram ip (n.push [frame])
  /-- A request is less than 5 seconds old. -/
  | wait (queue : List IPv4Datagram) (age : UInt32) :
      n.ipAddrToEthernetAddr ip = none →
      n.ipAddrToEthernetDatagramQueue ip = some (queue, age) → ¬ age ≥ 5000 →
      Sends n dgram ip n
  /-- The first request is 5 seconds old, and another goes out. -/
  | again (queue : List IPv4Datagram) (age : UInt32) :
      n.ipAddrToEthernetAddr ip = none →
      n.ipAddrToEthernetDatagramQueue ip = some (queue, age) → age ≥ 5000 →
      Sends n dgram ip (n.push [n.requestFrame ip])
  /-- The first datagram for the address. -/
  | ask : n.ipAddrToEthernetAddr ip = none → n.ipAddrToEthernetDatagramQueue ip = none →
      Sends n dgram ip ({ n with
        ipAddrToEthernetDatagramQueue :=
          Function.update n.ipAddrToEthernetDatagramQueue ip (some ([dgram], 0)) }.push
        [n.requestFrame ip])

theorem sendDatagram_cases {n n' : NetworkInterface} {dgram : IPv4Datagram} {nextHop : Address}
    (h : n.sendDatagram dgram nextHop = some n') : Sends n dgram nextHop.ipv4Numeric n' := by
  unfold sendDatagram at h
  simp only at h
  split at h
  · next mac age hc =>
    obtain ⟨frame, hf, rfl⟩ := Option.map_eq_some_iff.mp h
    exact .now mac age frame hc hf
  · next hc =>
    split at h
    · next queue age hq =>
      split at h
      · next ha =>
        rw [sendRequest_eq, Option.some.injEq] at h
        rw [← h]
        exact .again queue age hc hq ha
      · next ha =>
        rw [Option.some.injEq] at h
        rw [← h]
        exact .wait queue age hc hq ha
    · next hq =>
      rw [sendRequest_eq, Option.some.injEq] at h
      rw [← h]
      exact .ask hc hq

/-- A datagram that can be written is taken in any state. -/
theorem sendDatagram_isSome (n : NetworkInterface) {dgram : IPv4Datagram} (nextHop : Address)
    (hv : dgram.header.ver = 4) : ∃ n', n.sendDatagram dgram nextHop = some n' := by
  obtain ⟨bs, hb, -⟩ := IPv4Datagram.buffers_eq hv
  unfold sendDatagram
  simp only [sendRequest_eq, dgramFrame, hb, Option.map_some]
  split
  · exact ⟨_, rfl⟩
  · split
    · split <;> exact ⟨_, rfl⟩
    · exact ⟨_, rfl⟩

/-- Neither map has a part in the frames. -/
theorem sendAll_eq {mac : EthernetAddress} {dgrams : List IPv4Datagram} {n n' : NetworkInterface}
    (h : sendAll mac dgrams n = some n') :
    ∃ frames, dgrams.mapM (n.dgramFrame mac) = some frames ∧ n' = n.push frames := by
  induction dgrams generalizing n with
  | nil =>
    rw [sendAll, Option.some.injEq] at h
    exact ⟨[], rfl, by rw [← h]; unfold push; rw [List.append_nil]⟩
  | cons d ds ih =>
    rw [sendAll, Option.bind_eq_some_iff] at h
    obtain ⟨frame, hf, h⟩ := h
    obtain ⟨frames, hfs, rfl⟩ := ih h
    refine ⟨frame :: frames, ?_, ?_⟩
    · rw [List.mapM_cons, hf]
      show (ds.mapM (n.dgramFrame mac)).bind _ = _
      rw [show ds.mapM (n.dgramFrame mac) = some frames from hfs]
      rfl
    · rw [push_push]; rfl

/-- Datagrams that can be written go out. -/
theorem sendAll_isSome {mac : EthernetAddress} {dgrams : List IPv4Datagram}
    (hv : ∀ d ∈ dgrams, d.header.ver = 4) (n : NetworkInterface) :
    ∃ n', sendAll mac dgrams n = some n' := by
  induction dgrams generalizing n with
  | nil => exact ⟨n, rfl⟩
  | cons d ds ih =>
    obtain ⟨bs, hb, -⟩ := IPv4Datagram.buffers_eq (hv d List.mem_cons_self)
    rw [sendAll, dgramFrame, hb, Option.map_some, Option.bind_some]
    exact ih (fun x hx => hv x (List.mem_cons_of_mem _ hx)) _

/-- Nothing throws if what waits for the sender can be written. -/
theorem recvArp_isSome {n : NetworkInterface} {recv : ARPMessage}
    (hv : ∀ d ∈ n.waiting recv.senderIpAddress, d.header.ver = 4) :
    ∃ n', n.recvArp recv = some n' := by
  obtain ⟨n₁, h₁⟩ := sendAll_isSome hv { n with
    ipAddrToEthernetAddr := Function.update n.ipAddrToEthernetAddr recv.senderIpAddress
      (some (recv.senderEthernetAddress, 0)) }
  have hmaps : n.updateMaps recv.senderIpAddress recv.senderEthernetAddress = some _ :=
    Option.map_eq_some_iff.mpr ⟨n₁, h₁, rfl⟩
  unfold recvArp
  rw [hmaps, Option.bind_some]
  split
  · rw [ARPMessage.buffers_eq (arpReply_supported _ _), Option.map_some]
    exact ⟨_, rfl⟩
  · exact ⟨_, rfl⟩

/-- The ARP message that `recv_frame` processes, if the frame holds one. -/
def processed (n : NetworkInterface) (frame : EthernetFrame) : Option ARPMessage :=
  if n.accepts frame ∧ frame.header.type ≠ EthernetHeader.TYPE_IPv4 then
    (L1.parse (ARPMessage.parse {}) frame.payload).join
  else none

/-- What an ARP message leaves: the mapping, nothing that waits for it, the
frames that did, and a reply if it was a request for this interface. -/
structure Learns (n : NetworkInterface) (recv : ARPMessage) (n' : NetworkInterface)
    (frames reply : List EthernetFrame) : Prop where
  addr : n'.ipAddrToEthernetAddr = Function.update n.ipAddrToEthernetAddr recv.senderIpAddress
    (some (recv.senderEthernetAddress, 0))
  pending : n'.ipAddrToEthernetDatagramQueue =
    Function.update n.ipAddrToEthernetDatagramQueue recv.senderIpAddress none
  sent : (n.waiting recv.senderIpAddress).mapM (n.dgramFrame recv.senderEthernetAddress) =
    some frames
  queue : n'.maybeSendQueue = n.maybeSendQueue ++ frames ++ reply
  reply : ∀ frame ∈ reply, frame.header.type = EthernetHeader.TYPE_ARP

theorem updateMaps_eq {n n' : NetworkInterface} {ip : UInt32} {mac : EthernetAddress}
    (h : n.updateMaps ip mac = some n') :
    ∃ frames, (n.waiting ip).mapM (n.dgramFrame mac) = some frames ∧
      n' = { n with
        ipAddrToEthernetAddr := Function.update n.ipAddrToEthernetAddr ip (some (mac, 0))
        ipAddrToEthernetDatagramQueue :=
          Function.update n.ipAddrToEthernetDatagramQueue ip none
        maybeSendQueue := n.maybeSendQueue ++ frames } := by
  obtain ⟨n₁, h₁, rfl⟩ := Option.map_eq_some_iff.mp h
  obtain ⟨frames, hf, rfl⟩ := sendAll_eq h₁
  exact ⟨frames, hf, rfl⟩

theorem recvArp_learns {n n' : NetworkInterface} {recv : ARPMessage}
    (h : n.recvArp recv = some n') : ∃ frames reply, n.Learns recv n' frames reply := by
  obtain ⟨n₁, h₁, h⟩ := Option.bind_eq_some_iff.mp h
  obtain ⟨frames, hf, rfl⟩ := updateMaps_eq h₁
  split at h
  · obtain ⟨payload, -, rfl⟩ := Option.map_eq_some_iff.mp h
    refine ⟨frames, _, rfl, rfl, hf, rfl, ?_⟩
    intro frame hm
    rw [List.mem_singleton.mp hm]
    rfl
  · rw [Option.some.injEq] at h
    subst h
    exact ⟨frames, [], rfl, rfl, hf, (List.append_nil _).symm, by simp⟩

/-- Only an ARP message changes the interface. -/
theorem recvFrame_cases {n n' : NetworkInterface} {frame : EthernetFrame}
    {dgram : Option IPv4Datagram} (h : n.recvFrame frame = some (dgram, n')) :
    (n.processed frame = none ∧ n' = n) ∨
      ∃ recv frames reply, n.processed frame = some recv ∧ n.Learns recv n' frames reply := by
  unfold recvFrame at h
  unfold processed
  split at h
  · next ha =>
    split at h
    · next ht =>
      obtain ⟨_, _, hp⟩ := Option.map_eq_some_iff.mp h
      exact .inl ⟨by rw [if_neg fun h0 => h0.2 ht], (Prod.mk.inj hp).2.symm⟩
    · next ht =>
      obtain ⟨m, hm, h⟩ := Option.bind_eq_some_iff.mp h
      rw [if_pos ⟨ha, ht⟩, hm]
      cases m with
      | none =>
        exact .inl ⟨rfl, (Prod.mk.inj (Option.some.inj h)).2.symm⟩
      | some recv =>
        obtain ⟨n₁, h₁, hp⟩ := Option.map_eq_some_iff.mp h
        obtain ⟨frames, reply, hl⟩ := recvArp_learns h₁
        rw [← (Prod.mk.inj hp).2]
        exact .inr ⟨recv, frames, reply, rfl, hl⟩
  · next ha =>
    exact .inl ⟨by rw [if_neg fun h0 => ha h0.1], (Prod.mk.inj (Option.some.inj h)).2.symm⟩

end NetworkInterface
end StreamSocket.L2
