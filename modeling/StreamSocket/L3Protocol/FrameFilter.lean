import StreamSocket.L1Encoding.EthernetCodec
import StreamSocket.L2Machine.NetworkInterface

/-!
# Which frames affect an interface

`recv_frame` filters by destination, then by type: IPv4, or else. The other
branch reads an ARP message whatever the type is, so that a frame of any of
the other types that happens to hold one is learned from, and answered.

Results:
* `returns_iff`: a datagram is returned for an IPv4 frame that holds one.
* `recvArp_same_iff`: when an ARP message changes nothing.
* `only_arp_affects_iff`: when only ARP frames affect the interface.
-/
namespace StreamSocket.L3.FrameFilter

open L1 L2

/-- Reading the payload is undefined, as an empty buffer lies inside a header; a
frame read from a device has one buffer. -/
def Undefined (frame : EthernetFrame) : Prop :=
  if frame.header.type = EthernetHeader.TYPE_IPv4 then
    L1.parse (IPv4Datagram.parse {}) frame.payload = none
  else L1.parse (ARPMessage.parse {}) frame.payload = none

/-- Only a frame for the interface, of type ARP and with a message that is
supported, does anything to it: after any other frame the state is the same.
A datagram is returned exactly if the frame is for the interface, of type IPv4
and holds one. -/
def OnlyArpAffects (n : NetworkInterface) (frame : EthernetFrame) : Prop :=
  (((frame.header.dst = ETHERNET_BROADCAST ∨ frame.header.dst = n.ethernetAddress) ∧
      frame.header.type = EthernetHeader.TYPE_ARP ∧
      ∃ m, L1.parse (ARPMessage.parse {}) frame.payload = some (some m) ∧ m.supported) ∨
    Undefined frame ∨ ∃ dgram, n.recvFrame frame = some (dgram, n)) ∧
  ((∃ d n', n.recvFrame frame = some (some d, n')) ↔
    (frame.header.dst = ETHERNET_BROADCAST ∨ frame.header.dst = n.ethernetAddress) ∧
      frame.header.type = EthernetHeader.TYPE_IPv4 ∧
      ∃ d, L1.parse (IPv4Datagram.parse {}) frame.payload = some (some d))

/-- A frame for the interface of another type, which holds an ARP message. -/
structure Misread (n : NetworkInterface) (frame : EthernetFrame) (m : ARPMessage) : Prop where
  accepted : frame.header.dst = ETHERNET_BROADCAST ∨ frame.header.dst = n.ethernetAddress
  notIp : frame.header.type ≠ EthernetHeader.TYPE_IPv4
  notArp : frame.header.type ≠ EthernetHeader.TYPE_ARP
  parsed : L1.parse (ARPMessage.parse {}) frame.payload = some (some m)

/-- There is nothing to learn from the message, nothing to send, and no reply to
give. -/
structure Known (n : NetworkInterface) (m : ARPMessage) : Prop where
  addr : n.ipAddrToEthernetAddr m.senderIpAddress = some (m.senderEthernetAddress, 0)
  pending : n.ipAddrToEthernetDatagramQueue m.senderIpAddress = none
  noReply : ¬ (m.opcode = ARPMessage.OPCODE_REQUEST ∧
    m.targetIpAddress = n.ipAddress.ipv4Numeric)

/-! ## One ARP message -/

/-- The frame that answers a request. -/
def replyFrame (n : NetworkInterface) (m : ARPMessage) : EthernetFrame :=
  NetworkInterface.makeFrame n.ethernetAddress m.senderEthernetAddress EthernetHeader.TYPE_ARP
    [(n.arpReply m).bytes]

/-- What a message leaves, unless a datagram that waits cannot be written. -/
theorem recvArp_eq {n n₁ : NetworkInterface} {m : ARPMessage}
    (hu : n.updateMaps m.senderIpAddress m.senderEthernetAddress = some n₁) :
    n.recvArp m = some (n₁.push (if m.opcode = ARPMessage.OPCODE_REQUEST ∧
      m.targetIpAddress = n.ipAddress.ipv4Numeric then [replyFrame n m] else [])) := by
  obtain ⟨frames, -, rfl⟩ := NetworkInterface.updateMaps_eq hu
  unfold NetworkInterface.recvArp NetworkInterface.push
  rw [hu, Option.bind_some]
  by_cases hr : m.opcode = ARPMessage.OPCODE_REQUEST ∧
      m.targetIpAddress = n.ipAddress.ipv4Numeric
  · have hs : (n.arpReply m).supported := n.arpReply_supported m
    rw [if_pos hr, if_pos hr]
    show (n.arpReply m).buffers.map _ = _
    rw [ARPMessage.buffers_eq hs]
    rfl
  · rw [if_neg hr, if_neg hr, List.append_nil]

theorem updateMaps_known {n : NetworkInterface} {m : ARPMessage} (hk : Known n m) :
    n.updateMaps m.senderIpAddress m.senderEthernetAddress = some n := by
  have hw : n.waiting m.senderIpAddress = [] := by
    unfold NetworkInterface.waiting
    rw [hk.pending]
    rfl
  have haddr := Function.update_eq_self m.senderIpAddress n.ipAddrToEthernetAddr
  have hpend := Function.update_eq_self m.senderIpAddress n.ipAddrToEthernetDatagramQueue
  rw [hk.addr] at haddr
  rw [hk.pending] at hpend
  unfold NetworkInterface.updateMaps
  simp only [haddr, hw, NetworkInterface.sendAll, Option.map_some, hpend]

/-- A message changes nothing if all it says is known, and only then. -/
theorem recvArp_same_iff {n : NetworkInterface} {m : ARPMessage} :
    n.recvArp m = some n ↔ Known n m := by
  constructor
  · intro h
    obtain ⟨n₁, hu, -⟩ := Option.bind_eq_some_iff.mp h
    rw [recvArp_eq hu, Option.some.injEq] at h
    obtain ⟨frames, -, rfl⟩ := NetworkInterface.updateMaps_eq hu
    have haddr := congrFun (congrArg NetworkInterface.ipAddrToEthernetAddr h)
      m.senderIpAddress
    have hpend := congrFun (congrArg NetworkInterface.ipAddrToEthernetDatagramQueue h)
      m.senderIpAddress
    have hqueue := congrArg (List.length ∘ NetworkInterface.maybeSendQueue) h
    simp only [NetworkInterface.push, Function.update_self] at haddr hpend
    simp only [NetworkInterface.push, Function.comp_apply, List.length_append] at hqueue
    refine ⟨haddr.symm, hpend.symm, fun hr => ?_⟩
    rw [if_pos hr, List.length_singleton] at hqueue
    omega
  · intro hk
    rw [recvArp_eq (updateMaps_known hk), if_neg hk.noReply]
    unfold NetworkInterface.push
    rw [List.append_nil]

/-! ## One frame -/

theorem accepts_iff {n : NetworkInterface} {frame : EthernetFrame} : n.accepts frame = true ↔
    frame.header.dst = ETHERNET_BROADCAST ∨ frame.header.dst = n.ethernetAddress :=
  decide_eq_true_iff

theorem returns_iff (n : NetworkInterface) (frame : EthernetFrame) :
    (∃ d n', n.recvFrame frame = some (some d, n')) ↔
      (frame.header.dst = ETHERNET_BROADCAST ∨ frame.header.dst = n.ethernetAddress) ∧
        frame.header.type = EthernetHeader.TYPE_IPv4 ∧
        ∃ d, L1.parse (IPv4Datagram.parse {}) frame.payload = some (some d) := by
  rw [← accepts_iff]
  constructor
  · rintro ⟨d, n', h⟩
    unfold NetworkInterface.recvFrame at h
    split_ifs at h with ha ht
    · obtain ⟨dgram, hd, h⟩ := Option.map_eq_some_iff.mp h
      cases h
      exact ⟨ha, ht, d, hd⟩
    · obtain ⟨r, -, h⟩ := Option.bind_eq_some_iff.mp h
      cases r with
      | none => cases h
      | some m =>
        obtain ⟨n₁, -, h⟩ := Option.map_eq_some_iff.mp h
        cases h
    · cases h
  · rintro ⟨ha, ht, d, hd⟩
    refine ⟨d, n, ?_⟩
    unfold NetworkInterface.recvFrame
    rw [if_pos ha, if_pos ht, hd]
    rfl

theorem recvFrame_misread {n : NetworkInterface} {frame : EthernetFrame} {m : ARPMessage}
    (hm : Misread n frame m) : n.recvFrame frame = (n.recvArp m).map fun n => (none, n) := by
  unfold NetworkInterface.recvFrame
  rw [if_pos (accepts_iff.mpr hm.accepted), if_neg hm.notIp, hm.parsed]
  rfl

/-- A frame that is not misread leaves the state as it was, or may change it. -/
theorem same_of_not_misread (n : NetworkInterface) (frame : EthernetFrame) :
    (∃ m, Misread n frame m) ∨
      ((frame.header.dst = ETHERNET_BROADCAST ∨ frame.header.dst = n.ethernetAddress) ∧
        frame.header.type = EthernetHeader.TYPE_ARP ∧
        ∃ m, L1.parse (ARPMessage.parse {}) frame.payload = some (some m) ∧ m.supported) ∨
      Undefined frame ∨ ∃ dgram, n.recvFrame frame = some (dgram, n) := by
  unfold NetworkInterface.recvFrame Undefined
  by_cases ha : n.accepts frame = true
  · have hdst := accepts_iff.mp ha
    rw [if_pos ha]
    by_cases ht : frame.header.type = EthernetHeader.TYPE_IPv4
    · rw [if_pos ht, if_pos ht]
      cases hd : L1.parse (IPv4Datagram.parse {}) frame.payload with
      | none => exact .inr (.inr (.inl rfl))
      | some d => exact .inr (.inr (.inr ⟨d, rfl⟩))
    · rw [if_neg ht, if_neg ht]
      cases hm : L1.parse (ARPMessage.parse {}) frame.payload with
      | none => exact .inr (.inr (.inl rfl))
      | some r =>
        cases r with
        | none => exact .inr (.inr (.inr ⟨none, rfl⟩))
        | some m =>
          by_cases harp : frame.header.type = EthernetHeader.TYPE_ARP
          · exact .inr (.inl ⟨hdst, harp, m, rfl, (ARPMessage.bytes_of_parse hm).1⟩)
          · exact .inl ⟨m, hdst, ht, harp, hm⟩
  · rw [if_neg ha]
    exact .inr (.inr (.inr ⟨none, rfl⟩))

/-- Misread, a message must be one of which all is known. -/
theorem known_of_only_arp_affects {n : NetworkInterface} {frame : EthernetFrame}
    {m : ARPMessage} (h : OnlyArpAffects n frame) (hm : Misread n frame m) : Known n m := by
  rcases h.1 with ⟨-, harp, -⟩ | hu | ⟨dgram, hrecv⟩
  · exact absurd harp hm.notArp
  · unfold Undefined at hu
    rw [if_neg hm.notIp, hm.parsed] at hu
    cases hu
  · rw [recvFrame_misread hm] at hrecv
    obtain ⟨n', hsome, he⟩ := Option.map_eq_some_iff.mp hrecv
    cases he
    exact recvArp_same_iff.mp hsome

theorem only_arp_affects_iff (n : NetworkInterface) (frame : EthernetFrame) :
    OnlyArpAffects n frame ↔ ∀ m, Misread n frame m → Known n m := by
  refine ⟨fun h m hm => known_of_only_arp_affects h hm, fun hcond => ?_⟩
  refine ⟨?_, returns_iff n frame⟩
  rcases same_of_not_misread n frame with ⟨m, hm⟩ | h
  · refine .inr (.inr ⟨none, ?_⟩)
    rw [recvFrame_misread hm, recvArp_same_iff.mpr (hcond m hm)]
    rfl
  · exact h

/-- A reply from 10.0.0.1. -/
def reply : ARPMessage := { opcode := ARPMessage.OPCODE_REPLY, senderIpAddress := 0x0a000001 }

theorem reply_parsed : L1.parse (ARPMessage.parse {}) [reply.bytes] = some (some reply) :=
  ARPMessage.parse_buffers (by decide)

/-- In a frame of type ARP nothing can be misread. -/
theorem only_arp_affects_reply : OnlyArpAffects {}
    { header := { dst := ETHERNET_BROADCAST, type := EthernetHeader.TYPE_ARP }
      payload := [reply.bytes] } :=
  (only_arp_affects_iff {} _).mpr fun _ hm => absurd rfl hm.notArp

/-- In a frame of type IPv6 the new interface learns from it. -/
theorem other_type_affects : ¬ OnlyArpAffects {}
    { header := { dst := ETHERNET_BROADCAST, type := 0x86dd }, payload := [reply.bytes] } := by
  intro h
  have hm : Misread {} { header := { dst := ETHERNET_BROADCAST, type := 0x86dd }
                         payload := [reply.bytes] } reply :=
    ⟨.inl rfl, by decide, by decide, reply_parsed⟩
  cases (known_of_only_arp_affects h hm).addr

end StreamSocket.L3.FrameFilter
