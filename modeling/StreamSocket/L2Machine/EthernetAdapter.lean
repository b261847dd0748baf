import StreamSocket.L1Encoding.EthernetCodec
import StreamSocket.L1Encoding.Ipv4Codec
import StreamSocket.L1Encoding.Splitting
import StreamSocket.L2Machine.FileDescriptor
import StreamSocket.L2Machine.NetworkInterface
import StreamSocket.L2Machine.TcpOverIp

/-!
# TCP over IPv4 over Ethernet: the adapter, and how it reads a frame

A frame is read with one `readv` into three buffers: the Ethernet header, the
IPv4 header, the rest. The adapter hands it to its `NetworkInterface` and
looks for a TCP segment in the datagram that comes back.

Results:
* `readFrame_buffers`: a frame that was written is read with the same header,
  its payload cut behind the twentieth byte.
* `ARPMessage.parse_cut`, `IPv4Datagram.parse_cut`: that cut does no harm.
-/
namespace StreamSocket.L2

open L1

/-! ## A frame -/

/-- The three buffers, and the frame parsed from them.
mirrors src/util/tuntap_adapter.cc:38-50, src/apps/endtoend.cc:67-81 -/
def readFrame (bytes : Bytes) : Option (Option EthernetFrame) :=
  L1.parse (EthernetFrame.parse {}) (FileDescriptor.cut [14, 20, FileDescriptor.kReadBufferSize]
    bytes)

/-- The sizes that `readFrame` has are those that the code asks for. -/
theorem readFrame_read (ethernet ip last : Bytes) (he : ethernet.length = 14)
    (hi : ip.length = 20) (bytes : Bytes) : readFrame bytes =
      L1.parse (EthernetFrame.parse {}) (FileDescriptor.read [ethernet, ip, last] bytes) := by
  rw [FileDescriptor.read_eq (by simp)]
  unfold readFrame
  simp [he, hi]

theorem EthernetHeader_bytes_length (h : EthernetHeader) : h.bytes.length = 14 := by
  simp [EthernetHeader.bytes, EthernetAddress.bytes]

/-- A frame as it is read: the payload is cut behind its twentieth byte. -/
def asRead (f : EthernetFrame) : EthernetFrame :=
  { header := f.header
    payload :=
      if f.payload.flatten = [] then []
      else TCPOverIPv4Adapter.headerAndRest f.payload.flatten }

/-- A frame that fits the buffers is read back. -/
theorem readFrame_buffers {f : EthernetFrame}
    (h : f.payload.flatten.length ≤ FileDescriptor.kReadBufferSize) :
    readFrame f.buffers.flatten = some (some (asRead f)) := by
  have hcut : FileDescriptor.cut [14, 20, FileDescriptor.kReadBufferSize] f.buffers.flatten =
      (f.header.bytes ++ []) :: TCPOverIPv4Adapter.headerAndRest f.payload.flatten := by
    rw [EthernetFrame.buffers_eq, List.flatten_cons, Serializer.spaced_flatten, List.append_nil]
    simp only [FileDescriptor.cut, TCPOverIPv4Adapter.headerAndRest]
    rw [List.take_left' (EthernetHeader_bytes_length _),
      List.drop_left' (EthernetHeader_bytes_length _), List.take_of_length_le (l := List.drop _ _)]
    rw [List.length_drop]
    omega
  unfold readFrame
  rw [hcut, EthernetFrame.parse_buffers]
  unfold asRead leftOver TCPOverIPv4Adapter.headerAndRest
  simp

end StreamSocket.L2

/-! ## What the cut does to the payload -/

namespace StreamSocket.L1

theorem EthernetAddress.parse_cutFree (a : EthernetAddress) : CutFree a.parse 6 :=
  (CutFree.u8 a.b0).bind fun _ => (CutFree.u8 a.b1).bind fun _ => (CutFree.u8 a.b2).bind fun _ =>
    (CutFree.u8 a.b3).bind fun _ => (CutFree.u8 a.b4).bind fun _ =>
    (CutFree.u8 a.b5).bind fun _ => .pure _

namespace ARPMessage

theorem parseHead_cutFree (m : ARPMessage) : CutFree (parseHead m) 8 :=
  (CutFree.u16 m.hardwareType).bind fun _ => (CutFree.u16 m.protocolType).bind fun _ =>
    (CutFree.u8 m.hardwareAddressSize).bind fun _ =>
    (CutFree.u8 m.protocolAddressSize).bind fun _ =>
    (CutFree.u16 m.opcode).bind fun _ => .pure _

theorem parseAddresses_cutFree (m : ARPMessage) : CutFree (parseAddresses m) 20 :=
  (EthernetAddress.parse_cutFree m.senderEthernetAddress).bind fun _ =>
    (CutFree.u32 m.senderIpAddress).bind fun _ =>
    (EthernetAddress.parse_cutFree m.targetEthernetAddress).bind fun _ =>
    (CutFree.u32 m.targetIpAddress).bind fun _ => .pure _

theorem parse_cutFree (m : ARPMessage) : CutFree (parse m) 28 := by
  refine (parseHead_cutFree m).bind (m := 20) fun m => ?_
  intro bufs c hc
  by_cases hs : m.supported
  · obtain ⟨a, c', h1, h2, e, e'⟩ := parseAddresses_cutFree m bufs c hc
    refine ⟨a, c', h1, h2, ?_, ?_⟩
    · exact (congrFun (if_neg (not_not_intro hs)) _).trans e
    · exact (congrFun (if_neg (not_not_intro hs)) _).trans e'
  · exact ⟨m, { c with error := true }, Nat.le_refl _, Nat.le_add_right _ _,
      congrFun (if_pos hs) _, congrFun (if_pos hs) _⟩

/-- A message is read from several buffers as from one. -/
theorem parse_bufs {m : ARPMessage} (h : m.supported) {bufs : List Bytes}
    (hb : bufs.flatten = m.bytes) (hne : ∀ b ∈ bufs, b ≠ []) :
    L1.parse (parse {}) bufs = some (some m) := by
  have hclear : Clear bufs 0 (min 28 (bufs.flatten.length - 0)) := by
    intro j _ _ he
    obtain ⟨pre, post, rfl, -⟩ := emptyAt_iff.mp he
    exact hne [] (by simp) rfl
  obtain ⟨a, c, -, -, e, e'⟩ := parse_cutFree {} bufs {} hclear
  rw [hb] at e'
  have hone := parse_buffers h
  unfold L1.parse at hone ⊢
  rw [cursor_new, e', Option.map_some, Option.some.injEq] at hone
  rw [cursor_new, e, Option.map_some]
  exact congrArg some hone

theorem parse_cut {m : ARPMessage} (h : m.supported) :
    L1.parse (parse {}) (L2.TCPOverIPv4Adapter.headerAndRest m.bytes) = some (some m) := by
  have hlen := m.bytes_length
  apply parse_bufs h
  · simp [L2.TCPOverIPv4Adapter.headerAndRest]
  · intro b hb h0
    have hl := congrArg List.length h0
    rcases List.mem_cons.mp hb with rfl | hb
    · rw [List.length_take, hlen] at hl
      cases hl
    · rw [List.mem_singleton.mp hb, List.length_drop, hlen] at hl
      cases hl

end ARPMessage

/-- The payload of a datagram without options, as it is read. -/
theorem IPv4Datagram.parse_cut {d : IPv4Datagram} (hc : d.header.Canonical)
    (hl : d.header.hlen = 5) {bufs : List Bytes} (hb : d.buffers = some bufs) :
    L1.parse (parse {}) (L2.TCPOverIPv4Adapter.headerAndRest bufs.flatten) =
      some (some { header := d.header, payload := leftOver [] [d.payload.flatten] }) := by
  rw [buffers_spaced hc.ver, Option.some.injEq] at hb
  rw [← hb, List.flatten_cons, Serializer.spaced_flatten]
  have hsplit := parse_split {} hc.ver hl hc.offset hc.own [] [d.payload.flatten]
  rw [List.append_nil] at hsplit
  unfold L2.TCPOverIPv4Adapter.headerAndRest
  rw [List.take_left' d.header.bytes_length, List.drop_left' d.header.bytes_length]
  exact hsplit

end StreamSocket.L1

namespace StreamSocket.L2

open L1

/-! ## The adapter -/

/-- mirrors src/util/tuntap_adapter.hh:43-52 -/
structure TCPOverIPv4OverEthernetAdapter where
  base : TCPOverIPv4Adapter := {}
  interface : NetworkInterface := {}
  nextHop : Address := { ipv4Numeric := 0 }

namespace TCPOverIPv4OverEthernetAdapter

/-- The loop of `send_pending`, with the bytes that it writes; `none` when `fuel`
runs out.
mirrors src/util/tuntap_adapter.cc:78-83 -/
def sendPending : Nat → NetworkInterface → Option (List Bytes × NetworkInterface)
  | 0, _ => none
  | fuel + 1, interface =>
    match interface.maybeSend with
    | (none, interface) => some ([], interface)
    | (some frame, interface) =>
      (sendPending fuel interface).map fun (written, interface) =>
        (frame.buffers.flatten :: written, interface)

/-- A round sends a frame, or is the last. -/
def sendAll (interface : NetworkInterface) : Option (List Bytes × NetworkInterface) :=
  sendPending (interface.maybeSendQueue.length + 1) interface

/-- mirrors src/util/tuntap_adapter.cc:72-76 -/
def write (a : TCPOverIPv4OverEthernetAdapter) (seg : TCPSegment) :
    Option (List Bytes × TCPOverIPv4OverEthernetAdapter) :=
  (a.base.wrapTcpInIp seg).bind fun (d, _) =>
    (a.interface.sendDatagram d a.nextHop).bind fun interface =>
      (sendAll interface).map fun (written, interface) =>
        (written, { a with interface := interface })

/-- mirrors src/util/tuntap_adapter.cc:36-62 -/
def read (a : TCPOverIPv4OverEthernetAdapter) (bytes : Bytes) :
    Option (Option TCPSegment × List Bytes × TCPOverIPv4OverEthernetAdapter) :=
  (readFrame bytes).bind fun
    | none => some (none, [], a)
    | some frame =>
      (a.interface.recvFrame frame).bind fun (dgram, interface) =>
        (sendAll interface).bind fun (written, interface) =>
          match dgram with
          | none => some (none, written, { a with interface := interface })
          | some d => (a.base.unwrapTcpInIp d).map fun (seg, base) =>
            (seg, written, { a with base := base, interface := interface })

/-- mirrors src/util/tuntap_adapter.cc:65-69 -/
def tick (a : TCPOverIPv4OverEthernetAdapter) (ms : Nat) :
    Option (List Bytes × TCPOverIPv4OverEthernetAdapter) :=
  (sendAll (a.interface.tick ms)).map fun (written, interface) =>
    (written, { a with interface := interface })

theorem sendPending_eq {fuel : Nat} {interface : NetworkInterface}
    (h : interface.maybeSendQueue.length < fuel) : sendPending fuel interface =
      some (interface.maybeSendQueue.map fun frame => frame.buffers.flatten,
        { interface with maybeSendQueue := [] }) := by
  induction fuel generalizing interface with
  | zero => cases h
  | succ fuel ih =>
    unfold sendPending NetworkInterface.maybeSend
    cases hq : interface.maybeSendQueue with
    | nil =>
      simp only [List.map_nil]
      rw [← hq]
    | cons frame frames =>
      rw [hq, List.length_cons] at h
      have hi := @ih { interface with maybeSendQueue := frames } (by
        show frames.length < fuel
        omega)
      simp only [hi, Option.map_some, List.map_cons]

/-- All frames are written, in the order in which they were queued. -/
theorem sendAll_eq (interface : NetworkInterface) : sendAll interface =
    some (interface.maybeSendQueue.map fun frame => frame.buffers.flatten,
      { interface with maybeSendQueue := [] }) :=
  sendPending_eq (Nat.lt_succ_self _)

end TCPOverIPv4OverEthernetAdapter
end StreamSocket.L2
