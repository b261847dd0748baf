import StreamSocket.L1Encoding.Ipv4
import StreamSocket.L2Machine.FileDescriptor
import StreamSocket.L2Machine.TcpSegment

/-!
# TCP segments over IPv4

The adapter fills in ports and addresses, computes both checksums and wraps a
segment in a datagram; on the way back it filters by address, protocol and
port. An adapter that listens takes its peer from the first SYN.

Results:
* `payload_fits`: neither the length field nor a 32-bit sum overflows as long
  as the payload has at most 65495 bytes.
* `unwrap_of_wrap`: the peer's adapter accepts the segment that was wrapped.
* `wire_round_trip`: so it does with the bytes of the datagram, cut behind the
  header; a read of the device cuts them so as long as it takes them all.
-/
namespace StreamSocket.L2

open L1

/-- mirrors src/util/tcp_config.hh:28-35, src/util/fd_adapter.hh:15-17 -/
structure TCPOverIPv4Adapter where
  source : Address := {}
  destination : Address := {}
  listening : Bool := false
  deriving DecidableEq, Repr

namespace TCPOverIPv4Adapter

/-- mirrors src/util/ipv4_header.hh:15 -/
def PROTO_TCP : UInt8 := 6

/-- The datagram's header, before its checksum is computed.
mirrors src/util/tcp_over_ip.cc:84-87 -/
def wrapHeader (a : TCPOverIPv4Adapter) (seg : TCPSegment) : IPv4Header :=
  { src := a.source.ipv4Numeric
    dst := a.destination.ipv4Numeric
    len := UInt16.ofNat (({} : IPv4Header).hlen.toNat * 4 + 20 + seg.senderMessage.payload.length) }

/-- mirrors src/util/tcp_over_ip.cc:79-80 -/
def setPorts (a : TCPOverIPv4Adapter) (seg : TCPSegment) : TCPSegment :=
  { seg with udinfo :=
      { seg.udinfo with srcPort := a.source.port, dstPort := a.destination.port } }

/-- The datagram, and the segment as it is left; `none`: an exception.
mirrors src/util/tcp_over_ip.cc:76-95 -/
def wrapTcpInIp (a : TCPOverIPv4Adapter) (seg : TCPSegment) : Option (IPv4Datagram × TCPSegment) :=
  let seg := a.setPorts seg
  let header := a.wrapHeader seg
  let seg := seg.computeChecksum header.pseudoChecksum
  header.computeChecksum.map fun header => ({ header := header, payload := seg.buffers }, seg)

/-- The last filters; a listening adapter takes the sender for its peer.
mirrors src/util/tcp_over_ip.cc:49-71 -/
def accept (a : TCPOverIPv4Adapter) (d : IPv4Datagram) (seg : TCPSegment) :
    Option TCPSegment × TCPOverIPv4Adapter :=
  if seg.udinfo.dstPort ≠ a.source.port then (none, a)
  else if a.listening ∧ ¬ (seg.senderMessage.SYN ∧ ¬ seg.reset) then (none, a)
  else
    let a :=
      if a.listening then
        { source := { ipv4Numeric := d.header.dst, port := a.source.port }
          destination := { ipv4Numeric := d.header.src, port := seg.udinfo.srcPort }
          listening := false }
      else a
    (if seg.udinfo.srcPort ≠ a.destination.port then none else some seg, a)

/-- mirrors src/util/tcp_over_ip.cc:26-72 -/
def unwrapTcpInIp (a : TCPOverIPv4Adapter) (d : IPv4Datagram) :
    Option (Option TCPSegment × TCPOverIPv4Adapter) :=
  if ¬ a.listening ∧ d.header.dst ≠ a.source.ipv4Numeric then some (none, a)
  else if ¬ a.listening ∧ d.header.src ≠ a.destination.ipv4Numeric then some (none, a)
  else if d.header.proto ≠ PROTO_TCP then some (none, a)
  else
    (L1.parse (TCPSegment.parse {} d.header.pseudoChecksum) d.payload).map fun
      | none => (none, a)
      | some seg => a.accept d seg

/-- The buffers that a read from the device fills, given the bytes of one
datagram: the header, then as much as a read takes.
mirrors src/util/tuntap_adapter.cc:8-13, src/util/file_descriptor.cc:111-151 -/
def readBuffers (bytes : Bytes) : List Bytes :=
  FileDescriptor.cut [20, FileDescriptor.kReadBufferSize] bytes

/-- The sizes that `readBuffers` has are those that the code asks for. -/
theorem readBuffers_read (header rest : Bytes) (hh : header.length = 20) (bytes : Bytes) :
    readBuffers bytes = FileDescriptor.read [header, rest] bytes := by
  rw [FileDescriptor.read_eq (by simp)]
  unfold readBuffers
  simp [hh]

/-- 20 header bytes, then the rest. -/
def headerAndRest (bytes : Bytes) : List Bytes := [bytes.take 20, bytes.drop 20]

theorem readBuffers_short {bytes : Bytes}
    (h : bytes.length ≤ 20 + FileDescriptor.kReadBufferSize) :
    readBuffers bytes = headerAndRest bytes := by
  unfold readBuffers headerAndRest FileDescriptor.cut FileDescriptor.cut FileDescriptor.cut
  rw [List.take_of_length_le (l := bytes.drop 20)]
  rw [List.length_drop]
  omega

/-- A datagram is parsed from the buffers, and a segment is looked for in it.
mirrors src/util/tuntap_adapter.cc:12-17 -/
def unwrapBuffers (a : TCPOverIPv4Adapter) (buffers : List Bytes) :
    Option (Option TCPSegment × TCPOverIPv4Adapter) :=
  (L1.parse (IPv4Datagram.parse {}) buffers).bind fun
    | none => some (none, a)
    | some d => a.unwrapTcpInIp d

/-- mirrors src/util/tuntap_adapter.cc:6-18 -/
def read (a : TCPOverIPv4Adapter) (bytes : Bytes) :
    Option (Option TCPSegment × TCPOverIPv4Adapter) :=
  a.unwrapBuffers (readBuffers bytes)

/-! ## One datagram -/

/-- The two ends of one connection, both established. -/
structure Mirrored (a b : TCPOverIPv4Adapter) : Prop where
  source : b.source = a.destination
  destination : b.destination = a.source
  here : a.listening = false
  there : b.listening = false

theorem pseudoChecksum_lt (h : IPv4Header) : h.pseudoChecksum < 2 ^ 19 := by
  have h1 := h.src.toNat_lt
  have h2 := h.dst.toNat_lt
  have h3 := h.proto.toNat_lt
  have h4 := h.payloadLength.toNat_lt
  unfold IPv4Header.pseudoChecksum
  omega

/-- Neither the length field nor a sum over the segment overflows. -/
theorem payload_fits {a : TCPOverIPv4Adapter} {seg : TCPSegment}
    (hp : seg.senderMessage.payload.length ≤ 65495) :
    (a.wrapHeader seg).len.toNat = 20 + seg.bytes.length ∧
      (a.wrapHeader seg).pseudoChecksum + 65280 * seg.bytes.length < 2 ^ 32 := by
  have hps := pseudoChecksum_lt (a.wrapHeader seg)
  rw [TCPSegment.bytes_length]
  refine ⟨?_, by omega⟩
  unfold wrapHeader
  rw [show ({} : IPv4Header).hlen.toNat = 5 from rfl, UInt16.toNat_ofNat',
    Nat.mod_eq_of_lt (by omega)]
  omega

/-- The segment as `wrap_tcp_in_ip` leaves it. -/
def wrapped (a : TCPOverIPv4Adapter) (seg : TCPSegment) : TCPSegment :=
  (a.setPorts seg).computeChecksum (a.wrapHeader seg).pseudoChecksum

/-- Only ports and checksum are filled in. -/
theorem wrapped_eq (a : TCPOverIPv4Adapter) (seg : TCPSegment) :
    ∃ cksum, a.wrapped seg = { seg with udinfo :=
      { srcPort := a.source.port, dstPort := a.destination.port, cksum := cksum } } := by
  unfold wrapped
  rw [TCPSegment.computeChecksum_eq]
  exact ⟨_, rfl⟩

theorem wrapped_checks {a : TCPOverIPv4Adapter} {seg : TCPSegment}
    (hp : seg.senderMessage.payload.length ≤ 65495) :
    ((a.wrapped seg).summed (a.wrapHeader seg).pseudoChecksum).value = 0 := by
  have h := (payload_fits (a := a) hp).2
  rw [TCPSegment.bytes_length] at h
  have hlt : (a.wrapHeader seg).pseudoChecksum + 65280 * (a.setPorts seg).bytes.length <
      2 ^ 32 := by
    rw [TCPSegment.bytes_length]
    exact h
  exact TCPSegment.computeChecksum_own hlt

theorem wrap_eq (a : TCPOverIPv4Adapter) (seg : TCPSegment) :
    ∃ h, (a.wrapHeader seg).computeChecksum = some h ∧
      (∃ c, h = { a.wrapHeader seg with cksum := c }) ∧
      a.wrapTcpInIp seg = some ({ header := h, payload := (a.wrapped seg).buffers },
        a.wrapped seg) := by
  have hc := IPv4Header.computeChecksum_eq (h := a.wrapHeader seg) rfl
  refine ⟨_, hc, ⟨_, rfl⟩, ?_⟩
  unfold wrapTcpInIp
  simp only [show a.wrapHeader (a.setPorts seg) = a.wrapHeader seg from rfl, hc, Option.map_some]
  rfl

/-- The filters let the peer's segment through. -/
theorem accept_mirrored {a b : TCPOverIPv4Adapter} (hm : Mirrored a b) (d : IPv4Datagram)
    (seg : TCPSegment) : b.accept d (a.wrapped seg) = (some (a.wrapped seg), b) := by
  obtain ⟨c, hw⟩ := a.wrapped_eq seg
  rw [hw]
  unfold accept
  rw [if_neg (by rw [hm.source]; simp), if_neg (by rw [hm.there]; simp)]
  simp only [hm.there, Bool.false_eq_true, if_false, hm.destination, ne_eq, not_true_eq_false]

/-- The datagram's addresses and protocol are those that the peer asks for. -/
theorem unwrap_mirrored {a b : TCPOverIPv4Adapter} (hm : Mirrored a b) {seg : TCPSegment}
    {h : IPv4Header} (hh : ∃ c, h = { a.wrapHeader seg with cksum := c }) (bufs : List Bytes) :
    b.unwrapTcpInIp { header := h, payload := bufs } =
      (L1.parse (TCPSegment.parse {} (a.wrapHeader seg).pseudoChecksum) bufs).map fun
        | none => (none, b)
        | some seg => b.accept { header := h, payload := bufs } seg := by
  obtain ⟨c, rfl⟩ := hh
  unfold unwrapTcpInIp
  rw [if_neg (by rw [hm.source]; exact fun h => h.2 rfl),
    if_neg (by rw [hm.destination]; exact fun h => h.2 rfl), if_neg (fun h => h rfl)]
  rfl

/-- A buffer that holds the bytes of the segment is parsed, and accepted. -/
theorem unwrap_of_wrap {a b : TCPOverIPv4Adapter} (hm : Mirrored a b) {seg : TCPSegment}
    (hp : seg.senderMessage.payload.length ≤ 65495) {h : IPv4Header}
    (hh : ∃ c, h = { a.wrapHeader seg with cksum := c }) :
    b.unwrapTcpInIp { header := h, payload := [(a.wrapped seg).bytes] } =
      some (some (a.wrapped seg), b) := by
  rw [unwrap_mirrored hm hh, TCPSegment.parse_bytes, if_pos (wrapped_checks hp), Option.map_some]
  exact congrArg some (accept_mirrored hm _ seg)

theorem buffers_wrapped {a : TCPOverIPv4Adapter} {seg : TCPSegment} {h : IPv4Header}
    (hh : ∃ c, h = { a.wrapHeader seg with cksum := c }) (payload : List Bytes) :
    IPv4Datagram.buffers { header := h, payload := payload } =
      some (h.bytes :: Serializer.spaced payload) := by
  obtain ⟨c, rfl⟩ := hh
  exact IPv4Datagram.buffers_spaced rfl

/-- The datagram is read back from a buffer that begins with its header. -/
theorem parse_wrapped {a : TCPOverIPv4Adapter} {seg : TCPSegment} {h : IPv4Header}
    (hc : (a.wrapHeader seg).computeChecksum = some h)
    (hh : ∃ c, h = { a.wrapHeader seg with cksum := c }) (zs : Bytes) (rest : List Bytes) :
    L1.parse (IPv4Datagram.parse {}) ((h.bytes ++ zs) :: rest) =
      some (some { header := h, payload := leftOver zs rest }) := by
  obtain ⟨c, hh⟩ := hh
  have hv : h.ver = 4 := by rw [hh]; rfl
  have hlen : h.hlen = 5 := by rw [hh]; rfl
  have hoff : h.offset &&& 0x1fff = h.offset := by
    rw [hh]
    show (0 : UInt16) &&& 0x1fff = 0
    decide
  have hown := (IPv4Header.computeChecksum_of_own (h := a.wrapHeader seg) rfl hc).1
  exact IPv4Datagram.parse_split {} hv hlen hoff hown zs rest

/-- The header's bytes in a buffer of their own. -/
theorem unwrapBuffers_wrapped (b : TCPOverIPv4Adapter) {a : TCPOverIPv4Adapter}
    {seg : TCPSegment} {h : IPv4Header} (hc : (a.wrapHeader seg).computeChecksum = some h)
    (hh : ∃ c, h = { a.wrapHeader seg with cksum := c }) {rest : Bytes} (hr : rest ≠ []) :
    b.unwrapBuffers [h.bytes, rest] = b.unwrapTcpInIp { header := h, payload := [rest] } := by
  have hparse := parse_wrapped hc hh [] [rest]
  rw [List.append_nil, leftOver_rest (by rwa [List.flatten_singleton])] at hparse
  unfold unwrapBuffers
  rw [hparse]
  rfl

/-- The cut behind the header. -/
theorem headerAndRest_datagram (h : IPv4Header) (rest : Bytes) :
    headerAndRest (h.bytes ++ rest) = [h.bytes, rest] := by
  unfold headerAndRest
  rw [List.take_left' h.bytes_length, List.drop_left' h.bytes_length]

theorem readBuffers_datagram (h : IPv4Header) (rest : Bytes) :
    readBuffers (h.bytes ++ rest) = [h.bytes, rest.take FileDescriptor.kReadBufferSize] := by
  unfold readBuffers FileDescriptor.cut FileDescriptor.cut FileDescriptor.cut
  rw [List.take_left' h.bytes_length, List.drop_left' h.bytes_length]

theorem accept_cases (a : TCPOverIPv4Adapter) (d : IPv4Datagram) (seg : TCPSegment) :
    (a.accept d seg).1 = none ∨ (a.accept d seg).1 = some seg := by
  unfold accept
  dsimp only
  split_ifs <;> simp

/-- What one read takes of a segment with more payload than that, if it passes
for a segment at all, has the beginning of the payload. -/
theorem read_long {a b : TCPOverIPv4Adapter} (hm : Mirrored a b) {seg : TCPSegment}
    (hp : 16364 < seg.senderMessage.payload.length) {h : IPv4Header}
    (hc : (a.wrapHeader seg).computeChecksum = some h)
    (hh : ∃ c, h = { a.wrapHeader seg with cksum := c }) {s : TCPSegment}
    {b' : TCPOverIPv4Adapter}
    (hr : b.read (h.bytes ++ (a.wrapped seg).bytes) = some (some s, b')) :
    s.senderMessage.payload.length = 16364 := by
  -- the part that is read is itself the bytes of a segment
  let part : TCPSegment := { a.wrapped seg with
    senderMessage := { (a.wrapped seg).senderMessage with
      payload := (a.wrapped seg).senderMessage.payload.take 16364 } }
  have hlen : (a.wrapped seg).senderMessage.payload.length =
      seg.senderMessage.payload.length := by
    obtain ⟨k, hk⟩ := a.wrapped_eq seg
    rw [hk]
  have hpart : (a.wrapped seg).bytes.take FileDescriptor.kReadBufferSize = part.bytes := by
    unfold TCPSegment.bytes
    rw [show FileDescriptor.kReadBufferSize = 20 + 16364 from rfl, List.take_add,
      List.take_left' (TCPSegment.headerBytes_length _),
      List.drop_left' (TCPSegment.headerBytes_length _)]
    rfl
  unfold read at hr
  rw [readBuffers_datagram, hpart, unwrapBuffers_wrapped b hc hh part.bytes_ne_nil,
    unwrap_mirrored hm hh, TCPSegment.parse_bytes, Option.map_some, Option.some.injEq] at hr
  split at hr
  · cases hr
  · rename_i x hx
    split at hx
    · cases hx
      have hs := congrArg Prod.fst hr
      rcases accept_cases b { header := h, payload := [part.bytes] } part with hno | hyes
      · rw [hno] at hs
        cases hs
      · rw [hyes] at hs
        rw [← Option.some.inj hs]
        show ((a.wrapped seg).senderMessage.payload.take 16364).length = 16364
        rw [List.length_take, hlen]
        omega
    · cases hx

/-- A read of the device cuts a datagram behind the header, if it takes all of it. -/
theorem read_of_wrap {a b : TCPOverIPv4Adapter} (hm : Mirrored a b) {seg : TCPSegment}
    (hp : seg.senderMessage.payload.length ≤ 65495) {h : IPv4Header}
    (hc : (a.wrapHeader seg).computeChecksum = some h)
    (hh : ∃ c, h = { a.wrapHeader seg with cksum := c }) :
    b.read (h.bytes ++ (a.wrapped seg).bytes) = some (some (a.wrapped seg), b) ↔
      seg.senderMessage.payload.length ≤ 16364 := by
  obtain ⟨k, hk⟩ := a.wrapped_eq seg
  constructor
  · intro hr
    by_contra hlong
    have hlen := read_long hm (Nat.lt_of_not_le hlong) hc hh hr
    rw [hk] at hlen
    exact hlong (Nat.le_of_eq hlen)
  · intro hshort
    unfold read
    rw [readBuffers_datagram, List.take_of_length_le,
      unwrapBuffers_wrapped b hc hh (TCPSegment.bytes_ne_nil _)]
    · exact unwrap_of_wrap hm hp hh
    · rw [TCPSegment.bytes_length, hk, show FileDescriptor.kReadBufferSize = 16384 from rfl]
      dsimp only
      omega

/-- **The wire round trip.** What the peer finds in the bytes, cut behind the
header, is the segment that was wrapped: both messages and the reset flag are
back, and the header and the segment both check. That is also what a read of the
device finds, exactly if the payload fits the buffer of the read. -/
theorem wire_round_trip {a b : TCPOverIPv4Adapter} (hm : Mirrored a b) {seg : TCPSegment}
    (hp : seg.senderMessage.payload.length ≤ 65495) :
    ∃ d seg' bufs, a.wrapTcpInIp seg = some (d, seg') ∧ d.buffers = some bufs ∧
      b.unwrapBuffers (headerAndRest bufs.flatten) = some (some seg', b) ∧
      (b.read bufs.flatten = some (some seg', b) ↔ seg.senderMessage.payload.length ≤ 16364) ∧
      seg'.senderMessage = seg.senderMessage ∧ seg'.receiverMessage = seg.receiverMessage ∧
      seg'.reset = seg.reset ∧ d.header.len.toNat = bufs.flatten.length ∧
      d.header.summed.value = 0 ∧ (seg'.summed d.header.pseudoChecksum).value = 0 := by
  obtain ⟨h, hc, ⟨c, hh⟩, hwrap⟩ := a.wrap_eq seg
  obtain ⟨k, hw⟩ := a.wrapped_eq seg
  have hb := buffers_wrapped ⟨c, hh⟩ (a.wrapped seg).buffers
  have hflat : (h.bytes :: Serializer.spaced (a.wrapped seg).buffers).flatten =
      h.bytes ++ (a.wrapped seg).bytes := by
    rw [List.flatten_cons, Serializer.spaced_flatten, TCPSegment.buffers_flatten]
  refine ⟨_, _, _, hwrap, hb, ?_, ?_, by rw [hw], by rw [hw], by rw [hw], ?_, ?_, ?_⟩
  · rw [hflat, headerAndRest_datagram,
      unwrapBuffers_wrapped b hc ⟨c, hh⟩ (TCPSegment.bytes_ne_nil _)]
    exact unwrap_of_wrap hm hp ⟨c, hh⟩
  · rw [hflat]
    exact read_of_wrap hm hp hc ⟨c, hh⟩
  · have hl := (payload_fits (a := a) hp).1
    rw [hflat, List.length_append, h.bytes_length, TCPSegment.bytes_length, hw]
    rw [TCPSegment.bytes_length] at hl
    rw [hh]
    exact hl
  · exact IPv4Header.checksum_own (h := a.wrapHeader seg) rfl hc
  · rw [hh]
    exact wrapped_checks hp

/-- The two ends of a connection. -/
def client : TCPOverIPv4Adapter := { source := ⟨0x0a000001, 4000⟩, destination := ⟨0x0a000002, 80⟩ }
def server : TCPOverIPv4Adapter := { source := ⟨0x0a000002, 80⟩, destination := ⟨0x0a000001, 4000⟩ }

theorem wire_round_trip_syn :
    let seg : TCPSegment := { senderMessage := { seqno := ⟨7⟩, SYN := true, payload := [1, 2, 3] } }
    ∃ d seg' bufs, client.wrapTcpInIp seg = some (d, seg') ∧ d.buffers = some bufs ∧
      server.unwrapBuffers (headerAndRest bufs.flatten) = some (some seg', server) ∧
      (server.read bufs.flatten = some (some seg', server) ↔
        seg.senderMessage.payload.length ≤ 16364) ∧
      seg'.senderMessage = seg.senderMessage ∧ seg'.receiverMessage = seg.receiverMessage ∧
      seg'.reset = seg.reset ∧ d.header.len.toNat = bufs.flatten.length ∧
      d.header.summed.value = 0 ∧ (seg'.summed d.header.pseudoChecksum).value = 0 :=
  wire_round_trip ⟨rfl, rfl, rfl, rfl⟩ (by decide)

/-- One byte more than the buffer of a read holds, and the payload does not come back. -/
theorem read_cuts_payload :
    let seg : TCPSegment :=
      { senderMessage := { seqno := ⟨7⟩, payload := List.replicate 16365 1 } }
    seg.senderMessage.payload.length ≤ 65495 ∧ Mirrored client server ∧
    ¬ ∃ d seg' bufs s b', client.wrapTcpInIp seg = some (d, seg') ∧ d.buffers = some bufs ∧
      server.read bufs.flatten = some (some s, b') ∧
      s.senderMessage = seg.senderMessage ∧ s.receiverMessage = seg.receiverMessage ∧
      s.reset = seg.reset := by
  intro seg
  have hlen : seg.senderMessage.payload.length = 16365 := List.length_replicate
  have hm : Mirrored client server := ⟨rfl, rfl, rfl, rfl⟩
  refine ⟨by omega, hm, ?_⟩
  rintro ⟨d, seg', bufs, s, b', hwrap, hb, hr, hs, -⟩
  obtain ⟨h, hc, hh, hwrap'⟩ := client.wrap_eq seg
  rw [hwrap', Option.some.injEq, Prod.mk.injEq] at hwrap
  obtain ⟨rfl, -⟩ := hwrap
  rw [buffers_wrapped hh, Option.some.injEq] at hb
  rw [← hb, List.flatten_cons, Serializer.spaced_flatten, TCPSegment.buffers_flatten] at hr
  have hcut := read_long hm (by omega) hc hh hr
  rw [hs] at hcut
  omega

end TCPOverIPv4Adapter
end StreamSocket.L2
