import StreamSocket.L1Encoding.EthernetCodec
import StreamSocket.L2Machine.TcpAccepted

/-!
# A segment in a datagram in a frame

A writer pushes the buffers of what it carries, and flushes an empty buffer
behind each of them. So a frame's buffers have one between the IPv4 header and
the segment, and the reader of the segment is given it at the front. From the
same bytes in one buffer the segment is read back.

Results:
* `exists_nests`: every segment can be carried so.
* `nested_buffers`: where the empty buffer stands.
* `nested_stuck`, `nested_flat`: reading the frame from its buffers, and from
  its bytes.
-/
namespace StreamSocket.L3.NestedFrame

open L1 L2 TCPOverIPv4Adapter

/-- One frame, through the three readers. -/
def readFrame (a : TCPOverIPv4Adapter) (bufs : List Bytes) :
    Option (Option TCPSegment × TCPOverIPv4Adapter) :=
  (L1.parse (EthernetFrame.parse {}) bufs).bind fun
    | none => some (none, a)
    | some frame =>
      (L1.parse (IPv4Datagram.parse {}) frame.payload).bind fun
        | none => some (none, a)
        | some d => a.unwrapTcpInIp d

/-- `frame` carries the datagram that `a` wraps `seg` in. -/
def Nests (a : TCPOverIPv4Adapter) (seg : TCPSegment) (frame : EthernetFrame) : Prop :=
  ∃ d, a.wrapTcpInIp seg = some (d, a.wrapped seg) ∧ d.buffers = some frame.payload

/-- Every segment can be nested, in a frame with any header. -/
theorem exists_nests (a : TCPOverIPv4Adapter) (seg : TCPSegment) (header : EthernetHeader) :
    ∃ frame : EthernetFrame, frame.header = header ∧ Nests a seg frame := by
  obtain ⟨h, -, hh, hwrap⟩ := a.wrap_eq seg
  exact ⟨{ header := header, payload := _ }, rfl, _, hwrap, buffers_wrapped hh _⟩

section

variable {a b : TCPOverIPv4Adapter} {seg : TCPSegment} {frame : EthernetFrame}

/-- An empty buffer stands behind the IPv4 header. -/
theorem nested_buffers (hf : Nests a seg frame) : ∃ h, (a.wrapHeader seg).computeChecksum = some h ∧
    (∃ c, h = { a.wrapHeader seg with cksum := c }) ∧
    frame.payload = h.bytes :: Serializer.spaced (a.wrapped seg).buffers ∧
    frame.buffers = frame.header.bytes :: h.bytes :: [] ::
      Serializer.spaced (Serializer.spaced (a.wrapped seg).buffers) := by
  obtain ⟨d, hd, hb⟩ := hf
  obtain ⟨h, hc, hh, hwrap⟩ := a.wrap_eq seg
  rw [hwrap, Option.some.injEq, Prod.mk.injEq] at hd
  rw [← hd.1] at hb
  have hp := hb.symm.trans (buffers_wrapped hh _)
  rw [Option.some.injEq] at hp
  refine ⟨h, hc, hh, hp, ?_⟩
  rw [EthernetFrame.buffers_eq, hp]
  rfl

/-- **The buffers of a frame.** Frame and datagram are read from them; reading the
segment takes the front of an empty view. -/
theorem nested_stuck (hm : Mirrored a b) (hp : seg.senderMessage.payload.length ≤ 65495)
    (hf : Nests a seg frame) : readFrame b frame.buffers = none := by
  obtain ⟨h, hc, hh, -, hbufs⟩ := nested_buffers hf
  have hflat : (Serializer.spaced (Serializer.spaced (a.wrapped seg).buffers)).flatten =
      (a.wrapped seg).bytes := by
    rw [Serializer.spaced_flatten, Serializer.spaced_flatten, TCPSegment.buffers_flatten]
  generalize Serializer.spaced (Serializer.spaced (a.wrapped seg).buffers) = bufs at hbufs hflat
  have hne := hflat.symm ▸ (a.wrapped seg).bytes_ne_nil
  have hframe := EthernetFrame.parse_buffers {} frame.header [] (h.bytes :: [] :: bufs)
  rw [List.append_nil, leftOver_rest (by simp [hne])] at hframe
  have hdgram := parse_wrapped hc hh [] ([] :: bufs)
  rw [List.append_nil, leftOver_rest (by simpa using hne)] at hdgram
  have hsum : TCPSegment.checksumOf (a.wrapHeader seg).pseudoChecksum bufs.flatten = 0 := by
    rw [hflat]
    exact wrapped_checks hp
  have hlen : 2 ≤ bufs.flatten.length := by
    rw [hflat, TCPSegment.bytes_length]
    omega
  have hseg := TCPSegment.parse_stuck {} hsum hlen
  unfold readFrame
  rw [hbufs, hframe, Option.bind_some]
  dsimp only
  rw [hdgram, Option.bind_some]
  dsimp only
  rw [unwrap_mirrored hm hh, hseg, Option.map_none]

/-- **The bytes of a frame.** In one buffer, they give the segment. -/
theorem nested_flat (hm : Mirrored a b) (hp : seg.senderMessage.payload.length ≤ 65495)
    (hf : Nests a seg frame) :
    readFrame b [frame.buffers.flatten] = some (some (a.wrapped seg), b) := by
  obtain ⟨h, hc, hh, hpay, -⟩ := nested_buffers hf
  have hflat : frame.buffers.flatten =
      frame.header.bytes ++ (h.bytes ++ (a.wrapped seg).bytes) := by
    rw [EthernetFrame.buffers_eq, hpay, List.flatten_cons, Serializer.spaced_flatten,
      List.flatten_cons, Serializer.spaced_flatten, TCPSegment.buffers_flatten]
  have hne := (a.wrapped seg).bytes_ne_nil
  have hframe := EthernetFrame.parse_buffers {} frame.header (h.bytes ++ (a.wrapped seg).bytes) []
  rw [leftOver_one (by simp [hne])] at hframe
  have hdgram := parse_wrapped hc hh (a.wrapped seg).bytes []
  rw [leftOver_one hne] at hdgram
  unfold readFrame
  rw [hflat, hframe, Option.bind_some]
  dsimp only
  rw [hdgram, Option.bind_some]
  exact unwrap_of_wrap hm hp hh

end

end StreamSocket.L3.NestedFrame
