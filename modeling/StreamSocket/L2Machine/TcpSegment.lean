import StreamSocket.L1Encoding.Checksum
import StreamSocket.L1Encoding.Parser
import StreamSocket.L2Machine.TcpMessages

/-!
# TCP segments

One segment carries a `TCPSenderMessage`, a `TCPReceiverMessage` and a reset
flag behind a 20-byte header. Its checksum starts from a pseudo checksum of
the datagram that carries it.

Results:
* `computeChecksum_own`: with the segment's own checksum in place, the sum
  over the segment checks, as long as 32 bits hold it.
* `TCPSegment.parse_at`: such a segment is read back from its bytes.
-/
namespace StreamSocket.L2

open L1

/-- mirrors src/util/udinfo.hh:7-12 -/
structure UserDatagramInfo where
  srcPort : UInt16 := 0
  dstPort : UInt16 := 0
  cksum : UInt16 := 0
  deriving DecidableEq, Repr

/-- mirrors src/util/tcp_segment.hh:8-13 -/
structure TCPSegment where
  senderMessage : TCPSenderMessage := {}
  receiverMessage : TCPReceiverMessage := {}
  reset : Bool := false
  udinfo : UserDatagramInfo := {}
  deriving DecidableEq, Repr

namespace TCPSegment

/-- mirrors src/util/tcp_segment.cc:6 -/
def TCPHeaderMinLen : Nat := 5

/-- The absent ackno is written as 0; the ACK flag tells the two apart.
mirrors src/util/tcp_segment.cc:76 -/
def ackField (seg : TCPSegment) : UInt32 :=
  (seg.receiverMessage.ackno.getD ⟨0⟩).rawValue

/-- mirrors src/util/tcp_segment.cc:78-79 -/
def flags (seg : TCPSegment) : UInt8 :=
  (if seg.receiverMessage.ackno.isSome then 0b00010000 else 0) |||
    (if seg.reset then 0b00000100 else 0) |||
    (if seg.senderMessage.SYN then 0b00000010 else 0) |||
    (if seg.senderMessage.FIN then 0b00000001 else 0)

/-- mirrors src/util/tcp_segment.cc:70-85 -/
def serialize (seg : TCPSegment) (s : Serializer) : Serializer :=
  let s := s.integer 2 seg.udinfo.srcPort.toNat
  let s := s.integer 2 seg.udinfo.dstPort.toNat
  let s := s.integer 4 seg.senderMessage.seqno.rawValue.toNat
  let s := s.integer 4 seg.ackField.toNat
  let s := s.integer 1 (TCPHeaderMinLen <<< 4)
  let s := s.integer 1 seg.flags.toNat
  let s := s.integer 2 seg.receiverMessage.windowSize.toNat
  let s := s.integer 2 seg.udinfo.cksum.toNat
  let s := s.integer 2 0
  s.pushBuffer seg.senderMessage.payload

/-- `serialize( seg )`.
mirrors src/util/parser.hh:208-214 -/
def buffers (seg : TCPSegment) : List Bytes := (seg.serialize {}).finish

def setCksum (seg : TCPSegment) (c : UInt16) : TCPSegment :=
  { seg with udinfo := { seg.udinfo with cksum := c } }

/-- mirrors src/util/tcp_segment.cc:87-96 -/
def computeChecksum (seg : TCPSegment) (pseudo : Nat) : TCPSegment :=
  let seg := seg.setCksum 0
  let check := ({ sum := pseudo } : InternetChecksum).addBuffers seg.buffers
  seg.setCksum check.value

/-- Whether the sum over all that remains is wrong; a copy of the parser is
read, so that the parser itself stays where it is.
mirrors src/util/tcp_segment.cc:12-23 -/
def badChecksum (pseudo : Nat) : Parse Bool := fun p =>
  (Parser.allRemainingBuffer p).map fun (rest, _) =>
    ((({ sum := pseudo } : InternetChecksum).add rest).value != 0, p)

/-- The fields in front of the payload, and the data offset. An integer that
cannot be read leaves `raw32`, `raw16` and `octet` as they were.
mirrors src/util/tcp_segment.cc:25-53 -/
def parseFields (seg : TCPSegment) : Parse (TCPSegment × UInt8) := do
  let srcPort ← Parser.u16 seg.udinfo.srcPort
  let dstPort ← Parser.u16 seg.udinfo.dstPort
  let seqno ← Parser.u32 0
  let ackno ← Parser.u32 seqno
  let dataOffset ← Parser.u8 0
  let octet ← Parser.u8 dataOffset
  let windowSize ← Parser.u16 seg.receiverMessage.windowSize
  let cksum ← Parser.u16 seg.udinfo.cksum
  let _ ← Parser.u16 0
  return (
    { senderMessage :=
        { seg.senderMessage with
          seqno := ⟨seqno⟩
          SYN := octet &&& 0b00000010 != 0
          FIN := octet &&& 0b00000001 != 0 }
      receiverMessage :=
        { ackno := if octet &&& 0b00010000 = 0 then none else some ⟨ackno⟩
          windowSize := windowSize }
      reset := octet &&& 0b00000100 != 0
      udinfo := { srcPort := srcPort, dstPort := dstPort, cksum := cksum } },
    dataOffset >>> 4)

/-- A short data offset is an error, after which the length to remove is
computed in 32 bits all the same.
mirrors src/util/tcp_segment.cc:55-61 -/
def skipOptions (dataOffset : UInt8) : Parse Unit := do
  if dataOffset.toNat < TCPHeaderMinLen then Parser.setError
  Parser.removePrefix (subW 32 (dataOffset.toNat * 4) (TCPHeaderMinLen * 4))

/-- mirrors src/util/tcp_segment.cc:10-62 -/
def parse (seg : TCPSegment) (pseudo : Nat) : Parse TCPSegment := do
  if ← badChecksum pseudo then
    Parser.setError
    return seg
  else
    let (seg, dataOffset) ← parseFields seg
    skipOptions dataOffset
    let payload ← Parser.allRemainingBuffer
    return { seg with senderMessage := { seg.senderMessage with payload := payload } }

/-! ## The bytes of a segment -/

def headerBytes (seg : TCPSegment) : Bytes :=
  beBytes 2 seg.udinfo.srcPort.toNat ++ beBytes 2 seg.udinfo.dstPort.toNat ++
    beBytes 4 seg.senderMessage.seqno.rawValue.toNat ++ beBytes 4 seg.ackField.toNat ++
    beBytes 1 (TCPHeaderMinLen <<< 4) ++ beBytes 1 seg.flags.toNat ++
    beBytes 2 seg.receiverMessage.windowSize.toNat ++ beBytes 2 seg.udinfo.cksum.toNat ++
    beBytes 2 0

def bytes (seg : TCPSegment) : Bytes := seg.headerBytes ++ seg.senderMessage.payload

@[simp] theorem headerBytes_length (seg : TCPSegment) : seg.headerBytes.length = 20 := by
  simp [headerBytes]

theorem bytes_length (seg : TCPSegment) :
    seg.bytes.length = 20 + seg.senderMessage.payload.length := by
  simp [bytes]

theorem buffers_flatten (seg : TCPSegment) : seg.buffers.flatten = seg.bytes := by
  unfold buffers serialize bytes headerBytes
  rw [Serializer.finish_flatten, Serializer.bytes_pushBuffer]
  simp only [Serializer.bytes_integer]
  rfl

@[simp] theorem setCksum_bytes_length (seg : TCPSegment) (c : UInt16) :
    (seg.setCksum c).bytes.length = seg.bytes.length := by
  rw [bytes_length, bytes_length]; rfl

/-- The checksum field is one of the words summed. -/
theorem wordSum_setCksum (seg : TCPSegment) (c : UInt16) : wordSum false (seg.setCksum c).bytes =
    wordSum false (seg.setCksum 0).bytes + c.toNat := by
  have h0 : ∀ c : UInt16, wordSum false (seg.setCksum c).bytes =
      wordSum false (beBytes 2 seg.udinfo.srcPort.toNat ++ beBytes 2 seg.udinfo.dstPort.toNat ++
        beBytes 4 seg.senderMessage.seqno.rawValue.toNat ++ beBytes 4 seg.ackField.toNat ++
        beBytes 1 (TCPHeaderMinLen <<< 4) ++ beBytes 1 seg.flags.toNat ++
        beBytes 2 seg.receiverMessage.windowSize.toNat) + c.toNat +
      wordSum false (beBytes 2 0 ++ seg.senderMessage.payload) := by
    intro c
    unfold bytes headerBytes
    rw [List.append_assoc _ (beBytes 2 0), wordSum_append (by simp), wordSum_append (by simp),
      wordSum_beBytes _ (setCksum seg c).udinfo.cksum.toNat_lt]
    rfl
  rw [h0 c, h0 0, show (0 : UInt16).toNat = 0 from rfl]
  omega

/-- The sum that the receiver of a segment makes. -/
def summed (seg : TCPSegment) (pseudo : Nat) : InternetChecksum :=
  ({ sum := pseudo } : InternetChecksum).add seg.bytes

theorem summed_sum {seg : TCPSegment} {pseudo : Nat}
    (h : pseudo + 65280 * seg.bytes.length < 2 ^ 32) :
    (seg.summed pseudo).sum = pseudo + wordSum false seg.bytes := by
  have := wordSum_le false seg.bytes
  unfold summed
  rw [InternetChecksum.add_sum _ _ (show pseudo < 2 ^ 32 by omega)]
  exact Nat.mod_eq_of_lt (show pseudo + wordSum false seg.bytes < 2 ^ 32 by omega)

theorem computeChecksum_eq (seg : TCPSegment) (pseudo : Nat) :
    seg.computeChecksum pseudo = seg.setCksum ((seg.setCksum 0).summed pseudo).value := by
  unfold computeChecksum summed
  simp only [InternetChecksum.addBuffers_eq, buffers_flatten]
  rfl

/-- A segment with its own checksum passes the check. -/
theorem computeChecksum_own {seg : TCPSegment} {pseudo : Nat}
    (h : pseudo + 65280 * seg.bytes.length < 2 ^ 32) :
    ((seg.computeChecksum pseudo).summed pseudo).value = 0 := by
  have hb : ∀ c, pseudo + 65280 * (seg.setCksum c).bytes.length < 2 ^ 32 := fun c => by
    rw [setCksum_bytes_length]; exact h
  have hw : ∀ c, pseudo + wordSum false (seg.setCksum c).bytes < 2 ^ 32 := fun c => by
    have h1 := hb c
    have h2 := wordSum_le false (seg.setCksum c).bytes
    omega
  rw [computeChecksum_eq]
  refine InternetChecksum.value_of_own (c := (seg.setCksum 0).summed pseudo) ?_ ?_ ?_
  · rw [summed_sum (hb 0)]; exact hw 0
  · rw [summed_sum (hb _), summed_sum (hb 0), wordSum_setCksum, Nat.add_assoc]
  · rw [summed_sum (hb _)]; exact hw _

/-! ## Reading a segment back -/

theorem flags_and (seg : TCPSegment) (mask : UInt8) : seg.flags &&& mask =
    ((if seg.receiverMessage.ackno.isSome then 0b00010000 else 0) &&& mask) |||
      ((if seg.reset then 0b00000100 else 0) &&& mask) |||
      ((if seg.senderMessage.SYN then 0b00000010 else 0) &&& mask) |||
      ((if seg.senderMessage.FIN then 0b00000001 else 0) &&& mask) := by
  unfold flags
  apply UInt8.toBitVec_inj.mp
  simp only [UInt8.toBitVec_and, UInt8.toBitVec_or, BitVec.and_or_distrib_right]

/-- Each flag has a bit of its own. -/
theorem flags_bits (seg : TCPSegment) :
    (seg.flags &&& 0b00010000 = 0 ↔ seg.receiverMessage.ackno = none) ∧
      (seg.flags &&& 0b00000100 != 0) = seg.reset ∧
      (seg.flags &&& 0b00000010 != 0) = seg.senderMessage.SYN ∧
      (seg.flags &&& 0b00000001 != 0) = seg.senderMessage.FIN := by
  rw [← Option.not_isSome_iff_eq_none]
  simp only [flags_and]
  generalize seg.receiverMessage.ackno.isSome = a, seg.reset = r, seg.senderMessage.SYN = s,
    seg.senderMessage.FIN = f
  revert a r s f
  decide

/-- An absent ackno stays absent, a present one is the field. -/
theorem ackno_back (seg : TCPSegment) :
    (if seg.flags &&& 0b00010000 = 0 then none else some ⟨seg.ackField⟩) =
      seg.receiverMessage.ackno := by
  unfold ackField
  cases h : seg.receiverMessage.ackno with
  | none => rw [if_pos (seg.flags_bits.1.mpr h)]
  | some a =>
    rw [if_neg fun h0 => by rw [seg.flags_bits.1.mp h0] at h; cases h]
    rfl

theorem parseFields_at (seg seg₀ : TCPSegment) {p : Parser} {zs : Bytes} {rest : List Bytes}
    (hp : p.At (seg.headerBytes ++ zs) rest) :
    ∃ p', parseFields seg₀ p = some (({ seg with senderMessage :=
      { seg.senderMessage with payload := seg₀.senderMessage.payload } }, 5), p') ∧
      p'.At zs rest := by
  unfold headerBytes at hp
  simp only [List.append_assoc] at hp
  obtain ⟨p₁, e₁, hp⟩ := Parser.u16_at seg₀.udinfo.srcPort hp
  obtain ⟨p₂, e₂, hp⟩ := Parser.u16_at seg₀.udinfo.dstPort hp
  obtain ⟨p₃, e₃, hp⟩ := Parser.u32_at 0 hp
  obtain ⟨p₄, e₄, hp⟩ := Parser.u32_at seg.senderMessage.seqno.rawValue hp
  obtain ⟨p₅, e₅, hp⟩ := Parser.u8_at (v := 0x50) 0 hp
  obtain ⟨p₆, e₆, hp⟩ := Parser.u8_at 0x50 hp
  obtain ⟨p₇, e₇, hp⟩ := Parser.u16_at seg₀.receiverMessage.windowSize hp
  obtain ⟨p₈, e₈, hp⟩ := Parser.u16_at seg₀.udinfo.cksum hp
  obtain ⟨p', e', hp⟩ := Parser.u16_at (v := 0) 0 hp
  refine ⟨p', ?_, hp⟩
  obtain ⟨-, hr, hs, hf⟩ := seg.flags_bits
  unfold parseFields
  rw [bind_of_some e₁, bind_of_some e₂, bind_of_some e₃, bind_of_some e₄, bind_of_some e₅,
    bind_of_some e₆, bind_of_some e₇, bind_of_some e₈, bind_of_some e', hr, hs, hf, ackno_back]
  rfl

/-- A segment whose sum checks is read back, payload and all. -/
theorem parse_at {seg : TCPSegment} (seg₀ : TCPSegment) {pseudo : Nat}
    (hc : (seg.summed pseudo).value = 0) {p : Parser} (hp : p.At seg.bytes []) :
    ∃ p', parse seg₀ pseudo p = some (seg, p') ∧ p'.error = false := by
  have hbad : badChecksum pseudo p = some (false, p) := by
    unfold badChecksum
    rw [Parser.allRemainingBuffer_at hp]
    show some ((seg.summed pseudo).value != 0, p) = _
    rw [hc]
    rfl
  obtain ⟨p', e, hp'⟩ := parseFields_at seg seg₀ hp
  have hskip : skipOptions 5 p' = some ((), p') := by
    show some ((), { p' with input := p'.input.removePrefix 0 }) = _
    rw [BufferList.removePrefix_zero]
  refine ⟨p', ?_, hp'.ok⟩
  unfold parse
  rw [bind_of_some hbad, if_neg (by decide), bind_of_some e]
  show (skipOptions 5 >>= _) p' = _
  rw [bind_of_some hskip, bind_of_some (Parser.allRemainingBuffer_at hp')]
  rfl

theorem bytes_ne_nil (seg : TCPSegment) : seg.bytes ≠ [] := by
  intro h0
  have hlen := seg.bytes_length
  rw [h0, List.length_nil] at hlen
  omega

/-- The bytes of a segment are read back if the sum checks, and else refused. -/
theorem parse_bytes (seg : TCPSegment) (pseudo : Nat) : L1.parse (parse {} pseudo) [seg.bytes] =
    some (if (seg.summed pseudo).value = 0 then some seg else none) := by
  have hp := Parser.At.new seg.bytes [] seg.bytes_ne_nil
  split
  · rename_i hc
    exact parse_eq_some.mpr (parse_at {} hc hp)
  · rename_i hc
    have hbad : badChecksum pseudo (.new [seg.bytes]) = some (true, .new [seg.bytes]) := by
      unfold badChecksum
      rw [Parser.allRemainingBuffer_at hp]
      show some ((seg.summed pseudo).value != 0, Parser.new [seg.bytes]) = _
      rw [bne_iff_ne.mpr hc]
    unfold L1.parse parse
    rw [bind_of_some hbad]
    rfl

end TCPSegment
end StreamSocket.L2
