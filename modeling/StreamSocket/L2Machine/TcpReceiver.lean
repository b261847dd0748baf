import StreamSocket.L2Machine.TcpMessages
import StreamSocket.L2Machine.ReassemblerInsert

/-!
# TCPReceiver: segments into the Reassembler, acknowledgments back

`receive` records SYN and FIN, unwraps the sequence number against
`bytes_pushed()` and inserts the payload if the segment overlaps the window;
`send` reports the next sequence number needed and the clamped window.
`receive` returns `none` only where `Reassembler::insert` would index out of
range.

Results:
* `receive_cases`: a segment is dropped, or inserted exactly as
  `Reassembler.Inserted` says, provided the insert cannot leave the arrays.
* `Overlaps.fits_of_pushed`, `Overlaps.fits_of_capacity`: that holds of what
  passes the window test if positions are below `2^62`, and at any position if
  the capacity is below `2^31`.
-/
namespace StreamSocket.L2

open L1 FirstWins

/-- mirrors src/src/tcp_receiver.hh:11-14 -/
structure TCPReceiver where
  isn : Wrap32 := ⟨0⟩
  fin : Bool := false
  syn : Bool := false
  deriving DecidableEq, Repr

namespace TCPReceiver

/-- The first SYN opens the stream and sets the zero point.
mirrors src/src/tcp_receiver.cc:12-15 -/
def recordSyn (t : TCPReceiver) (message : TCPSenderMessage) : TCPReceiver :=
  if message.SYN && !t.syn then { t with syn := true, isn := message.seqno } else t

/-- mirrors src/src/tcp_receiver.cc:42-45 -/
def recordFin (t : TCPReceiver) (message : TCPSenderMessage) : TCPReceiver :=
  if t.syn && message.FIN then { t with fin := true } else t

/-- The absolute acknowledgment number.
mirrors src/src/tcp_receiver.cc:19-23 and 55-59 -/
def lastAckAbsSeqno (t : TCPReceiver) (inboundStream : ByteStream) : Nat :=
  let n := add64 (Writer.bytesPushed inboundStream) 1
  if t.fin && Writer.isClosed inboundStream then add64 n 1 else n

/-- mirrors src/src/tcp_receiver.cc:25-28 -/
def absSeqno (t : TCPReceiver) (message : TCPSenderMessage) (inboundStream : ByteStream) : Nat :=
  message.seqno.unwrap t.isn (Writer.bytesPushed inboundStream)

/-- The test for overlap with the window.
mirrors src/src/tcp_receiver.cc:39-40 -/
def Overlaps (t : TCPReceiver) (message : TCPSenderMessage) (inboundStream : ByteStream) : Prop :=
  t.absSeqno message inboundStream <
      add64 (t.lastAckAbsSeqno inboundStream) (Writer.availableCapacity inboundStream) ∧
    add64 (t.absSeqno message inboundStream) message.sequenceLength >
      t.lastAckAbsSeqno inboundStream

instance (t : TCPReceiver) (message : TCPSenderMessage) (inboundStream : ByteStream) :
    Decidable (t.Overlaps message inboundStream) := inferInstanceAs (Decidable (_ ∧ _))

/-- The stream index of the payload: the sequence number less the SYN.
mirrors src/src/tcp_receiver.cc:33-37 -/
def streamIndex (absSeqno : Nat) : Nat := if absSeqno ≥ 1 then absSeqno - 1 else absSeqno

/-- mirrors src/src/tcp_receiver.cc:5-51 -/
def receive (t : TCPReceiver) (message : TCPSenderMessage) (reassembler : Reassembler)
    (inboundStream : ByteStream) : Option (TCPReceiver × Reassembler × ByteStream) :=
  if !t.syn && !message.SYN then some (t, reassembler, inboundStream)
  else
    let t := t.recordSyn message
    if t.Overlaps message inboundStream then
      let idx := streamIndex (t.absSeqno message inboundStream)
      let t := t.recordFin message
      (reassembler.insert idx message.payload t.fin inboundStream).map fun (r, out) => (t, r, out)
    else some (t, reassembler, inboundStream)

/-- mirrors src/src/tcp_receiver.cc:53-73 -/
def send (t : TCPReceiver) (inboundStream : ByteStream) : TCPReceiverMessage :=
  let windowSize := Writer.availableCapacity inboundStream
  let windowSize := if windowSize ≥ 65536 then 65535 else windowSize
  if t.syn then
    { ackno := some (Wrap32.wrap (t.lastAckAbsSeqno inboundStream) t.isn),
      windowSize := UInt16.ofNat windowSize }
  else { ackno := none, windowSize := UInt16.ofNat windowSize }

/-! ## Small facts -/

@[simp] theorem recordFin_syn (t : TCPReceiver) (m : TCPSenderMessage) :
    (t.recordFin m).syn = t.syn := by unfold recordFin; split <;> rfl

@[simp] theorem recordFin_isn (t : TCPReceiver) (m : TCPSenderMessage) :
    (t.recordFin m).isn = t.isn := by unfold recordFin; split <;> rfl

theorem recordFin_fin (t : TCPReceiver) (m : TCPSenderMessage) :
    (t.recordFin m).fin = (t.fin || (t.syn && m.FIN)) := by
  unfold recordFin; split <;> simp_all

@[simp] theorem recordSyn_fin (t : TCPReceiver) (m : TCPSenderMessage) :
    (t.recordSyn m).fin = t.fin := by unfold recordSyn; split <;> rfl

theorem recordSyn_of_syn {t : TCPReceiver} (h : t.syn = true) (m : TCPSenderMessage) :
    t.recordSyn m = t := by
  unfold recordSyn; rw [if_neg (by simp [h])]

theorem recordSyn_syn {t : TCPReceiver} {m : TCPSenderMessage}
    (h : ¬ (!t.syn && !m.SYN) = true) : (t.recordSyn m).syn = true := by
  unfold recordSyn
  split
  · rfl
  · cases hs : t.syn <;> simp_all

theorem receive_overlaps {t : TCPReceiver} {m : TCPSenderMessage} {inbound : ByteStream}
    (hsyn : t.syn = true) (ho : t.Overlaps m inbound) (r : Reassembler) :
    t.receive m r inbound = (r.insert (streamIndex (t.absSeqno m inbound)) m.payload
      (t.recordFin m).fin inbound).map fun (r, out) => (t.recordFin m, r, out) := by
  unfold receive
  rw [if_neg (by simp [hsyn]), recordSyn_of_syn hsyn]
  exact if_pos ho

theorem receive_not_overlaps {t : TCPReceiver} {m : TCPSenderMessage} {inbound : ByteStream}
    (hsyn : t.syn = true) (hno : ¬ t.Overlaps m inbound) (r : Reassembler) :
    t.receive m r inbound = some (t, r, inbound) := by
  unfold receive
  rw [if_neg (by simp [hsyn]), recordSyn_of_syn hsyn]
  exact if_neg hno

/-- A SYN is recorded first; then it is as if it had been. -/
theorem receive_of_opened {t : TCPReceiver} {m : TCPSenderMessage}
    (h : ¬ (!t.syn && !m.SYN) = true) (r : Reassembler) (inbound : ByteStream) :
    t.receive m r inbound = (t.recordSyn m).receive m r inbound := by
  have hs := recordSyn_syn h
  have h' : ¬ (!(t.recordSyn m).syn && !m.SYN) = true := by simp [hs]
  unfold receive
  rw [if_neg h, if_neg h', recordSyn_of_syn hs]

/-- Without a SYN a segment changes nothing. -/
theorem receive_syn {t t' : TCPReceiver} {m : TCPSenderMessage} {r r' : Reassembler}
    {inbound inbound' : ByteStream} (h : t.receive m r inbound = some (t', r', inbound')) :
    t'.syn = true ∨ (t', r', inbound') = (t, r, inbound) := by
  unfold receive at h
  split at h
  · exact .inr (Option.some.inj h).symm
  · rename_i hs
    have hsyn := recordSyn_syn hs
    refine .inl ?_
    dsimp only at h
    split at h
    · obtain ⟨_, -, h2⟩ := Option.map_eq_some_iff.mp h
      rw [← (Prod.mk.inj h2).1, recordFin_syn, hsyn]
    · rw [← (Prod.mk.inj (Option.some.inj h)).1, hsyn]

/-- Without wrap-around: `bytes_pushed + 1`, and one more once the FIN is
assembled. -/
theorem lastAckAbsSeqno_eq {t : TCPReceiver} {inbound : ByteStream}
    (h : Writer.bytesPushed inbound < 2 ^ 63) :
    t.lastAckAbsSeqno inbound =
      Writer.bytesPushed inbound + 1 + (t.fin && inbound.close).toNat := by
  unfold lastAckAbsSeqno Writer.isClosed
  rw [add64_of_lt (by omega)]
  cases t.fin && inbound.close with
  | true => simp only [if_true, Bool.toNat_true]; rw [add64_of_lt (by omega)]
  | false => rfl

theorem send_window {t : TCPReceiver} {inbound : ByteStream} (h : inbound.Inv) :
    (t.send inbound).windowSize.toNat =
      min (inbound.capacity - inbound.stream.length) 65535 := by
  unfold send
  rw [h.available]
  generalize inbound.capacity - inbound.stream.length = n
  have he : (UInt16.ofNat (if n ≥ 65536 then 65535 else n)).toNat = min n 65535 := by
    rw [UInt16.toNat_ofNat']
    split <;> omega
  cases t.syn with
  | true => exact he
  | false => exact he

/-! ## One segment -/

/-- The two outcomes of a segment that is not ignored for want of a SYN, if one
that overlaps the window is one that the Reassembler can insert. -/
theorem receive_cases {t : TCPReceiver} {r : Reassembler} {inbound : ByteStream}
    (h : r.Inv inbound) (m : TCPSenderMessage)
    (hfit : (t.recordSyn m).Overlaps m inbound →
      streamIndex ((t.recordSyn m).absSeqno m inbound) ≤
          r.baseIndex + (inbound.capacity - inbound.stream.length) ∧
        r.baseIndex + (inbound.capacity - inbound.stream.length) < 2 ^ 64 ∧
        streamIndex ((t.recordSyn m).absSeqno m inbound) + m.payload.length < 2 ^ 64) :
    (t.syn = false ∧ m.SYN = false ∧ t.receive m r inbound = some (t, r, inbound)) ∨
    ((t.recordSyn m).syn = true ∧ ¬ (t.recordSyn m).Overlaps m inbound ∧
      t.receive m r inbound = some (t.recordSyn m, r, inbound)) ∨
    ((t.recordSyn m).syn = true ∧ (t.recordSyn m).Overlaps m inbound ∧ ∃ tmp r' inbound',
      t.receive m r inbound = some ((t.recordSyn m).recordFin m, r', inbound') ∧
      Reassembler.Inserted r inbound (streamIndex ((t.recordSyn m).absSeqno m inbound)) m.payload
        ((t.recordSyn m).recordFin m).fin tmp r' inbound') := by
  by_cases hsyn : (!t.syn && !m.SYN) = true
  · refine .inl ⟨by simp_all, by simp_all, ?_⟩
    unfold receive
    rw [if_pos hsyn]
  right
  have hs := recordSyn_syn hsyn
  by_cases ho : (t.recordSyn m).Overlaps m inbound
  · right
    obtain ⟨hidx, hw, hlt⟩ := hfit ho
    obtain ⟨tmp, r', inbound', h1, h2⟩ := Reassembler.insert_spec h _ m.payload
      ((t.recordSyn m).recordFin m).fin hidx hw hlt
    refine ⟨hs, ho, tmp, r', inbound', ?_, h2⟩
    rw [receive_of_opened hsyn, receive_overlaps hs ho, h1, Option.map_some]
  · refine .inl ⟨hs, ho, ?_⟩
    rw [receive_of_opened hsyn, receive_not_overlaps hs ho]

/-- Far below `2^64` nothing wraps. -/
theorem Overlaps.fits_of_pushed {t : TCPReceiver} {m : TCPSenderMessage} {r : Reassembler}
    {inbound : ByteStream} (ho : t.Overlaps m inbound) (h : r.Inv inbound)
    (hc : inbound.capacity < 2 ^ 63) (hp : Writer.bytesPushed inbound < 2 ^ 62)
    (hm : m.payload.length < 2 ^ 62) :
    streamIndex (t.absSeqno m inbound) ≤
        r.baseIndex + (inbound.capacity - inbound.stream.length) ∧
      r.baseIndex + (inbound.capacity - inbound.stream.length) < 2 ^ 64 ∧
      streamIndex (t.absSeqno m inbound) + m.payload.length < 2 ^ 64 := by
  have hb := h.base
  have hu := Wrap32.unwrap_lt_add m.seqno t.isn (Writer.bytesPushed inbound) (by omega)
  have hbw : Writer.bytesPushed inbound = inbound.bytesWrite := rfl
  -- the window test bounds the first index by the end of the window
  have hidx : streamIndex (t.absSeqno m inbound) ≤
      r.baseIndex + (inbound.capacity - inbound.stream.length) := by
    have h1 := ho.1
    rw [lastAckAbsSeqno_eq (by omega), h.out.available] at h1
    have hle := Bool.toNat_le (t.fin && inbound.close)
    rw [add64_of_lt (by omega)] at h1
    unfold streamIndex
    split <;> omega
  have hlt : streamIndex (t.absSeqno m inbound) ≤ Writer.bytesPushed inbound + 2 ^ 32 := by
    unfold absSeqno streamIndex; split <;> omega
  exact ⟨hidx, by omega, by omega⟩

/-- Where the capacity and the payload are small, the window test fails if
anything wraps: the absolute sequence number is near `bytes_pushed`. -/
theorem Overlaps.bounds {t : TCPReceiver} {m : TCPSenderMessage} {inbound : ByteStream}
    (ho : t.Overlaps m inbound) (hi : inbound.Inv) (hc : inbound.capacity < 2 ^ 31)
    (hm : m.payload.length < 2 ^ 63) :
    let a := t.absSeqno m inbound
    let edge := Writer.bytesPushed inbound + 1 + (t.fin && inbound.close).toNat
    a < edge + (inbound.capacity - inbound.stream.length) ∧
      edge < a + m.sequenceLength ∧ edge + (inbound.capacity - inbound.stream.length) < 2 ^ 64 ∧
      a + m.sequenceLength < 2 ^ 64 := by
  intro a edge
  have hb : Writer.bytesPushed inbound < 2 ^ 64 := by
    show inbound.bytesWrite < 2 ^ 64
    rw [hi.write_eq]
    exact Nat.mod_lt _ (by decide)
  have hhi : a < Writer.bytesPushed inbound + 2 ^ 32 := Wrap32.unwrap_lt_add _ _ _ hb
  have hlo : Writer.bytesPushed inbound < a + 2 ^ 32 := Wrap32.lt_unwrap_add _ _ _ hb
  have halt : a < 2 ^ 64 := Wrap32.unwrap_lt _ _ _ hb
  have hlen : m.sequenceLength = m.SYN.toNat + m.payload.length + m.FIN.toNat := rfl
  have hsyn := Bool.toNat_le m.SYN
  have hfin := Bool.toNat_le m.FIN
  have hack : t.lastAckAbsSeqno inbound = edge % 2 ^ 64 := by
    unfold lastAckAbsSeqno Writer.isClosed
    simp only [add64_eq, edge]
    cases t.fin && inbound.close <;> simp
  have hedge := Bool.toNat_le (t.fin && inbound.close)
  obtain ⟨h1, h2⟩ := ho
  rw [hack, hi.available, add64_eq] at h1
  rw [hack, add64_eq] at h2
  change a < _ at h1
  change (a + m.sequenceLength) % 2 ^ 64 > _ at h2
  omega

theorem Overlaps.fits_of_capacity {t : TCPReceiver} {m : TCPSenderMessage} {r : Reassembler}
    {inbound : ByteStream} (ho : t.Overlaps m inbound) (h : r.Inv inbound)
    (hc : inbound.capacity < 2 ^ 31) (hm : m.payload.length < 2 ^ 63) :
    streamIndex (t.absSeqno m inbound) ≤
        r.baseIndex + (inbound.capacity - inbound.stream.length) ∧
      r.baseIndex + (inbound.capacity - inbound.stream.length) < 2 ^ 64 ∧
      streamIndex (t.absSeqno m inbound) + m.payload.length < 2 ^ 64 := by
  obtain ⟨h1, -, h3, h4⟩ := ho.bounds h.out hc hm
  have hb := h.base
  have hbw : Writer.bytesPushed inbound = inbound.bytesWrite := rfl
  have hlen : m.sequenceLength = m.SYN.toNat + m.payload.length + m.FIN.toNat := rfl
  have hedge := Bool.toNat_le (t.fin && inbound.close)
  unfold streamIndex
  split <;> omega

end TCPReceiver
end StreamSocket.L2
