import StreamSocket.Core.LTS
import StreamSocket.L2Machine.TcpMessages

/-!
# TCPSender: segmentation, acknowledgment and retransmission

`push` creates messages in four places: the SYN, the data loop, its
zero-window probe, and the FIN alone. Each message is appended to
`send_messages_` and `outstanding_messages_` and four counters move by hand.
The 64-bit counters and the 16-bit window space wrap; `read` may throw
(`Except.error`).

* `Emits s b m s' b'`: everything the creation of one message `m` does,
  whichever branch makes it. `push_spec`: a push is a run of `Emits`, never
  throws, and the loop ends because its test fails.
* `ackLoop_spec`: the removal loop of `receive` drops the leading messages
  that end at or below the ackno, and takes their lengths off the in-flight
  count. `receive_spec`: a receive does nothing, or that and a new window.
* `tick_spec`: a tick resends at most the oldest outstanding message.
-/
namespace StreamSocket.L2

open L1

/-- mirrors src/util/tcp_config.hh:15 -/
def maxPayloadSize : Nat := 1000

/-- mirrors src/src/tcp_sender.hh:9-30 -/
structure TCPSender where
  isn : Wrap32
  initialRTOms : Nat
  sendMessages : List TCPSenderMessage := []
  outstandingMessages : List TCPSenderMessage := []
  nextAbsSeqno : Nat := 0
  sequenceNumbersInFlight : Nat := 0
  consecutiveRetransmissions : Nat := 0
  retransmissionTimeout : Nat := initialRTOms
  receiverWindowSize : Nat := 1
  receiverWindowSpace : Nat := 1
  timeElapsed : Nat := 0
  syn : Bool := false
  fin : Bool := false
  freeWindow : Bool := false
  deriving DecidableEq, Repr

namespace TCPSender

/-- mirrors src/src/tcp_sender.cc:23-31 -/
def updateStatus (s : TCPSender) (m : TCPSenderMessage) : TCPSender :=
  { s with nextAbsSeqno := add64 s.nextAbsSeqno m.sequenceLength,
           sequenceNumbersInFlight := add64 s.sequenceNumbersInFlight m.sequenceLength,
           receiverWindowSpace := sub16 s.receiverWindowSpace m.sequenceLength,
           sendMessages := s.sendMessages ++ [m],
           outstandingMessages := s.outstandingMessages ++ [m] }

/-- mirrors src/src/tcp_sender.cc:33-42 -/
def maybeSend (s : TCPSender) : TCPSender × Option TCPSenderMessage :=
  match s.sendMessages with
  | [] => (s, none)
  | m :: ms => ({ s with sendMessages := ms }, some m)

/-- The SYN, with the FIN if the stream is already finished. The window space
pays for the SYN only.
mirrors src/src/tcp_sender.cc:46-67 -/
def pushSyn (s : TCPSender) (outboundStream : ByteStream) : TCPSender :=
  let m : TCPSenderMessage := { SYN := true, seqno := Wrap32.wrap s.nextAbsSeqno s.isn }
  let s := { s with syn := true, nextAbsSeqno := add64 s.nextAbsSeqno 1,
                    sequenceNumbersInFlight := add64 s.sequenceNumbersInFlight 1,
                    receiverWindowSpace := sub16 s.receiverWindowSpace 1 }
  let (s, m) :=
    if Reader.isFinished outboundStream then
      ({ s with fin := true, nextAbsSeqno := add64 s.nextAbsSeqno 1,
                sequenceNumbersInFlight := add64 s.sequenceNumbersInFlight 1 },
       { m with FIN := true })
    else (s, m)
  { s with sendMessages := s.sendMessages ++ [m],
           outstandingMessages := s.outstandingMessages ++ [m] }

/-- The window is closed and used up: `push` may probe it.
mirrors src/src/tcp_sender.cc:84,94,114 -/
def WindowShut (s : TCPSender) : Prop := s.receiverWindowSize = 0 ∧ s.receiverWindowSpace = 0

instance (s : TCPSender) : Decidable s.WindowShut := inferInstanceAs (Decidable (_ ∧ _))

/-- The test of the data loop.
mirrors src/src/tcp_sender.cc:83-84 -/
def LoopTest (s : TCPSender) (outboundStream : ByteStream) : Prop :=
  (s.receiverWindowSpace ≠ 0 ∧ Reader.bytesBuffered outboundStream ≠ 0) ∨
    (s.WindowShut ∧ Reader.bytesBuffered outboundStream ≠ 0)

instance (s : TCPSender) (outboundStream : ByteStream) : Decidable (s.LoopTest outboundStream) :=
  inferInstanceAs (Decidable (_ ∨ _))

/-- mirrors src/src/tcp_sender.cc:85-93 -/
def readSize (s : TCPSender) (outboundStream : ByteStream) : Nat :=
  let n :=
    if Reader.bytesBuffered outboundStream < s.receiverWindowSpace then
      Reader.bytesBuffered outboundStream
    else s.receiverWindowSpace
  if n > maxPayloadSize then maxPayloadSize else n

/-- The rest of a round, after `read_size` is fixed.
mirrors src/src/tcp_sender.cc:100-110 -/
def pushSegment (s : TCPSender) (outboundStream : ByteStream) (readSize : Nat) :
    Except String (TCPSender × ByteStream) :=
  (read outboundStream readSize).map fun (b, readOut) =>
    let last := Reader.isFinished b && decide (s.receiverWindowSpace > readSize)
    let m : TCPSenderMessage :=
      { payload := readOut, FIN := last, seqno := Wrap32.wrap s.nextAbsSeqno s.isn }
    (updateStatus { s with fin := s.fin || last } m, b)

/-- The window a probe gives itself.
mirrors src/src/tcp_sender.cc:95-98 -/
def probing (s : TCPSender) : TCPSender :=
  { s with receiverWindowSize := 1, receiverWindowSpace := 1, freeWindow := true }

/-- One round of the data loop; a shut window is probed with one byte.
mirrors src/src/tcp_sender.cc:85-110 -/
def pushRound (s : TCPSender) (outboundStream : ByteStream) :
    Except String (TCPSender × ByteStream) :=
  let readSize := s.readSize outboundStream
  if s.WindowShut then s.probing.pushSegment outboundStream 1
  else s.pushSegment outboundStream readSize

/-- The data loop; a round reads at least one byte, so as many rounds as
bytes are buffered reach a failing test.
mirrors src/src/tcp_sender.cc:83-111 -/
def pushLoop : Nat → TCPSender → ByteStream → Except String (TCPSender × ByteStream)
  | 0, s, b => .ok (s, b)
  | fuel + 1, s, b =>
    if s.LoopTest b then
      (s.pushRound b).bind fun (s, b) => pushLoop fuel s b
    else .ok (s, b)

/-- The FIN alone.
mirrors src/src/tcp_sender.cc:115-119 -/
def pushFin (s : TCPSender) : TCPSender :=
  let m : TCPSenderMessage := { seqno := Wrap32.wrap s.nextAbsSeqno s.isn, FIN := true }
  updateStatus { s with fin := true } m

/-- The SYN is the oldest outstanding message.
mirrors src/src/tcp_sender.cc:78 -/
def synPending (s : TCPSender) : Bool :=
  match s.outstandingMessages with
  | [] => false
  | m :: _ => m.SYN

/-- mirrors src/src/tcp_sender.cc:44-123 -/
def push (s : TCPSender) (outboundStream : ByteStream) : Except String (TCPSender × ByteStream) :=
  if !s.syn then .ok (s.pushSyn outboundStream, outboundStream)
  else if s.fin then .ok (s, outboundStream)
  else if !s.syn then .ok (s, outboundStream)
  else if s.synPending then .ok (s, outboundStream)
  else if Reader.bytesBuffered outboundStream ≠ 0 then
    pushLoop (Reader.bytesBuffered outboundStream) s outboundStream
  else if Reader.isFinished outboundStream ∧ (s.receiverWindowSpace ≠ 0 ∨ s.WindowShut) then
    .ok (s.pushFin, outboundStream)
  else .ok (s, outboundStream)

/-- mirrors src/src/tcp_sender.cc:125-131 -/
def sendEmptyMessage (s : TCPSender) : TCPSenderMessage :=
  { seqno := Wrap32.wrap s.nextAbsSeqno s.isn }

/-- The absolute number of a message's first sequence number, as the sender
reads it back.
mirrors src/src/tcp_sender.cc:146,163 -/
def startOf (s : TCPSender) (m : TCPSenderMessage) : Nat := m.seqno.unwrap s.isn s.nextAbsSeqno

/-- mirrors src/src/tcp_sender.cc:140-150 -/
def validAck (s : TCPSender) (absAckno : Nat) : Bool :=
  if absAckno ≤ s.nextAbsSeqno then
    match s.outstandingMessages with
    | [] => true
    | m :: _ => decide (absAckno ≥ s.startOf m)
  else false

/-- The whole of `m` lies below the ackno, in the sender's own numbers.
mirrors src/src/tcp_sender.cc:163-164 -/
def Covers (s : TCPSender) (absAckno : Nat) (m : TCPSenderMessage) : Prop :=
  add64 (s.startOf m) m.sequenceLength ≤ absAckno

instance (s : TCPSender) (absAckno : Nat) (m : TCPSenderMessage) :
    Decidable (s.Covers absAckno m) := inferInstanceAs (Decidable (_ ≤ _))

/-- The removal loop from `idx` on: the final `idx` and in-flight count.
mirrors src/src/tcp_sender.cc:161-170 -/
def ackLoop (s : TCPSender) (absAckno : Nat) : List TCPSenderMessage → Nat → Nat → Nat × Nat
  | [], idx, inFlight => (idx, inFlight)
  | m :: ms, idx, inFlight =>
    if s.Covers absAckno m then
      ackLoop s absAckno ms (idx + 1) (sub64 inFlight m.sequenceLength)
    else (idx, inFlight)

/-- What an accepted acknowledgment does.
mirrors src/src/tcp_sender.cc:156-181 -/
def acceptAck (s : TCPSender) (absAckno windowSize : Nat) : TCPSender :=
  let (idx, inFlight) :=
    s.ackLoop absAckno s.outstandingMessages 0 s.sequenceNumbersInFlight
  let s := { s with receiverWindowSize := windowSize, receiverWindowSpace := windowSize,
                    freeWindow := false, sequenceNumbersInFlight := inFlight }
  let s :=
    if idx ≠ 0 then
      { s with timeElapsed := 0, retransmissionTimeout := s.initialRTOms,
               consecutiveRetransmissions := 0,
               outstandingMessages := s.outstandingMessages.drop idx }
    else s
  if s.receiverWindowSpace ≥ s.sequenceNumbersInFlight then
    { s with receiverWindowSpace := s.receiverWindowSpace - s.sequenceNumbersInFlight }
  else { s with receiverWindowSpace := 0 }

/-- mirrors src/src/tcp_sender.cc:133-182 -/
def receive (s : TCPSender) (msg : TCPReceiverMessage) : TCPSender :=
  match msg.ackno with
  | none => s
  | some ackno =>
    let absAckno := ackno.unwrap s.isn s.nextAbsSeqno
    if !s.validAck absAckno then s else s.acceptAck absAckno msg.windowSize.toNat

/-- mirrors src/src/tcp_sender.cc:184-199 -/
def tick (s : TCPSender) (msSinceLastTick : Nat) : TCPSender :=
  match s.outstandingMessages with
  | [] => s
  | m :: _ =>
    let s := { s with timeElapsed := add64 s.timeElapsed msSinceLastTick }
    if s.timeElapsed ≥ s.retransmissionTimeout then
      let s := { s with sendMessages := s.sendMessages ++ [m] }
      let s :=
        if (s.receiverWindowSize ≠ 0 ∨ m.SYN) ∧ !s.freeWindow then
          { s with consecutiveRetransmissions := add64 s.consecutiveRetransmissions 1,
                   retransmissionTimeout := s.retransmissionTimeout * 2 % 2 ^ 64 }
        else s
      { s with timeElapsed := 0 }
    else s

/-! ## The creation of one message -/

/-- What `push` has to send: bytes, or the end of the stream. -/
def Work (b : ByteStream) : Prop := Reader.bytesBuffered b ≠ 0 ∨ Reader.isFinished b = true

/-- Which branch of `push` made the message, and the window it leaves.
`fit` is a segment (or the FIN alone) that fits in the free space. -/
inductive Branch (s : TCPSender) (b : ByteStream) (m : TCPSenderMessage) (s' : TCPSender)
    (b' : ByteStream) : Prop
  | syn : s.syn = false → m.payload = [] → m.FIN = Reader.isFinished b →
      s'.receiverWindowSize = s.receiverWindowSize →
      s'.receiverWindowSpace = sub16 s.receiverWindowSpace 1 → s'.freeWindow = s.freeWindow →
      Branch s b m s' b'
  | fit : s.syn = true → s.synPending = false → s.receiverWindowSpace ≠ 0 →
      m.payload.length = min (min b.stream.length s.receiverWindowSpace) maxPayloadSize →
      m.FIN = (Reader.isFinished b' && decide (m.payload.length < s.receiverWindowSpace)) →
      s'.receiverWindowSize = s.receiverWindowSize →
      s'.receiverWindowSpace = s.receiverWindowSpace - m.sequenceLength →
      s'.freeWindow = s.freeWindow → Branch s b m s' b'
  | probe : s.syn = true → s.synPending = false → s.WindowShut → m.payload.length = 1 →
      m.FIN = false → s'.receiverWindowSize = 1 → s'.receiverWindowSpace = 0 →
      s'.freeWindow = true → Branch s b m s' b'
  | finProbe : s.syn = true → s.synPending = false → s.WindowShut → m.payload = [] →
      m.FIN = true → b.stream = [] → s'.receiverWindowSize = 0 →
      s'.receiverWindowSpace = 65535 → s'.freeWindow = s.freeWindow → Branch s b m s' b'

/-- What the creation of `m` does, in every branch. -/
structure Emits (s : TCPSender) (b : ByteStream) (m : TCPSenderMessage) (s' : TCPSender)
    (b' : ByteStream) : Prop where
  branch : Branch s b m s' b'
  isn : s'.isn = s.isn
  syn : s'.syn = true
  fin : s'.fin = (s.fin || m.FIN)
  unsealed : s.syn = true → s.fin = false
  SYN : m.SYN = !s.syn
  seqno : m.seqno = Wrap32.wrap s.nextAbsSeqno s.isn
  pos : 0 < m.sequenceLength
  short : m.payload.length ≤ maxPayloadSize
  fits : m.payload.length ≤ b.stream.length
  payload : m.payload = b.stream.take m.payload.length
  popped : b' = Reader.pop b m.payload.length
  finished : m.FIN = true → Reader.isFinished b' = true
  next : s'.nextAbsSeqno = add64 s.nextAbsSeqno m.sequenceLength
  inFlight : s'.sequenceNumbersInFlight = add64 s.sequenceNumbersInFlight m.sequenceLength
  queued : s'.sendMessages = s.sendMessages ++ [m]
  outstanding : s'.outstandingMessages = s.outstandingMessages ++ [m]
  rto : s'.initialRTOms = s.initialRTOms
  timer : s'.timeElapsed = s.timeElapsed ∧ s'.retransmissionTimeout = s.retransmissionTimeout ∧
    s'.consecutiveRetransmissions = s.consecutiveRetransmissions

/-- What a message takes of a window that is not shut. -/
structure Fit (s : TCPSender) (b : ByteStream) (m : TCPSenderMessage) (s' : TCPSender)
    (b' : ByteStream) : Prop where
  space : s.receiverWindowSpace ≠ 0
  length : m.payload.length = min (min b.stream.length s.receiverWindowSpace) maxPayloadSize
  FIN : m.FIN = (Reader.isFinished b' && decide (m.payload.length < s.receiverWindowSpace))
  size : s'.receiverWindowSize = s.receiverWindowSize
  left : s'.receiverWindowSpace = s.receiverWindowSpace - m.sequenceLength

theorem Emits.fit {s s' : TCPSender} {b b' : ByteStream} {m : TCPSenderMessage}
    (h : Emits s b m s' b') (hs : s.syn = true) (hopen : s.receiverWindowSize ≠ 0) :
    Fit s b m s' b' := by
  cases h.branch with
  | syn h0 => rw [h0] at hs; cases hs
  | fit _ _ h1 h2 h3 h4 h5 => exact ⟨h1, h2, h3, h4, h5⟩
  | probe _ _ h0 => exact absurd h0.1 hopen
  | finProbe _ _ h0 => exact absurd h0.1 hopen

/-- Nothing but creations: a push is a run of it. -/
def creation : LTS (TCPSender × ByteStream) TCPSenderMessage where
  init := fun _ => True
  step p m p' := Emits p.1 p.2 m p'.1 p'.2

theorem emits_syn {s : TCPSender} {b : ByteStream} (hb : b.Inv) (h : s.syn = false) :
    ∃ m, Emits s b m (s.pushSyn b) b := by
  have hp := (ByteStream.pop_zero hb).symm
  unfold pushSyn
  split
  · rename_i hf
    refine ⟨{ SYN := true, FIN := true, seqno := Wrap32.wrap s.nextAbsSeqno s.isn }, ?_⟩
    exact { branch := .syn h rfl hf.symm rfl rfl rfl, isn := rfl, syn := rfl, fin := by simp,
            unsealed := fun hs => absurd (h ▸ hs) (by simp), SYN := by simp [h], seqno := rfl,
            pos := by simp [TCPSenderMessage.sequenceLength], short := by simp, fits := by simp,
            payload := by simp, popped := hp, finished := fun _ => hf,
            next := add64_add64 _ _ _, inFlight := add64_add64 _ _ _, queued := rfl,
            outstanding := rfl, rto := rfl, timer := ⟨rfl, rfl, rfl⟩ }
  · rename_i hf
    refine ⟨{ SYN := true, seqno := Wrap32.wrap s.nextAbsSeqno s.isn }, ?_⟩
    exact { branch := .syn h rfl (Bool.eq_false_iff.mpr hf).symm rfl rfl rfl, isn := rfl,
            syn := rfl, fin := by simp,
            unsealed := fun hs => absurd (h ▸ hs) (by simp), SYN := by simp [h], seqno := rfl,
            pos := by simp [TCPSenderMessage.sequenceLength], short := by simp, fits := by simp,
            payload := by simp, popped := hp, finished := fun hf => absurd hf (by simp),
            next := rfl, inFlight := rfl, queued := rfl, outstanding := rfl, rto := rfl,
            timer := ⟨rfl, rfl, rfl⟩ }

theorem emits_fin {s : TCPSender} {b : ByteStream} (hb : b.Inv) (h : s.syn = true)
    (hf : s.fin = false) (hp : s.synPending = false) (hd : Reader.isFinished b = true)
    (hw : s.receiverWindowSpace < 2 ^ 16) (hs : s.receiverWindowSpace ≠ 0 ∨ s.WindowShut) :
    ∃ m, Emits s b m s.pushFin b := by
  have hpop := (ByteStream.pop_zero hb).symm
  have he : b.stream = [] := (hb.finished.mp hd).2
  refine ⟨{ seqno := Wrap32.wrap s.nextAbsSeqno s.isn, FIN := true }, ?_⟩
  have hbr : Branch s b { seqno := Wrap32.wrap s.nextAbsSeqno s.isn, FIN := true } s.pushFin b := by
    rcases hs with hs | hs
    · have h1 : 1 ≤ s.receiverWindowSpace := Nat.pos_of_ne_zero hs
      exact .fit h hp hs (by simp [he]) (by simp [hd]; omega) rfl (sub16_of_le h1 hw) rfl
    · refine .finProbe h hp hs rfl rfl he hs.1 ?_ rfl
      show sub16 s.receiverWindowSpace 1 = 65535
      rw [hs.2]; rfl
  exact { branch := hbr, isn := rfl, syn := h, fin := by simp [pushFin, updateStatus],
          unsealed := fun _ => hf, SYN := by simp [h], seqno := rfl,
          pos := by simp [TCPSenderMessage.sequenceLength], short := by simp, fits := by simp,
          payload := by simp, popped := hpop, finished := fun _ => hd, next := rfl,
          inFlight := rfl, queued := rfl, outstanding := rfl, rto := rfl,
          timer := ⟨rfl, rfl, rfl⟩ }

/-- The message a round creates when it reads `n` bytes. -/
def segmentOf (s : TCPSender) (b : ByteStream) (n : Nat) : TCPSenderMessage :=
  { seqno := Wrap32.wrap s.nextAbsSeqno s.isn, payload := b.stream.take n,
    FIN := Reader.isFinished (Reader.pop b n) && decide (s.receiverWindowSpace > n) }

theorem pushSegment_eq {s : TCPSender} {b : ByteStream} (hb : b.Inv) {n : Nat}
    (hn : n ≤ b.stream.length) : s.pushSegment b n =
      .ok (updateStatus { s with fin := s.fin || (s.segmentOf b n).FIN } (s.segmentOf b n),
        Reader.pop b n) := by
  unfold pushSegment
  rw [ByteStream.read_eq hb, Nat.min_eq_left hn]
  rfl

theorem readSize_eq {s : TCPSender} {b : ByteStream} (hb : b.Inv) :
    s.readSize b = min (min b.stream.length s.receiverWindowSpace) maxPayloadSize := by
  unfold readSize
  rw [hb.buffered]
  generalize maxPayloadSize = M
  dsimp only
  split <;> split <;> omega

/-- One round of the data loop creates one message. -/
theorem emits_round {s : TCPSender} {b : ByteStream} (hb : b.Inv) (h : s.syn = true)
    (hf : s.fin = false) (hp : s.synPending = false) (hw : s.receiverWindowSpace < 2 ^ 16)
    (ht : s.LoopTest b) :
    ∃ m s' b', s.pushRound b = .ok (s', b') ∧ Emits s b m s' b' ∧ m.payload ≠ [] := by
  have hbuf : b.stream.length ≠ 0 := by
    rw [← hb.buffered]
    rcases ht with ht | ht
    · exact ht.2
    · exact ht.2
  have hmax : maxPayloadSize = 1000 := rfl
  unfold pushRound
  by_cases hs : s.WindowShut
  · -- the probe: one byte, never with the FIN
    rw [if_pos hs]
    have hn : 1 ≤ b.stream.length := Nat.pos_of_ne_zero hbuf
    refine ⟨s.probing.segmentOf b 1, _, _, pushSegment_eq hb hn, ?_, ?_⟩
    · have hlen : (b.stream.take 1).length = 1 := by rw [List.length_take, Nat.min_eq_left hn]
      refine { branch := .probe h hp hs hlen ?_ rfl ?_ rfl, isn := rfl, syn := h, fin := rfl,
               unsealed := fun _ => hf, SYN := by simp [segmentOf, h], seqno := rfl, pos := ?_,
               short := by rw [segmentOf, hlen]; decide, fits := by rw [segmentOf, hlen]; exact hn,
               payload := by simp only [segmentOf, hlen], popped := by simp only [segmentOf, hlen],
               finished := ?_, next := rfl, inFlight := rfl, queued := rfl, outstanding := rfl,
               rto := rfl, timer := ⟨rfl, rfl, rfl⟩ }
      · simp [segmentOf, probing]
      · simp [segmentOf, updateStatus, TCPSenderMessage.sequenceLength, hlen, probing]; rfl
      · simp [segmentOf, TCPSenderMessage.sequenceLength, hlen]
      · simp [segmentOf, probing]
    · intro he
      have := congrArg List.length he
      simp only [segmentOf, List.length_take, List.length_nil] at this
      omega
  · rw [if_neg hs]
    have hsp : s.receiverWindowSpace ≠ 0 := by
      rcases ht with ht | ht
      · exact ht.1
      · exact absurd ht.1 hs
    have hr := readSize_eq (s := s) hb
    have hn : s.readSize b ≤ b.stream.length := by rw [hr]; omega
    have hlen : (b.stream.take (s.readSize b)).length = s.readSize b := by
      rw [List.length_take, Nat.min_eq_left hn]
    have hpos : 0 < s.readSize b := by rw [hr]; omega
    refine ⟨s.segmentOf b (s.readSize b), _, _, pushSegment_eq hb hn, ?_, ?_⟩
    · have hseq : (s.segmentOf b (s.readSize b)).sequenceLength ≤ s.receiverWindowSpace := by
        have : s.readSize b ≤ s.receiverWindowSpace := by rw [hr]; omega
        simp only [TCPSenderMessage.sequenceLength, segmentOf, hlen]
        by_cases hlt : s.receiverWindowSpace > s.readSize b
        · have := Bool.toNat_le (Reader.isFinished (Reader.pop b (s.readSize b)) &&
            decide (s.receiverWindowSpace > s.readSize b))
          simp only [Bool.toNat_false]; omega
        · simp only [hlt, decide_false, Bool.and_false, Bool.toNat_false]; omega
      refine { branch := .fit h hp hsp ?_ ?_ rfl (sub16_of_le hseq hw) rfl, isn := rfl, syn := h,
               fin := rfl, unsealed := fun _ => hf, SYN := by simp [segmentOf, h], seqno := rfl,
               pos := ?_, short := ?_, fits := by rw [segmentOf, hlen]; exact hn,
               payload := by simp only [segmentOf, hlen], popped := by simp only [segmentOf, hlen],
               finished := ?_, next := rfl, inFlight := rfl, queued := rfl, outstanding := rfl,
               rto := rfl, timer := ⟨rfl, rfl, rfl⟩ }
      · rw [segmentOf, hlen, hr]
      · simp only [segmentOf, hlen]
      · simp only [TCPSenderMessage.sequenceLength, segmentOf, hlen]; omega
      · rw [segmentOf, hlen, hr]; exact Nat.min_le_right _ _
      · simp only [segmentOf, Bool.and_eq_true]; exact fun h' => h'.1
    · intro he
      have := congrArg List.length he
      simp only [segmentOf, hlen, List.length_nil] at this
      omega

/-! ## A whole push -/

theorem Emits.inv {s s' : TCPSender} {b b' : ByteStream} {m : TCPSenderMessage}
    (h : Emits s b m s' b') (hb : b.Inv) : b'.Inv := by
  rw [h.popped]; exact ByteStream.inv_pop hb _

theorem Emits.stream {s s' : TCPSender} {b b' : ByteStream} {m : TCPSenderMessage}
    (h : Emits s b m s' b') : b.stream = m.payload ++ b'.stream := by
  have hd : b'.stream = b.stream.drop m.payload.length := by
    rw [h.popped, ByteStream.pop_eq h.fits]
  calc b.stream = b.stream.take m.payload.length ++ b.stream.drop m.payload.length :=
        (List.take_append_drop _ _).symm
    _ = m.payload ++ b'.stream := by rw [← h.payload, hd]

theorem Emits.close {s s' : TCPSender} {b b' : ByteStream} {m : TCPSenderMessage}
    (h : Emits s b m s' b') : b'.close = b.close := by
  rw [h.popped, ByteStream.pop_eq h.fits]

theorem Emits.space_lt {s s' : TCPSender} {b b' : ByteStream} {m : TCPSenderMessage}
    (h : Emits s b m s' b') (hw : s.receiverWindowSpace < 2 ^ 16) :
    s'.receiverWindowSpace < 2 ^ 16 := by
  cases h.branch with
  | syn _ _ _ _ hs => rw [hs]; exact subW_lt 16 _ _
  | fit _ _ _ _ _ _ hs => rw [hs]; omega
  | probe _ _ _ _ _ _ hs => rw [hs]; decide
  | finProbe _ _ _ _ _ _ _ hs => rw [hs]; decide

theorem synPending_append {s : TCPSender} {m : TCPSenderMessage} (hs : s.synPending = false)
    (hm : m.SYN = false) {s' : TCPSender}
    (ho : s'.outstandingMessages = s.outstandingMessages ++ [m]) : s'.synPending = false := by
  unfold synPending at *
  rw [ho]
  cases hl : s.outstandingMessages with
  | nil => exact hm
  | cons x xs => rw [hl] at hs; exact hs

theorem Emits.synPending {s s' : TCPSender} {b b' : ByteStream} {m : TCPSenderMessage}
    (h : Emits s b m s' b') (hsyn : s.syn = true) (hp : s.synPending = false) :
    s'.synPending = false :=
  synPending_append hp (by rw [h.SYN, hsyn]; rfl) h.outstanding

theorem Emits.run {s s' : TCPSender} {b b' : ByteStream} {m : TCPSenderMessage}
    (h : Emits s b m s' b') {ms : List TCPSenderMessage} {p : TCPSender × ByteStream}
    (hr : creation.Run (s', b') ms p) : creation.Run (s, b) (m :: ms) p :=
  have hs : creation.step (s, b) m (s', b') := h
  .cons hs hr

theorem pushLoop_halt {s : TCPSender} {b : ByteStream} (h : ¬ s.LoopTest b) (fuel : Nat) :
    pushLoop fuel s b = .ok (s, b) := by
  cases fuel with
  | zero => rfl
  | succ fuel => rw [pushLoop, if_neg h]

theorem not_loopTest_of_nil {s : TCPSender} {b : ByteStream} (hb : b.Inv) (h : b.stream = []) :
    ¬ s.LoopTest b := by
  have : Reader.bytesBuffered b = 0 := by rw [hb.buffered, h]; rfl
  rintro (ht | ht)
  · exact ht.2 this
  · exact ht.2 this

/-- What is left is stopped by a window that is used up, but not shut. -/
def Halted (s : TCPSender) (b : ByteStream) : Prop :=
  s.fin = false → Work b → s.receiverWindowSpace = 0 ∧ s.receiverWindowSize ≠ 0

/-- A round that takes the last bytes and cannot add the FIN uses the window up. -/
theorem Emits.halted {s s' : TCPSender} {b b' : ByteStream} {m : TCPSenderMessage}
    (h : Emits s b m s' b') (hb : b.Inv) (hsyn : s.syn = true) (hne : b.stream ≠ [])
    (hw : s.receiverWindowSize = 0 → s.receiverWindowSpace = 0) (hnil : b'.stream = []) :
    Halted s' b' := by
  intro hf hwork
  have hfin : Reader.isFinished b' = true := by
    rcases hwork with hbuf | hfin
    · exact absurd (by rw [(h.inv hb).buffered, hnil]; rfl) hbuf
    · exact hfin
  have hm : m.FIN = false := by
    have := h.fin
    rw [hf] at this
    cases hmf : m.FIN with
    | false => rfl
    | true => rw [hmf] at this; simp at this
  cases h.branch with
  | syn h0 => rw [h0] at hsyn; cases hsyn
  | fit _ _ hsp hlen hF hsize hs =>
    rw [hm, hfin, Bool.true_and] at hF
    have hge : s.receiverWindowSpace ≤ m.payload.length :=
      Nat.not_lt.mp (of_decide_eq_false hF.symm)
    refine ⟨?_, fun h0 => hsp (hw (by rw [← hsize]; exact h0))⟩
    have : m.payload.length ≤ m.sequenceLength := by
      unfold TCPSenderMessage.sequenceLength; omega
    rw [hs]; omega
  | probe _ _ _ _ _ hsize hs => exact ⟨hs, by rw [hsize]; decide⟩
  | finProbe _ _ _ _ _ he => exact absurd he hne

/-- The data loop, started on a non-empty buffer: whatever the fuel, from the
number of buffered bytes on, it ends in the same halted state. -/
theorem pushLoop_spec : ∀ (n : Nat) (s : TCPSender) (b : ByteStream), b.stream.length ≤ n →
    b.Inv → b.stream ≠ [] → s.syn = true → s.fin = false → s.synPending = false →
    s.receiverWindowSpace < 2 ^ 16 →
    ∃ s' b' ms, (∀ fuel, b.stream.length ≤ fuel → pushLoop fuel s b = .ok (s', b')) ∧
      creation.Run (s, b) ms (s', b') ∧
      ((s.receiverWindowSize = 0 → s.receiverWindowSpace = 0) → Halted s' b') := by
  intro n
  induction n with
  | zero =>
    intro s b hn _ hne
    exact absurd (List.length_eq_zero_iff.mp (Nat.le_zero.mp hn)) hne
  | succ n ih =>
    intro s b hn hb hne hsyn hf hp hw
    by_cases ht : s.LoopTest b
    · obtain ⟨m, s₁, b₁, hround, he, hpay⟩ := emits_round hb hsyn hf hp hw ht
      have hb₁ := he.inv hb
      have hlen : b.stream.length = m.payload.length + b₁.stream.length := by
        rw [he.stream, List.length_append]
      have hpos : 0 < m.payload.length := List.length_pos_of_ne_nil hpay
      have hloop : ∀ fuel, b.stream.length ≤ fuel → ∃ k, b₁.stream.length ≤ k ∧
          pushLoop fuel s b = pushLoop k s₁ b₁ := by
        intro fuel hfuel
        cases fuel with
        | zero => omega
        | succ k => exact ⟨k, by omega, by rw [pushLoop, if_pos ht, hround]; rfl⟩
      by_cases hnil : b₁.stream = []
      · refine ⟨s₁, b₁, [m], fun fuel hfuel => ?_, he.run (.nil _), fun hz =>
          he.halted hb hsyn hne hz hnil⟩
        obtain ⟨k, -, hk⟩ := hloop fuel hfuel
        rw [hk, pushLoop_halt (not_loopTest_of_nil hb₁ hnil)]
      · -- bytes remain, so no FIN was made and the loop goes on
        have hm : m.FIN = false := by
          cases hmf : m.FIN with
          | false => rfl
          | true => exact absurd (hb₁.finished.mp (he.finished hmf)).2 hnil
        obtain ⟨s', b', ms, h1, h2, h3⟩ := ih s₁ b₁ (by omega) hb₁ hnil he.syn
          (by rw [he.fin, hf, hm]; rfl) (he.synPending hsyn hp) (he.space_lt hw)
        refine ⟨s', b', m :: ms, fun fuel hfuel => ?_, he.run h2, fun hz => h3 ?_⟩
        · obtain ⟨k, hk1, hk2⟩ := hloop fuel hfuel
          rw [hk2, h1 k hk1]
        · intro h0
          cases he.branch with
          | syn h' => rw [h'] at hsyn; cases hsyn
          | fit _ _ hsp _ _ hsize => exact absurd (hz (by rw [← hsize]; exact h0)) hsp
          | probe _ _ _ _ _ _ hs => exact hs
          | finProbe _ _ _ _ _ hnil' => exact absurd hnil' hne
    · refine ⟨s, b, [], fun fuel _ => pushLoop_halt ht fuel, .nil _, fun _ _ _ => ?_⟩
      have hbuf : Reader.bytesBuffered b ≠ 0 := by
        rw [hb.buffered]
        exact fun h0 => hne (List.length_eq_zero_iff.mp h0)
      have hsp : s.receiverWindowSpace = 0 := by
        by_contra h0; exact ht (.inl ⟨h0, hbuf⟩)
      exact ⟨hsp, fun h0 => ht (.inr ⟨⟨h0, hsp⟩, hbuf⟩)⟩

/-- The three ways a push goes: the SYN; nothing, because the FIN is out or
the SYN is not yet acknowledged; the data loop or the FIN alone. -/
inductive Pushed (s : TCPSender) (ms : List TCPSenderMessage) (s' : TCPSender)
    (b' : ByteStream) : Prop
  | syn : s.syn = false → ms.length = 1 → Pushed s ms s' b'
  | idle : s.syn = true → (s.fin = true ∨ s.synPending = true) → ms = [] → Pushed s ms s' b'
  | data : s.syn = true → s.fin = false → s.synPending = false →
      ((s.receiverWindowSize = 0 → s.receiverWindowSpace = 0) → Halted s' b') → Pushed s ms s' b'

/-- A push never throws and is a run of creations. -/
theorem push_spec {s : TCPSender} {b : ByteStream} (hb : b.Inv)
    (hw : s.receiverWindowSpace < 2 ^ 16) :
    ∃ s' b' ms, s.push b = .ok (s', b') ∧ creation.Run (s, b) ms (s', b') ∧ Pushed s ms s' b' := by
  unfold push
  cases hsyn : s.syn with
  | false =>
    obtain ⟨m, hm⟩ := emits_syn hb hsyn
    exact ⟨_, _, [m], rfl, hm.run (.nil _), .syn hsyn rfl⟩
  | true =>
    cases hf : s.fin with
    | true => exact ⟨s, b, [], rfl, .nil _, .idle hsyn (.inl hf) rfl⟩
    | false =>
      cases hp : s.synPending with
      | true => exact ⟨s, b, [], rfl, .nil _, .idle hsyn (.inr hp) rfl⟩
      | false =>
        simp only [Bool.not_true, Bool.false_eq_true, if_false]
        by_cases hbuf : Reader.bytesBuffered b = 0
        · rw [if_neg (not_not_intro hbuf)]
          by_cases hc : Reader.isFinished b = true ∧ (s.receiverWindowSpace ≠ 0 ∨ s.WindowShut)
          · obtain ⟨m, hm⟩ := emits_fin hb hsyn hf hp hc.1 hw hc.2
            rw [if_pos hc]
            refine ⟨_, _, [m], rfl, hm.run (.nil _), .data hsyn hf hp fun _ hf' => ?_⟩
            cases hf'
          · rw [if_neg hc]
            refine ⟨s, b, [], rfl, .nil _, .data hsyn hf hp fun _ _ hwork => ?_⟩
            have hfin := hwork.resolve_left (not_not_intro hbuf)
            have hsp : s.receiverWindowSpace = 0 := by
              by_contra h0; exact hc ⟨hfin, .inl h0⟩
            exact ⟨hsp, fun h0 => hc ⟨hfin, .inr ⟨h0, hsp⟩⟩⟩
        · rw [if_pos hbuf]
          rw [hb.buffered] at hbuf ⊢
          obtain ⟨s', b', ms, h1, h2, h3⟩ := pushLoop_spec _ s b (Nat.le_refl _) hb
            (fun h0 => hbuf (by rw [h0]; rfl)) hsyn hf hp hw
          exact ⟨s', b', ms, h1 _ (Nat.le_refl _), h2, .data hsyn hf hp h3⟩

/-! ## One acknowledgment -/

/-- The loop stops at the first message that is not covered. -/
theorem ackLoop_spec (s : TCPSender) (absAckno : Nat) : ∀ (ms : List TCPSenderMessage) (idx : Nat),
    ∃ k, k ≤ ms.length ∧ s.ackLoop absAckno ms idx (totalLength ms % 2 ^ 64) =
        (idx + k, totalLength (ms.drop k) % 2 ^ 64) ∧
      (∀ m ∈ ms.take k, s.Covers absAckno m) ∧
      ∀ m, ms[k]? = some m → ¬ s.Covers absAckno m
  | [], idx => ⟨0, Nat.le_refl _, rfl, by simp, by simp⟩
  | m :: ms, idx => by
    by_cases hc : s.Covers absAckno m
    · obtain ⟨k, h1, h2, h3, h4⟩ := ackLoop_spec s absAckno ms (idx + 1)
      refine ⟨k + 1, by simpa using h1, ?_, ?_, by simpa using h4⟩
      · have hsub : sub64 (totalLength (m :: ms) % 2 ^ 64) m.sequenceLength =
            totalLength ms % 2 ^ 64 := by
          rw [totalLength_cons, Nat.add_comm, sub64_mod_add]
        unfold ackLoop
        rw [if_pos hc, hsub, h2, List.drop_succ_cons]
        congr 1; omega
      · intro x hx
        rw [List.take_succ_cons, List.mem_cons] at hx
        rcases hx with rfl | hx
        · exact hc
        · exact h3 x hx
    · refine ⟨0, Nat.zero_le _, ?_, by simp, ?_⟩
      · unfold ackLoop
        rw [if_neg hc]; rfl
      · intro x hx
        simp only [List.getElem?_cons_zero, Option.some.injEq] at hx
        exact hx ▸ hc

/-- What an accepted acknowledgment does: `k` messages are removed. -/
structure Accepted (s : TCPSender) (absAckno windowSize k : Nat) (s' : TCPSender) : Prop where
  le : k ≤ s.outstandingMessages.length
  outstanding : s'.outstandingMessages = s.outstandingMessages.drop k
  inFlight : s'.sequenceNumbersInFlight = totalLength s'.outstandingMessages % 2 ^ 64
  size : s'.receiverWindowSize = windowSize
  space : s'.receiverWindowSpace = windowSize - s'.sequenceNumbersInFlight
  free : s'.freeWindow = false
  restart : k ≠ 0 → s'.timeElapsed = 0 ∧ s'.retransmissionTimeout = s.initialRTOms ∧
    s'.consecutiveRetransmissions = 0
  keep : k = 0 → s'.timeElapsed = s.timeElapsed ∧
    s'.retransmissionTimeout = s.retransmissionTimeout ∧
    s'.consecutiveRetransmissions = s.consecutiveRetransmissions
  frame : s'.isn = s.isn ∧ s'.initialRTOms = s.initialRTOms ∧ s'.sendMessages = s.sendMessages ∧
    s'.nextAbsSeqno = s.nextAbsSeqno ∧ s'.syn = s.syn ∧ s'.fin = s.fin
  covered : ∀ m ∈ s.outstandingMessages.take k, s.Covers absAckno m
  stop : ∀ m, s.outstandingMessages[k]? = some m → ¬ s.Covers absAckno m

theorem acceptAck_spec {s : TCPSender}
    (hi : s.sequenceNumbersInFlight = totalLength s.outstandingMessages % 2 ^ 64)
    (absAckno windowSize : Nat) :
    ∃ k, Accepted s absAckno windowSize k (s.acceptAck absAckno windowSize) := by
  obtain ⟨k, h1, h2, h3, h4⟩ := ackLoop_spec s absAckno s.outstandingMessages 0
  rw [← hi, Nat.zero_add] at h2
  refine ⟨k, ?_⟩
  unfold acceptAck
  rw [h2]
  generalize hn : totalLength (s.outstandingMessages.drop k) % 2 ^ 64 = n
  have hsp : ∀ W : Nat, (if W ≥ n then W - n else 0) = W - n := fun W => by split <;> omega
  by_cases hk : k = 0
  · subst hk
    simp only [List.drop_zero] at hn
    simp only [ne_eq, not_true_eq_false, if_false]
    split
    · exact ⟨h1, rfl, hn.symm, rfl, rfl, rfl, fun h => absurd rfl h, fun _ => ⟨rfl, rfl, rfl⟩,
        ⟨rfl, rfl, rfl, rfl, rfl, rfl⟩, h3, h4⟩
    · exact ⟨h1, rfl, hn.symm, rfl, by show 0 = windowSize - n; omega, rfl,
        fun h => absurd rfl h, fun _ => ⟨rfl, rfl, rfl⟩, ⟨rfl, rfl, rfl, rfl, rfl, rfl⟩, h3, h4⟩
  · simp only [ne_eq, hk, not_false_eq_true, if_true]
    split
    · exact ⟨h1, rfl, hn.symm, rfl, rfl, rfl, fun _ => ⟨rfl, rfl, rfl⟩, fun h => absurd h hk,
        ⟨rfl, rfl, rfl, rfl, rfl, rfl⟩, h3, h4⟩
    · exact ⟨h1, rfl, hn.symm, rfl, by show 0 = windowSize - n; omega, rfl,
        fun _ => ⟨rfl, rfl, rfl⟩, fun h => absurd h hk, ⟨rfl, rfl, rfl, rfl, rfl, rfl⟩, h3, h4⟩

/-- The absolute ackno of a message, as the sender reads it. -/
def absAckno (s : TCPSender) (ackno : Wrap32) : Nat := ackno.unwrap s.isn s.nextAbsSeqno

/-- A receive does nothing, or accepts a valid acknowledgment. -/
theorem receive_spec {s : TCPSender}
    (hi : s.sequenceNumbersInFlight = totalLength s.outstandingMessages % 2 ^ 64)
    (msg : TCPReceiverMessage) :
    ((msg.ackno = none ∨ ∃ a, msg.ackno = some a ∧ s.validAck (s.absAckno a) = false) ∧
      s.receive msg = s) ∨
    ∃ a k, msg.ackno = some a ∧ s.validAck (s.absAckno a) = true ∧
      s.receive msg = s.acceptAck (s.absAckno a) msg.windowSize.toNat ∧
      Accepted s (s.absAckno a) msg.windowSize.toNat k (s.receive msg) := by
  cases ha : msg.ackno with
  | none => exact .inl ⟨.inl rfl, by unfold receive; rw [ha]⟩
  | some a =>
    cases hv : s.validAck (s.absAckno a) with
    | false =>
      refine .inl ⟨.inr ⟨a, rfl, hv⟩, ?_⟩
      unfold receive absAckno at *
      simp only [ha, hv, Bool.not_false, if_true]
    | true =>
      have he : s.receive msg = s.acceptAck (s.absAckno a) msg.windowSize.toNat := by
        unfold receive absAckno at *
        simp only [ha, hv, Bool.not_true, Bool.false_eq_true, if_false]
      obtain ⟨k, hk⟩ := acceptAck_spec hi (s.absAckno a) msg.windowSize.toNat
      exact .inr ⟨a, k, rfl, hv, he, he ▸ hk⟩

theorem validAck_iff {s : TCPSender} {A : Nat} : s.validAck A = true ↔
    A ≤ s.nextAbsSeqno ∧
      ∀ m rest, s.outstandingMessages = m :: rest → s.startOf m ≤ A := by
  unfold validAck
  split
  · rename_i hA
    cases ho : s.outstandingMessages with
    | nil => simp [hA]
    | cons x xs => simp [hA]
  · rename_i hA
    simp [hA]

/-! ## One tick -/

/-- What a tick does while something is outstanding. -/
structure Ticked (s : TCPSender) (m : TCPSenderMessage) (ms : Nat) (s' : TCPSender) : Prop where
  frame : s'.isn = s.isn ∧ s'.initialRTOms = s.initialRTOms ∧
    s'.outstandingMessages = s.outstandingMessages ∧ s'.nextAbsSeqno = s.nextAbsSeqno ∧
    s'.sequenceNumbersInFlight = s.sequenceNumbersInFlight ∧ s'.syn = s.syn ∧ s'.fin = s.fin ∧
    s'.receiverWindowSize = s.receiverWindowSize ∧
    s'.receiverWindowSpace = s.receiverWindowSpace ∧ s'.freeWindow = s.freeWindow
  wait : add64 s.timeElapsed ms < s.retransmissionTimeout →
    s'.sendMessages = s.sendMessages ∧ s'.timeElapsed = add64 s.timeElapsed ms ∧
    s'.retransmissionTimeout = s.retransmissionTimeout ∧
    s'.consecutiveRetransmissions = s.consecutiveRetransmissions
  resend : s.retransmissionTimeout ≤ add64 s.timeElapsed ms →
    s'.sendMessages = s.sendMessages ++ [m] ∧ s'.timeElapsed = 0
  backoff : s.retransmissionTimeout ≤ add64 s.timeElapsed ms →
    (s.receiverWindowSize ≠ 0 ∨ m.SYN = true) ∧ s.freeWindow = false →
    s'.retransmissionTimeout = s.retransmissionTimeout * 2 % 2 ^ 64 ∧
    s'.consecutiveRetransmissions = add64 s.consecutiveRetransmissions 1
  steady : s.retransmissionTimeout ≤ add64 s.timeElapsed ms →
    ¬ ((s.receiverWindowSize ≠ 0 ∨ m.SYN = true) ∧ s.freeWindow = false) →
    s'.retransmissionTimeout = s.retransmissionTimeout ∧
    s'.consecutiveRetransmissions = s.consecutiveRetransmissions

theorem tick_nil {s : TCPSender} (h : s.outstandingMessages = []) (ms : Nat) : s.tick ms = s := by
  unfold tick; rw [h]

theorem tick_spec {s : TCPSender} {m : TCPSenderMessage} {rest : List TCPSenderMessage}
    (h : s.outstandingMessages = m :: rest) (ms : Nat) : Ticked s m ms (s.tick ms) := by
  unfold tick
  simp only [h]
  by_cases ht : s.retransmissionTimeout ≤ add64 s.timeElapsed ms
  · rw [if_pos ht]
    by_cases hb : (s.receiverWindowSize ≠ 0 ∨ m.SYN = true) ∧ s.freeWindow = false
    · rw [if_pos (by simpa using hb)]
      exact ⟨⟨rfl, rfl, h.symm, rfl, rfl, rfl, rfl, rfl, rfl, rfl⟩, fun h' => absurd h' (by omega),
        fun _ => ⟨rfl, rfl⟩, fun _ _ => ⟨rfl, rfl⟩, fun _ h' => absurd hb h'⟩
    · rw [if_neg (by simpa using hb)]
      exact ⟨⟨rfl, rfl, h.symm, rfl, rfl, rfl, rfl, rfl, rfl, rfl⟩, fun h' => absurd h' (by omega),
        fun _ => ⟨rfl, rfl⟩, fun _ h' => absurd h' hb, fun _ _ => ⟨rfl, rfl⟩⟩
  · rw [if_neg ht]
    exact ⟨⟨rfl, rfl, h.symm, rfl, rfl, rfl, rfl, rfl, rfl, rfl⟩, fun _ => ⟨rfl, rfl, rfl, rfl⟩,
      fun h' => absurd h' ht, fun h' => absurd h' ht, fun h' => absurd h' ht⟩

end TCPSender
end StreamSocket.L2
