import StreamSocket.L2Machine.TcpReceiver
import StreamSocket.L2Machine.TcpSegment
import StreamSocket.L2Machine.TcpSender

/-!
# TCPPeer: one end of a connection

A sender on the outbound stream, a receiver and a reassembler on the inbound
one, and a flag that a reply is due. `receive` hands the two halves of a
segment to sender and receiver; `maybe_send` pushes once there is something to
acknowledge, and falls back on an empty message if a reply is due.

Results:
* `pushIfAlive_cases`, `maybeSend_cases`: what `maybe_send` does to the sender,
  and which message it returns.
* `receive_cases`: a receive sets the error, or feeds both halves.
-/
namespace StreamSocket.L2

open L1

/-- mirrors src/util/tcp_config.hh:14-24 -/
structure TCPConfig where
  rtTimeout : UInt16 := 1000
  recvCapacity : Nat := 64000
  sendCapacity : Nat := 64000
  fixedIsn : Option Wrap32 := none
  deriving DecidableEq, Repr

/-- mirrors src/util/tcp_peer.hh:14-21 -/
structure TCPPeer where
  sender : TCPSender
  receiver : TCPReceiver := {}
  reassembler : Reassembler := {}
  outboundStream : ByteStream
  inboundStream : ByteStream
  needSend : Bool := false
  deriving DecidableEq, Repr

namespace TCPPeer

/-- `randomDevice` is the initial sequence number if none is fixed.
mirrors src/util/tcp_peer.hh:15-24, src/src/tcp_sender.cc:9-11 -/
def new (cfg : TCPConfig) (randomDevice : Wrap32) : TCPPeer :=
  { sender :=
      { isn := cfg.fixedIsn.getD randomDevice
        initialRTOms := cfg.rtTimeout.toNat
        retransmissionTimeout := cfg.rtTimeout.toNat }
    outboundStream := .new cfg.sendCapacity
    inboundStream := .new cfg.recvCapacity }

/-- mirrors src/util/tcp_peer.hh:29 -/
def push (p : TCPPeer) : Except String TCPPeer :=
  (p.sender.push p.outboundStream).map fun (sender, outboundStream) =>
    { p with sender := sender, outboundStream := outboundStream }

/-- mirrors src/util/tcp_peer.hh:30 -/
def tick (p : TCPPeer) (msSinceLastTick : Nat) : TCPPeer :=
  { p with sender := p.sender.tick msSinceLastTick }

/-- The TCPReceiver's half of the next segment.
mirrors src/util/tcp_peer.hh:32, 56, 65 -/
def receiverMsg (p : TCPPeer) : TCPReceiverMessage := p.receiver.send p.inboundStream

/-- mirrors src/util/tcp_peer.hh:34-41 -/
def active (p : TCPPeer) : Bool :=
  if Reader.hasError p.inboundStream then false
  else
    !Reader.isFinished p.outboundStream || !Writer.isClosed p.inboundStream ||
      p.sender.sequenceNumbersInFlight != 0

/-- A segment that ends just before our ackno asks for a reply.
mirrors src/util/tcp_peer.hh:57 -/
def keepAlive (p : TCPPeer) (m : TCPSenderMessage) : Bool :=
  p.receiverMsg.ackno = some (m.seqno.add 1)

/-- `none` only where `TCPReceiver::receive` is.
mirrors src/util/tcp_peer.hh:43-60 -/
def receive (p : TCPPeer) (seg : TCPSegment) : Option TCPPeer :=
  if seg.reset || Reader.hasError p.inboundStream then
    some { p with inboundStream := Writer.setError p.inboundStream }
  else
    (p.receiver.receive seg.senderMessage p.reassembler p.inboundStream).map
      fun (receiver, reassembler, inboundStream) =>
        { p with
          sender := p.sender.receive seg.receiverMessage
          receiver := receiver
          reassembler := reassembler
          inboundStream := inboundStream
          needSend := p.needSend || decide (seg.senderMessage.sequenceLength > 0) ||
            p.keepAlive seg.senderMessage }

/-- mirrors src/util/tcp_peer.hh:68-70 -/
def pushIfAlive (p : TCPPeer) : Except String TCPPeer :=
  if p.receiverMsg.ackno.isSome then p.push else .ok p

/-- mirrors src/util/tcp_peer.hh:62-88 -/
def maybeSend (p : TCPPeer) : Except String (TCPPeer × Option TCPSegment) :=
  let receiverMsg := p.receiverMsg
  p.pushIfAlive.map fun p =>
    let (sender, senderMsg) := p.sender.maybeSend
    let senderMsg :=
      if p.needSend && senderMsg.isNone then some sender.sendEmptyMessage else senderMsg
    ({ p with sender := sender, needSend := false },
      senderMsg.map fun m =>
        { senderMessage := m
          receiverMessage := receiverMsg
          reset := Reader.hasError p.outboundStream || Reader.hasError p.inboundStream })

/-! ## One call -/

theorem pushIfAlive_cases {p p' : TCPPeer} (h : p.pushIfAlive = .ok p') :
    (p.receiverMsg.ackno = none ∧ p' = p) ∨
      ∃ sender out, p.receiverMsg.ackno ≠ none ∧
        p.sender.push p.outboundStream = .ok (sender, out) ∧
        p' = { p with sender := sender, outboundStream := out } := by
  unfold pushIfAlive at h
  cases ha : p.receiverMsg.ackno with
  | none =>
    rw [ha] at h
    exact .inl ⟨rfl, (Except.ok.inj h).symm⟩
  | some a =>
    rw [ha] at h
    refine .inr ?_
    change p.push = .ok p' at h
    unfold push at h
    cases hp : p.sender.push p.outboundStream with
    | error e => rw [hp] at h; cases h
    | ok q =>
      rw [hp] at h
      cases h
      exact ⟨q.1, q.2, Option.some_ne_none a, rfl, rfl⟩

/-- What `maybe_send` leaves, and what it sends, after the push (if any). -/
theorem maybeSend_cases {p p' : TCPPeer} {seg : Option TCPSegment}
    (h : p.maybeSend = .ok (p', seg)) : ∃ p₁, p.pushIfAlive = .ok p₁ ∧
      p' = { p₁ with sender := p₁.sender.maybeSend.1, needSend := false } ∧
      ((∃ m, p₁.sender.maybeSend.2 = some m ∧ ∃ reset, seg =
          some { senderMessage := m, receiverMessage := p.receiverMsg, reset := reset }) ∨
        (p₁.sender.maybeSend.2 = none ∧ p₁.needSend = true ∧ ∃ reset, seg =
          some { senderMessage := p'.sender.sendEmptyMessage, receiverMessage := p.receiverMsg,
                 reset := reset }) ∨
        (p₁.sender.maybeSend.2 = none ∧ p₁.needSend = false ∧ seg = none)) := by
  unfold maybeSend at h
  cases hp : p.pushIfAlive with
  | error e => rw [hp] at h; cases h
  | ok p₁ =>
    rw [hp] at h
    refine ⟨p₁, rfl, ?_⟩
    rcases hm : p₁.sender.maybeSend with ⟨sender, m⟩
    simp only [Except.map, hm, Except.ok.injEq, Prod.mk.injEq] at h ⊢
    obtain ⟨rfl, rfl⟩ := h
    refine ⟨rfl, ?_⟩
    cases m with
    | some m => exact .inl ⟨m, rfl, by simp⟩
    | none =>
      cases hn : p₁.needSend with
      | true => exact .inr (.inl ⟨rfl, rfl, by simp⟩)
      | false => exact .inr (.inr ⟨rfl, rfl, by simp⟩)

/-- A receive sets the error of the inbound stream, or feeds both halves. -/
theorem receive_cases {p p' : TCPPeer} {seg : TCPSegment} (h : p.receive seg = some p') :
    ((seg.reset = true ∨ Reader.hasError p.inboundStream = true) ∧
      p' = { p with inboundStream := Writer.setError p.inboundStream }) ∨
    ∃ receiver reassembler inbound, seg.reset = false ∧
      p.receiver.receive seg.senderMessage p.reassembler p.inboundStream =
        some (receiver, reassembler, inbound) ∧
      p' = { p with
        sender := p.sender.receive seg.receiverMessage
        receiver := receiver
        reassembler := reassembler
        inboundStream := inbound
        needSend := p.needSend || decide (seg.senderMessage.sequenceLength > 0) ||
          p.keepAlive seg.senderMessage } := by
  unfold receive at h
  split at h
  · rename_i he
    exact .inl ⟨Bool.or_eq_true_iff.mp he, (Option.some.inj h).symm⟩
  · rename_i he
    obtain ⟨⟨receiver, reassembler, inbound⟩, h1, h2⟩ := Option.map_eq_some_iff.mp h
    have hr : seg.reset = false := by
      cases hr : seg.reset with
      | false => rfl
      | true => rw [hr] at he; exact absurd rfl he
    exact .inr ⟨receiver, reassembler, inbound, hr, h1, h2.symm⟩

end TCPPeer
end StreamSocket.L2
