import StreamSocket.L3Protocol.SenderPush
import StreamSocket.L4System.Calm

/-!
# Two TCPPeers over any network: nothing gets stuck

Safety (`Network`) allows a connection that never moves. Here: from every
reachable state, if the network loses all that is on its way, calm steps alone
bring all that `y` has written to the other application, as long as no stream
has an error, `y` has not closed, and the other side has room for one byte.

The schedule is the one the protocol is made for. The other side reads what it
has, `y` waits until its timer expires, sends until the oldest outstanding
message is out again, and the other side hears it and answers.

* `hears`: a receiver with room that hears the oldest outstanding message gets
  new bytes, or has all of it.
* `round`: one such round, after which the other side has more bytes or the
  sender has less to keep.
* `delivers_all`: the rounds end with all bytes read and acknowledged.
-/
namespace StreamSocket.L3

open L1 L2 FirstWins

/-! ## The receiver hears a message -/

theorem recordSyn_opens {t t' : TCPReceiver} {m : TCPSenderMessage} {r r' : Reassembler}
    {inbound inbound' : ByteStream} (hs : (t.recordSyn m).syn = true)
    (h : t.receive m r inbound = some (t', r', inbound')) : t'.syn = true := by
  unfold TCPReceiver.receive at h
  split at h
  · rename_i hno
    rw [Bool.and_eq_true, Bool.not_eq_true', Bool.not_eq_true'] at hno
    unfold TCPReceiver.recordSyn at hs
    rw [hno.2, Bool.false_and, if_neg Bool.false_ne_true, hno.1] at hs
    cases hs
  · dsimp only at h
    split at h
    · obtain ⟨_, -, h2⟩ := Option.map_eq_some_iff.mp h
      rw [← (Prod.mk.inj h2).1, TCPReceiver.recordFin_syn, hs]
    · rw [← (Prod.mk.inj (Option.some.inj h)).1, hs]

/-- What the receiver knows after a message of the log whose first byte it
waits for, or is past: new bytes, or all of the message. -/
structure Heard (log : List TCPSenderMessage) (i : Nat) (b b' : Inbox) : Prop where
  opened : b'.t.syn = true
  grown : b.pushed.length < b'.pushed.length ∨
    (payloads (log.take (i + 1))).length ≤ b'.pushed.length

theorem payloads_take_succ {log : List TCPSenderMessage} {i : Nat} {m : TCPSenderMessage}
    (hm : log[i]? = some m) : payloads (log.take (i + 1)) = payloads (log.take i) ++ m.payload := by
  rw [List.take_add_one, hm, payloads_append, Option.toList_some, payloads_cons, payloads_nil,
    List.append_nil]

theorem Follows.hears {log : List TCPSenderMessage} {isn : Wrap32} {b : Inbox}
    (h : Follows log isn b) (hn : Numbering log isn) {i : Nat} {m : TCPSenderMessage}
    (hm : log[i]? = some m) (hlog : (payloads log).length < 2 ^ 31)
    (hfin : ∀ x ∈ log, x.FIN = false) (hsyn : i ≠ 0 → b.t.syn = true)
    (hplace : (payloads (log.take i)).length ≤ b.pushed.length)
    (hroom : b.inbound.stream.length < b.inbound.capacity) :
    ∃ b', b.receive m = some b' ∧ Heard log i b b' := by
  have hpush := h.isPrefix.length_le
  have hlt : b.pushed.length < 2 ^ 62 := by omega
  have hu := hn.readsBack hm hlog hpush
  obtain ⟨b', h1, h2, h3, h4⟩ := h.receive (h.belongs hn hm hu) hlt
  have hopen : (b.t.recordSyn m).syn = true := by
    by_cases h0 : i = 0
    · refine TCPReceiver.recordSyn_syn ?_
      rw [(hn.SYN i m hm).mpr h0]
      simp
    · rw [TCPReceiver.recordSyn_of_syn (hsyn h0), hsyn h0]
  have hfin0 : b.t.fin = false := by
    by_contra hne
    obtain ⟨x, hx, hxf⟩ := h.FIN (Bool.not_eq_false _ ▸ hne)
    rw [hfin x hx] at hxf
    cases hxf
  refine ⟨b', h1, ?_, ?_⟩
  · obtain ⟨⟨t, r, inbound⟩, hr, rfl⟩ := Option.map_eq_some_iff.mp h1
    exact recordSyn_opens hopen hr
  by_cases hall : (payloads (log.take (i + 1))).length ≤ b.pushed.length
  · exact .inr (hall.trans h3.length_le)
  left
  rw [payloads_take_succ hm, List.length_append] at hall
  have hilt := (List.getElem?_eq_some_iff.mp hm).1
  -- the message covers the byte that `b` waits for, so it passes the window test
  have habs : (b.t.recordSyn m).absSeqno m b.inbound =
      (if i = 0 then 0 else 1) + (payloads (log.take i)).length := by
    unfold TCPReceiver.absSeqno
    rw [h.recordSyn_isn hn hm hopen, h.bytesPushed, hu, hn.totalLength_take hilt]
  have hSYN : m.SYN.toNat = if i = 0 then 1 else 0 := by
    have := hn.SYN i m hm
    split
    · rename_i h0
      rw [this.mpr h0]
      rfl
    · rename_i h0
      rw [Bool.eq_false_iff.mpr fun hs => h0 (this.mp hs)]
      rfl
  have hlen : m.sequenceLength = (if i = 0 then 1 else 0) + m.payload.length := by
    unfold TCPSenderMessage.sequenceLength
    rw [hSYN, hfin m (List.mem_of_getElem? hm)]
    rfl
  have hcap := h.cap
  have hmlen := hn.short m (List.mem_of_getElem? hm)
  have hmax : maxPayloadSize = 1000 := rfl
  have hover : (b.t.recordSyn m).Overlaps m b.inbound := by
    have hack : (b.t.recordSyn m).lastAckAbsSeqno b.inbound = b.pushed.length + 1 := by
      rw [TCPReceiver.lastAckAbsSeqno_eq (by rw [h.bytesPushed]; omega), h.bytesPushed,
        TCPReceiver.recordSyn_fin, hfin0]
      rfl
    have hspace : Writer.availableCapacity b.inbound =
        b.inbound.capacity - b.inbound.stream.length := h.history.inv.out.available
    unfold TCPReceiver.Overlaps
    rw [habs, hack, hspace, hlen, add64_of_lt (by omega)]
    have hsmall : (if i = 0 then 0 else 1) + (payloads (log.take i)).length +
        ((if i = 0 then 1 else 0) + m.payload.length) < 2 ^ 64 := by split <;> omega
    rw [add64_of_lt hsmall]
    constructor <;> split <;> omega
  cases h4 with
  | kept hno => exact absurd ⟨hopen, hover⟩ hno
  | stored tmp _ _ hpop _ hin =>
    have hfirst := h.streamIndex hn hm hu hopen
    rw [hfirst] at hin
    have hb : b.pushed.length = b.r.baseIndex := h.history.pushed.symm
    have hpushed : b'.pushed = b.pushed ++ tmp := by
      unfold Inbox.pushed
      rw [hpop, hin.stream, List.append_assoc]
    have hheld := hin.held b.pushed hb b.pushed.length
    rw [← hpushed] at hheld
    by_contra hge
    have hsame : b'.pushed = b.pushed :=
      (h3.eq_of_length (Nat.le_antisymm h3.length_le (Nat.not_lt.mp hge))).symm
    -- the byte would be held and missing
    have hgap := h2.history.front.gap
    change b'.r.held b'.pushed b'.pushed.length = none at hgap
    rw [hsame] at hgap hheld
    rw [hgap] at hheld
    have hsome : (offer (b.r.held b.pushed) b.r.baseIndex
        (b.r.baseIndex + (b.inbound.capacity - b.inbound.stream.length))
        (payloads (log.take i)).length m.payload b.pushed.length).isSome = true :=
      offer_isSome.mpr (.inr ⟨by omega, by omega, hplace, by omega⟩)
    rw [← hheld] at hsome
    cases hsome

end StreamSocket.L3

namespace StreamSocket.L4.Network

open L1 L2 L3
open L3.PeerPair (Side ofApp inbox)

/-! ## Steps that can always be taken -/

/-- The peer after the push that `maybe_send` begins with. -/
structure PushedTo (p : PeerRun.State) (p₁ : TCPPeer) (ms : List TCPSenderMessage) : Prop where
  queued : p₁.sender.sendMessages = p.peer.sender.sendMessages ++ ms
  outstanding : p₁.sender.outstandingMessages = p.peer.sender.outstandingMessages ++ ms
  memory : totalLength p₁.sender.outstandingMessages < 2 ^ 64
  inbound : p₁.receiver = p.peer.receiver ∧ p₁.reassembler = p.peer.reassembler ∧
    p₁.inboundStream = p.peer.inboundStream
  needSend : p₁.needSend = p.peer.needSend
  error : Reader.hasError p₁.outboundStream = Reader.hasError p.peer.outboundStream

section

variable {p : PeerRun.State}

/-- A push creates no more than there are bytes, so it all fits in memory. -/
theorem exists_push (hi : PeerRun.Inv p) (hw : p.written.length < 2 ^ 31) :
    ∃ x' b' ms, p.peer.sender.push p.peer.outboundStream = .ok (x', b') ∧
      PushedTo p { p.peer with sender := x', outboundStream := b' } ms := by
  obtain ⟨x', b', ms, h1, h2, -, h4, hc⟩ := hi.log.push hi.out
  refine ⟨x', b', ms, h1, SenderRun.run_queued h2, hc.outstanding, ?_, ⟨rfl, rfl, rfl⟩, rfl,
    creation_error h2⟩
  have hwritten := congrArg List.length hi.written
  rw [hc.stream, ← List.append_assoc, ← payloads_append, List.length_append] at hwritten
  have htot := h4.numbering.totalLength_le
  obtain ⟨acked, hlog⟩ := h4.suffix
  rw [← hlog, totalLength_append] at htot
  rw [← hlog] at hwritten
  show totalLength x'.outstandingMessages < 2 ^ 64
  omega

theorem exists_pushIfAlive (hi : PeerRun.Inv p) (hw : p.written.length < 2 ^ 31) :
    ∃ p₁ ms, p.peer.pushIfAlive = .ok p₁ ∧ PushedTo p p₁ ms := by
  unfold TCPPeer.pushIfAlive
  split
  · obtain ⟨x', b', ms, h1, h2⟩ := exists_push hi hw
    refine ⟨_, ms, ?_, h2⟩
    unfold TCPPeer.push
    rw [h1]
    rfl
  · exact ⟨p.peer, [], rfl, by simp, by simp, hi.memory, ⟨rfl, rfl, rfl⟩, rfl, rfl⟩

theorem maybeSend_eq {q p₁ : TCPPeer} (h : q.pushIfAlive = .ok p₁) : q.maybeSend =
    .ok ({ p₁ with sender := p₁.sender.maybeSend.1, needSend := false },
      (if p₁.needSend && p₁.sender.maybeSend.2.isNone then
        some p₁.sender.maybeSend.1.sendEmptyMessage else p₁.sender.maybeSend.2).map fun m =>
          { senderMessage := m, receiverMessage := q.receiverMsg,
            reset := Reader.hasError p₁.outboundStream || Reader.hasError p₁.inboundStream }) := by
  unfold TCPPeer.maybeSend
  rw [h]
  rfl

/-- `maybe_send` has returned `seg`. -/
structure Said (p q : PeerRun.State) (seg : TCPSegment) : Prop where
  step : PeerRun.step p .maybeSend = some q
  returned : q.returned = some (some seg)
  acked : q.acked = p.acked
  outstanding : ∃ ms,
    q.peer.sender.outstandingMessages = p.peer.sender.outstandingMessages ++ ms
  inbound : q.peer.inboundStream = p.peer.inboundStream
  ackno : seg.receiverMessage = p.peer.receiverMsg
  reset : Alive p.peer → seg.reset = false
  message : ∀ x xs, p.peer.sender.sendMessages = x :: xs →
    seg.senderMessage = x ∧ ∃ new, q.peer.sender.sendMessages = xs ++ new

/-- With a message queued, or a reply due, `maybe_send` returns a segment. -/
theorem exists_said (hi : PeerRun.Inv p) (hw : p.written.length < 2 ^ 31)
    (h : p.peer.sender.sendMessages ≠ [] ∨ p.peer.needSend = true) : ∃ q seg, Said p q seg := by
  obtain ⟨p₁, ms, h1, hp⟩ := exists_pushIfAlive hi hw
  have heq := maybeSend_eq h1
  have hout : p₁.sender.maybeSend.1.outstandingMessages = p₁.sender.outstandingMessages :=
    (PeerRun.maybeSend_frame p₁.sender).1
  have hmem : PeerRun.InMemory
      { p₁ with sender := p₁.sender.maybeSend.1, needSend := false } := by
    unfold PeerRun.InMemory
    rw [hout]
    exact hp.memory
  obtain ⟨m, hm, hmsg⟩ : ∃ m, (if p₁.needSend && p₁.sender.maybeSend.2.isNone then
      some p₁.sender.maybeSend.1.sendEmptyMessage else p₁.sender.maybeSend.2) = some m ∧
        ∀ x xs, p.peer.sender.sendMessages = x :: xs →
          m = x ∧ p₁.sender.maybeSend.1.sendMessages = xs ++ ms := by
    cases hq : p.peer.sender.sendMessages with
    | nil =>
      have hneed := h.resolve_left fun hne => hne hq
      rw [hp.needSend, hneed, Bool.true_and]
      cases p₁.sender.maybeSend.2 with
      | none => exact ⟨_, rfl, fun _ _ he => nomatch he⟩
      | some m => exact ⟨m, rfl, fun _ _ he => nomatch he⟩
    | cons x xs =>
      have hqueue := hp.queued
      rw [hq, List.cons_append] at hqueue
      have hsend : p₁.sender.maybeSend = ({ p₁.sender with sendMessages := xs ++ ms }, some x) := by
        unfold TCPSender.maybeSend
        rw [hqueue]
      refine ⟨x, by rw [hsend]; simp, fun y ys he => ?_⟩
      cases he
      rw [hsend]
      exact ⟨rfl, rfl⟩
  rw [hm, Option.map_some] at heq
  let seg : TCPSegment :=
    { senderMessage := m, receiverMessage := p.peer.receiverMsg,
      reset := Reader.hasError p₁.outboundStream || Reader.hasError p₁.inboundStream }
  refine ⟨{ p.pushed { p₁ with sender := p₁.sender.maybeSend.1, needSend := false } with
    returned := some (some seg) }, seg, ?_, rfl, rfl, ⟨ms, hout.trans hp.outstanding⟩,
    hp.inbound.2.2, rfl, fun ha => ?_, fun x xs hx => ?_⟩
  · simp only [PeerRun.step, heq, Except.toOption, Option.bind_some, if_pos hmem]
    rfl
  · show (Reader.hasError p₁.outboundStream || Reader.hasError p₁.inboundStream) = false
    rw [hp.error, hp.inbound.2.2, ha.inbound, ha.outbound]
    rfl
  · obtain ⟨h2, h3⟩ := hmsg x xs hx
    exact ⟨h2, ms, h3⟩

end

/-- Without error and reset both halves of a segment are fed. -/
theorem receive_step {p : PeerRun.State} {seg : TCPSegment} (hr : seg.reset = false)
    (ha : Alive p.peer) {t : TCPReceiver} {r : Reassembler} {inbound : ByteStream}
    (h : p.peer.receiver.receive seg.senderMessage p.peer.reassembler p.peer.inboundStream =
      some (t, r, inbound)) : PeerRun.step p (.receive seg) = some (p.received { p.peer with
        sender := p.peer.sender.receive seg.receiverMessage
        receiver := t
        reassembler := r
        inboundStream := inbound
        needSend := p.peer.needSend || decide (seg.senderMessage.sequenceLength > 0) ||
          p.peer.keepAlive seg.senderMessage }) := by
  simp only [PeerRun.step, TCPPeer.receive, hr, ha.inbound, h]
  rfl

/-! ## The rounds of the schedule -/

/-- The oldest message that `y` still keeps, after the acknowledged ones. -/
structure Oldest (s : State) (y : Side) (acked : List TCPSenderMessage)
    (m : TCPSenderMessage) : Prop where
  acked : (s.peer y).acked = acked
  head : ∃ rest, (s.peer y).peer.sender.outstandingMessages = m :: rest

/-- All that `y` has written is sent and acknowledged. -/
structure AllAcked (s : State) (y : Side) : Prop where
  outstanding : (s.peer y).peer.sender.outstandingMessages = []
  stream : (s.peer y).peer.outboundStream.stream = []

section

variable {before : Side → Nat} {s : State} {y : Side}

@[simp] theorem set_pushed (s : State) (y : Side) (q : PeerRun.State) (got : Bytes)
    (net : List TCPSegment) : (s.set y q got net).pushed y = s.pushed y := by
  simp [State.pushed]

theorem Live.not_fin (h : Live before s y) : ∀ x ∈ (s.peer y).log, x.FIN = false := by
  intro x hx
  have hf := (h.inv.ended y).not_fin (h.inv.peer y) h.unclosed
  cases hxf : x.FIN with
  | false => rfl
  | true =>
    rw [(h.inv.peer y).log.sealed.mpr ⟨x, hx, hxf⟩] at hf
    cases hf

theorem app_step {z : Side} {l : PeerRun.Label} {q : PeerRun.State} (ha : ofApp l = true)
    (hq : PeerRun.step (s.peer z) l = some q) : step s (.app z l) =
      some (s.set z q (s.got z ++ taken (s.peer z).peer q.peer) (s.net z)) := by
  simp only [step, ha, if_true, hq, Option.map_some]

/-- After a push something is outstanding, unless nothing is left to do: with
nothing outstanding the whole window is free, and a shut one is probed. -/
theorem Live.stocks (h : Live before s y) : ∃ s', Relays before y s s' ∧
    (AllAcked s' y ∨ ∃ m, Oldest s' y (s.peer y).acked m) := by
  obtain ⟨x', b', ms, hx, hp⟩ := exists_push (h.inv.peer y) (h.inv.short y)
  have hq : PeerRun.step (s.peer y) .push =
      some ((s.peer y).pushed { (s.peer y).peer with sender := x', outboundStream := b' }) := by
    simp only [PeerRun.step, TCPPeer.push, hx, Except.map, Except.toOption, Option.bind_some]
    exact if_pos hp.memory
  have hr := h.relays (app_step rfl hq) trivial (by simp)
  refine ⟨_, hr, ?_⟩
  cases ho : x'.outstandingMessages with
  | cons m rest =>
    refine .inr ⟨m, by simp [PeerRun.State.pushed], rest, ?_⟩
    rw [set_peer_self]
    exact ho
  | nil =>
    obtain ⟨hi, hhalt⟩ := (h.inv.peer y).push hx hp.memory
    refine .inl ⟨by rw [set_peer_self]; exact ho, ?_⟩
    have hf := (hr.live.inv.ended y).not_fin (hr.live.inv.peer y) hr.live.unclosed
    simp only [set_peer_self] at hf ⊢
    have hidle := hi.idle ho
    by_contra hne
    have hwork : TCPSender.Work b' := .inl fun h0 =>
      hne (List.length_eq_zero_iff.mp (hi.out.buffered.symm.trans h0))
    obtain ⟨h1, h2⟩ := hhalt ho hf hwork
    exact h2 (hidle.symm.trans h1)

/-- The timer expires, and the oldest message is queued again. -/
theorem Live.queues (h : Live before s y) {acked : List TCPSenderMessage} {m : TCPSenderMessage}
    (ho : Oldest s y acked m) : ∃ s', Relays before y s s' ∧ Oldest s' y acked m ∧
      m ∈ (s'.peer y).peer.sender.sendMessages := by
  obtain ⟨rest, hhead⟩ := ho.head
  let ms := (s.peer y).peer.sender.retransmissionTimeout - (s.peer y).peer.sender.timeElapsed
  have hq : PeerRun.step (s.peer y) (.tick ms) = some { s.peer y with
    peer := (s.peer y).peer.tick ms, returned := none } := rfl
  refine ⟨_, h.relays (app_step rfl hq) trivial (by simp), ⟨?_, rest, ?_⟩, ?_⟩
  · simpa using ho.acked
  · simp only [set_peer_self]
    exact (TCPSender.tick_spec hhead ms).frame.2.2.1.trans hhead
  · simp only [set_peer_self]
    show m ∈ ((s.peer y).peer.sender.tick ms).sendMessages
    rw [tick_expires (h.clock y) hhead]
    exact List.mem_append_right _ (List.mem_singleton_self m)

/-- `m` was sent, and not before the schedule began. -/
def Sent (before : Side → Nat) (s : State) (y : Side) (m : TCPSenderMessage) : Prop :=
  ∃ i seg, before y ≤ i ∧ (s.net y)[i]? = some seg ∧ seg.senderMessage = m ∧ seg.reset = false

/-- A queued message goes out after those before it. -/
theorem Live.transmits {acked : List TCPSenderMessage} {m : TCPSenderMessage} :
    ∀ (pre post : List TCPSenderMessage) {s : State}, Live before s y → Oldest s y acked m →
      (s.peer y).peer.sender.sendMessages = pre ++ m :: post →
      ∃ s', Relays before y s s' ∧ Oldest s' y acked m ∧ Sent before s' y m := by
  intro pre
  induction pre with
  | nil =>
    intro post s h ho hq
    obtain ⟨q, seg, hsaid⟩ := exists_said (h.inv.peer y) (h.inv.short y) (.inl (by simp [hq]))
    obtain ⟨rest, hhead⟩ := ho.head
    obtain ⟨ms, hout⟩ := hsaid.outstanding
    obtain ⟨hm, -⟩ := hsaid.message m post hq
    have hs : step s (.send y) = some (s.set y q (s.got y) (s.net y ++ sent q)) := by
      simp only [step, hsaid.step, Option.map_some]
    refine ⟨_, h.relays hs trivial (by simp), ⟨?_, rest ++ ms, ?_⟩, _, seg, h.later y, ?_, hm,
      hsaid.reset (h.alive y)⟩
    · simpa using hsaid.acked.trans ho.acked
    · simp [hout, hhead]
    · simp [sent, hsaid.returned]
  | cons x pre ih =>
    intro post s h ho hq
    obtain ⟨q, seg, hsaid⟩ := exists_said (h.inv.peer y) (h.inv.short y) (.inl (by simp [hq]))
    obtain ⟨rest, hhead⟩ := ho.head
    obtain ⟨ms, hout⟩ := hsaid.outstanding
    obtain ⟨-, new, hnew⟩ := hsaid.message x (pre ++ m :: post) hq
    have hs : step s (.send y) = some (s.set y q (s.got y) (s.net y ++ sent q)) := by
      simp only [step, hsaid.step, Option.map_some]
    have hr := h.relays hs trivial (by simp)
    obtain ⟨s', hr', ho', hsent⟩ := ih (post ++ new) hr.live
      ⟨by simpa using hsaid.acked.trans ho.acked, rest ++ ms, by simp [hout, hhead]⟩
      (by simp [hnew])
    exact ⟨s', hr.trans hr', ho', hsent⟩

/-- The other application reads all that is buffered. -/
theorem Live.reads (h : Live before s y) : ∃ s', Relays before y s s' ∧ s'.peer y = s.peer y ∧
    s'.net y = s.net y ∧ (s'.peer y.other).peer.inboundStream.stream = [] ∧
    s'.got y.other = s.pushed y := by
  have hpop := ByteStream.pop_eq (Nat.le_refl (s.peer y.other).peer.inboundStream.stream.length)
  rw [List.drop_length] at hpop
  obtain ⟨q, hq, hin⟩ : ∃ q, PeerRun.step (s.peer y.other)
      (.read (s.peer y.other).peer.inboundStream.stream.length) = some q ∧
      q.peer.inboundStream = Reader.pop (s.peer y.other).peer.inboundStream
        (s.peer y.other).peer.inboundStream.stream.length := ⟨_, rfl, rfl⟩
  have hnil : q.peer.inboundStream.stream = [] := by rw [hin, hpop]
  have hgot : taken (s.peer y.other).peer q.peer =
      (s.peer y.other).peer.inboundStream.stream := by
    unfold taken
    rw [hnil, List.length_nil, Nat.sub_zero, List.take_length]
  refine ⟨_, h.relays (app_step rfl hq) (Nat.le_refl _) ?_, by simp, by simp, ?_, ?_⟩
  · simp [State.pushed, hnil, hgot]
  · simpa using hnil
  · simp only [set_got_self, hgot]
    rfl

/-- The other side hears the oldest message. -/
theorem Live.hears (h : Live before s y) {acked : List TCPSenderMessage} {m : TCPSenderMessage}
    (ho : Oldest s y acked m) (hsent : Sent before s y m)
    (hread : (s.peer y.other).peer.inboundStream.stream = []) :
    ∃ s', Relays before y s s' ∧ Oldest s' y acked m ∧ (s'.peer y.other).peer.needSend = true ∧
      (s'.peer y.other).peer.receiver.syn = true ∧ ((s.pushed y).length < (s'.pushed y).length ∨
        (payloads (acked ++ [m])).length ≤ (s'.pushed y).length) := by
  obtain ⟨i, seg, hlater, hseg, rfl, hreset⟩ := hsent
  obtain ⟨rest, hhead⟩ := ho.head
  have hi := h.inv.peer y
  have hdir := h.inv.direction y
  have hlog := hi.acked
  rw [ho.acked, hhead] at hlog
  have hget : (s.peer y).log[acked.length]? = some seg.senderMessage := by
    rw [hlog, List.getElem?_append_right (Nat.le_refl _), Nat.sub_self, List.getElem?_cons_zero]
  have htake : (s.peer y).log.take acked.length = acked := by rw [hlog, List.take_left' rfl]
  have hsucc : (s.peer y).log.take (acked.length + 1) = acked ++ [seg.senderMessage] := by
    rw [List.take_add_one, hget, htake, Option.toList_some]
  have hfin := (h.inv.ended y).not_fin hi h.unclosed
  have hplace := hdir.acked hfin
  rw [ho.acked] at hplace
  obtain ⟨b', hb, hheard⟩ := hdir.follows.hears hi.log.numbering hget
    (payloads_lt hi (h.inv.short y)) h.not_fin
    (fun h0 => hdir.opened (by rw [ho.acked]; exact fun hn => h0 (by rw [hn]; rfl)))
    (by rw [htake]; exact hplace) (by
      show (s.peer y.other).peer.inboundStream.stream.length < _
      rw [hread]
      exact h.room)
  obtain ⟨⟨t, r, inbound⟩, hrecv, rfl⟩ := Option.map_eq_some_iff.mp hb
  have hrecv : (s.peer y.other).peer.receiver.receive seg.senderMessage
      (s.peer y.other).peer.reassembler (s.peer y.other).peer.inboundStream =
        some (t, r, inbound) := hrecv
  obtain ⟨q, hq, hpeer⟩ : ∃ q, PeerRun.step (s.peer y.other) (.receive seg) = some q ∧
      q.peer.receiver = t ∧ q.peer.inboundStream = inbound ∧ q.peer.needSend = true := by
    have hpos : 0 < seg.senderMessage.sequenceLength := hi.log.pos _ (List.mem_of_getElem? hget)
    refine ⟨_, receive_step hreset (h.alive y.other) hrecv, rfl, rfl, ?_⟩
    show (_ || decide _ || _) = true
    rw [decide_eq_true hpos, Bool.or_true, Bool.true_or]
  have hs : step s (.receive y.other i) =
      some (s.set y.other q (s.got y.other) (s.net y.other)) := by
    simp only [step, Side.other_other, hseg, Option.bind_some, hq, Option.map_some]
  have hpushed : (s.set y.other q (s.got y.other) (s.net y.other)).pushed y =
      s.got y.other ++ inbound.stream := by
    simp [State.pushed, hpeer.2.1]
  have hgrown := hheard.grown
  rw [hsucc] at hgrown
  have hle : (s.pushed y).length ≤ (s.got y.other ++ inbound.stream).length := by
    rcases hgrown with hlt | hall
    · exact Nat.le_of_lt hlt
    · obtain ⟨t', r', inbound', hr', -, hle⟩ := hdir.inbound (h.inv.peer y) (h.inv.short y)
        (List.mem_of_getElem? hseg)
      rw [hrecv] at hr'
      cases hr'
      exact hle
  refine ⟨_, h.relays hs ?_ (by rw [hpushed]; exact hle), ⟨by simpa using ho.acked, rest, ?_⟩,
    ?_, ?_, ?_⟩
  · rw [Calm, Side.other_other]
    refine ⟨hlater, fun x hx => ?_⟩
    rw [hseg] at hx
    cases hx
    exact hreset
  · simpa using hhead
  · simpa using hpeer.2.2
  · rw [set_peer_self, hpeer.1]
    exact hheard.opened
  · rw [hpushed]
    exact hgrown

/-- An ackno beyond the oldest message removes it. -/
theorem receive_removes {p : PeerRun.State} (hi : PeerRun.Inv p) (hw : p.written.length < 2 ^ 31)
    (hfin : ∀ x ∈ p.log, x.FIN = false) {m : TCPSenderMessage} {rest : List TCPSenderMessage}
    (hhead : p.peer.sender.outstandingMessages = m :: rest) {n : Nat} {W : UInt16}
    (hn : n ≤ totalLength p.log) (hge : totalLength (p.acked ++ [m]) ≤ n) :
    (p.peer.sender.receive ⟨some (Wrap32.wrap n p.peer.sender.isn), W⟩).outstandingMessages.length
      < p.peer.sender.outstandingMessages.length := by
  have hlog := hi.acked
  rw [hhead] at hlog
  have hpay := payloads_lt hi hw
  have hnofin : p.log.any (·.FIN) = false := by
    rw [List.any_eq_false]
    intro x hx
    rw [hfin x hx]
    decide
  have htot := hi.log.numbering.totalLength_eq (by rw [hlog]; simp)
  rw [hnofin, Bool.toNat_false] at htot
  have hnext := hi.log.next
  rw [Nat.mod_eq_of_lt (by omega)] at hnext
  rw [totalLength_append, totalLength_cons, totalLength_nil] at hge
  -- both numbers are read back exactly
  have habs : p.peer.sender.absAckno (Wrap32.wrap n p.peer.sender.isn) = n :=
    Wrap32.unwrap_wrap_of_le _ _ _ (by omega) (by omega) (by omega)
  have hget : p.log[p.acked.length]? = some m := by
    rw [hlog, List.getElem?_append_right (Nat.le_refl _), Nat.sub_self, List.getElem?_cons_zero]
  have hstart : p.peer.sender.startOf m = totalLength p.acked := by
    unfold TCPSender.startOf
    rw [hi.log.numbered _ _ hget, hlog, List.take_left' rfl]
    exact Wrap32.unwrap_wrap_of_le _ _ _ (by omega) (by omega) (by omega)
  rcases TCPSender.receive_spec hi.log.inFlight ⟨some (Wrap32.wrap n p.peer.sender.isn), W⟩ with
    ⟨hno, -⟩ | ⟨a, k, ha, -, -, hk⟩
  · rcases hno with hno | ⟨a, ha, hv⟩
    · cases hno
    · cases ha
      rw [habs] at hv
      rw [TCPSender.validAck_iff.mpr ⟨by omega, fun x xs hx => ?_⟩] at hv
      · cases hv
      · rw [hhead] at hx
        cases hx
        omega
  · cases ha
    rw [habs] at hk
    have hkpos : k ≠ 0 := by
      intro h0
      refine hk.stop m (by rw [h0, hhead, List.getElem?_cons_zero]) ?_
      unfold TCPSender.Covers
      rw [hstart, add64_of_lt (by omega)]
      omega
    have hle := hk.le
    rw [hk.outstanding, List.length_drop]
    omega

/-- The other side answers, and `y` forgets its oldest message. -/
theorem Live.answers (h : Live before s y) {acked : List TCPSenderMessage} {m : TCPSenderMessage}
    (ho : Oldest s y acked m) (hneed : (s.peer y.other).peer.needSend = true)
    (hsyn : (s.peer y.other).peer.receiver.syn = true)
    (hall : (payloads (acked ++ [m])).length ≤ (s.pushed y).length) :
    ∃ s', Relays before y s s' ∧ acked.length < (s'.peer y).acked.length := by
  obtain ⟨q, seg, hsaid⟩ := exists_said (h.inv.peer y.other) (h.inv.short y.other) (.inr hneed)
  obtain ⟨rest, hhead⟩ := ho.head
  have hs : step s (.send y.other) =
      some (s.set y.other q (s.got y.other) (s.net y.other ++ [seg])) := by
    simp only [step, hsaid.step, Option.map_some, sent, hsaid.returned]
    rfl
  have hpush : (s.set y.other q (s.got y.other) (s.net y.other ++ [seg])).pushed y =
      s.pushed y := by
    simp [State.pushed, hsaid.inbound]
  have hr := h.relays hs trivial (by rw [hpush])
  generalize hs₁ : s.set y.other q (s.got y.other) (s.net y.other ++ [seg]) = s₁ at hs hpush hr
  have hpeer : s₁.peer y = s.peer y := by rw [← hs₁]; simp
  have hnet : (s₁.net y.other)[(s.net y.other).length]? = some seg := by rw [← hs₁]; simp
  have hreset := hsaid.reset (h.alive y.other)
  obtain ⟨q', hq'⟩ := (hr.live.inv.safe y).takes seg (List.mem_of_getElem? hnet)
  have hs' : step s₁ (.receive y (s.net y.other).length) =
      some (s₁.set y q' (s₁.got y) (s₁.net y)) := by
    simp only [step, hnet, Option.bind_some, hq', Option.map_some]
  have hr' := hr.live.relays hs' ⟨h.later y.other, fun x hx => by
    rw [hnet] at hx
    cases hx
    exact hreset⟩ (by simp)
  refine ⟨_, hr.trans hr', ?_⟩
  rw [set_peer_self]
  -- the ackno of the answer
  have hi := h.inv.peer y
  have hdir := h.inv.direction y
  have hfin := (h.inv.ended y).not_fin hi h.unclosed
  have hpl := hdir.pushed_lt hi (h.inv.short y)
  have hle := hdir.follows.ackno_le hi.log.numbering hsyn hpl
  have heq := hdir.follows.ackno_eq hpl
  have hack : seg.receiverMessage =
      ⟨some (Wrap32.wrap (inbox (s.peer y.other).peer (s.got y.other)).ackno
        (s.peer y).peer.sender.isn), seg.receiverMessage.windowSize⟩ := by
    have hopened := (hdir.follows.opened hsyn).1
    have hmsg := hsaid.ackno
    unfold TCPPeer.receiverMsg TCPReceiver.send at hmsg
    rw [if_pos hsyn] at hmsg
    rw [hmsg]
    exact congrArg (fun z => TCPReceiverMessage.mk (some (Wrap32.wrap _ z)) _) hopened
  have hlog := hi.acked
  rw [hhead, ho.acked] at hlog
  have hlen : totalLength (acked ++ [m]) ≤
      (inbox (s.peer y.other).peer (s.got y.other)).ackno := by
    have htake : (s.peer y).log.take (acked.length + 1) = acked ++ [m] := by
      rw [hlog, List.take_add_one, List.take_left' rfl,
        List.getElem?_append_right (Nat.le_refl _), Nat.sub_self, List.getElem?_cons_zero]
      rfl
    have htot := (hi.log.numbering.take (acked.length + 1)).totalLength_eq (by rw [htake]; simp)
    have hany : ((s.peer y).log.take (acked.length + 1)).any (·.FIN) = false := by
      rw [List.any_eq_false]
      intro x hx
      rw [h.not_fin x (List.mem_of_mem_take hx)]
      decide
    rw [hany, htake, Bool.toNat_false] at htot
    rw [htot, heq]
    have : (inbox (s.peer y.other).peer (s.got y.other)).pushed.length = (s.pushed y).length := rfl
    omega
  have hremoves := receive_removes hi (h.inv.short y) h.not_fin hhead
    (W := seg.receiverMessage.windowSize) hle (by rw [ho.acked]; exact hlen)
  rw [← hack] at hremoves
  rw [hpeer] at hq'
  cases PeerRun.step_cases hq' with
  | receive hp =>
    rcases TCPPeer.receive_cases hp with ⟨he, -⟩ | ⟨t, r, inbound, -, -, rfl⟩
    · rw [hreset, (h.alive y).inbound] at he
      rcases he with he | he <;> cases he
    · show acked.length < ((s.peer y).acked ++ List.take _ _).length
      rw [ho.acked, List.length_append, List.length_take]
      dsimp only
      omega

/-- **One round.** From a live state calm steps bring the other side new bytes
or let `y` forget a message, unless all is acknowledged. -/
theorem Live.round (h : Live before s y) : ∃ s', Relays before y s s' ∧ (AllAcked s' y ∨
    (s.pushed y).length < (s'.pushed y).length ∨
      (s.peer y).acked.length < (s'.peer y).acked.length) := by
  obtain ⟨s₁, h1, hdone | ⟨m, ho⟩⟩ := h.stocks
  · exact ⟨s₁, h1, .inl hdone⟩
  obtain ⟨s₂, h2, ho₂, hq⟩ := h1.live.queues ho
  obtain ⟨pre, post, hq⟩ := List.append_of_mem hq
  obtain ⟨s₃, h3, ho₃, i, seg, hlater, hseg, hm, hreset⟩ := h2.live.transmits pre post ho₂ hq
  obtain ⟨s₄, h4, hpeer, hnet, hread, -⟩ := h3.live.reads
  have ho₄ : Oldest s₄ y (s.peer y).acked m :=
    ⟨by rw [hpeer]; exact ho₃.acked, by rw [hpeer]; exact ho₃.head⟩
  obtain ⟨s₅, h5, ho₅, hneed, hsyn, hgrown⟩ :=
    h4.live.hears ho₄ ⟨i, seg, hlater, by rw [hnet]; exact hseg, hm, hreset⟩ hread
  have hall := ((h1.trans h2).trans h3).trans h4
  rcases hgrown with hlt | hlast
  · exact ⟨s₅, hall.trans h5, .inr (.inl (Nat.lt_of_le_of_lt hall.pushed hlt))⟩
  · obtain ⟨s₆, h6, hacked⟩ := h5.live.answers ho₅ hneed hsyn hlast
    exact ⟨s₆, (hall.trans h5).trans h6, .inr (.inr hacked)⟩

end

/-! ## Delivery -/

theorem length_le_totalLength {ms : List TCPSenderMessage}
    (h : ∀ m ∈ ms, 0 < m.sequenceLength) : ms.length ≤ totalLength ms := by
  induction ms with
  | nil => exact Nat.zero_le _
  | cons m ms ih =>
    have h1 := h m (List.mem_cons_self ..)
    have h2 := ih fun x hx => h x (List.mem_cons_of_mem _ hx)
    rw [totalLength_cons, List.length_cons]
    omega

/-- What is still to be done, in bytes to bring and messages to acknowledge. -/
def State.left (s : State) (y : Side) : Nat :=
  ((s.peer y).written.length - (s.pushed y).length) +
    ((s.peer y).written.length + 2 - (s.peer y).acked.length)

theorem Live.bounds {s : State} {y : Side} (h : Live before s y) :
    (s.pushed y).length ≤ (s.peer y).written.length ∧
      (s.peer y).acked.length ≤ (s.peer y).written.length + 2 := by
  have hi := h.inv.peer y
  have hw := congrArg List.length hi.written
  rw [List.length_append] at hw
  have hpushed := (h.inv.direction y).pushed_le
  have htot := hi.log.numbering.totalLength_le
  have hlen := length_le_totalLength hi.log.pos
  have hacked := congrArg List.length hi.acked
  rw [List.length_append] at hacked
  refine ⟨?_, by omega⟩
  have : (inbox (s.peer y.other).peer (s.got y.other)).pushed.length = (s.pushed y).length := rfl
  omega

end StreamSocket.L4.Network
