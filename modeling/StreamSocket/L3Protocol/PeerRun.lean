import StreamSocket.L2Machine.TcpPeer
import StreamSocket.L3Protocol.SenderLog

/-!
# Runs of one TCPPeer: it stays active until its FIN is acknowledged

One `TCPPeer` whose application writes, closes and reads, and which receives
any segments at all. The application does not write after it has closed: such a
write is no step, here and in all systems of two peers. Four ghosts record the
messages its sender has created, those an acknowledgment has removed from
`outstanding_messages_`, the bytes the outbound Writer accepted, and what the
last call returned, if that was `maybe_send`.

`active()` looks at the two streams and at the number of sequence numbers in
flight, never at the FIN. That is sound after `maybe_send`: with nothing
outstanding the whole window is free (`Inv.idle`), so a push cannot have left
the end of the stream behind (`Inv.halted`).

* `inactive_acked`: in every reachable state in which `maybe_send` has just
  returned nothing, an inactive peer without errors has its FIN acknowledged.
-/
namespace StreamSocket.L3.PeerRun

open L1 L2

/-- `peer` is the program's; the rest is history. -/
structure State where
  peer : TCPPeer
  log : List TCPSenderMessage
  acked : List TCPSenderMessage
  written : Bytes
  returned : Option (Option TCPSegment)
  deriving DecidableEq, Repr

inductive Label where
  | write (data : Bytes)
  | close
  | setError
  | read (len : Nat)
  | push
  | tick (ms : Nat)
  | receive (seg : TCPSegment)
  | maybeSend
  deriving DecidableEq, Repr

def State.start (cfg : TCPConfig) (randomDevice : Wrap32) : State :=
  { peer := .new cfg randomDevice, log := [], acked := [], written := [], returned := none }

/-- Each outstanding sequence number is a byte in memory, or a SYN or FIN of a
message in memory; a 64-bit address space holds fewer than `2^64`. -/
def InMemory (p : TCPPeer) : Prop := totalLength p.sender.outstandingMessages < 2 ^ 64

instance (p : TCPPeer) : Decidable (InMemory p) := inferInstanceAs (Decidable (_ < _))

/-- What a push created, read off the two states. -/
def State.pushed (s : State) (p' : TCPPeer) : State :=
  { s with peer := p', returned := none,
           log := s.log ++ p'.sender.outstandingMessages.drop
            s.peer.sender.outstandingMessages.length }

/-- What an acknowledgment removed, read off the two states. -/
def State.received (s : State) (p' : TCPPeer) : State :=
  { s with peer := p', returned := none,
           acked := s.acked ++ s.peer.sender.outstandingMessages.take
            (s.peer.sender.outstandingMessages.length - p'.sender.outstandingMessages.length) }

/-- `none`: a write after `close`, an exception, or an index out of range. -/
def step (s : State) : Label → Option State
  | .write data =>
    if Writer.isClosed s.peer.outboundStream then none
    else some { s with
      peer := { s.peer with outboundStream := Writer.push s.peer.outboundStream data }
      written := s.written ++ data.take (Writer.availableCapacity s.peer.outboundStream)
      returned := none }
  | .close =>
    some { s with peer := { s.peer with outboundStream := Writer.close s.peer.outboundStream },
                  returned := none }
  | .setError =>
    some { s with peer := { s.peer with outboundStream := Writer.setError s.peer.outboundStream },
                  returned := none }
  | .read len =>
    some { s with peer := { s.peer with inboundStream := Reader.pop s.peer.inboundStream len },
                  returned := none }
  | .push =>
    s.peer.push.toOption.bind fun p' => if InMemory p' then some (s.pushed p') else none
  | .tick ms => some { s with peer := s.peer.tick ms, returned := none }
  | .receive seg => (s.peer.receive seg).map fun p' => s.received p'
  | .maybeSend =>
    s.peer.maybeSend.toOption.bind fun (p', seg) =>
      if InMemory p' then some { s.pushed p' with returned := some seg } else none

/-- The capacities are `size_t`. -/
def machine : LTS State Label :=
  LTS.ofFn (fun s => ∃ cfg isn, cfg.sendCapacity < 2 ^ 64 ∧ s = State.start cfg isn) step

/-- The kinds of step. -/
inductive Steps (s : State) : Label → State → Prop
  | write (data : Bytes) : Steps s (.write data) { s with
      peer := { s.peer with outboundStream := Writer.push s.peer.outboundStream data }
      written := s.written ++ data.take (Writer.availableCapacity s.peer.outboundStream)
      returned := none }
  | close : Steps s .close { s with
      peer := { s.peer with outboundStream := Writer.close s.peer.outboundStream }
      returned := none }
  | setError : Steps s .setError { s with
      peer := { s.peer with outboundStream := Writer.setError s.peer.outboundStream }
      returned := none }
  | read (len : Nat) : Steps s (.read len) { s with
      peer := { s.peer with inboundStream := Reader.pop s.peer.inboundStream len }
      returned := none }
  | push {x' : TCPSender} {b' : ByteStream} :
      s.peer.sender.push s.peer.outboundStream = .ok (x', b') →
      totalLength x'.outstandingMessages < 2 ^ 64 →
      Steps s .push (s.pushed { s.peer with sender := x', outboundStream := b' })
  | tick (ms : Nat) : Steps s (.tick ms) { s with peer := s.peer.tick ms, returned := none }
  | receive {seg : TCPSegment} {p' : TCPPeer} : s.peer.receive seg = some p' →
      Steps s (.receive seg) (s.received p')
  | maybeSend {p' : TCPPeer} {seg : Option TCPSegment} : s.peer.maybeSend = .ok (p', seg) →
      InMemory p' → Steps s .maybeSend { s.pushed p' with returned := some seg }

theorem toOption_eq_some {α : Type} {x : Except String α} {a : α} (h : x.toOption = some a) :
    x = .ok a := by
  cases x with
  | error e => cases h
  | ok b => exact congrArg Except.ok (Option.some.inj h)

theorem step_cases {s s' : State} {l : Label} (hs : step s l = some s') : Steps s l s' := by
  cases l with
  | write data =>
    simp only [step] at hs
    split at hs
    · cases hs
    · cases hs; exact .write data
  | close => cases hs; exact .close
  | setError => cases hs; exact .setError
  | read len => cases hs; exact .read len
  | push =>
    obtain ⟨p', hp, hs⟩ := Option.bind_eq_some_iff.mp hs
    split at hs
    · rename_i hm
      cases hs
      have hp := toOption_eq_some hp
      unfold TCPPeer.push at hp
      rcases hx : s.peer.sender.push s.peer.outboundStream with e | ⟨x', b'⟩
      all_goals rw [hx] at hp; cases hp
      exact .push hx hm
    · cases hs
  | tick ms => cases hs; exact .tick ms
  | receive seg =>
    obtain ⟨p', hp, rfl⟩ := Option.map_eq_some_iff.mp hs
    exact .receive hp
  | maybeSend =>
    obtain ⟨⟨p', seg⟩, hp, hs⟩ := Option.bind_eq_some_iff.mp hs
    dsimp only at hs
    split at hs
    · rename_i hm
      cases hs
      exact .maybeSend (toOption_eq_some hp) hm
    · cases hs

/-! ## The invariant -/

structure Inv (s : State) : Prop where
  log : LogInv s.log s.peer.sender
  out : s.peer.outboundStream.Inv
  written : s.written = payloads s.log ++ s.peer.outboundStream.stream
  acked : s.log = s.acked ++ s.peer.sender.outstandingMessages
  memory : InMemory s.peer
  opened : Writer.isClosed s.peer.inboundStream = true → s.peer.receiver.syn = true
  /-- With nothing outstanding the whole window is free. -/
  idle : s.peer.sender.outstandingMessages = [] →
    s.peer.sender.receiverWindowSpace = s.peer.sender.receiverWindowSize
  /-- `maybe_send` pushes what it can. -/
  halted : s.returned.isSome = true → s.peer.receiver.syn = true →
    s.peer.sender.outstandingMessages = [] → s.peer.sender.Halted s.peer.outboundStream

theorem inv_start {cfg : TCPConfig} (hc : cfg.sendCapacity < 2 ^ 64) (isn : Wrap32) :
    Inv (.start cfg isn) where
  log := logInv_new _ _
  out := ByteStream.inv_new _ hc
  written := rfl
  acked := rfl
  memory := show 0 < 2 ^ 64 by decide
  opened := by simp [State.start, TCPPeer.new, ByteStream.new, Writer.isClosed]
  idle := fun _ => rfl
  halted := by simp [State.start]

/-- Nothing in flight means nothing outstanding: every message has a length. -/
theorem Inv.outstanding_nil {s : State} (h : Inv s)
    (h0 : s.peer.sender.sequenceNumbersInFlight = 0) : s.peer.sender.outstandingMessages = [] := by
  have hm : totalLength s.peer.sender.outstandingMessages < 2 ^ 64 := h.memory
  rw [h.log.inFlight, Nat.mod_eq_of_lt hm] at h0
  cases ho : s.peer.sender.outstandingMessages with
  | nil => rfl
  | cons m ms =>
    have hpos := h.log.pos m (h.log.suffix.subset (by rw [ho]; exact List.mem_cons_self ..))
    rw [ho, totalLength_cons] at h0
    omega

/-- A push of the sender, whoever called it. -/
theorem Inv.push {s : State} (h : Inv s) {x' : TCPSender} {b' : ByteStream}
    (hp : s.peer.sender.push s.peer.outboundStream = .ok (x', b'))
    (hm : totalLength x'.outstandingMessages < 2 ^ 64) :
    Inv (s.pushed { s.peer with sender := x', outboundStream := b' }) ∧
      (x'.outstandingMessages = [] → x'.Halted b') := by
  obtain ⟨_, _, ms, h1, h2, h3, h4, h5⟩ := h.log.push h.out
  rw [h1] at hp
  cases hp
  have hlog : (s.pushed { s.peer with sender := x', outboundStream := b' }).log = s.log ++ ms := by
    unfold State.pushed
    rw [h5.outstanding, List.drop_left' rfl]
  -- with nothing outstanding after it, the push created nothing
  have hnil : x'.outstandingMessages = [] → ms = [] ∧ x' = s.peer.sender := by
    intro h0
    rw [h5.outstanding] at h0
    obtain ⟨-, rfl⟩ := List.append_eq_nil_iff.mp h0
    cases h2
    exact ⟨rfl, rfl⟩
  have hidle : x'.outstandingMessages = [] → x'.receiverWindowSpace = x'.receiverWindowSize := by
    intro h0
    obtain ⟨-, hx⟩ := hnil h0
    rw [hx] at h0 ⊢
    exact h.idle h0
  refine ⟨⟨by rw [hlog]; exact h4, h5.inv, ?_, ?_, hm, h.opened, hidle, nofun⟩, fun h0 => ?_⟩
  · rw [hlog]
    show s.written = payloads (s.log ++ ms) ++ b'.stream
    rw [h.written, h5.stream, payloads_append, List.append_assoc]
  · rw [hlog]
    show s.log ++ ms = s.acked ++ x'.outstandingMessages
    rw [h5.outstanding, h.acked, List.append_assoc]
  · obtain ⟨hms, hx⟩ := hnil h0
    cases h3 with
    | syn _ hl => rw [hms] at hl; cases hl
    | idle _ hf _ =>
      rcases hf with hf | hp
      · exact fun hf' => absurd (hx ▸ hf) (by rw [hf']; decide)
      · rw [← hx] at hp
        unfold TCPSender.synPending at hp
        rw [h0] at hp
        cases hp
    | data _ _ _ hh =>
      refine hh fun hz => ?_
      have := hidle h0
      rw [hx] at this
      rw [this, hz]

/-- An acknowledgment removes a prefix; with nothing left, all of the new
window is free. -/
theorem receive_outstanding {log : List TCPSenderMessage} {x : TCPSender} (h : LogInv log x)
    (msg : TCPReceiverMessage) : (x.receive msg).outstandingMessages <:+ x.outstandingMessages ∧
      ((x.outstandingMessages = [] → x.receiverWindowSpace = x.receiverWindowSize) →
        (x.receive msg).outstandingMessages = [] →
        (x.receive msg).receiverWindowSpace = (x.receive msg).receiverWindowSize) := by
  rcases TCPSender.receive_spec h.inFlight msg with ⟨-, he⟩ | ⟨a, k, -, -, -, ha⟩
  · rw [he]
    exact ⟨List.suffix_refl _, fun hidle => hidle⟩
  · refine ⟨ha.outstanding ▸ List.drop_suffix _ _, fun _ h0 => ?_⟩
    rw [ha.space, ha.size, ha.inFlight, h0]
    rfl

/-- What a shorter suffix has lost. -/
theorem take_of_suffix {α : Type} {l l' : List α} (h : l' <:+ l) :
    l.take (l.length - l'.length) ++ l' = l := by
  obtain ⟨t, rfl⟩ := h
  rw [List.length_append, Nat.add_sub_cancel, List.take_left' rfl]

theorem Inv.receive {s : State} (h : Inv s) {seg : TCPSegment} {p' : TCPPeer}
    (hp : s.peer.receive seg = some p') : Inv (s.received p') := by
  rcases TCPPeer.receive_cases hp with ⟨-, rfl⟩ | ⟨t, r, inbound, -, hr, rfl⟩
  · refine ⟨h.log, h.out, h.written, ?_, h.memory, h.opened, h.idle, nofun⟩
    show s.log = (s.acked ++ _) ++ _
    rw [List.append_assoc]
    exact h.acked.trans (congrArg (s.acked ++ ·) (take_of_suffix (List.suffix_refl _)).symm)
  · obtain ⟨h1, h2⟩ := receive_outstanding h.log seg.receiverMessage
    refine ⟨h.log.receive _, h.out, h.written, ?_, ?_, fun hc => ?_, h2 h.idle, nofun⟩
    · show s.log = (s.acked ++ _) ++ _
      rw [List.append_assoc]
      exact h.acked.trans (congrArg (s.acked ++ ·) (take_of_suffix h1).symm)
    · obtain ⟨t, ht⟩ := h1
      have hm : totalLength s.peer.sender.outstandingMessages < 2 ^ 64 := h.memory
      rw [← ht, totalLength_append] at hm
      exact Nat.lt_of_le_of_lt (Nat.le_add_left _ _) hm
    · rcases TCPReceiver.receive_syn hr with hs | he
      · exact hs
      · cases he
        exact h.opened hc

/-- The push of `maybe_send`, if the connection is alive. -/
theorem Inv.pushIfAlive {s : State} (h : Inv s) {p₁ : TCPPeer} (hp : s.peer.pushIfAlive = .ok p₁)
    (hm : InMemory p₁) : Inv (s.pushed p₁) ∧ (p₁.receiver.syn = true →
      p₁.sender.outstandingMessages = [] → p₁.sender.Halted p₁.outboundStream) := by
  rcases TCPPeer.pushIfAlive_cases hp with ⟨hn, rfl⟩ | ⟨x', b', -, hpush, rfl⟩
  · refine ⟨?_, fun hs => ?_⟩
    · have hl : (s.pushed s.peer).log = s.log := by simp [State.pushed]
      exact ⟨hl ▸ h.log, h.out, hl ▸ h.written, hl ▸ h.acked, h.memory, h.opened, h.idle, nofun⟩
    · unfold TCPPeer.receiverMsg TCPReceiver.send at hn
      simp only [hs, if_true] at hn
      cases hn
  · obtain ⟨h2, h3⟩ := h.push hpush hm
    exact ⟨h2, fun _ => h3⟩

/-- `TCPSender::maybe_send` touches the transmission queue only. -/
theorem maybeSend_frame (x : TCPSender) :
    x.maybeSend.1.outstandingMessages = x.outstandingMessages ∧
      x.maybeSend.1.receiverWindowSpace = x.receiverWindowSpace ∧
      x.maybeSend.1.receiverWindowSize = x.receiverWindowSize ∧ x.maybeSend.1.fin = x.fin := by
  unfold TCPSender.maybeSend
  split <;> exact ⟨rfl, rfl, rfl, rfl⟩

theorem pushed_log (s : State) {p p' : TCPPeer}
    (h : p'.sender.outstandingMessages = p.sender.outstandingMessages) :
    (s.pushed p').log = (s.pushed p).log := by
  unfold State.pushed; rw [h]

theorem Inv.maybeSend {s : State} (h : Inv s) {p' : TCPPeer} {seg : Option TCPSegment}
    (hp : s.peer.maybeSend = .ok (p', seg)) (hm : InMemory p') :
    Inv { s.pushed p' with returned := some seg } := by
  obtain ⟨p₁, h1, rfl, -⟩ := TCPPeer.maybeSend_cases hp
  obtain ⟨e1, e2, e3, e4⟩ := maybeSend_frame p₁.sender
  have hm₁ : InMemory p₁ := by unfold InMemory; rw [← e1]; exact hm
  obtain ⟨hi, hh⟩ := h.pushIfAlive h1 hm₁
  have hlog : (s.pushed { p₁ with sender := p₁.sender.maybeSend.1, needSend := false }).log =
    (s.pushed p₁).log := pushed_log s e1
  refine ⟨?_, hi.out, ?_, ?_, hm, hi.opened, ?_, fun _ hs h0 => ?_⟩
  · show LogInv (s.pushed _).log _
    rw [hlog]
    exact hi.log.maybeSend.1
  · show s.written = payloads (s.pushed _).log ++ _
    rw [hlog]
    exact hi.written
  · show (s.pushed _).log = s.acked ++ p₁.sender.maybeSend.1.outstandingMessages
    rw [hlog, e1]
    exact hi.acked
  · show p₁.sender.maybeSend.1.outstandingMessages = [] →
      p₁.sender.maybeSend.1.receiverWindowSpace = p₁.sender.maybeSend.1.receiverWindowSize
    rw [e1, e2, e3]
    exact hi.idle
  · have hx := hh hs (e1 ▸ h0)
    intro hf hwork
    show p₁.sender.maybeSend.1.receiverWindowSpace = 0 ∧
      p₁.sender.maybeSend.1.receiverWindowSize ≠ 0
    rw [e2, e3]
    exact hx (e4 ▸ hf) hwork

/-- What `maybe_send` returns carries a message of the log, or an empty one at
the end of the log if a reply was due. -/
theorem Inv.made {s : State} (h : Inv s) {p' : TCPPeer} {seg : TCPSegment}
    (hp : s.peer.maybeSend = .ok (p', some seg)) (hm : InMemory p') :
    seg.senderMessage ∈ (s.pushed p').log ∨ (s.peer.needSend = true ∧ seg.senderMessage =
      { seqno := Wrap32.wrap (totalLength (s.pushed p').log) p'.sender.isn }) := by
  have hnext := (h.maybeSend hp hm).log.next
  obtain ⟨p₁, h1, rfl, hseg⟩ := TCPPeer.maybeSend_cases hp
  obtain ⟨e1, -⟩ := maybeSend_frame p₁.sender
  have hlog : (s.pushed { p₁ with sender := p₁.sender.maybeSend.1, needSend := false }).log =
    (s.pushed p₁).log := pushed_log s e1
  rcases hseg with ⟨m, hq, _, hseg⟩ | ⟨-, hn, _, hseg⟩ | ⟨-, -, hseg⟩
  · cases hseg
    left
    rw [hlog]
    have hm₁ : InMemory p₁ := by unfold InMemory; rw [← e1]; exact hm
    exact (h.pushIfAlive h1 hm₁).1.log.maybeSend.2 m hq
  · cases hseg
    have hneed : s.peer.needSend = true := by
      rcases TCPPeer.pushIfAlive_cases h1 with ⟨-, rfl⟩ | ⟨x', b', -, -, rfl⟩
      · exact hn
      · exact hn
    refine .inr ⟨hneed, ?_⟩
    show TCPSender.sendEmptyMessage _ = _
    unfold TCPSender.sendEmptyMessage
    rw [← Wrap32.wrap_mod (totalLength _), ← hnext]
    rfl
  · cases hseg

theorem Inv.step {s s' : State} {l : Label} (h : Inv s) (hs : PeerRun.step s l = some s') :
    Inv s' := by
  cases step_cases hs with
  | write data =>
    refine ⟨h.log, ByteStream.inv_push h.out data, ?_, h.acked, h.memory, h.opened, h.idle, nofun⟩
    rw [h.out.push_stream, h.out.available, h.written, List.append_assoc]
  | close =>
    exact ⟨h.log, ByteStream.inv_close h.out, h.written, h.acked, h.memory, h.opened, h.idle, nofun⟩
  | setError =>
    exact ⟨h.log, ⟨h.out.cap_lt, h.out.fits, h.out.write_eq, h.out.read_lt⟩, h.written, h.acked,
      h.memory, h.opened, h.idle, nofun⟩
  | read len =>
    refine ⟨h.log, h.out, h.written, h.acked, h.memory, fun hc => h.opened ?_, h.idle, nofun⟩
    unfold Reader.pop at hc
    split at hc <;> exact hc
  | push hx hm => exact (h.push hx hm).1
  | tick ms =>
    obtain ⟨e1, e2, e3⟩ : (s.peer.sender.tick ms).outstandingMessages =
        s.peer.sender.outstandingMessages ∧
        (s.peer.sender.tick ms).receiverWindowSpace = s.peer.sender.receiverWindowSpace ∧
        (s.peer.sender.tick ms).receiverWindowSize = s.peer.sender.receiverWindowSize := by
      cases ho : s.peer.sender.outstandingMessages with
      | nil => rw [TCPSender.tick_nil ho]; exact ⟨ho, rfl, rfl⟩
      | cons m rest =>
        obtain ⟨-, -, h3, -, -, -, -, h8, h9, -⟩ := (TCPSender.tick_spec ho ms).frame
        exact ⟨h3.trans ho, h9, h8⟩
    refine ⟨h.log.tick ms, h.out, h.written, ?_, ?_, h.opened, ?_, nofun⟩
    · exact h.acked.trans (congrArg (s.acked ++ ·) e1.symm)
    · show totalLength (s.peer.sender.tick ms).outstandingMessages < 2 ^ 64
      rw [e1]
      exact h.memory
    · show (s.peer.sender.tick ms).outstandingMessages = [] →
        (s.peer.sender.tick ms).receiverWindowSpace = (s.peer.sender.tick ms).receiverWindowSize
      rw [e1, e2, e3]
      exact h.idle
  | receive hp => exact h.receive hp
  | maybeSend hp hm => exact h.maybeSend hp hm

theorem inductive_inv : machine.Inductive Inv where
  init := by rintro _ ⟨cfg, isn, hc, rfl⟩; exact inv_start hc isn
  step := fun _ _ _ h hs => h.step hs

theorem pushed_isn {log : List TCPSenderMessage} {x x' : TCPSender} {b b' : ByteStream}
    (h : LogInv log x) (hb : b.Inv) (hp : x.push b = .ok (x', b')) : x'.isn = x.isn := by
  obtain ⟨_, _, ms, h1, -, -, -, h5⟩ := h.push hb
  rw [h1] at hp
  cases hp
  exact h5.isn

/-- A step keeps the zero point and only appends to the log. -/
theorem Inv.grows {s s' : State} {l : Label} (h : Inv s) (hs : PeerRun.step s l = some s') :
    s'.peer.sender.isn = s.peer.sender.isn ∧ s.log <+: s'.log := by
  cases step_cases hs with
  | write data => exact ⟨rfl, List.prefix_refl _⟩
  | close => exact ⟨rfl, List.prefix_refl _⟩
  | setError => exact ⟨rfl, List.prefix_refl _⟩
  | read len => exact ⟨rfl, List.prefix_refl _⟩
  | push hx _ => exact ⟨pushed_isn h.log h.out hx, List.prefix_append _ _⟩
  | tick ms => exact ⟨tick_isn _ ms, List.prefix_refl _⟩
  | receive hp =>
    refine ⟨?_, List.prefix_refl _⟩
    rcases TCPPeer.receive_cases hp with ⟨-, rfl⟩ | ⟨t, r, inbound, -, -, rfl⟩
    · rfl
    · exact receive_isn h.log _
  | maybeSend hp _ =>
    obtain ⟨p₁, h1, rfl, -⟩ := TCPPeer.maybeSend_cases hp
    refine ⟨(maybeSend_isn _).trans ?_, List.prefix_append _ _⟩
    rcases TCPPeer.pushIfAlive_cases h1 with ⟨-, rfl⟩ | ⟨x', b', -, hx, rfl⟩
    · rfl
    · exact pushed_isn h.log h.out hx

/-- Only segments and the reader touch the receiving half. -/
theorem inbound_cases {s s' : State} {l : Label} (hs : PeerRun.step s l = some s')
    (hl : ∀ seg, l ≠ .receive seg) : s'.peer.receiver = s.peer.receiver ∧
      s'.peer.reassembler = s.peer.reassembler ∧ (s'.peer.inboundStream = s.peer.inboundStream ∨
        ∃ len, s'.peer.inboundStream = Reader.pop s.peer.inboundStream len) := by
  cases step_cases hs with
  | write data => exact ⟨rfl, rfl, .inl rfl⟩
  | close => exact ⟨rfl, rfl, .inl rfl⟩
  | setError => exact ⟨rfl, rfl, .inl rfl⟩
  | read len => exact ⟨rfl, rfl, .inr ⟨len, rfl⟩⟩
  | push _ _ => exact ⟨rfl, rfl, .inl rfl⟩
  | tick ms => exact ⟨rfl, rfl, .inl rfl⟩
  | receive _ => exact absurd rfl (hl _)
  | maybeSend hp _ =>
    obtain ⟨p₁, h1, rfl, -⟩ := TCPPeer.maybeSend_cases hp
    rcases TCPPeer.pushIfAlive_cases h1 with ⟨-, rfl⟩ | ⟨x', b', -, -, rfl⟩
    · exact ⟨rfl, rfl, .inl rfl⟩
    · exact ⟨rfl, rfl, .inl rfl⟩

/-! ## Inactive means acknowledged -/

/-- The whole outbound stream and its FIN are sent and acknowledged, and the
inbound stream is closed. -/
structure Finished (s : State) : Prop where
  fin : ∃ front last, s.log = front ++ [last] ∧ last.FIN = true
  bytes : payloads s.log = s.written
  acked : s.acked = s.log
  outstanding : s.peer.sender.outstandingMessages = []
  inbound : Writer.isClosed s.peer.inboundStream = true

/-- **No peer is inactive before its FIN is acknowledged.** In every reachable
state in which `maybe_send` has just returned nothing, the inbound stream has
no error (the outbound one may) and `active()` is false, the sender has created
its FIN after all bytes the Writer accepted, acknowledgments have removed every
message up to it, and the inbound stream is closed. -/
theorem inactive_acked (s : State) (hr : machine.Reachable s) (hret : s.returned = some none)
    (hin : Reader.hasError s.peer.inboundStream = false) (ha : s.peer.active = false) :
    Finished s := by
  have h := inductive_inv.reachable s hr
  unfold TCPPeer.active at ha
  simp only [hin, Bool.false_eq_true, if_false, Bool.or_eq_false_iff, Bool.not_eq_false',
    bne_eq_false_iff_eq] at ha
  obtain ⟨⟨hfin, hclosed⟩, hzero⟩ := ha
  have hnil := h.outstanding_nil hzero
  have hlog : s.acked = s.log := by rw [h.acked, hnil, List.append_nil]
  have hf : s.peer.sender.fin = true := by
    by_contra hf
    obtain ⟨h1, h2⟩ := h.halted (by rw [hret]; rfl) (h.opened hclosed) hnil
      (Bool.eq_false_iff.mpr hf) (.inr hfin)
    exact h2 ((h.idle hnil).symm.trans h1)
  obtain ⟨m, hm, hmf⟩ := h.log.sealed.mp hf
  obtain ⟨i, hi⟩ := List.mem_iff_getElem?.mp hm
  have hlast := h.log.FIN i m hi hmf
  refine ⟨⟨s.log.take i, m, ?_, hmf⟩, ?_, hlog, hnil, hclosed⟩
  · obtain ⟨hlt, he⟩ := List.getElem?_eq_some_iff.mp hi
    rw [← he, List.take_concat_get', hlast, List.take_length]
  · rw [h.written, (h.out.finished.mp hfin).2, List.append_nil]

/-- The one byte written fills the window, so the FIN goes out alone, after the
byte is acknowledged. -/
theorem inactive_acked_run : ∃ s, machine.Run (.start { fixedIsn := some ⟨7⟩ } ⟨0⟩)
    [.push, .maybeSend,
      .receive { senderMessage := ⟨⟨100⟩, true, [], false⟩, receiverMessage := ⟨some ⟨8⟩, 1⟩ },
      .write [97], .close, .maybeSend,
      .receive { senderMessage := ⟨⟨101⟩, false, [], true⟩, receiverMessage := ⟨some ⟨9⟩, 1⟩ },
      .maybeSend,
      .receive { senderMessage := ⟨⟨102⟩, false, [], false⟩, receiverMessage := ⟨some ⟨10⟩, 1⟩ },
      .maybeSend] s ∧
    Finished s := by
  have hrun : (LTS.exec step (.start { fixedIsn := some ⟨7⟩ } ⟨0⟩)
    [.push, .maybeSend,
      .receive { senderMessage := ⟨⟨100⟩, true, [], false⟩, receiverMessage := ⟨some ⟨8⟩, 1⟩ },
      .write [97], .close, .maybeSend,
      .receive { senderMessage := ⟨⟨101⟩, false, [], true⟩, receiverMessage := ⟨some ⟨9⟩, 1⟩ },
      .maybeSend,
      .receive { senderMessage := ⟨⟨102⟩, false, [], false⟩, receiverMessage := ⟨some ⟨10⟩, 1⟩ },
      .maybeSend]).map
      (fun s => (s.returned, Reader.hasError s.peer.inboundStream, s.peer.active)) =
      some (some none, false, false) := by decide +kernel
  obtain ⟨s, hs, he⟩ := Option.map_eq_some_iff.mp hrun
  simp only [Prod.mk.injEq] at he
  obtain ⟨h1, h2, h3⟩ := he
  exact ⟨s, LTS.run_of_exec hs, inactive_acked s
    (LTS.reachable_of_exec ⟨_, _, by decide, rfl⟩ hs) h1 h2 h3⟩

end StreamSocket.L3.PeerRun
