import StreamSocket.L3Protocol.SenderTimer
import StreamSocket.L4System.Network

/-!
# Calm steps: no write, no close, no error, no reset, nothing from before

What a schedule that only moves data may use: pushes, ticks, sends, receipts
of segments without RST that were sent since the schedule began, and reads of
what is buffered. Such steps leave the streams without errors, what was written
as it is, and never undo progress: `acked` and the bytes that the other side has
only grow.

* `kept_of_calm`: one calm step of a peer.
* `clock_step`: the retransmission timer stays below `2^64`, so some tick makes
  it expire (`tick_expires`).
-/
namespace StreamSocket.L4.Network

open L1 L2 L3
open L3.PeerPair (Side ofApp inbox)

/-! ## The timer -/

/-- The timer's fields are `uint64_t`. -/
structure Clock (x : TCPSender) : Prop where
  initial : x.initialRTOms < 2 ^ 64
  timeout : x.retransmissionTimeout < 2 ^ 64
  elapsed : x.timeElapsed < 2 ^ 64

theorem Clock.push {log : List TCPSenderMessage} {x x' : TCPSender} {b b' : ByteStream}
    (h : Clock x) (hl : LogInv log x) (hb : b.Inv) (hp : x.push b = .ok (x', b')) : Clock x' := by
  obtain ⟨_, _, ms, h1, h2, -⟩ := hl.push hb
  rw [h1] at hp
  cases hp
  obtain ⟨e1, e2, e3, -⟩ := SenderRun.creation_timer h2
  exact ⟨by rw [e1]; exact h.initial, by rw [e3]; exact h.timeout, by rw [e2]; exact h.elapsed⟩

theorem Clock.receive {log : List TCPSenderMessage} {x : TCPSender} (h : Clock x)
    (hl : LogInv log x) (msg : TCPReceiverMessage) : Clock (x.receive msg) := by
  rcases TCPSender.receive_spec hl.inFlight msg with ⟨-, he⟩ | ⟨a, k, -, -, -, ha⟩
  · rw [he]
    exact h
  · have hrto := ha.frame.2.1
    by_cases hk : k = 0
    · obtain ⟨e1, e2, -⟩ := ha.keep hk
      exact ⟨by rw [hrto]; exact h.initial, by rw [e2]; exact h.timeout,
        by rw [e1]; exact h.elapsed⟩
    · obtain ⟨e1, e2, -⟩ := ha.restart hk
      exact ⟨by rw [hrto]; exact h.initial, by rw [e2]; exact h.initial,
        by rw [e1]; exact Nat.two_pow_pos 64⟩

theorem Clock.tick {x : TCPSender} (h : Clock x) (ms : Nat) : Clock (x.tick ms) := by
  cases ho : x.outstandingMessages with
  | nil =>
    rw [TCPSender.tick_nil ho]
    exact h
  | cons m rest =>
    have ht := TCPSender.tick_spec ho ms
    refine ⟨by rw [ht.frame.2.1]; exact h.initial, ?_, ?_⟩
    all_goals rcases Nat.lt_or_ge (add64 x.timeElapsed ms) x.retransmissionTimeout with hlt | hge
    · rw [(ht.wait hlt).2.2.1]
      exact h.timeout
    · by_cases hb : (x.receiverWindowSize ≠ 0 ∨ m.SYN = true) ∧ x.freeWindow = false
      · rw [(ht.backoff hge hb).1]
        exact Nat.mod_lt _ (Nat.two_pow_pos 64)
      · rw [(ht.steady hge hb).1]
        exact h.timeout
    · rw [(ht.wait hlt).2.1]
      exact add64_lt _ _
    · rw [(ht.resend hge).2]
      exact Nat.two_pow_pos 64

theorem Clock.maybeSend {x : TCPSender} (h : Clock x) : Clock x.maybeSend.1 := by
  unfold TCPSender.maybeSend
  split
  · exact h
  · exact ⟨h.initial, h.timeout, h.elapsed⟩

theorem clock_step {s s' : PeerRun.State} {l : PeerRun.Label} (hi : PeerRun.Inv s)
    (h : Clock s.peer.sender) (hs : PeerRun.step s l = some s') : Clock s'.peer.sender := by
  cases PeerRun.step_cases hs with
  | push hx _ => exact h.push hi.log hi.out hx
  | tick ms => exact h.tick ms
  | receive hp =>
    rcases TCPPeer.receive_cases hp with ⟨-, rfl⟩ | ⟨t, r, inbound, -, -, rfl⟩
    · exact h
    · exact h.receive hi.log _
  | maybeSend hp _ =>
    obtain ⟨p₁, h1, rfl, -⟩ := TCPPeer.maybeSend_cases hp
    rcases TCPPeer.pushIfAlive_cases h1 with ⟨-, rfl⟩ | ⟨x', b', -, hx, rfl⟩
    · exact h.maybeSend
    · exact (h.push hi.log hi.out hx).maybeSend
  | _ => exact h

/-- How long to wait until the timer expires. -/
theorem tick_expires {x : TCPSender} (h : Clock x) {m : TCPSenderMessage}
    {rest : List TCPSenderMessage} (ho : x.outstandingMessages = m :: rest) :
    (x.tick (x.retransmissionTimeout - x.timeElapsed)).sendMessages = x.sendMessages ++ [m] := by
  have h1 := h.timeout
  have h2 := h.elapsed
  refine ((TCPSender.tick_spec ho _).resend ?_).1
  rw [add64_of_lt (by omega)]
  omega

/-! ## What a calm step keeps -/

/-- No error on either stream. -/
structure Alive (p : TCPPeer) : Prop where
  inbound : Reader.hasError p.inboundStream = false
  outbound : Reader.hasError p.outboundStream = false

/-- Only what moves data, and no reset. -/
def CalmPeer (p : PeerRun.State) : PeerRun.Label → Prop
  | .read len => len ≤ p.peer.inboundStream.stream.length
  | .push | .tick _ | .maybeSend => True
  | .receive seg => seg.reset = false
  | .write _ | .close | .setError => False

structure Kept (p q : PeerRun.State) : Prop where
  alive : Alive q.peer
  written : q.written = p.written
  closed : Writer.isClosed q.peer.outboundStream = Writer.isClosed p.peer.outboundStream
  capacity : q.peer.inboundStream.capacity = p.peer.inboundStream.capacity
  acked : p.acked <+: q.acked

/-- A creation reads what is buffered, so no error comes from it. -/
theorem creation_error {ms : List TCPSenderMessage} {p p' : TCPSender × ByteStream}
    (hr : TCPSender.creation.Run p ms p') : p'.2.error = p.2.error := by
  induction hr with
  | nil => rfl
  | @cons p p₁ p₂ m ms hs _ ih =>
    have he : p.1.Emits p.2 m p₁.1 p₁.2 := hs
    rw [ih, he.popped, ByteStream.pop_eq he.fits]

theorem push_kept {log : List TCPSenderMessage} {x x' : TCPSender} {b b' : ByteStream}
    (h : LogInv log x) (hb : b.Inv) (hp : x.push b = .ok (x', b')) :
    Reader.hasError b' = Reader.hasError b ∧ Writer.isClosed b' = Writer.isClosed b := by
  obtain ⟨_, _, ms, h1, h2, -, -, hc⟩ := h.push hb
  rw [h1] at hp
  cases hp
  exact ⟨creation_error h2, hc.close⟩

theorem insert_error {r r' : Reassembler} {output output' : ByteStream} {first : Nat}
    {data : Bytes} {last : Bool} (h : r.insert first data last output = some (r', output')) :
    output'.error = output.error := by
  unfold Reassembler.insert at h
  split at h
  case h_1 => cases h
  split at h
  · cases h
  · cases h
    split <;> split <;> split <;> rfl

theorem receive_kept {t t' : TCPReceiver} {m : TCPSenderMessage} {r r' : Reassembler}
    {inbound inbound' : ByteStream} (h : t.receive m r inbound = some (t', r', inbound')) :
    inbound'.error = inbound.error ∧ inbound'.capacity = inbound.capacity := by
  unfold TCPReceiver.receive at h
  dsimp only at h
  split_ifs at h
  · cases h; exact ⟨rfl, rfl⟩
  · obtain ⟨⟨r₁, out⟩, hins, h⟩ := Option.map_eq_some_iff.mp h
    cases h
    exact ⟨insert_error hins, Reassembler.insert_capacity hins⟩
  · cases h; exact ⟨rfl, rfl⟩

theorem kept_of_calm {p q : PeerRun.State} {l : PeerRun.Label} (hi : PeerRun.Inv p)
    (ha : Alive p.peer) (hc : CalmPeer p l) (hs : PeerRun.step p l = some q) : Kept p q := by
  cases PeerRun.step_cases hs with
  | write data => cases hc
  | close => cases hc
  | setError => cases hc
  | read len =>
    have hpop := ByteStream.pop_eq hc
    have hin := ha.inbound
    refine ⟨⟨?_, ha.outbound⟩, rfl, rfl, ?_, List.prefix_refl _⟩
    · show Reader.hasError (Reader.pop p.peer.inboundStream len) = false
      rw [hpop]
      exact hin
    · show (Reader.pop p.peer.inboundStream len).capacity = _
      rw [hpop]
  | push hx _ =>
    obtain ⟨h1, h2⟩ := push_kept hi.log hi.out hx
    exact ⟨⟨ha.inbound, h1.trans ha.outbound⟩, rfl, h2, rfl, List.prefix_refl _⟩
  | tick ms => exact ⟨⟨ha.inbound, ha.outbound⟩, rfl, rfl, rfl, List.prefix_refl _⟩
  | receive hp =>
    rcases TCPPeer.receive_cases hp with ⟨hr, -⟩ | ⟨t, r, inbound, -, hr, rfl⟩
    · have hreset : _ = false := hc
      rw [hreset, ha.inbound] at hr
      rcases hr with hr | hr <;> cases hr
    · obtain ⟨h1, h2⟩ := receive_kept hr
      exact ⟨⟨h1.trans ha.inbound, ha.outbound⟩, rfl, rfl, h2, List.prefix_append _ _⟩
  | maybeSend hp _ =>
    obtain ⟨p₁, h1, rfl, -⟩ := TCPPeer.maybeSend_cases hp
    rcases TCPPeer.pushIfAlive_cases h1 with ⟨-, rfl⟩ | ⟨x', b', -, hx, rfl⟩
    · exact ⟨⟨ha.inbound, ha.outbound⟩, rfl, rfl, rfl, List.prefix_refl _⟩
    · obtain ⟨h2, h3⟩ := push_kept hi.log hi.out hx
      exact ⟨⟨ha.inbound, h2.trans ha.outbound⟩, rfl, h3, rfl, List.prefix_refl _⟩

/-! ## Calm steps of the network -/

/-- The first `before z` segments of `z` are lost. -/
def Calm (before : Side → Nat) (s : State) (l : Label) (_ : State) : Prop :=
  match l with
  | .app y l => CalmPeer (s.peer y) l
  | .send _ => True
  | .receive y i => before y.other ≤ i ∧ ∀ seg, (s.net y.other)[i]? = some seg → seg.reset = false

variable {before : Side → Nat}

/-- Nothing is ever taken off the network. -/
theorem net_grows {s s' : State} {l : Label} (hs : step s l = some s') (z : Side) :
    (s.net z).length ≤ (s'.net z).length := by
  have hset : ∀ y q got net, (s.set y q got net).net z = if z = y then net else s.net z := by
    intro y q got net
    unfold State.set
    exact Function.update_apply s.net y net z
  cases l with
  | app y l =>
    simp only [step] at hs
    split at hs
    · obtain ⟨q, -, rfl⟩ := Option.map_eq_some_iff.mp hs
      rw [hset]
      split
      · rename_i he
        rw [he]
      · exact Nat.le_refl _
    · cases hs
  | send y =>
    obtain ⟨q, -, rfl⟩ := Option.map_eq_some_iff.mp hs
    rw [hset]
    split
    · rename_i he
      rw [he, List.length_append]
      exact Nat.le_add_right _ _
    · exact Nat.le_refl _
  | receive y i =>
    obtain ⟨seg, -, hs⟩ := Option.bind_eq_some_iff.mp hs
    obtain ⟨q, -, rfl⟩ := Option.map_eq_some_iff.mp hs
    rw [hset]
    split
    · rename_i he
      rw [he]
    · exact Nat.le_refl _

/-- A step is a step of one peer, calm if it is. -/
theorem step_peer {s s' : State} {l : Label} (hs : step s l = some s') (z : Side) :
    s'.peer z = s.peer z ∨ ∃ l', PeerRun.step (s.peer z) l' = some (s'.peer z) ∧
      ∀ before, Calm before s l s' → CalmPeer (s.peer z) l' := by
  have hset : ∀ y q got net, (s.set y q got net).peer z = if z = y then q else s.peer z := by
    intro y q got net
    unfold State.set
    exact Function.update_apply s.peer y q z
  cases l with
  | app y l =>
    simp only [step] at hs
    split at hs
    · obtain ⟨q, hq, rfl⟩ := Option.map_eq_some_iff.mp hs
      rw [hset]
      split
      · rename_i he
        exact .inr ⟨l, he ▸ hq, fun _ hc => he ▸ hc⟩
      · exact .inl rfl
    · cases hs
  | send y =>
    obtain ⟨q, hq, rfl⟩ := Option.map_eq_some_iff.mp hs
    rw [hset]
    split
    · rename_i he
      exact .inr ⟨.maybeSend, he ▸ hq, fun _ _ => trivial⟩
    · exact .inl rfl
  | receive y i =>
    obtain ⟨seg, hseg, hs⟩ := Option.bind_eq_some_iff.mp hs
    obtain ⟨q, hq, rfl⟩ := Option.map_eq_some_iff.mp hs
    rw [hset]
    split
    · rename_i he
      exact .inr ⟨.receive seg, he ▸ hq, fun _ hc => hc.2 seg hseg⟩
    · exact .inl rfl

/-- What `y` sends can get through: no errors, `y` has not closed, and the
other side has room for a byte. -/
structure Live (before : Side → Nat) (s : State) (y : Side) : Prop where
  inv : Inv s
  later : ∀ z, before z ≤ (s.net z).length
  clock : ∀ z, Clock (s.peer z).peer.sender
  alive : ∀ z, Alive (s.peer z).peer
  unclosed : Writer.isClosed (s.peer y).peer.outboundStream = false
  room : 0 < (s.peer y.other).peer.inboundStream.capacity

/-- The bytes that the other side of `y` has. -/
def State.pushed (s : State) (y : Side) : Bytes :=
  s.got y.other ++ (s.peer y.other).peer.inboundStream.stream

/-- Calm steps lead from `s` to `s'`. -/
structure Relays (before : Side → Nat) (y : Side) (s s' : State) : Prop where
  run : ∃ ls, (machine.restrict (Calm before)).Run s ls s'
  live : Live before s' y
  written : (s'.peer y).written = (s.peer y).written
  acked : (s.peer y).acked <+: (s'.peer y).acked
  pushed : (s.pushed y).length ≤ (s'.pushed y).length

theorem Relays.refl {y : Side} {s : State} (h : Live before s y) : Relays before y s s :=
  ⟨⟨[], .nil s⟩, h, rfl, List.prefix_refl _, Nat.le_refl _⟩

theorem Relays.trans {y : Side} {s s' s'' : State} (h : Relays before y s s')
    (h' : Relays before y s' s'') : Relays before y s s'' := by
  obtain ⟨ls, hr⟩ := h.run
  obtain ⟨ls', hr'⟩ := h'.run
  exact ⟨⟨ls ++ ls', hr.append hr'⟩, h'.live, h'.written.trans h.written,
    h.acked.trans h'.acked, h.pushed.trans h'.pushed⟩

theorem Live.kept {s s' : State} {l : Label} {y : Side} (h : Live before s y)
    (hs : step s l = some s') (hc : Calm before s l s') (z : Side) :
    Alive (s'.peer z).peer ∧ (s'.peer z).written = (s.peer z).written ∧
      Writer.isClosed (s'.peer z).peer.outboundStream =
        Writer.isClosed (s.peer z).peer.outboundStream ∧
      (s'.peer z).peer.inboundStream.capacity = (s.peer z).peer.inboundStream.capacity ∧
      (s.peer z).acked <+: (s'.peer z).acked ∧ Clock (s'.peer z).peer.sender := by
  rcases step_peer hs z with he | ⟨l', hl', hcalm⟩
  · rw [he]
    exact ⟨h.alive z, rfl, rfl, rfl, List.prefix_refl _, h.clock z⟩
  · obtain ⟨h1, h2, h3, h4, h5⟩ := kept_of_calm (h.inv.peer z) (h.alive z) (hcalm before hc) hl'
    exact ⟨h1, h2, h3, h4, h5, clock_step (h.inv.peer z) (h.clock z) hl'⟩

/-- One calm step. -/
theorem Live.relays {s s' : State} {l : Label} {y : Side} (h : Live before s y)
    (hs : step s l = some s') (hc : Calm before s l s')
    (hp : (s.pushed y).length ≤ (s'.pushed y).length) : Relays before y s s' := by
  have hk := h.kept hs hc
  have hshort : Short s l s' := fun z => by
    rw [(hk z).2.1]
    exact h.inv.short z
  refine ⟨⟨[l], .cons ⟨hs, hc⟩ (.nil _)⟩, ⟨h.inv.step hs hshort,
    fun z => (h.later z).trans (net_grows hs z), fun z => (hk z).2.2.2.2.2,
    fun z => (hk z).1, ?_, ?_⟩, (hk y).2.1, (hk y).2.2.2.2.1, hp⟩
  · rw [(hk y).2.2.1]
    exact h.unclosed
  · rw [(hk y.other).2.2.2.1]
    exact h.room

end StreamSocket.L4.Network
