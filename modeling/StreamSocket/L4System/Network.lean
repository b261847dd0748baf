import StreamSocket.L3Protocol.AckSound
import StreamSocket.L3Protocol.PeerPair

/-!
# Two TCPPeers over any network

Two peers (`PeerRun`, so neither application writes after it has closed) and a
network that keeps every segment ever sent: it may deliver each of them in any
order, any number of times, or never. `got y` is what the application of `y` has
read from its inbound stream, so both ends of both directions are in the state.

The two directions are coupled: a segment carries data one way and an
acknowledgment the other way. `Direction a b` is what holds from `a` to `b`:
the inbox of `b` follows the log of `a`, each segment of `a` belongs to that
log, and each ackno that `b` has sent names a number that `a` has created.

* `both_ways_safe`: in every reachable state, whatever the network does, what
  either application has read and can read is a prefix of what the other one
  wrote; every segment ever sent can still be received; no ackno exceeds what
  was created; and until a side closes, its sender has only forgotten bytes
  that the other side has.
-/
namespace StreamSocket.L4.Network

open L1 L2 L3
open L3.PeerPair (Side ofApp inbox)

/-- `got` and `net` only grow. -/
structure State where
  peer : Side → PeerRun.State
  got : Side → Bytes
  net : Side → List TCPSegment

/-- `receive y i` brings to `y` the segment that the other side sent `i`-th. -/
inductive Label where
  | app (y : Side) (l : PeerRun.Label)
  | send (y : Side)
  | receive (y : Side) (i : Nat)
  deriving DecidableEq, Repr

def State.set (s : State) (y : Side) (q : PeerRun.State) (got : Bytes) (net : List TCPSegment) :
    State :=
  { peer := Function.update s.peer y q
    got := Function.update s.got y got
    net := Function.update s.net y net }

section

variable (s : State) (y : Side) (q : PeerRun.State) (got : Bytes) (net : List TCPSegment)

@[simp] theorem set_peer_self : (s.set y q got net).peer y = q := Function.update_self ..

@[simp] theorem set_got_self : (s.set y q got net).got y = got := Function.update_self ..

@[simp] theorem set_net_self : (s.set y q got net).net y = net := Function.update_self ..

@[simp] theorem set_peer_other : (s.set y q got net).peer y.other = s.peer y.other :=
  Function.update_of_ne y.other_ne ..

@[simp] theorem set_got_other : (s.set y q got net).got y.other = s.got y.other :=
  Function.update_of_ne y.other_ne ..

@[simp] theorem set_net_other : (s.set y q got net).net y.other = s.net y.other :=
  Function.update_of_ne y.other_ne ..

@[simp] theorem set_other_peer : (s.set y.other q got net).peer y = s.peer y :=
  Function.update_of_ne y.other_ne.symm ..

@[simp] theorem set_other_got : (s.set y.other q got net).got y = s.got y :=
  Function.update_of_ne y.other_ne.symm ..

@[simp] theorem set_other_net : (s.set y.other q got net).net y = s.net y :=
  Function.update_of_ne y.other_ne.symm ..

end

/-- What a pop took, read off the two states. -/
def taken (p p' : TCPPeer) : Bytes :=
  p.inboundStream.stream.take
    (p.inboundStream.stream.length - p'.inboundStream.stream.length)

/-- The segment that `maybe_send` has just returned, if any. -/
def sent (q : PeerRun.State) : List TCPSegment := (q.returned.getD none).toList

def step (s : State) : Label → Option State
  | .app y l =>
    if ofApp l then
      (PeerRun.step (s.peer y) l).map fun q =>
        s.set y q (s.got y ++ taken (s.peer y).peer q.peer) (s.net y)
    else none
  | .send y =>
    (PeerRun.step (s.peer y) .maybeSend).map fun q => s.set y q (s.got y) (s.net y ++ sent q)
  | .receive y i =>
    (s.net y.other)[i]?.bind fun seg =>
      (PeerRun.step (s.peer y) (.receive seg)).map fun q => s.set y q (s.got y) (s.net y)

def start (cfg : Side → TCPConfig) (isn : Side → Wrap32) : State :=
  { peer := fun y => .start (cfg y) (isn y), got := fun _ => [], net := fun _ => [] }

/-- The Reassembler's arrays have `recv_capacity` cells, and a vector has fewer
than `2^63`. -/
def machine : LTS State Label :=
  LTS.ofFn (fun s => ∃ cfg isn, (∀ y, (cfg y).sendCapacity < 2 ^ 64 ∧
    (cfg y).recvCapacity < 2 ^ 63) ∧ s = start cfg isn) step

/-- Fewer than `2^31` bytes in each direction. -/
def Short (_ : State) (_ : Label) (s' : State) : Prop :=
  ∀ y, (s'.peer y).written.length < 2 ^ 31

/-- A property of both sides is decided on each of them. -/
instance decidableSides (p : Side → Prop) [∀ y, Decidable (p y)] : Decidable (∀ y, p y) :=
  decidable_of_iff (p .left ∧ p .right)
    ⟨fun h y => by
      cases y with
      | left => exact h.1
      | right => exact h.2, fun h => ⟨h .left, h .right⟩⟩

instance (s : State) (l : Label) (s' : State) : Decidable (Short s l s') :=
  inferInstanceAs (Decidable (∀ _, _))

/-! ## The end of one stream -/

/-- The FIN is created once the stream is closed and empty. -/
def Sealed (s : PeerRun.State) : Prop :=
  s.peer.sender.fin = true → Reader.isFinished s.peer.outboundStream = true

theorem sealed_push {log : List TCPSenderMessage} {x x' : TCPSender} {b b' : ByteStream}
    (h : LogInv log x) (hb : b.Inv) (hp : x.push b = .ok (x', b'))
    (hs : x.fin = true → Reader.isFinished b = true) :
    x'.fin = true → Reader.isFinished b' = true := by
  intro hf
  obtain ⟨_, _, ms, h1, -, -, -, hc⟩ := h.push hb
  rw [h1] at hp
  cases hp
  rcases hc.ended hf with hf | hf
  · obtain ⟨hcl, hnil⟩ := hb.finished.mp (hs hf)
    have hstream := hc.stream
    rw [hnil] at hstream
    exact hc.inv.finished.mpr ⟨hc.close.trans hcl, (List.append_eq_nil_iff.mp hstream.symm).2⟩
  · exact hf

theorem Sealed.step {s s' : PeerRun.State} {l : PeerRun.Label} (hi : PeerRun.Inv s)
    (h : Sealed s) (hs : PeerRun.step s l = some s') : Sealed s' := by
  have hi' := hi.step hs
  intro hf
  cases PeerRun.step_cases hs with
  | write data =>
    -- the FIN is created, so the stream is closed, and a write to it is no step
    obtain ⟨hcl, -⟩ := hi.out.finished.mp (h hf)
    simp only [PeerRun.step, Writer.isClosed, hcl, if_true] at hs
    cases hs
  | close =>
    obtain ⟨-, hnil⟩ := hi.out.finished.mp (h hf)
    exact hi'.out.finished.mpr ⟨rfl, hnil⟩
  | setError => exact h hf
  | read len => exact h hf
  | push hx _ => exact sealed_push hi.log hi.out hx h hf
  | tick ms =>
    refine h ?_
    have hf : (s.peer.sender.tick ms).fin = true := hf
    cases ho : s.peer.sender.outstandingMessages with
    | nil => rwa [TCPSender.tick_nil ho] at hf
    | cons m rest =>
      obtain ⟨-, -, -, -, -, -, h7, -⟩ := (TCPSender.tick_spec ho ms).frame
      rwa [h7] at hf
  | receive hp =>
    rcases TCPPeer.receive_cases hp with ⟨-, rfl⟩ | ⟨t, r, inbound, -, -, rfl⟩
    · exact h hf
    · refine h ?_
      have hf : (s.peer.sender.receive _).fin = true := hf
      rcases TCPSender.receive_spec hi.log.inFlight _ with ⟨-, he⟩ | ⟨a, k, -, -, -, ha⟩
      · rwa [he] at hf
      · rwa [ha.frame.2.2.2.2.2] at hf
  | maybeSend hp hm =>
    obtain ⟨p₁, h1, rfl, -⟩ := TCPPeer.maybeSend_cases hp
    have hf : p₁.sender.maybeSend.1.fin = true := hf
    rw [(PeerRun.maybeSend_frame p₁.sender).2.2.2] at hf
    rcases TCPPeer.pushIfAlive_cases h1 with ⟨-, rfl⟩ | ⟨x', b', -, hx, rfl⟩
    · exact h hf
    · exact sealed_push hi.log hi.out hx h hf

/-- Until the stream is closed there is no FIN. -/
theorem Sealed.not_fin {s : PeerRun.State} (h : Sealed s) (hi : PeerRun.Inv s)
    (hc : Writer.isClosed s.peer.outboundStream = false) : s.peer.sender.fin = false := by
  by_contra hf
  obtain ⟨hcl, -⟩ := hi.out.finished.mp (h (Bool.not_eq_false _ ▸ hf))
  unfold Writer.isClosed at hc
  rw [hcl] at hc
  cases hc

/-! ## One direction -/

/-- An ackno that `b` has sent, once it had a SYN: a number that `a` has
created, and until the FIN is created one whose bytes `b` has. -/
def Names (a : PeerRun.State) (b : Inbox) (w : Wrap32) : Prop :=
  b.t.syn = true ∧ ∃ n, w = Wrap32.wrap n a.peer.sender.isn ∧ n ≤ totalLength a.log ∧
    (a.peer.sender.fin = false → n ≤ b.pushed.length + 1)

/-- From `a` to `b`: `out` is all that `a` has sent, `back` all that `b` has. -/
structure Direction (a b : PeerRun.State) (got : Bytes) (out back : List TCPSegment) : Prop where
  follows : Follows a.log a.peer.sender.isn (inbox b.peer got)
  made : ∀ seg ∈ out, seg.senderMessage ∈ a.log ∨ ∃ w, seg.senderMessage = { seqno := w }
  acks : ∀ seg ∈ back, ∀ w, seg.receiverMessage.ackno = some w → Names a (inbox b.peer got) w
  acked : a.peer.sender.fin = false →
    (payloads a.acked).length ≤ (inbox b.peer got).pushed.length
  opened : a.acked ≠ [] → b.peer.receiver.syn = true

theorem direction_start {cfg cfg' : TCPConfig} (isn isn' : Wrap32)
    (hc : cfg'.recvCapacity < 2 ^ 63) :
    Direction (.start cfg isn) (.start cfg' isn') [] [] [] where
  follows := follows_start _ hc
  made := by simp
  acks := by simp
  acked := fun _ => Nat.zero_le _
  opened := fun hne => absurd rfl hne

/-- A FIN of the log stays in it. -/
theorem fin_of_grown {a a' : PeerRun.State} (ha : PeerRun.Inv a) (ha' : PeerRun.Inv a')
    (hlog : a.log <+: a'.log) (hf : a'.peer.sender.fin = false) : a.peer.sender.fin = false := by
  by_contra hne
  obtain ⟨m, hm, hmf⟩ := ha.log.sealed.mp (Bool.not_eq_false _ ▸ hne)
  rw [ha'.log.sealed.mpr ⟨m, hlog.subset hm, hmf⟩] at hf
  cases hf

theorem Names.mono {a a' : PeerRun.State} {b b' : Inbox} {w : Wrap32} (h : Names a b w)
    (hisn : a'.peer.sender.isn = a.peer.sender.isn) (hlog : a.log <+: a'.log)
    (hfin : a'.peer.sender.fin = false → a.peer.sender.fin = false)
    (hsyn : b.t.syn = true → b'.t.syn = true)
    (hpush : b.pushed.length ≤ b'.pushed.length) : Names a' b' w := by
  obtain ⟨hs, n, hw, hle, hn⟩ := h
  refine ⟨hsyn hs, n, by rw [hisn]; exact hw, hle.trans (totalLength_mono hlog), fun hf => ?_⟩
  have := hn (hfin hf)
  omega

section

variable {a a' b b' : PeerRun.State} {got : Bytes} {out back : List TCPSegment}

/-- The sending peer goes on without an acknowledgment. -/
theorem Direction.sender (h : Direction a b got out back)
    (hisn : a'.peer.sender.isn = a.peer.sender.isn) (hlog : a.log <+: a'.log)
    (hfin : a'.peer.sender.fin = false → a.peer.sender.fin = false) (hacked : a'.acked = a.acked) :
    Direction a' b got out back where
  follows := by
    rw [hisn]
    exact h.follows.mono hlog
  made := fun seg hseg => (h.made seg hseg).imp_left (hlog.subset ·)
  acks := fun seg hseg w hw => (h.acks seg hseg w hw).mono hisn hlog hfin id (Nat.le_refl _)
  acked := fun hf => by
    rw [hacked]
    exact h.acked (hfin hf)
  opened := fun hne => h.opened (hacked ▸ hne)

/-- The receiving peer does something else than receive; what a pop takes, the
application gets. -/
theorem Direction.reader {l : PeerRun.Label} (h : Direction a b got out back)
    (hs : PeerRun.step b l = some b') (hl : ∀ seg, l ≠ .receive seg) :
    Direction a b' (got ++ taken b.peer b'.peer) out back := by
  obtain ⟨h1, h2, h3⟩ := PeerRun.inbound_cases hs hl
  have hpop : Follows a.log a.peer.sender.isn (inbox b'.peer (got ++ taken b.peer b'.peer)) ∧
      (inbox b'.peer (got ++ taken b.peer b'.peer)).pushed = (inbox b.peer got).pushed := by
    unfold taken
    rcases h3 with h3 | ⟨len, h3⟩
    · have hi : inbox b'.peer got = inbox b.peer got := by
        unfold inbox
        rw [h1, h2, h3]
      rw [h3, Nat.sub_self, List.take_zero, List.append_nil, hi]
      exact ⟨h.follows, rfl⟩
    · have hi : inbox b'.peer ((inbox b.peer got).pop len).popped =
          (inbox b.peer got).pop len := by
        unfold inbox Inbox.pop
        rw [h1, h2, h3]
      rw [h3]
      change Follows _ _ (inbox b'.peer ((inbox b.peer got).pop len).popped) ∧
        (inbox b'.peer ((inbox b.peer got).pop len).popped).pushed = _
      rw [hi]
      exact h.follows.pop len
  obtain ⟨hf, hp⟩ := hpop
  have hsyn : b.peer.receiver.syn = true → b'.peer.receiver.syn = true := fun hb => by rw [h1, hb]
  refine ⟨hf, h.made, fun seg hseg w hw => ?_, fun hfin => ?_, fun hne => hsyn (h.opened hne)⟩
  · exact (h.acks seg hseg w hw).mono rfl (List.prefix_refl _) id hsyn (by rw [hp])
  · rw [hp]
    exact h.acked hfin

/-- `a` sends a segment of its log, or an empty one. -/
theorem Direction.sent {seg : TCPSegment} (h : Direction a b got out back)
    (hm : seg.senderMessage ∈ a.log ∨ ∃ w, seg.senderMessage = { seqno := w }) :
    Direction a b got (out ++ [seg]) back where
  follows := h.follows
  made := fun x hx => by
    rcases List.mem_append.mp hx with hx | hx
    · exact h.made x hx
    · rw [List.mem_singleton.mp hx]
      exact hm
  acks := h.acks
  acked := h.acked
  opened := h.opened

/-- The bytes in the log are written, so they are few. -/
theorem payloads_lt (ha : PeerRun.Inv a) (hw : a.written.length < 2 ^ 31) :
    (payloads a.log).length < 2 ^ 31 := by
  have h := congrArg List.length ha.written
  rw [List.length_append] at h
  omega

theorem Direction.pushed_le (h : Direction a b got out back) :
    (inbox b.peer got).pushed.length ≤ (payloads a.log).length :=
  h.follows.isPrefix.length_le

theorem Direction.pushed_lt (h : Direction a b got out back) (ha : PeerRun.Inv a)
    (hw : a.written.length < 2 ^ 31) : (inbox b.peer got).pushed.length < 2 ^ 62 :=
  Nat.lt_of_le_of_lt h.pushed_le (Nat.lt_trans (payloads_lt ha hw) (by decide))

/-- What `b` acknowledges now. -/
theorem Direction.names (h : Direction a b got out back) (ha : PeerRun.Inv a)
    (hw : a.written.length < 2 ^ 31) {w : Wrap32}
    (hack : b.peer.receiverMsg.ackno = some w) : Names a (inbox b.peer got) w := by
  have hp := h.pushed_lt ha hw
  obtain ⟨hs, hwrap⟩ := h.follows.of_send (w := w) hack
  refine ⟨hs, _, hwrap, h.follows.ackno_le ha.log.numbering hs hp, fun hf => ?_⟩
  rw [h.follows.ackno_eq hp]
  -- a FIN that `b` knows of is one that `a` has created
  have hfin : (inbox b.peer got).t.fin = false := by
    by_contra hne
    rw [ha.log.sealed.mpr (h.follows.FIN (Bool.not_eq_false _ ▸ hne))] at hf
    cases hf
  rw [hfin, Bool.false_and]
  exact Nat.le_refl _

/-- `b` sends a segment; it carries what `b` acknowledges. -/
theorem Direction.answered {seg : TCPSegment} (h : Direction a b got out back)
    (hm : ∀ w, seg.receiverMessage.ackno = some w → Names a (inbox b.peer got) w) :
    Direction a b got out (back ++ [seg]) where
  follows := h.follows
  made := h.made
  acks := fun x hx w hw => by
    rcases List.mem_append.mp hx with hx | hx
    · exact h.acks x hx w hw
    · rw [List.mem_singleton.mp hx] at hw
      exact hm w hw
  acked := h.acked
  opened := h.opened

/-! ### A segment arrives -/

/-- The receiving half of `b` can take any segment of `a`. -/
theorem Direction.inbound (h : Direction a b got out back) (ha : PeerRun.Inv a)
    (hw : a.written.length < 2 ^ 31) {seg : TCPSegment} (hseg : seg ∈ out) :
    ∃ t r inbound, b.peer.receiver.receive seg.senderMessage b.peer.reassembler
        b.peer.inboundStream = some (t, r, inbound) ∧
      Follows a.log a.peer.sender.isn { t := t, r := r, inbound := inbound, popped := got } ∧
      (inbox b.peer got).pushed.length ≤ (got ++ inbound.stream).length := by
  have hbelongs : Belongs a.log a.peer.sender.isn (inbox b.peer got) seg.senderMessage := by
    rcases h.made seg hseg with hm | ⟨w, hm⟩
    · obtain ⟨i, hi⟩ := List.mem_iff_getElem?.mp hm
      have hn := ha.log.numbering
      exact h.follows.belongs hn hi (hn.readsBack hi (payloads_lt ha hw) h.pushed_le)
    · rw [hm]
      exact h.follows.belongs_empty w
  obtain ⟨b₁, h1, h2, h3, -⟩ := h.follows.receive hbelongs (h.pushed_lt ha hw)
  obtain ⟨⟨t, r, inbound⟩, h4, rfl⟩ := Option.map_eq_some_iff.mp h1
  exact ⟨t, r, inbound, h4, h2, h3.length_le⟩

theorem Direction.receives (h : Direction a b got out back) (ha : PeerRun.Inv a)
    (hw : a.written.length < 2 ^ 31) {seg : TCPSegment} (hseg : seg ∈ out) :
    ∃ q, PeerRun.step b (.receive seg) = some q := by
  obtain ⟨t, r, inbound, hr, -⟩ := h.inbound ha hw hseg
  simp only [PeerRun.step, TCPPeer.receive]
  split
  · exact ⟨_, rfl⟩
  · rw [hr]
    exact ⟨_, rfl⟩

theorem Direction.deliver (h : Direction a b got out back) (ha : PeerRun.Inv a)
    (hw : a.written.length < 2 ^ 31) {seg : TCPSegment} (hseg : seg ∈ out)
    (hs : PeerRun.step b (.receive seg) = some b') : Direction a b' got out back := by
  cases PeerRun.step_cases hs with
  | receive hp =>
    rcases TCPPeer.receive_cases hp with ⟨-, rfl⟩ | ⟨t, r, inbound, -, hr, rfl⟩
    · exact ⟨h.follows.error true, h.made, h.acks, h.acked, h.opened⟩
    · obtain ⟨t', r', inbound', hr', hf, hle⟩ := h.inbound ha hw hseg
      rw [hr] at hr'
      cases hr'
      have hsyn : b.peer.receiver.syn = true → t.syn = true := fun hb => by
        rcases TCPReceiver.receive_syn hr with ht | he
        · exact ht
        · rw [(Prod.mk.inj he).1, hb]
      refine ⟨hf, h.made, fun x hx w hxw => ?_, fun hfin => (h.acked hfin).trans hle,
        fun hne => hsyn (h.opened hne)⟩
      exact (h.acks x hx w hxw).mono rfl (List.prefix_refl _) id hsyn hle

/-- An ackno is read back as the number it names. -/
theorem Names.absAckno {w : Wrap32} (h : Names a (inbox b.peer got) w) (ha : PeerRun.Inv a)
    (hw : a.written.length < 2 ^ 31) (hle : a.peer.sender.absAckno w ≤ a.peer.sender.nextAbsSeqno) :
    a.peer.sender.absAckno w ≤ totalLength a.log ∧ (a.peer.sender.fin = false →
      a.peer.sender.absAckno w ≤ (inbox b.peer got).pushed.length + 1) := by
  obtain ⟨-, n, hwn, hn, hpush⟩ := h
  have htot := ha.log.numbering.totalLength_le
  have hpay := payloads_lt ha hw
  have hnext := ha.log.next
  rw [Nat.mod_eq_of_lt (by omega)] at hnext
  have hwraps := (Wrap32.nearest_unwrap_self w a.peer.sender.isn
    (c := a.peer.sender.nextAbsSeqno) (by omega)).wraps
  rw [Wrap32.wrap_eq_iff] at hwraps
  have htrue := (Wrap32.wrap_eq_iff _ _ _).mp hwn.symm
  change Wrap32.offset _ _ = a.peer.sender.absAckno w % 2 ^ 32 at hwraps
  have heq : a.peer.sender.absAckno w = n := by omega
  rw [heq]
  exact ⟨hn, hpush⟩

/-- The messages that are acknowledged are the log but for the outstanding ones. -/
theorem acked_eq (ha : PeerRun.Inv a) :
    a.acked = a.log.take (a.log.length - a.peer.sender.outstandingMessages.length) := by
  rw [ha.acked, List.length_append, Nat.add_sub_cancel, List.take_left' rfl]

/-- After an acknowledgment that `b` has sent: what the sender forgets, `b` has. -/
theorem Direction.forgets (h : Direction a b got out back) (ha : PeerRun.Inv a)
    (hw : a.written.length < 2 ^ 31) (hf : a.peer.sender.fin = false) {msg : TCPReceiverMessage}
    (hn : ∀ w, msg.ackno = some w → Names a (inbox b.peer got) w) :
    (payloads (a.log.take (a.log.length -
      (a.peer.sender.receive msg).outstandingMessages.length))).length ≤
        (inbox b.peer got).pushed.length := by
  have hold := h.acked hf
  rw [acked_eq ha] at hold
  rcases TCPSender.receive_spec ha.log.inFlight msg with ⟨-, he⟩ | ⟨w, k, hack, hv, -, hk⟩
  · rw [he]
    exact hold
  by_cases h0 : k = 0
  · rw [hk.outstanding, h0, List.drop_zero]
    exact hold
  have hA := (TCPSender.validAck_iff.mp hv).1
  obtain ⟨-, hpush⟩ := (hn w hack).absAckno ha hw hA
  have hpush := hpush hf
  have htot := ha.log.numbering.totalLength_le
  have hpay := payloads_lt ha hw
  have hrem := EndToEnd.removed_le ha.log (by omega) hA hk h0
  generalize a.log.length - (a.peer.sender.receive msg).outstandingMessages.length = n at hrem ⊢
  by_cases hnil : a.log.take n = []
  · rw [hnil]
    exact Nat.zero_le _
  · -- the SYN takes the first number
    rw [(ha.log.numbering.take n).totalLength_eq hnil] at hrem
    omega

theorem Direction.acknowledge (h : Direction a b got out back) (ha : PeerRun.Inv a)
    (hw : a.written.length < 2 ^ 31) {seg : TCPSegment} (hseg : seg ∈ back)
    (hs : PeerRun.step a (.receive seg) = some a') : Direction a' b got out back := by
  obtain ⟨hisn, hlog⟩ := ha.grows hs
  have ha' := ha.step hs
  have hfin := fin_of_grown ha ha' hlog
  have hforget := fun hf => h.forgets ha hw hf (h.acks seg hseg)
  have heq := acked_eq ha'
  cases PeerRun.step_cases hs with
  | receive hp =>
    refine ⟨hisn ▸ h.follows, fun x hx => h.made x hx, fun x hx w hxw => ?_, fun hf => ?_,
      fun hne => ?_⟩
    · exact (h.acks x hx w hxw).mono hisn hlog hfin id (Nat.le_refl _)
    · rw [heq]
      rcases TCPPeer.receive_cases hp with ⟨-, rfl⟩ | ⟨t, r, inbound, -, -, rfl⟩
      · have hold := h.acked (hfin hf)
        rw [acked_eq ha] at hold
        exact hold
      · exact hforget (hfin hf)
    · -- without an ackno nothing is forgotten
      by_cases hold : a.acked = []
      · by_cases hack : seg.receiverMessage.ackno = none
        · refine absurd ?_ hne
          rw [heq]
          rcases TCPPeer.receive_cases hp with ⟨-, rfl⟩ | ⟨t, r, inbound, -, -, rfl⟩
          · rw [acked_eq ha] at hold
            exact hold
          · have he : a.peer.sender.receive seg.receiverMessage = a.peer.sender := by
              unfold TCPSender.receive
              rw [hack]
            rw [acked_eq ha] at hold
            show a.log.take
              (a.log.length - (a.peer.sender.receive _).outstandingMessages.length) = _
            rw [he]
            exact hold
        · obtain ⟨w, hw⟩ := Option.ne_none_iff_exists'.mp hack
          exact (h.acks seg hseg w hw).1
      · exact h.opened hold

end

/-! ## Both directions -/

structure Inv (s : State) : Prop where
  peer : ∀ y, PeerRun.Inv (s.peer y)
  ended : ∀ y, Sealed (s.peer y)
  short : ∀ y, (s.peer y).written.length < 2 ^ 31
  direction : ∀ y,
    Direction (s.peer y) (s.peer y.other) (s.got y.other) (s.net y) (s.net y.other)

/-- A step of `y` touches the direction it sends in and the one it receives in. -/
theorem Inv.set {s : State} (h : Inv s) {y : Side} {q : PeerRun.State} {got : Bytes}
    {net : List TCPSegment} (hq : PeerRun.Inv q) (he : Sealed q)
    (hw : ∀ z, ((s.set y q got net).peer z).written.length < 2 ^ 31)
    (hout : Direction q (s.peer y.other) (s.got y.other) net (s.net y.other))
    (hin : Direction (s.peer y.other) q got (s.net y.other) net) : Inv (s.set y q got net) := by
  refine ⟨fun z => ?_, fun z => ?_, hw, fun z => ?_⟩
  all_goals rcases y.eq_or_other z with rfl | rfl
  · simpa using hq
  · simpa using h.peer _
  · simpa using he
  · simpa using h.ended _
  · simpa using hout
  · simpa using hin

/-- Only acknowledgments change what is acknowledged. -/
theorem acked_of_step {s s' : PeerRun.State} {l : PeerRun.Label} (hs : PeerRun.step s l = some s')
    (hl : ∀ seg, l ≠ .receive seg) : s'.acked = s.acked := by
  cases PeerRun.step_cases hs with
  | receive _ => exact absurd rfl (hl _)
  | _ => rfl

/-- What `y` does by itself, for both directions. -/
theorem Inv.local {s : State} (h : Inv s) {y : Side} {l : PeerRun.Label} {q : PeerRun.State}
    (hs : PeerRun.step (s.peer y) l = some q) (hl : ∀ seg, l ≠ .receive seg) :
    PeerRun.Inv q ∧ Sealed q ∧
      Direction q (s.peer y.other) (s.got y.other) (s.net y) (s.net y.other) ∧
      Direction (s.peer y.other) q (s.got y ++ taken (s.peer y).peer q.peer) (s.net y.other)
        (s.net y) := by
  have hq := (h.peer y).step hs
  obtain ⟨hisn, hlog⟩ := (h.peer y).grows hs
  have hin := h.direction y.other
  rw [Side.other_other] at hin
  exact ⟨hq, (h.ended y).step (h.peer y) hs, (h.direction y).sender hisn hlog
    (fin_of_grown (h.peer y) hq hlog) (acked_of_step hs hl), hin.reader hs hl⟩

/-- What `maybe_send` puts on the network. -/
theorem Inv.sends {s : State} (h : Inv s) {y : Side} {q : PeerRun.State} {seg : TCPSegment}
    (hs : PeerRun.step (s.peer y) .maybeSend = some q) (hr : q.returned = some (some seg)) :
    (seg.senderMessage ∈ q.log ∨ ∃ w, seg.senderMessage = { seqno := w }) ∧
      seg.receiverMessage = (s.peer y).peer.receiverMsg ∧
      q.peer.receiverMsg = (s.peer y).peer.receiverMsg := by
  cases PeerRun.step_cases hs with
  | @maybeSend p' _ hp hm =>
    cases Option.some.inj hr
    refine ⟨((h.peer y).made hp hm).imp_right fun he => ⟨_, he.2⟩, ?_⟩
    obtain ⟨p₁, h1, rfl, hseg⟩ := TCPPeer.maybeSend_cases hp
    have hmsg : p₁.receiverMsg = (s.peer y).peer.receiverMsg := by
      rcases TCPPeer.pushIfAlive_cases h1 with ⟨-, rfl⟩ | ⟨x', b', -, -, rfl⟩ <;> rfl
    refine ⟨?_, hmsg⟩
    rcases hseg with ⟨m, -, r, he⟩ | ⟨-, -, r, he⟩ | ⟨-, -, he⟩
    · rw [Option.some.inj he]
    · rw [Option.some.inj he]
    · cases he

theorem taken_eq_nil {p p' : TCPPeer} (h : p'.inboundStream = p.inboundStream) :
    taken p p' = [] := by
  unfold taken
  rw [h, Nat.sub_self, List.take_zero]

theorem maybeSend_inbound {s s' : PeerRun.State} (hs : PeerRun.step s .maybeSend = some s') :
    s'.peer.inboundStream = s.peer.inboundStream := by
  cases PeerRun.step_cases hs with
  | maybeSend hp _ =>
    obtain ⟨p₁, h1, rfl, -⟩ := TCPPeer.maybeSend_cases hp
    rcases TCPPeer.pushIfAlive_cases h1 with ⟨-, rfl⟩ | ⟨x', b', -, -, rfl⟩ <;> rfl

theorem Inv.send {s : State} (h : Inv s) {y : Side} {q : PeerRun.State}
    (hs : PeerRun.step (s.peer y) .maybeSend = some q) :
    Direction q (s.peer y.other) (s.got y.other) (s.net y ++ sent q) (s.net y.other) ∧
      Direction (s.peer y.other) q (s.got y) (s.net y.other) (s.net y ++ sent q) := by
  obtain ⟨hq, -, hout, hin⟩ := h.local hs nofun
  rw [taken_eq_nil (maybeSend_inbound hs), List.append_nil] at hin
  rcases hr : q.returned with _ | _ | seg
  · simp only [Network.sent, hr, Option.getD_none, Option.toList_none, List.append_nil]
    exact ⟨hout, hin⟩
  · simp only [Network.sent, hr, Option.getD_some, Option.toList_none, List.append_nil]
    exact ⟨hout, hin⟩
  · obtain ⟨hm, hack, hmsg⟩ := h.sends hs hr
    simp only [Network.sent, hr, Option.getD_some, Option.toList_some]
    refine ⟨hout.sent hm, hin.answered fun w hw => ?_⟩
    rw [hack, ← hmsg] at hw
    exact hin.names (h.peer _) (h.short _) hw

theorem Inv.receive {s : State} (h : Inv s) {y : Side} {seg : TCPSegment} {q : PeerRun.State}
    (hseg : seg ∈ s.net y.other) (hs : PeerRun.step (s.peer y) (.receive seg) = some q) :
    PeerRun.Inv q ∧ Sealed q ∧
      Direction q (s.peer y.other) (s.got y.other) (s.net y) (s.net y.other) ∧
      Direction (s.peer y.other) q (s.got y) (s.net y.other) (s.net y) := by
  have hin := h.direction y.other
  rw [Side.other_other] at hin
  exact ⟨(h.peer y).step hs, (h.ended y).step (h.peer y) hs,
    (h.direction y).acknowledge (h.peer y) (h.short y) hseg hs,
    hin.deliver (h.peer _) (h.short _) hseg hs⟩

theorem Inv.step {s s' : State} {l : Label} (h : Inv s) (hs : Network.step s l = some s')
    (hw : Short s l s') : Inv s' := by
  cases l with
  | app y l =>
    simp only [Network.step] at hs
    split at hs
    · rename_i happ
      obtain ⟨q, hq, rfl⟩ := Option.map_eq_some_iff.mp hs
      have hl : ∀ seg, l ≠ .receive seg := fun seg he => by
        rw [he] at happ
        cases happ
      obtain ⟨h1, h2, h3, h4⟩ := h.local hq hl
      exact h.set h1 h2 hw h3 h4
    · cases hs
  | send y =>
    obtain ⟨q, hq, rfl⟩ := Option.map_eq_some_iff.mp hs
    obtain ⟨h1, h2, -, -⟩ := h.local hq nofun
    obtain ⟨h3, h4⟩ := h.send hq
    exact h.set h1 h2 hw h3 h4
  | receive y i =>
    obtain ⟨seg, hi, hs⟩ := Option.bind_eq_some_iff.mp hs
    obtain ⟨q, hq, rfl⟩ := Option.map_eq_some_iff.mp hs
    obtain ⟨h1, h2, h3, h4⟩ := h.receive (List.mem_of_getElem? hi) hq
    exact h.set h1 h2 hw h3 h4

theorem inv_start {cfg : Side → TCPConfig} (hc : ∀ y, (cfg y).sendCapacity < 2 ^ 64 ∧
    (cfg y).recvCapacity < 2 ^ 63) (isn : Side → Wrap32) : Inv (start cfg isn) where
  peer := fun y => PeerRun.inv_start (hc y).1 (isn y)
  ended := fun _ => nofun
  short := fun _ => Nat.two_pow_pos 31
  direction := fun y => direction_start _ _ (hc y.other).2

theorem inductive_inv : (machine.restrict Short).Inductive Inv := by
  refine .restrict ?_ fun s l s' h hw hs => h.step hs hw
  rintro _ ⟨cfg, isn, hc, rfl⟩
  exact inv_start hc isn

/-! ## Safety -/

/-- What `y` can rely on. -/
structure Safe (s : State) (y : Side) : Prop where
  bytes : s.got y ++ (s.peer y).peer.inboundStream.stream <+: (s.peer y.other).written
  takes : ∀ seg ∈ s.net y.other, ∃ q, PeerRun.step (s.peer y) (.receive seg) = some q
  acks : ∀ seg ∈ s.net y.other, ∀ w, seg.receiverMessage.ackno = some w →
    ∃ n, w = Wrap32.wrap n (s.peer y).peer.sender.isn ∧
      n ≤ (s.peer y).peer.sender.nextAbsSeqno
  forgotten : Writer.isClosed (s.peer y).peer.outboundStream = false →
    payloads (s.peer y).acked <+: s.got y.other ++ (s.peer y.other).peer.inboundStream.stream

theorem Inv.safe {s : State} (h : Inv s) (y : Side) : Safe s y := by
  have hin := h.direction y.other
  rw [Side.other_other] at hin
  have hout := h.direction y
  refine ⟨?_, fun seg hseg => hin.receives (h.peer _) (h.short _) hseg, fun seg hseg w hw => ?_,
    fun hc => ?_⟩
  · rw [(h.peer y.other).written]
    exact hin.follows.isPrefix.trans (List.prefix_append _ _)
  · obtain ⟨-, n, hwrap, hn, -⟩ := hout.acks seg hseg w hw
    have htot := (h.peer y).log.numbering.totalLength_le
    have hpay := payloads_lt (h.peer y) (h.short y)
    refine ⟨n, hwrap, hn.trans (Nat.le_of_eq ?_)⟩
    rw [(h.peer y).log.next, Nat.mod_eq_of_lt (by omega)]
  · have hf := (h.ended y).not_fin (h.peer y) hc
    refine List.prefix_of_prefix_length_le ?_ hout.follows.isPrefix (hout.acked hf)
    rw [acked_eq (h.peer y)]
    exact payloads_take _ _

/-- **Both ways safe.** Two peers over a network that may lose, repeat and
reorder: on both sides what the application has read, with what it can still
read, is a prefix of what the other application wrote; every segment on the
network can be received; every ackno is that of a number its receiver has
created; and until a side closes, the other side has all that its sender no
longer keeps. -/
theorem both_ways_safe (s : State) (hr : (machine.restrict Short).Reachable s) (y : Side) :
    Safe s y :=
  (inductive_inv.reachable s hr).safe y

def smallConfig : TCPConfig :=
  { recvCapacity := 4, sendCapacity := 4, fixedIsn := some ⟨4294967295⟩ }

/-- The handshake; then two segments arrive in the wrong order, one of them
twice, and a byte is read. -/
theorem both_ways_safe_run : ∃ s, (machine.restrict Short).Run
    (start (fun _ => smallConfig) fun _ => ⟨0⟩)
    [.app .left .push, .send .left, .receive .right 0, .send .right, .receive .left 0,
      .app .left (.write [97]), .send .left, .app .left (.write [98]), .send .left,
      .receive .right 2, .receive .right 1, .receive .right 2, .send .right, .receive .left 1,
      .app .right (.read 1)] s ∧
    s.got .right = [97] ∧ Safe s .right ∧ Safe s .left := by
  have hrun : (LTS.exec (fun s l => (step s l).filter fun s' => decide (Short s l s'))
      (start (fun _ => smallConfig) fun _ => ⟨0⟩)
      [.app .left .push, .send .left, .receive .right 0, .send .right, .receive .left 0,
        .app .left (.write [97]), .send .left, .app .left (.write [98]), .send .left,
        .receive .right 2, .receive .right 1, .receive .right 2, .send .right, .receive .left 1,
        .app .right (.read 1)]).map (fun s => s.got .right) = some [97] := by decide +kernel
  obtain ⟨s, hs, he⟩ := Option.map_eq_some_iff.mp hrun
  have hsteps := LTS.run_of_filter (M := machine.restrict Short) (fun _ _ _ h hc => ⟨h, hc⟩) hs
  have hinit : (machine.restrict Short).init (start (fun _ => smallConfig) fun _ => ⟨0⟩) :=
    ⟨_, _, fun _ => ⟨by decide, by decide⟩, rfl⟩
  exact ⟨s, hsteps, he, both_ways_safe s ⟨_, _, hinit, hsteps⟩ .right,
    both_ways_safe s ⟨_, _, hinit, hsteps⟩ .left⟩

end StreamSocket.L4.Network
