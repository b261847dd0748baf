import StreamSocket.L3Protocol.Inbox
import StreamSocket.L3Protocol.PeerRun

/-!
# Two TCPPeers: a pure ACK elicits no reply

Two peers (`PeerRun`, so neither application writes after it has closed) joined
by two channels that may lose segments but neither reorder nor duplicate them.
Each segment in flight carries, as history, how many messages its sender had
created when it was built.

`TCPPeer::receive` asks for a reply to a segment that ends just before its own
ackno (a keep-alive), by a 32-bit comparison. `Behind` rules it out for the
segments of a peer: a receiver follows a part of the other's log that no
segment in flight is older than, so its ackno is at most the number at which
such a segment starts.

* `pure_ack_quiet`: a segment of length 0 never raises `need_send_`, and what
  `maybe_send` returns right after it, if anything, is not a pure ACK.
-/
namespace StreamSocket.L3.PeerPair

open L1 L2

inductive Side where
  | left | right
  deriving DecidableEq, Repr

def Side.other : Side → Side
  | .left => .right
  | .right => .left

@[simp] theorem Side.other_other (y : Side) : y.other.other = y := by cases y <;> rfl

theorem Side.other_ne (y : Side) : y.other ≠ y := by cases y <;> decide

theorem Side.eq_or_other (y z : Side) : z = y ∨ z = y.other := by
  cases y <;> cases z <;> simp [other]

/-- `created` is history. -/
structure Packet where
  seg : TCPSegment
  created : Nat
  deriving DecidableEq, Repr

/-- `wire y` is what `y` has sent and its peer has not received, oldest first. -/
structure State where
  peer : Side → PeerRun.State
  wire : Side → List Packet

inductive Label where
  | app (y : Side) (l : PeerRun.Label)
  | send (y : Side)
  | lose (y : Side) (i : Nat)
  | receive (y : Side)
  deriving DecidableEq, Repr

/-- What the application and the clock do; segments come and go by themselves. -/
def ofApp : PeerRun.Label → Bool
  | .receive _ | .maybeSend => false
  | _ => true

def State.update (s : State) (y : Side) (q : PeerRun.State) (wire : Side → List Packet) : State :=
  { peer := Function.update s.peer y q, wire := wire }

/-- The segment that `maybe_send` has just returned, if any. -/
def returned (q : PeerRun.State) : List Packet :=
  (q.returned.getD none).toList.map fun seg => { seg := seg, created := q.log.length }

def step (s : State) : Label → Option State
  | .app y l =>
    if ofApp l then (PeerRun.step (s.peer y) l).map fun q => s.update y q s.wire else none
  | .send y =>
    (PeerRun.step (s.peer y) .maybeSend).map fun q =>
      s.update y q (Function.update s.wire y (s.wire y ++ returned q))
  | .lose y i => some { s with wire := Function.update s.wire y ((s.wire y).eraseIdx i) }
  | .receive y =>
    match s.wire y.other with
    | [] => none
    | p :: w =>
      (PeerRun.step (s.peer y) (.receive p.seg)).map fun q =>
        s.update y q (Function.update s.wire y.other w)

/-- The Reassembler's arrays have `recv_capacity` cells, and a vector has fewer
than `2^63`. -/
def machine : LTS State Label :=
  LTS.ofFn (fun s => (∀ y, s.wire y = []) ∧ ∀ y, ∃ cfg isn, cfg.sendCapacity < 2 ^ 64 ∧
    cfg.recvCapacity < 2 ^ 63 ∧ s.peer y = .start cfg isn) step

/-- Fewer than `2^31` bytes in each direction. -/
def Short (_ : State) (_ : Label) (s' : State) : Prop :=
  ∀ y, (s'.peer y).written.length < 2 ^ 31

/-! ## One direction -/

/-- The receiving half of a peer. -/
def inbox (p : TCPPeer) (popped : Bytes) : Inbox :=
  { t := p.receiver, r := p.reassembler, inbound := p.inboundStream, popped := popped }

/-- The segments of `a` in flight: in the order they were built, each with a
message of the log of the time or an empty one behind it. -/
structure Carries (a : PeerRun.State) (w : List Packet) : Prop where
  ordered : w.Pairwise fun p q => p.created ≤ q.created
  le : ∀ p ∈ w, p.created ≤ a.log.length
  made : ∀ p ∈ w, p.seg.senderMessage ∈ a.log.take p.created ∨ p.seg.senderMessage =
    { seqno := Wrap32.wrap (totalLength (a.log.take p.created)) a.peer.sender.isn }

/-- `b` follows the first `n` messages of `a`, and nothing in flight is older. -/
structure Behind (a b : PeerRun.State) (w : List Packet) (n : Nat) (popped : Bytes) : Prop where
  follows : Follows (a.log.take n) a.peer.sender.isn (inbox b.peer popped)
  le : n ≤ a.log.length
  wire : ∀ p ∈ w, n ≤ p.created

/-- From `a` to `b`. -/
structure Direction (a b : PeerRun.State) (w : List Packet) : Prop where
  carries : Carries a w
  behind : ∃ n popped, Behind a b w n popped

theorem direction_start {cfg cfg' : TCPConfig} {isn isn' : Wrap32}
    (hc : cfg'.recvCapacity < 2 ^ 63) : Direction (.start cfg isn) (.start cfg' isn') [] where
  carries := ⟨.nil, by simp, by simp⟩
  behind := ⟨0, [], follows_start _ hc, Nat.le_refl _, by simp⟩

theorem take_of_isPrefix {α : Type} {l l' : List α} (h : l <+: l') {n : Nat} (hn : n ≤ l.length) :
    l'.take n = l.take n := by
  obtain ⟨t, rfl⟩ := h
  exact List.take_append_of_le_length hn

/-- The sending peer goes on; its log grows. -/
theorem Direction.sender {a a' b : PeerRun.State} {w : List Packet} (h : Direction a b w)
    (hisn : a'.peer.sender.isn = a.peer.sender.isn) (hlog : a.log <+: a'.log) :
    Direction a' b w := by
  obtain ⟨n, popped, hb⟩ := h.behind
  refine ⟨⟨h.carries.ordered, fun p hp => (h.carries.le p hp).trans hlog.length_le,
    fun p hp => ?_⟩, n, popped, ?_, hb.le.trans hlog.length_le, hb.wire⟩
  · rw [take_of_isPrefix hlog (h.carries.le p hp), hisn]
    exact h.carries.made p hp
  · rw [take_of_isPrefix hlog hb.le, hisn]
    exact hb.follows

/-- The receiving peer does something else than receive. -/
theorem Direction.reader {a b b' : PeerRun.State} {w : List Packet} {l : PeerRun.Label}
    (h : Direction a b w) (hs : PeerRun.step b l = some b') (hl : ∀ seg, l ≠ .receive seg) :
    Direction a b' w := by
  obtain ⟨n, popped, hb⟩ := h.behind
  obtain ⟨h1, h2, h3⟩ := PeerRun.inbound_cases hs hl
  rcases h3 with h3 | ⟨len, h3⟩
  · have hi : inbox b'.peer popped = inbox b.peer popped := by unfold inbox; rw [h1, h2, h3]
    exact ⟨h.carries, n, popped, hi ▸ hb.follows, hb.le, hb.wire⟩
  · have hi : inbox b'.peer ((inbox b.peer popped).pop len).popped =
        (inbox b.peer popped).pop len := by
      unfold inbox Inbox.pop; rw [h1, h2, h3]
    exact ⟨h.carries, n, _, hi ▸ (hb.follows.pop len).1, hb.le, hb.wire⟩

/-- Segments are lost. -/
theorem Direction.sublist {a b : PeerRun.State} {w w' : List Packet} (h : Direction a b w)
    (hw : w'.Sublist w) : Direction a b w' := by
  obtain ⟨n, popped, hb⟩ := h.behind
  exact ⟨⟨h.carries.ordered.sublist hw, fun p hp => h.carries.le p (hw.subset hp),
    fun p hp => h.carries.made p (hw.subset hp)⟩, n, popped, hb.follows, hb.le,
    fun p hp => hb.wire p (hw.subset hp)⟩

/-- A segment built now is the youngest. -/
theorem Direction.snoc {a b : PeerRun.State} {w : List Packet} {p : Packet} (h : Direction a b w)
    (hc : p.created = a.log.length) (hm : p.seg.senderMessage ∈ a.log ∨ p.seg.senderMessage =
      { seqno := Wrap32.wrap (totalLength a.log) a.peer.sender.isn }) :
    Direction a b (w ++ [p]) := by
  obtain ⟨n, popped, hb⟩ := h.behind
  have htake : a.log.take p.created = a.log := by rw [hc, List.take_length]
  refine ⟨⟨?_, fun q hq => ?_, fun q hq => ?_⟩, n, popped, hb.follows, hb.le, fun q hq => ?_⟩
  · refine List.pairwise_append.mpr ⟨h.carries.ordered, List.pairwise_singleton _ _, ?_⟩
    intro q hq x hx
    rw [List.mem_singleton.mp hx, hc]
    exact h.carries.le q hq
  all_goals rcases List.mem_append.mp hq with hq | hq
  · exact h.carries.le q hq
  · rw [List.mem_singleton.mp hq, hc]
  · exact h.carries.made q hq
  · rw [List.mem_singleton.mp hq, htake]
    exact hm
  · exact hb.wire q hq
  · rw [List.mem_singleton.mp hq, hc]
    exact hb.le

section

variable {a b : PeerRun.State} {p : Packet} {w : List Packet}

theorem payloads_lt (ha : PeerRun.Inv a) (hw : a.written.length < 2 ^ 31) (n : Nat) :
    (payloads (a.log.take n)).length < 2 ^ 31 := by
  have h1 := (payloads_take a.log n).length_le
  have h2 := ha.written
  have h3 := congrArg List.length h2
  rw [List.length_append] at h3
  omega

/-- The receiver follows the log up to where the oldest segment was built. -/
theorem Direction.follows (h : Direction a b (p :: w)) :
    ∃ n popped, n ≤ p.created ∧ Follows (a.log.take n) a.peer.sender.isn (inbox b.peer popped) ∧
      Follows (a.log.take p.created) a.peer.sender.isn (inbox b.peer popped) := by
  obtain ⟨n, popped, hb⟩ := h.behind
  have hn := hb.wire p (List.mem_cons_self ..)
  exact ⟨n, popped, hn, hb.follows, hb.follows.mono (List.take_prefix_take_left hn)⟩

/-- The message of a segment in flight belongs to the log of its time. -/
theorem Direction.belongs (h : Direction a b (p :: w)) (ha : PeerRun.Inv a)
    (hw : a.written.length < 2 ^ 31) {popped : Bytes}
    (hf : Follows (a.log.take p.created) a.peer.sender.isn (inbox b.peer popped)) :
    Belongs (a.log.take p.created) a.peer.sender.isn (inbox b.peer popped) p.seg.senderMessage := by
  rcases h.carries.made p (List.mem_cons_self ..) with hm | hm
  · obtain ⟨i, hi⟩ := List.mem_iff_getElem?.mp hm
    have hn := ha.log.numbering.take p.created
    exact hf.belongs hn hi (hn.readsBack hi (payloads_lt ha hw _) hf.isPrefix.length_le)
  · rw [hm]
    exact hf.belongs_empty _

/-- What the receiving half of `b` does with the oldest segment. -/
theorem Direction.inbound (h : Direction a b (p :: w)) (ha : PeerRun.Inv a)
    (hw : a.written.length < 2 ^ 31) {popped : Bytes}
    (hf : Follows (a.log.take p.created) a.peer.sender.isn (inbox b.peer popped)) :
    ∃ t r inbound, b.peer.receiver.receive p.seg.senderMessage b.peer.reassembler
        b.peer.inboundStream = some (t, r, inbound) ∧
      Follows (a.log.take p.created) a.peer.sender.isn
        { t := t, r := r, inbound := inbound, popped := popped } := by
  obtain ⟨b₁, h1, h2, -⟩ := hf.receive (h.belongs ha hw hf)
    (Nat.lt_of_le_of_lt hf.isPrefix.length_le (Nat.lt_trans (payloads_lt ha hw _) (by decide)))
  obtain ⟨⟨t, r, inbound⟩, h3, rfl⟩ := Option.map_eq_some_iff.mp h1
  exact ⟨t, r, inbound, h3, h2⟩

/-- The oldest segment can be received. -/
theorem Direction.receives (h : Direction a b (p :: w)) (ha : PeerRun.Inv a)
    (hw : a.written.length < 2 ^ 31) : ∃ b', PeerRun.step b (.receive p.seg) = some b' := by
  obtain ⟨_, popped, -, -, hf⟩ := h.follows
  obtain ⟨t, r, inbound, hr, -⟩ := h.inbound ha hw hf
  simp only [PeerRun.step, TCPPeer.receive]
  split
  · exact ⟨_, rfl⟩
  · rw [hr]
    exact ⟨_, rfl⟩

theorem Direction.receive {b' : PeerRun.State} (h : Direction a b (p :: w)) (ha : PeerRun.Inv a)
    (hw : a.written.length < 2 ^ 31) (hs : PeerRun.step b (.receive p.seg) = some b') :
    Direction a b' w := by
  obtain ⟨_, popped, -, -, hf⟩ := h.follows
  obtain ⟨hlt, hord⟩ := List.pairwise_cons.mp h.carries.ordered
  have hcar : Carries a w := ⟨hord, fun q hq => h.carries.le q (List.mem_cons_of_mem _ hq),
    fun q hq => h.carries.made q (List.mem_cons_of_mem _ hq)⟩
  have hle := h.carries.le p (List.mem_cons_self ..)
  cases PeerRun.step_cases hs with
  | receive hp =>
    rcases TCPPeer.receive_cases hp with ⟨-, rfl⟩ | ⟨t, r, inbound, -, hr, rfl⟩
    · exact ⟨hcar, p.created, popped, hf.error true, hle, hlt⟩
    · obtain ⟨t', r', inbound', hr', hf'⟩ := h.inbound ha hw hf
      rw [hr] at hr'
      cases hr'
      exact ⟨hcar, p.created, popped, hf', hle, hlt⟩

/-- A segment of length 0 starts behind everything its receiver acknowledges. -/
theorem Direction.not_keepAlive (h : Direction a b (p :: w)) (ha : PeerRun.Inv a)
    (hw : a.written.length < 2 ^ 31) (h0 : p.seg.senderMessage.sequenceLength = 0) :
    b.peer.keepAlive p.seg.senderMessage = false := by
  obtain ⟨n, popped, hn, hf, -⟩ := h.follows
  rcases h.carries.made p (List.mem_cons_self ..) with hm | hm
  · have := ha.log.pos _ (List.mem_of_mem_take hm)
    omega
  · refine decide_eq_false fun hk => ?_
    rw [hm, Wrap32.wrap_add_one] at hk
    obtain ⟨hs, hwrap⟩ := hf.of_send (w := _) hk
    have hack := hf.ackno_le (ha.log.numbering.take n) hs
      (Nat.lt_of_le_of_lt hf.isPrefix.length_le (Nat.lt_trans (payloads_lt ha hw _) (by decide)))
    have hle : totalLength (a.log.take n) ≤ totalLength (a.log.take p.created) :=
      totalLength_mono (List.take_prefix_take_left hn)
    have hmax := (ha.log.numbering.take p.created).totalLength_le
    have hpay := payloads_lt ha hw p.created
    -- the two absolute numbers differ, and both are below `2^32`
    have hoff := (Wrap32.wrap_eq_iff _ _ _).mp hwrap.symm
    rw [Wrap32.offset_wrap] at hoff
    omega

end

/-! ## Both directions -/

structure Inv (s : State) : Prop where
  peer : ∀ y, PeerRun.Inv (s.peer y)
  short : ∀ y, (s.peer y).written.length < 2 ^ 31
  direction : ∀ y, Direction (s.peer y) (s.peer y.other) (s.wire y)

/-- A step of `y` touches the direction it sends in and the one it receives in. -/
theorem Inv.update {s : State} (h : Inv s) {y : Side} {q : PeerRun.State}
    {wire : Side → List Packet} (hq : PeerRun.Inv q)
    (hw : ∀ z, ((s.update y q wire).peer z).written.length < 2 ^ 31)
    (hout : Direction q (s.peer y.other) (wire y))
    (hin : Direction (s.peer y.other) q (wire y.other)) : Inv (s.update y q wire) := by
  have hself : (s.update y q wire).peer y = q := Function.update_self ..
  have hother : (s.update y q wire).peer y.other = s.peer y.other :=
    Function.update_of_ne y.other_ne ..
  refine ⟨fun z => ?_, hw, fun z => ?_⟩
  all_goals rcases y.eq_or_other z with rfl | rfl
  · rw [hself]; exact hq
  · rw [hother]; exact h.peer _
  · rw [hself, hother]; exact hout
  · rw [Side.other_other, hself, hother]; exact hin

theorem Inv.send {s : State} (h : Inv s) {y : Side} {q : PeerRun.State}
    (hs : PeerRun.step (s.peer y) .maybeSend = some q) :
    Direction q (s.peer y.other) (s.wire y ++ returned q) := by
  have hi := h.peer y
  obtain ⟨hisn, hlog⟩ := hi.grows hs
  have hd := (h.direction y).sender hisn hlog
  cases PeerRun.step_cases hs with
  | @maybeSend p' seg hp hm =>
    cases seg with
    | none =>
      show Direction _ _ (s.wire y ++ [])
      rw [List.append_nil]
      exact hd
    | some seg =>
      refine hd.snoc rfl ?_
      rcases hi.made hp hm with hmem | ⟨-, he⟩
      · exact .inl hmem
      · exact .inr he

theorem Inv.step {s s' : State} {l : Label} (h : Inv s) (hs : PeerPair.step s l = some s')
    (hw : Short s l s') : Inv s' := by
  cases l with
  | app y l =>
    simp only [PeerPair.step] at hs
    split at hs
    · rename_i happ
      obtain ⟨q, hq, rfl⟩ := Option.map_eq_some_iff.mp hs
      obtain ⟨hisn, hlog⟩ := (h.peer y).grows hq
      have hin := h.direction y.other
      rw [Side.other_other] at hin
      refine h.update ((h.peer y).step hq) hw ((h.direction y).sender hisn hlog)
        (hin.reader hq fun seg he => ?_)
      rw [he] at happ
      cases happ
    · cases hs
  | send y =>
    obtain ⟨q, hq, rfl⟩ := Option.map_eq_some_iff.mp hs
    have hin := h.direction y.other
    rw [Side.other_other] at hin
    refine h.update ((h.peer y).step hq) hw ?_ ?_
    · rw [Function.update_self]
      exact h.send hq
    · rw [Function.update_of_ne y.other_ne]
      exact hin.reader hq nofun
  | lose y i =>
    cases hs
    refine ⟨h.peer, h.short, fun z => ?_⟩
    show Direction _ _ (Function.update s.wire y ((s.wire y).eraseIdx i) z)
    rcases y.eq_or_other z with rfl | rfl
    · rw [Function.update_self]
      exact (h.direction _).sublist (List.eraseIdx_sublist _ _)
    · rw [Function.update_of_ne y.other_ne]
      exact h.direction _
  | receive y =>
    simp only [PeerPair.step] at hs
    split at hs
    · cases hs
    · rename_i p w hwire
      obtain ⟨q, hq, rfl⟩ := Option.map_eq_some_iff.mp hs
      obtain ⟨hisn, hlog⟩ := (h.peer y).grows hq
      have hin := h.direction y.other
      rw [Side.other_other, hwire] at hin
      refine h.update ((h.peer y).step hq) hw ?_ ?_
      · rw [Function.update_of_ne y.other_ne.symm]
        exact (h.direction y).sender hisn hlog
      · rw [Function.update_self]
        exact hin.receive (h.peer _) (h.short _) hq

theorem inductive_inv : (machine.restrict Short).Inductive Inv := by
  refine .restrict ?_ fun s l s' h hw hs => h.step hs hw
  rintro s ⟨hwire, hpeer⟩
  refine ⟨fun y => ?_, fun y => ?_, fun y => ?_⟩
  · obtain ⟨cfg, isn, hc, -, he⟩ := hpeer y
    exact he ▸ PeerRun.inv_start hc isn
  · obtain ⟨cfg, isn, -, -, he⟩ := hpeer y
    rw [he]
    exact Nat.two_pow_pos 31
  · obtain ⟨cfg, isn, -, -, he⟩ := hpeer y
    obtain ⟨cfg', isn', -, hc, he'⟩ := hpeer y.other
    rw [he, he', hwire y]
    exact direction_start hc

/-! ## No acknowledgment storm -/

/-- The receipt of a segment raises no flag, and draws no pure ACK. -/
structure Quiet (q q' : PeerRun.State) : Prop where
  flag : q'.peer.needSend = q.peer.needSend
  reply : q.peer.needSend = false → ∀ q'' out, PeerRun.step q' .maybeSend = some q'' →
    q''.returned = some (some out) → 0 < out.senderMessage.sequenceLength

/-- **No acknowledgment storm.** In every reachable state, if the next segment
for `y` has length 0, `y` can receive it, that does not raise `need_send_`, and
if `need_send_` was down, what `maybe_send` returns next, if anything, carries
sequence numbers. -/
theorem pure_ack_quiet (s : State) (hr : (machine.restrict Short).Reachable s) (y : Side)
    (p : Packet) (w : List Packet) (hw : s.wire y.other = p :: w)
    (h0 : p.seg.senderMessage.sequenceLength = 0) :
    ∃ s', machine.step s (.receive y) s' ∧ Quiet (s.peer y) (s'.peer y) := by
  have h := inductive_inv.reachable s hr
  have hin := h.direction y.other
  rw [Side.other_other, hw] at hin
  have hkeep := hin.not_keepAlive (h.peer _) (h.short _) h0
  obtain ⟨q, hq⟩ := hin.receives (h.peer _) (h.short _)
  have hstep : machine.step s (.receive y)
      (s.update y q (Function.update s.wire y.other w)) := by
    show PeerPair.step s (.receive y) = _
    simp only [PeerPair.step, hw, hq, Option.map_some]
  refine ⟨_, hstep, ?_⟩
  have hself : (s.update y q (Function.update s.wire y.other w)).peer y = q :=
    Function.update_self ..
  rw [hself]
  have hflag : q.peer.needSend = (s.peer y).peer.needSend := by
    cases PeerRun.step_cases hq with
    | receive hp =>
      rcases TCPPeer.receive_cases hp with ⟨-, rfl⟩ | ⟨t, r, inbound, -, -, rfl⟩
      · rfl
      · show ((s.peer y).peer.needSend || decide _ || _) = _
        rw [hkeep, h0]
        simp
  refine ⟨hflag, fun hneed q'' out hs hret => ?_⟩
  have hq' := (h.peer y).step hq
  have hlog := (hq'.step hs).log
  cases PeerRun.step_cases hs with
  | @maybeSend p' seg hp hm =>
    cases Option.some.inj hret
    rcases hq'.made hp hm with hmem | ⟨hn, -⟩
    · exact hlog.pos _ hmem
    · rw [hflag, hneed] at hn
      cases hn

instance (s : State) (l : Label) (s' : State) : Decidable (Short s l s') :=
  decidable_of_iff ((s'.peer .left).written.length < 2 ^ 31 ∧
      (s'.peer .right).written.length < 2 ^ 31)
    ⟨fun h y => by cases y with
      | left => exact h.1
      | right => exact h.2, fun h => ⟨h .left, h .right⟩⟩

/-- The third segment of the handshake is a pure ACK. -/
theorem pure_ack_quiet_run : ∃ s p w,
    (machine.restrict Short).Run ⟨fun _ => .start {} ⟨7⟩, fun _ => []⟩
      [.app .left .push, .send .left, .receive .right, .send .right, .receive .left,
        .send .left] s ∧
    s.wire .left = p :: w ∧ p.seg.senderMessage.sequenceLength = 0 ∧
    ∃ s', machine.step s (.receive .right) s' ∧ Quiet (s.peer .right) (s'.peer .right) := by
  have hrun : (LTS.exec (fun s l => (step s l).filter fun s' => decide (Short s l s'))
      ⟨fun _ => .start {} ⟨7⟩, fun _ => []⟩
      [.app .left .push, .send .left, .receive .right, .send .right, .receive .left,
        .send .left]).map
        (fun s => (s.wire .left).map fun p => p.seg.senderMessage.sequenceLength) =
      some [0] := by decide +kernel
  obtain ⟨s, hs, he⟩ := Option.map_eq_some_iff.mp hrun
  obtain ⟨p, w, hw, h0, -⟩ := List.map_eq_cons_iff.mp he
  have hsteps : (machine.restrict Short).Run ⟨fun _ => .start {} ⟨7⟩, fun _ => []⟩
      [.app .left .push, .send .left, .receive .right, .send .right, .receive .left,
        .send .left] s :=
    LTS.run_of_filter (M := machine.restrict Short) (fun _ _ _ h hc => ⟨h, hc⟩) hs
  have hinit : (machine.restrict Short).init ⟨fun _ => .start {} ⟨7⟩, fun _ => []⟩ :=
    ⟨fun _ => rfl, fun _ => ⟨{}, ⟨7⟩, by decide, by decide, rfl⟩⟩
  exact ⟨s, p, w, hsteps, hw, h0, pure_ack_quiet s ⟨_, _, hinit, hsteps⟩ .right p w hw h0⟩

end StreamSocket.L3.PeerPair
