import StreamSocket.L3Protocol.Inbox

/-!
# One direction of a connection, over any network

A sender `A` (the machine of `SenderLog`), a receiver `B` (an `Inbox`), and a
network that holds every message ever sent and may deliver each of them in any
order, any number of times, or never. In the other direction it holds every
acknowledgment `B` has sent.

* `State.FollowsLog`: `B` follows `A`'s log. A delivery keeps it when the
  message's place is read back exactly (`FollowsLog.deliver`).
* `prefix_safety`: with each delivery less than `2^31` away from what `B` has
  pushed, `B`'s bytes are always a prefix of what `A` accepted, and `B` never
  acknowledges what `A` has not created; `A` may receive any acknowledgments
  at all.
-/
namespace StreamSocket.L3.EndToEnd

open L1 L2

structure State where
  a : SenderLog.State
  b : Inbox
  acks : List TCPReceiverMessage
  deriving DecidableEq, Repr

/-- `deliver i` brings the message that `A` created `i`-th, which must have
been sent; `ack` puts `B`'s `send` in the network. -/
inductive Label where
  | a (l : SenderLog.Label)
  | deliver (i : Nat)
  | pop (len : Nat)
  | ack
  deriving DecidableEq, Repr

def State.start (isn : Wrap32) (initialRTOms sendCapacity recvCapacity : Nat) : State :=
  { a := .start isn initialRTOms sendCapacity, b := .start recvCapacity, acks := [] }

def step (s : State) : Label → Option State
  | .a l => (SenderLog.step s.a l).map fun a => { s with a := a }
  | .deliver i => (s.a.log[i]?).bind fun m =>
    if m ∈ s.a.sent then (s.b.receive m).map fun b => { s with b := b } else none
  | .pop len => some { s with b := s.b.pop len }
  | .ack => some { s with acks := s.acks ++ [s.b.t.send s.b.inbound] }

/-- The Reassembler's arrays have `recvCapacity` cells, and a vector has fewer
than `2^63`. -/
def machine : LTS State Label :=
  LTS.ofFn (fun s => ∃ isn rto c d, c < 2 ^ 64 ∧ d < 2 ^ 63 ∧ s = .start isn rto c d) step

/-! ## The receiver follows the sender -/

structure State.FollowsLog (s : State) : Prop where
  a : SenderLog.Inv s.a
  b : Follows s.a.log s.a.tx.isn s.b

theorem followsLog_start (isn : Wrap32) (rto : Nat) {c d : Nat} (hc : c < 2 ^ 64)
    (hd : d < 2 ^ 63) : (State.start isn rto c d).FollowsLog :=
  ⟨SenderLog.inv_start isn rto hc, follows_start isn hd⟩

/-- What `B` has pushed is a prefix of what `A`'s Writer accepted. -/
theorem State.FollowsLog.pushed {s : State} (h : s.FollowsLog) : s.b.pushed <+: s.a.written := by
  have hp := h.b.isPrefix
  rw [← h.a.popped] at hp
  rw [h.a.written]
  exact hp.trans (List.prefix_append _ _)

theorem State.FollowsLog.payloads_le {s : State} (h : s.FollowsLog) :
    (payloads s.a.log).length ≤ s.a.written.length := by
  rw [h.a.written, h.a.popped, List.length_append]
  omega

/-- A message's place in the stream, from the messages created before it. -/
def State.place (s : State) (i : Nat) : Nat := totalLength (s.a.log.take i)

theorem State.FollowsLog.place_le {s : State} (h : s.FollowsLog) {i : Nat}
    (hi : i < s.a.log.length) : s.place i ≤ 1 + s.a.written.length := by
  unfold State.place
  rw [h.a.log.numbering.totalLength_take hi]
  have h1 := (payloads_take s.a.log i).length_le
  have h2 := h.payloads_le
  split <;> omega

/-- The message's sequence number, as `B` reads it back, is its place. -/
def State.ReadsBack (s : State) (i : Nat) (m : TCPSenderMessage) : Prop :=
  m.seqno.unwrap s.a.tx.isn s.b.pushed.length = s.place i

theorem State.FollowsLog.deliver {s : State} (h : s.FollowsLog) {i : Nat} {m : TCPSenderMessage}
    (hm : s.a.log[i]? = some m) (hp : s.a.written.length < 2 ^ 62) (hr : s.ReadsBack i m) :
    ∃ b', s.b.receive m = some b' ∧ State.FollowsLog { s with b := b' } ∧
      s.b.pushed <+: b'.pushed ∧
      Received s.b (TCPReceiver.streamIndex ((s.b.t.recordSyn m).absSeqno m s.b.inbound)) m b' := by
  have hlt := h.pushed.length_le
  obtain ⟨b', h1, h2, h3, h4⟩ :=
    h.b.receive (h.b.belongs h.a.log.numbering hm hr) (by omega)
  exact ⟨b', h1, ⟨h.a, h2⟩, h3, h4⟩

/-- The kinds of step. -/
inductive Steps (s : State) : Label → State → Prop
  | a {l : SenderLog.Label} {a' : SenderLog.State} : SenderLog.step s.a l = some a' →
      Steps s (.a l) { s with a := a' }
  | deliver {i : Nat} {m : TCPSenderMessage} {b' : Inbox} : s.a.log[i]? = some m →
      m ∈ s.a.sent → s.b.receive m = some b' → Steps s (.deliver i) { s with b := b' }
  | pop (len : Nat) : Steps s (.pop len) { s with b := s.b.pop len }
  | ack : Steps s .ack { s with acks := s.acks ++ [s.b.t.send s.b.inbound] }

theorem step_cases {s s' : State} {l : Label} (hs : step s l = some s') : Steps s l s' := by
  cases l with
  | a l =>
    obtain ⟨a', h, rfl⟩ := Option.map_eq_some_iff.mp hs
    exact .a h
  | deliver i =>
    obtain ⟨m, hm, hs⟩ := Option.bind_eq_some_iff.mp hs
    split at hs
    · rename_i hsent
      obtain ⟨b', h, rfl⟩ := Option.map_eq_some_iff.mp hs
      exact .deliver hm hsent h
    · cases hs
  | pop len => cases hs; exact .pop len
  | ack => cases hs; exact .ack

theorem State.FollowsLog.step {s s' : State} {l : Label} (h : s.FollowsLog)
    (hp : s.a.written.length < 2 ^ 62)
    (hr : ∀ i m, l = .deliver i → s.a.log[i]? = some m → s.ReadsBack i m)
    (hs : EndToEnd.step s l = some s') : s'.FollowsLog := by
  cases step_cases hs with
  | a ha =>
    obtain ⟨hisn, hlog, -, -⟩ := h.a.grows ha
    refine ⟨h.a.step ha, ?_⟩
    show Follows _ _ s.b
    rw [hisn]
    exact h.b.mono hlog
  | @deliver i m b' hm _ hb =>
    obtain ⟨b₁, h1, h2, -⟩ := h.deliver hm hp (hr i m rfl hm)
    rw [h1] at hb
    cases hb
    exact h2
  | pop len => exact ⟨h.a, (h.b.pop len).1⟩
  | ack => exact ⟨h.a, h.b⟩

/-! ## Prefix safety -/

/-- Positions below `2^62`, and each message delivered within `2^31` of what
`B` has pushed. -/
def Near (s : State) (l : Label) (s' : State) : Prop :=
  s'.a.written.length < 2 ^ 62 ∧ match l with
    | .deliver i => Nat.dist (s.place i) (Writer.bytesPushed s.b.inbound) < 2 ^ 31
    | _ => True

instance (s : State) (l : Label) (s' : State) : Decidable (Near s l s') :=
  match l with
  | .deliver _ => inferInstanceAs (Decidable (_ ∧ _))
  | .a _ | .pop _ | .ack => inferInstanceAs (Decidable (_ ∧ True))

theorem State.FollowsLog.readsBack {s : State} (h : s.FollowsLog) {i : Nat} {m : TCPSenderMessage}
    (hm : s.a.log[i]? = some m) (hp : s.a.written.length < 2 ^ 62)
    (hd : Nat.dist (s.place i) (Writer.bytesPushed s.b.inbound) < 2 ^ 31) : s.ReadsBack i m := by
  have hle := h.place_le (List.getElem?_eq_some_iff.mp hm).1
  have hlt := h.pushed.length_le
  unfold State.ReadsBack
  rw [h.a.log.numbered i m hm]
  change Wrap32.unwrap (Wrap32.wrap (s.place i) _) _ _ = s.place i
  rw [h.b.bytesPushed] at hd
  unfold Nat.dist at hd
  rcases Nat.lt_or_ge s.b.pushed.length (s.place i) with hgt | hge
  · exact Wrap32.unwrap_wrap_of_gt _ _ _ (by omega) hgt (by omega)
  · exact Wrap32.unwrap_wrap_of_le _ _ _ (by omega) hge (by omega)

/-- `A` and `B` are in agreement, and `B` can take the next near message. -/
structure PrefixSafe (s : State) : Prop where
  bytes : s.b.popped ++ s.b.inbound.stream <+: s.a.written
  ackno : ∀ w, (s.b.t.send s.b.inbound).ackno = some w →
    w = Wrap32.wrap s.b.ackno s.a.tx.isn ∧ s.b.ackno ≤ s.a.tx.nextAbsSeqno
  takes : ∀ i m, s.a.log[i]? = some m →
    Nat.dist (s.place i) (Writer.bytesPushed s.b.inbound) < 2 ^ 31 → ∃ b', s.b.receive m = some b'

structure NearInv (s : State) : Prop where
  follows : s.FollowsLog
  written : s.a.written.length < 2 ^ 62

theorem inductive_near : (machine.restrict Near).Inductive NearInv := by
  refine .restrict ?_ fun s l s' h hn hs =>
    ⟨h.follows.step h.written (fun i m hl hm => ?_) hs, hn.1⟩
  · rintro _ ⟨isn, rto, c, d, hc, hd, rfl⟩
    exact ⟨followsLog_start isn rto hc hd, by simp [State.start, SenderLog.State.start]⟩
  · subst hl
    exact h.follows.readsBack hm h.written hn.2

/-- **End-to-end prefix safety.** Whatever the network, the applications and
the acknowledgments that reach `A`: what `B` has popped and buffered is a prefix
of what `A`'s Writer accepted, and the ackno that `B` reports never exceeds
`A`'s `next_abs_seqno_`. -/
theorem prefix_safety (s : State) (hr : (machine.restrict Near).Reachable s) : PrefixSafe s := by
  have h := inductive_near.reachable s hr
  have hlt := h.follows.pushed.length_le
  have hw := h.written
  refine ⟨h.follows.pushed, fun w ha => ?_, fun i m hm hd => ?_⟩
  · obtain ⟨hs, hwrap⟩ := h.follows.b.of_send ha
    have hle := h.follows.b.ackno_le h.follows.a.log.numbering hs (by omega)
    refine ⟨hwrap, hle.trans (Nat.le_of_eq ?_)⟩
    -- the log is short enough for the 64-bit counter
    have htot := h.follows.a.log.numbering.totalLength_le
    have hpay := h.follows.payloads_le
    rw [h.follows.a.log.next, Nat.mod_eq_of_lt (by omega)]
  · obtain ⟨b', hb, -⟩ := h.follows.deliver hm hw
      (h.follows.readsBack hm hw hd)
    exact ⟨b', hb⟩

/-- Two segments arrive in the wrong order and one of them twice. -/
theorem prefix_safety_run : ∃ s, (machine.restrict Near).Run (.start ⟨4294967295⟩ 1000 8 4)
    [.a .push, .a .maybeSend, .deliver 0, .a (.receive ⟨some ⟨0⟩, 4⟩), .a (.write [97]), .a .push,
      .a (.write [98]), .a .push, .a .maybeSend, .a .maybeSend, .deliver 2, .deliver 1, .deliver 2,
      .pop 1] s ∧ PrefixSafe s := by
  obtain ⟨s, hs⟩ := Option.isSome_iff_exists.mp (show (LTS.exec
      (fun s l => (step s l).filter fun s' => decide (Near s l s'))
      (.start ⟨4294967295⟩ 1000 8 4)
      [.a .push, .a .maybeSend, .deliver 0, .a (.receive ⟨some ⟨0⟩, 4⟩), .a (.write [97]),
        .a .push, .a (.write [98]), .a .push, .a .maybeSend, .a .maybeSend, .deliver 2,
        .deliver 1, .deliver 2, .pop 1]).isSome = true by decide +kernel)
  have hrun := LTS.run_of_filter (M := machine.restrict Near) (fun _ _ _ h hc => ⟨h, hc⟩) hs
  exact ⟨s, hrun, prefix_safety s ⟨_, _, ⟨_, _, _, _, by decide, by decide, rfl⟩, hrun⟩⟩

end StreamSocket.L3.EndToEnd
