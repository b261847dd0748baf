import StreamSocket.L3Protocol.EndToEnd

/-!
# What an acknowledgment means

The same sender, receiver and network as in `EndToEnd`, with streams shorter
than `2^31` bytes; now `A` receives the acknowledgments that `B` has sent, in
any order, any number of times, or never.

A byte that `A` no longer keeps should be one that `B` has pushed, and `B`'s
stream should be closed only when it holds all of `A`'s (`Sound`). That fails:
the Reassembler decides on the end of the stream by counting what is pending,
so a FIN that arrives ahead of all the data closes the stream at once, and the
ackno, which counts a FIN once the stream is closed, covers data that never
came.

* `ack_sound_iff`: a run keeps `Sound` exactly when at each delivery at which
  `B` knows of the FIN, all of `A`'s bytes are at hand or one of them is
  pending behind a hole.
* `fin_first_loses_byte`: a FIN delivered first makes `A` forget a byte.
-/
namespace StreamSocket.L3.EndToEnd

open L1 L2

/-- Fewer than `2^31` bytes, and `A` receives only what `B` has sent. -/
def Honest (s : State) (l : Label) (s' : State) : Prop :=
  s'.a.written.length < 2 ^ 31 ∧ match l with
    | .a (.receive msg) => msg ∈ s.acks
    | _ => True

instance (s : State) (l : Label) (s' : State) : Decidable (Honest s l s') :=
  match l with
  | .a (.receive _) => inferInstanceAs (Decidable (_ ∧ _))
  | .a (.write _) | .a .close | .a .setError | .a .push | .a (.tick _) | .a .maybeSend
  | .deliver _ | .pop _ | .ack => inferInstanceAs (Decidable (_ ∧ True))

def exchange : LTS State Label := machine.restrict Honest

/-- The messages that acknowledgments have removed from
`outstanding_messages_`. -/
def State.acked (s : State) : List TCPSenderMessage :=
  s.a.log.take (s.a.log.length - s.a.tx.outstandingMessages.length)

/-- What `A` no longer keeps, `B` has; and `B` is closed only at the end. -/
structure Sound (s : State) : Prop where
  acked : payloads s.acked <+: s.b.pushed
  closed : Writer.isClosed s.b.inbound = true →
    Writer.isClosed s.a.out = true ∧ s.b.pushed = s.a.written

/-- At a delivery that passes the window test: if `B` knows of the FIN, the
Reassembler must be able to see whether the end is reached. -/
def EndVisible (s : State) (l : Label) (s' : State) : Prop :=
  match l with
  | .deliver i => ∀ m, s.a.log[i]? = some m → (s.b.t.recordSyn m).syn = true →
    (s.b.t.recordSyn m).Overlaps m s.b.inbound →
    ReassemblerRun.EndVisible (payloads s.a.log) s.b.history
      (.insert (TCPReceiver.streamIndex ((s.b.t.recordSyn m).absSeqno m s.b.inbound)) m.payload
        (s.b.t.fin || m.FIN)) s'.b.history
  | _ => True

/-! ## The end of the log -/

/-- Nothing follows the FIN. -/
theorem Numbering.frozen {log log' : List TCPSenderMessage} {isn : Wrap32}
    (h : Numbering log' isn) (hl : log <+: log') (hf : ∃ m ∈ log, m.FIN = true) : log' = log := by
  obtain ⟨ms, rfl⟩ := hl
  obtain ⟨m, hm, hmf⟩ := hf
  obtain ⟨i, hi⟩ := List.mem_iff_getElem?.mp hm
  have hlt := (List.getElem?_eq_some_iff.mp hi).1
  have := h.FIN i m (by rw [List.getElem?_append_left hlt]; exact hi) hmf
  rw [List.length_append] at this
  rw [List.length_eq_zero_iff.mp (show ms.length = 0 by omega), List.append_nil]

/-- Once the FIN is created the log carries all that was written. -/
theorem State.FollowsLog.finished {s : State} (h : s.FollowsLog)
    (hf : ∃ m ∈ s.a.log, m.FIN = true) :
    Writer.isClosed s.a.out = true ∧ payloads s.a.log = s.a.written := by
  obtain ⟨h1, h2⟩ := h.a.ended (h.a.log.sealed.mpr hf)
  exact ⟨h1, by rw [h.a.written, h.a.popped, h2, List.append_nil]⟩

theorem State.FollowsLog.totalLength_le {s : State} (h : s.FollowsLog) :
    totalLength s.a.log ≤ s.a.written.length + 2 :=
  h.a.log.numbering.totalLength_le.trans (Nat.add_le_add_right h.payloads_le 2)

/-! ## What an ackno stands for -/

/-- All sequence numbers below `N` are with `B`. -/
structure State.Has (s : State) (N : Nat) : Prop where
  le : N ≤ totalLength s.a.log
  bytes : N ≤ s.b.pushed.length + 1 ∨
    (s.b.pushed = payloads s.a.log ∧ ∃ m ∈ s.a.log, m.FIN = true)

/-- `B` does not lose what it has, and `A` adds nothing below it. -/
theorem State.Has.mono {s s' : State} {N : Nat} (h : s.Has N) (h' : s'.FollowsLog)
    (hlog : s.a.log <+: s'.a.log) (hpush : s.b.pushed <+: s'.b.pushed) : s'.Has N := by
  refine ⟨h.le.trans (totalLength_mono hlog), ?_⟩
  rcases h.bytes with hb | ⟨hb, hf⟩
  · exact .inl (hb.trans (Nat.add_le_add_right hpush.length_le 1))
  · have hlog' := Numbering.frozen h'.a.log.numbering hlog hf
    refine .inr ⟨?_, hlog' ▸ hf⟩
    have hle := h'.b.isPrefix
    rw [hlog', ← hb] at hle
    rw [hlog', ← hb]
    exact hle.eq_of_length (Nat.le_antisymm hle.length_le hpush.length_le)

/-- A message whose end `B` has reached. -/
theorem State.Has.payloads_le {s : State} {N : Nat} (h : s.Has N) (hn : s.FollowsLog) {n : Nat}
    (hN : totalLength (s.a.log.take n) ≤ N) :
    (payloads (s.a.log.take n)).length ≤ s.b.pushed.length := by
  by_cases hnil : s.a.log.take n = []
  · rw [hnil]; exact Nat.zero_le _
  · rcases h.bytes with hb | ⟨hb, -⟩
    · rw [(hn.a.log.numbering.take n).totalLength_eq hnil] at hN
      omega
    · rw [hb]
      exact (payloads_take _ n).length_le

/-- With fewer than `2^32` sequence numbers the sender removes only what ends
at or below the ackno. -/
theorem removed_le {log : List TCPSenderMessage} {x x' : TCPSender} {A W k : Nat}
    (h : LogInv log x) (hlt : totalLength log < 2 ^ 32) (hA : A ≤ x.nextAbsSeqno)
    (hk : x.Accepted A W k x') (h0 : k ≠ 0) :
    totalLength (log.take (log.length - x'.outstandingMessages.length)) ≤ A := by
  obtain ⟨j, rfl⟩ := Nat.exists_eq_succ_of_ne_zero h0
  obtain ⟨acked, hlog⟩ := h.suffix
  have hj : j < x.outstandingMessages.length := hk.le
  have hget := List.getElem?_eq_getElem hj
  generalize x.outstandingMessages[j] = m at hget
  have hm : log[acked.length + j]? = some m := by
    rw [← hlog, List.getElem?_append_right (Nat.le_add_right _ _), Nat.add_sub_cancel_left, hget]
  have hlen : log.length - x'.outstandingMessages.length = acked.length + j + 1 := by
    rw [hk.outstanding, ← hlog, List.length_append, List.length_drop]
    omega
  have hsucc : totalLength (log.take (acked.length + j + 1)) =
      totalLength (log.take (acked.length + j)) + m.sequenceLength := by
    rw [List.take_add_one, hm, totalLength_append, Option.toList_some, totalLength_cons,
      totalLength_nil, Nat.add_zero]
  have htotal := totalLength_take_le log (acked.length + j + 1)
  have hnext := h.next
  rw [Nat.mod_eq_of_lt (by omega)] at hnext
  have hcov : x.Covers A m :=
    hk.covered m (List.mem_take_iff_getElem.mpr ⟨j, by omega, by
      rw [List.getElem?_eq_getElem hj] at hget; exact Option.some.inj hget⟩)
  -- the number read back and the true one agree modulo `2^32`, and both are below it
  have hwraps := (Wrap32.nearest_unwrap_self m.seqno x.isn (c := x.nextAbsSeqno) (by omega)).wraps
  have hstart : x.startOf m < x.nextAbsSeqno + 2 ^ 32 := Wrap32.unwrap_lt_add _ _ _ (by omega)
  rw [Wrap32.wrap_eq_iff] at hwraps
  have htrue := (Wrap32.wrap_eq_iff _ _ _).mp (h.numbered _ _ hm).symm
  change Wrap32.offset _ _ = x.startOf m % 2 ^ 32 at hwraps
  unfold TCPSender.Covers at hcov
  rw [add64_of_lt (by omega)] at hcov
  rw [hlen, hsucc]
  omega

/-! ## The invariant -/

structure AckInv (s : State) : Prop where
  follows : s.FollowsLog
  written : s.a.written.length < 2 ^ 31
  closed : Writer.isClosed s.b.inbound = true →
    s.b.t.fin = true ∧ s.b.pushed = payloads s.a.log
  acks : ∀ msg ∈ s.acks, ∀ w, msg.ackno = some w → ∃ N, w = Wrap32.wrap N s.a.tx.isn ∧ s.Has N
  acked : (payloads s.acked).length ≤ s.b.pushed.length

theorem AckInv.sound {s : State} (h : AckInv s) : Sound s where
  acked := List.prefix_of_prefix_length_le (payloads_take _ _)
    h.follows.b.isPrefix h.acked
  closed := fun hc => by
    obtain ⟨hf, hp⟩ := h.closed hc
    obtain ⟨h1, h2⟩ := h.follows.finished (h.follows.b.FIN hf)
    exact ⟨h1, hp.trans h2⟩

theorem ackInv_start (isn : Wrap32) (rto : Nat) {c d : Nat} (hc : c < 2 ^ 64) (hd : d < 2 ^ 63) :
    AckInv (.start isn rto c d) where
  follows := followsLog_start isn rto hc hd
  written := by simp [State.start, SenderLog.State.start]
  closed := by simp [State.start, Inbox.start, ByteStream.new, Writer.isClosed]
  acks := by simp [State.start]
  acked := by simp [State.start, State.acked, SenderLog.State.start]

theorem AckInv.readsBack {s : State} (h : AckInv s) {i : Nat} {m : TCPSenderMessage}
    (hm : s.a.log[i]? = some m) : s.ReadsBack i m :=
  h.follows.a.log.numbering.readsBack hm
    (Nat.lt_of_le_of_lt h.follows.payloads_le h.written) h.follows.b.isPrefix.length_le

theorem AckInv.deliver {s : State} (h : AckInv s) {i : Nat} {m : TCPSenderMessage}
    (hm : s.a.log[i]? = some m) : ∃ b', s.b.receive m = some b' ∧
      State.FollowsLog { s with b := b' } ∧ s.b.pushed <+: b'.pushed ∧
      Received s.b (TCPReceiver.streamIndex ((s.b.t.recordSyn m).absSeqno m s.b.inbound)) m b' :=
  h.follows.deliver hm (Nat.lt_trans h.written (by decide)) (h.readsBack hm)

/-! ## The steps -/

/-- A delivery can close the stream only if the FIN is known; and it closes it
early exactly when the end is not visible. -/
theorem AckInv.deliver_iff {s : State} (h : AckInv s) {i : Nat} {m : TCPSenderMessage} {b' : Inbox}
    (hm : s.a.log[i]? = some m) (hb : s.b.receive m = some b') :
    (Writer.isClosed b'.inbound = true → b'.t.fin = true) ∧
    (EndVisible s (.deliver i) { s with b := b' } ↔
      (Writer.isClosed b'.inbound = true → b'.pushed.length = (payloads s.a.log).length)) := by
  obtain ⟨b₁, hb₁, hf, hpush, hr⟩ := h.deliver hm
  rw [hb₁] at hb
  cases hb
  have hle := hpush.length_le
  have hle' := hf.b.isPrefix.length_le
  cases hr with
  | kept hno h1 h2 h3 h4 =>
    have hp : b'.pushed = s.b.pushed := by unfold Inbox.pushed; rw [h2, h3]
    rw [h2, h4, hp]
    refine ⟨fun hc => (h.closed hc).1, fun _ hc => by rw [(h.closed hc).2],
      fun _ m' hm' hs ho => ?_⟩
    rw [hm, Option.some.injEq] at hm'
    subst hm'
    exact absurd ⟨hs, ho⟩ hno
  | stored tmp hs ho h3 h4 hin =>
    have hclose : Writer.isClosed b'.inbound = true ↔ Writer.isClosed s.b.inbound = true ∨
        (b'.r.unassembledSize = 0 ∧ (s.b.r.eof || b'.t.fin) = true) := by
      unfold Writer.isClosed
      rw [hin.close, hin.eof]
      simp
    rw [h4] at hin
    have hbelongs := h.follows.b.belongs h.follows.a.log.numbering hm (h.readsBack hm)
    have hend := h.follows.b.history.endVisible_iff b'.history hin
      (FirstWins.agrees_offer h.follows.b.agrees (hbelongs.payload hs) _ _)
    have hvis : EndVisible s (.deliver i) { s with b := b' } ↔ ((s.b.r.eof || b'.t.fin) = true →
        b'.pushed.length = (payloads s.a.log).length ∨ b'.r.unassembledSize ≠ 0) := by
      unfold Inbox.pushed
      rw [h3, h4]
      refine Iff.trans ⟨fun hv => hv m hm hs ho, fun hv m' hm' _ _ => ?_⟩ hend
      rw [hm, Option.some.injEq] at hm'
      exact hm' ▸ hv
    refine ⟨fun hc => ?_, hvis.trans ⟨fun hv hc => ?_, fun hv he => ?_⟩⟩
    · rcases hclose.mp hc with hc | ⟨-, he⟩
      · rw [h4, (h.closed hc).1, Bool.true_or]
      · rcases Bool.or_eq_true_iff.mp he with he | he
        · rw [h4, h.follows.b.eof he, Bool.true_or]
        · exact he
    · rcases hclose.mp hc with hc | ⟨hu, he⟩
      · rw [(h.closed hc).2] at hle
        exact Nat.le_antisymm hle' hle
      · exact (hv he).resolve_right fun hne => hne hu
    · by_cases hu : b'.r.unassembledSize = 0
      · exact .inl (hv (hclose.mpr (.inr ⟨hu, he⟩)))
      · exact .inr hu

/-- Apart from acknowledgments a step only creates messages. -/
theorem creates {s s' : SenderLog.State} {l : SenderLog.Label} (h : SenderLog.Inv s)
    (hs : SenderLog.step s l = some s') (hl : ∀ msg, l ≠ .receive msg) :
    ∃ ms, s'.log = s.log ++ ms ∧
      s'.tx.outstandingMessages = s.tx.outstandingMessages ++ ms := by
  cases l with
  | write data =>
    simp only [SenderLog.step] at hs
    split at hs
    · cases hs
    · cases hs; exact ⟨[], by simp, by simp⟩
  | close => cases hs; exact ⟨[], by simp, by simp⟩
  | setError => cases hs; exact ⟨[], by simp, by simp⟩
  | push =>
    obtain ⟨tx', out', ms, -, -, hc, -, h5, h6⟩ := h.push
    rw [h5, h6] at hs
    cases hs
    exact ⟨ms, rfl, hc.outstanding⟩
  | receive msg => exact absurd rfl (hl msg)
  | tick ms =>
    cases hs
    refine ⟨[], by simp, ?_⟩
    show (s.tx.tick ms).outstandingMessages = _
    cases ho : s.tx.outstandingMessages with
    | nil => rw [TCPSender.tick_nil ho, ho]; rfl
    | cons m rest => rw [(TCPSender.tick_spec ho ms).frame.2.2.1, ho, List.append_nil]
  | maybeSend =>
    cases hs
    refine ⟨[], by simp, ?_⟩
    show s.tx.maybeSend.1.outstandingMessages = _
    unfold TCPSender.maybeSend
    split <;> simp

/-- After an acknowledgment that `B` has sent, `B` has what `A` has removed. -/
theorem AckInv.receive {s : State} (h : AckInv s) {msg : TCPReceiverMessage} (hmsg : msg ∈ s.acks) :
    (payloads (s.a.log.take
      (s.a.log.length - (s.a.tx.receive msg).outstandingMessages.length))).length ≤
      s.b.pushed.length := by
  have htot := h.follows.totalLength_le
  have hw := h.written
  rcases TCPSender.receive_spec h.follows.a.log.inFlight msg with ⟨-, he⟩ | ⟨w, k, ha, hv, -, hk⟩
  · rw [he]; exact h.acked
  by_cases h0 : k = 0
  · rw [hk.outstanding, h0, List.drop_zero]; exact h.acked
  obtain ⟨N, hN, hhas⟩ := h.acks msg hmsg w ha
  have hA := (TCPSender.validAck_iff.mp hv).1
  have hnext := h.follows.a.log.next
  rw [Nat.mod_eq_of_lt (by omega)] at hnext
  -- the ackno read back is the one `B` meant
  have hwraps :=
    (Wrap32.nearest_unwrap_self w s.a.tx.isn (c := s.a.tx.nextAbsSeqno) (by omega)).wraps
  rw [Wrap32.wrap_eq_iff] at hwraps
  have htrue := (Wrap32.wrap_eq_iff _ _ _).mp hN.symm
  change Wrap32.offset _ _ = s.a.tx.absAckno w % 2 ^ 32 at hwraps
  have hle := hhas.le
  have heq : s.a.tx.absAckno w = N := by omega
  have hrem := removed_le h.follows.a.log (by omega) hA hk h0
  rw [heq] at hrem
  exact hhas.payloads_le h.follows hrem

/-- `B` has what it acknowledges. -/
theorem AckInv.send {s : State} (h : AckInv s) {w : Wrap32}
    (hw : (s.b.t.send s.b.inbound).ackno = some w) :
    ∃ N, w = Wrap32.wrap N s.a.tx.isn ∧ s.Has N := by
  have hp : s.b.pushed.length < 2 ^ 62 :=
    Nat.lt_of_le_of_lt h.follows.pushed.length_le (Nat.lt_trans h.written (by decide))
  obtain ⟨hs, hwrap⟩ := h.follows.b.of_send hw
  refine ⟨s.b.ackno, hwrap, h.follows.b.ackno_le h.follows.a.log.numbering hs hp, ?_⟩
  rw [h.follows.b.ackno_eq hp]
  cases hc : s.b.t.fin && s.b.inbound.close with
  | false => exact .inl (Nat.le_refl _)
  | true =>
    obtain ⟨hfin, hcl⟩ := Bool.and_eq_true_iff.mp hc
    exact .inr ⟨(h.closed hcl).2, h.follows.b.FIN hfin⟩

theorem AckInv.step {s s' : State} {l : Label} (h : AckInv s) (hs : exchange.step s l s')
    (hv : EndVisible s l s') : AckInv s' := by
  obtain ⟨hs, hw, hhonest⟩ := hs
  have hf : s'.FollowsLog := h.follows.step (Nat.lt_trans h.written (by decide))
    (fun i m _ hm => h.readsBack hm) hs
  cases step_cases hs with
  | @a l a' ha =>
    obtain ⟨hisn, hlog, -, -⟩ := h.follows.a.grows ha
    refine ⟨hf, hw, fun hc => ?_, fun msg hmsg w hmw => ?_, ?_⟩
    · obtain ⟨h1, h2⟩ := h.closed hc
      exact ⟨h1, by rw [Numbering.frozen hf.a.log.numbering hlog (h.follows.b.FIN h1)]; exact h2⟩
    · obtain ⟨N, h1, h2⟩ := h.acks msg hmsg w hmw
      exact ⟨N, by rw [hisn]; exact h1, h2.mono hf hlog (List.prefix_refl _)⟩
    · by_cases hl : ∃ msg, l = .receive msg
      · obtain ⟨msg, rfl⟩ := hl
        cases ha
        exact h.receive hhonest
      · obtain ⟨ms, h1, h2⟩ := creates h.follows.a ha fun msg he => hl ⟨msg, he⟩
        have hout := h.follows.a.log.suffix.length_le
        have : a'.log.take (a'.log.length - a'.tx.outstandingMessages.length) = s.acked := by
          unfold State.acked
          rw [h1, h2, List.length_append, List.length_append, Nat.add_sub_add_right,
            List.take_append_of_le_length (Nat.sub_le _ _)]
        show (payloads (a'.log.take _)).length ≤ _
        rw [this]
        exact h.acked
  | @deliver i m b' hm _ hb =>
    obtain ⟨b₁, hb₁, -, hpush, -⟩ := h.deliver hm
    rw [hb₁] at hb
    cases hb
    obtain ⟨h1, h2⟩ := h.deliver_iff hm hb₁
    refine ⟨hf, hw, fun hc => ⟨h1 hc, ?_⟩, fun msg hmsg w hmw => ?_,
      h.acked.trans hpush.length_le⟩
    · exact hf.b.isPrefix.eq_of_length (h2.mp hv hc)
    · obtain ⟨N, h3, h4⟩ := h.acks msg hmsg w hmw
      exact ⟨N, h3, h4.mono hf (List.prefix_refl _) hpush⟩
  | pop len =>
    obtain ⟨-, hp⟩ := h.follows.b.pop len
    have hclose : (s.b.pop len).inbound.close = s.b.inbound.close := by
      unfold Inbox.pop Reader.pop
      split <;> rfl
    refine ⟨hf, hw, fun hc => ?_, fun msg hmsg w hmw => ?_, ?_⟩
    · obtain ⟨h1, h2⟩ := h.closed (hclose.symm.trans hc)
      exact ⟨h1, hp.trans h2⟩
    · obtain ⟨N, h1, h2⟩ := h.acks msg hmsg w hmw
      exact ⟨N, h1, h2.mono hf (List.prefix_refl _) (hp ▸ List.prefix_refl _)⟩
    · show (payloads s.acked).length ≤ (s.b.pop len).pushed.length
      rw [hp]; exact h.acked
  | ack =>
    refine ⟨hf, hw, h.closed, fun msg hmsg w hmw => ?_, h.acked⟩
    rcases List.mem_append.mp hmsg with hmsg | hmsg
    · obtain ⟨N, h1, h2⟩ := h.acks msg hmsg w hmw
      exact ⟨N, h1, h2.mono hf (List.prefix_refl _) (List.prefix_refl _)⟩
    · rw [List.mem_singleton.mp hmsg] at hmw
      obtain ⟨N, h1, h2⟩ := h.send hmw
      exact ⟨N, h1, h2.mono hf (List.prefix_refl _) (List.prefix_refl _)⟩

/-- A step after which `B` is closed only at the end has left the end visible. -/
theorem AckInv.visible {s s' : State} {l : Label} (h : AckInv s) (hs : exchange.step s l s')
    (hsound : Sound s') : EndVisible s l s' := by
  cases step_cases hs.1 with
  | a _ => trivial
  | @deliver i m b' hm _ hb =>
    obtain ⟨b₁, hb₁, hf, -, -⟩ := h.deliver hm
    rw [hb₁] at hb
    cases hb
    obtain ⟨h1, h2⟩ := h.deliver_iff hm hb₁
    refine h2.mpr fun hc => ?_
    rw [(hsound.closed hc).2, (hf.finished (hf.b.FIN (h1 hc))).2]
  | pop len => trivial
  | ack => trivial

/-! ## Soundness -/

/-- **Acknowledgment soundness.** The states of a run are all sound exactly
when its deliveries all leave the end visible; and then, at its end, what `A` no
longer keeps is a prefix of what `B` has pushed, and `B`'s stream is closed only
if it holds all of `A`'s closed stream. -/
theorem ack_sound_iff (s₀ : State) (h0 : exchange.init s₀) (ls : List Label) (s : State) :
    ((exchange.restrict EndVisible).Run s₀ ls s ↔
      (exchange.restrict fun _ _ s' => Sound s').Run s₀ ls s) ∧
    ((exchange.restrict EndVisible).Run s₀ ls s → Sound s) := by
  have hinit : AckInv s₀ := by
    obtain ⟨isn, rto, c, d, hc, hd, rfl⟩ := h0
    exact ackInv_start isn rto hc hd
  refine ⟨?_, fun hr => ?_⟩
  · exact LTS.run_restrict_iff (I := AckInv) (fun s l s' h hs hv => h.step hs hv)
      (fun s l s' h hs => ⟨fun hv => (h.step hs hv).sound, fun hx => h.visible hs hx⟩) hinit
  · exact AckInv.sound (hr.keeps (fun s l s' h hs => h.step hs.1 hs.2) hinit)

instance (s : State) : Decidable (Sound s) :=
  decidable_of_iff (payloads s.acked <+: s.b.pushed ∧
      (Writer.isClosed s.b.inbound = true →
        Writer.isClosed s.a.out = true ∧ s.b.pushed = s.a.written))
    ⟨fun h => ⟨h.1, h.2⟩, fun h => ⟨h.1, h.2⟩⟩

/-- The byte and the FIN arrive in order. -/
theorem ack_sound_iff_run : ∃ s, (exchange.restrict EndVisible).Run (.start ⟨7⟩ 1000 8 8)
    [.a .push, .a .maybeSend, .deliver 0, .ack, .a (.receive ⟨some ⟨8⟩, 8⟩), .a (.write [97]),
      .a .push, .a .close, .a .push, .a .maybeSend, .a .maybeSend, .deliver 1, .deliver 2, .ack,
      .a (.receive ⟨some ⟨10⟩, 7⟩)] s ∧ Sound s := by
  let ls : List Label :=
    [.a .push, .a .maybeSend, .deliver 0, .ack, .a (.receive ⟨some ⟨8⟩, 8⟩), .a (.write [97]),
      .a .push, .a .close, .a .push, .a .maybeSend, .a .maybeSend, .deliver 1, .deliver 2, .ack,
      .a (.receive ⟨some ⟨10⟩, 7⟩)]
  obtain ⟨s, hs⟩ := Option.isSome_iff_exists.mp (show (LTS.exec
      (fun s l => (step s l).filter fun s' => decide (Honest s l s' ∧ Sound s'))
      (.start ⟨7⟩ 1000 8 8) ls).isSome = true by decide +kernel)
  have hsound : (exchange.restrict fun _ _ s' => Sound s').Run (.start ⟨7⟩ 1000 8 8) ls s :=
    LTS.run_of_filter (M := exchange.restrict fun _ _ s' => Sound s')
      (fun _ _ _ h hc => ⟨⟨h, hc.1⟩, hc.2⟩) hs
  have hinit : exchange.init (.start ⟨7⟩ 1000 8 8) := ⟨_, _, _, _, by decide, by decide, rfl⟩
  obtain ⟨hiff, hend⟩ := ack_sound_iff _ hinit ls s
  exact ⟨s, hiff.mpr hsound, hend (hiff.mpr hsound)⟩

/-- The FIN alone is delivered before the byte: `B` closes its empty stream
and acknowledges both, and `A` forgets the byte. -/
theorem fin_first_loses_byte : ∃ s, exchange.Run (.start ⟨7⟩ 1000 8 8)
    [.a .push, .a .maybeSend, .deliver 0, .ack, .a (.receive ⟨some ⟨8⟩, 8⟩), .a (.write [97]),
      .a .push, .a .close, .a .push, .a .maybeSend, .a .maybeSend, .deliver 2, .ack,
      .a (.receive ⟨some ⟨9⟩, 8⟩)] s ∧
    payloads s.acked = [97] ∧ s.b.pushed = [] ∧ Writer.isClosed s.b.inbound = true ∧ ¬ Sound s := by
  have hrun : (LTS.exec (fun s l => (step s l).filter fun s' => decide (Honest s l s'))
      (.start ⟨7⟩ 1000 8 8)
      [.a .push, .a .maybeSend, .deliver 0, .ack, .a (.receive ⟨some ⟨8⟩, 8⟩), .a (.write [97]),
        .a .push, .a .close, .a .push, .a .maybeSend, .a .maybeSend, .deliver 2, .ack,
        .a (.receive ⟨some ⟨9⟩, 8⟩)]).map (fun s =>
      (payloads s.acked, s.b.pushed, Writer.isClosed s.b.inbound)) = some ([97], [], true) := by
    decide +kernel
  obtain ⟨s, hs, he⟩ := Option.map_eq_some_iff.mp hrun
  simp only [Prod.mk.injEq] at he
  obtain ⟨h1, h2, h3⟩ := he
  refine ⟨s, LTS.run_of_filter (M := exchange) (fun _ _ _ h hc => ⟨h, hc⟩) hs, h1, h2, h3,
    fun hx => ?_⟩
  have hp := hx.acked
  rw [h1, h2] at hp
  cases List.prefix_nil.mp hp

end StreamSocket.L3.EndToEnd
