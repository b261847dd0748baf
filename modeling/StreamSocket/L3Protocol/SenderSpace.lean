import StreamSocket.L3Protocol.SenderRun

/-!
# The window space never wraps

`receiver_window_space_` has 16 bits and is decremented at two places: by one
for the SYN, and in `update_status`. The `Checked` functions are those of
`TCPSender` with a check in front of both, and stop where more would be taken
than there is.

Runs are those of a sender alone, on any streams, acknowledgments and times.

Results:
* `push_of_pushChecked`: the checks change nothing but stop.
* `pushChecked_iff`: which pushes pass them: not a SYN, nor a FIN alone, that
  finds no space.
* `step_push`: every push is a step, with or without space.
* `space_never_wraps_iff`: runs without such a push are those in which nothing
  is overdrawn.
-/
namespace StreamSocket.L3.SenderSpace

open L1 L2

/-! ## A check in front of each decrement -/

/-- mirrors src/src/tcp_sender.cc:27 -/
def updateStatusChecked (x : TCPSender) (m : TCPSenderMessage) : Except String TCPSender :=
  if m.sequenceLength ≤ x.receiverWindowSpace then .ok (x.updateStatus m)
  else .error "receiver_window_space_"

/-- mirrors src/src/tcp_sender.cc:54 -/
def pushSynChecked (x : TCPSender) (outboundStream : ByteStream) : Except String TCPSender :=
  if 1 ≤ x.receiverWindowSpace then .ok (x.pushSyn outboundStream)
  else .error "receiver_window_space_"

/-- mirrors src/src/tcp_sender.cc:100-110 -/
def pushSegmentChecked (x : TCPSender) (outboundStream : ByteStream) (readSize : Nat) :
    Except String (TCPSender × ByteStream) :=
  (read outboundStream readSize).bind fun (b, readOut) =>
    let last := Reader.isFinished b && decide (x.receiverWindowSpace > readSize)
    let m : TCPSenderMessage :=
      { payload := readOut, FIN := last, seqno := Wrap32.wrap x.nextAbsSeqno x.isn }
    (updateStatusChecked { x with fin := x.fin || last } m).map fun x => (x, b)

/-- mirrors src/src/tcp_sender.cc:85-110 -/
def pushRoundChecked (x : TCPSender) (outboundStream : ByteStream) :
    Except String (TCPSender × ByteStream) :=
  if x.WindowShut then pushSegmentChecked x.probing outboundStream 1
  else pushSegmentChecked x outboundStream (x.readSize outboundStream)

/-- mirrors src/src/tcp_sender.cc:83-111 -/
def pushLoopChecked : Nat → TCPSender → ByteStream → Except String (TCPSender × ByteStream)
  | 0, x, b => .ok (x, b)
  | fuel + 1, x, b =>
    if x.LoopTest b then
      (pushRoundChecked x b).bind fun (x, b) => pushLoopChecked fuel x b
    else .ok (x, b)

/-- mirrors src/src/tcp_sender.cc:115-119 -/
def pushFinChecked (x : TCPSender) : Except String TCPSender :=
  updateStatusChecked { x with fin := true }
    { seqno := Wrap32.wrap x.nextAbsSeqno x.isn, FIN := true }

/-- mirrors src/src/tcp_sender.cc:44-123 -/
def pushChecked (x : TCPSender) (outboundStream : ByteStream) :
    Except String (TCPSender × ByteStream) :=
  if !x.syn then (pushSynChecked x outboundStream).map fun x => (x, outboundStream)
  else if x.fin then .ok (x, outboundStream)
  else if !x.syn then .ok (x, outboundStream)
  else if x.synPending then .ok (x, outboundStream)
  else if Reader.bytesBuffered outboundStream ≠ 0 then
    pushLoopChecked (Reader.bytesBuffered outboundStream) x outboundStream
  else if Reader.isFinished outboundStream ∧ (x.receiverWindowSpace ≠ 0 ∨ x.WindowShut) then
    (pushFinChecked x).map fun x => (x, outboundStream)
  else .ok (x, outboundStream)

/-- The SYN, or the FIN alone, is to be sent, and there is no space. -/
def Overdraws (x : TCPSender) (b : ByteStream) : Prop :=
  x.receiverWindowSpace = 0 ∧ (x.syn = false ∨
    x.fin = false ∧ x.synPending = false ∧ Reader.bytesBuffered b = 0 ∧
      Reader.isFinished b = true ∧ x.receiverWindowSize = 0)

instance (x : TCPSender) (b : ByteStream) : Decidable (Overdraws x b) :=
  inferInstanceAs (Decidable (_ ∧ (_ ∨ _ ∧ _ ∧ _ ∧ _ ∧ _)))

/-! ## The space is at most the size -/

structure Bounded (x : TCPSender) : Prop where
  le : x.receiverWindowSpace ≤ x.receiverWindowSize
  lt : x.receiverWindowSize < 2 ^ 16

theorem Bounded.withFin {x : TCPSender} (h : Bounded x) (f : Bool) :
    Bounded { x with fin := f } :=
  ⟨h.le, h.lt⟩

theorem exists_of_map_ok {α β : Type} {f : α → β} {e : Except String α} {b : β}
    (h : e.map f = .ok b) : ∃ a, e = .ok a ∧ f a = b := by
  cases e with
  | error s => cases h
  | ok a =>
    cases h
    exact ⟨a, rfl, rfl⟩

theorem exists_of_bind_ok {α β : Type} {f : α → Except String β} {e : Except String α} {b : β}
    (h : e.bind f = .ok b) : ∃ a, e = .ok a ∧ f a = .ok b := by
  cases e with
  | error s => cases h
  | ok a => exact ⟨a, rfl, h⟩

/-- What passes the check leaves the rest of the space. -/
theorem updateStatusChecked_ok {x x' : TCPSender} {m : TCPSenderMessage} (hx : Bounded x)
    (h : updateStatusChecked x m = .ok x') : x' = x.updateStatus m ∧ Bounded x' := by
  unfold updateStatusChecked at h
  split_ifs at h with hle
  cases h
  have hlt : x.receiverWindowSpace < 2 ^ 16 := Nat.lt_of_le_of_lt hx.le hx.lt
  have hspace : (x.updateStatus m).receiverWindowSpace =
      x.receiverWindowSpace - m.sequenceLength := sub16_of_le hle hlt
  refine ⟨rfl, ?_, hx.lt⟩
  rw [hspace]
  exact Nat.le_trans (Nat.sub_le _ _) hx.le

theorem pushSynChecked_ok {x x' : TCPSender} {b : ByteStream} (hx : Bounded x)
    (h : pushSynChecked x b = .ok x') : x' = x.pushSyn b ∧ Bounded x' := by
  unfold pushSynChecked at h
  split_ifs at h with hle
  cases h
  have hlt : x.receiverWindowSpace < 2 ^ 16 := Nat.lt_of_le_of_lt hx.le hx.lt
  have hsub := sub16_of_le hle hlt
  have hspace : (x.pushSyn b).receiverWindowSpace = x.receiverWindowSpace - 1 := by
    rw [← hsub]
    unfold TCPSender.pushSyn
    split <;> rfl
  have hsize : (x.pushSyn b).receiverWindowSize = x.receiverWindowSize := by
    unfold TCPSender.pushSyn
    split <;> rfl
  refine ⟨rfl, ?_, hsize ▸ hx.lt⟩
  rw [hspace, hsize]
  exact Nat.le_trans (Nat.sub_le _ _) hx.le

theorem pushSegmentChecked_ok {x : TCPSender} {b : ByteStream} {n : Nat}
    {r : TCPSender × ByteStream} (hx : Bounded x) (h : pushSegmentChecked x b n = .ok r) :
    x.pushSegment b n = .ok r ∧ Bounded r.1 := by
  obtain ⟨⟨b', readOut⟩, hr, h⟩ := exists_of_bind_ok h
  obtain ⟨x', hu, rfl⟩ := exists_of_map_ok h
  obtain ⟨rfl, hb⟩ := updateStatusChecked_ok (hx.withFin _) hu
  refine ⟨?_, hb⟩
  unfold TCPSender.pushSegment
  rw [hr]
  rfl

theorem pushRoundChecked_ok {x : TCPSender} {b : ByteStream} {r : TCPSender × ByteStream}
    (hx : Bounded x) (h : pushRoundChecked x b = .ok r) :
    x.pushRound b = .ok r ∧ Bounded r.1 := by
  unfold pushRoundChecked at h
  unfold TCPSender.pushRound
  by_cases hs : x.WindowShut
  · rw [if_pos hs] at h
    simp only [if_pos hs]
    exact pushSegmentChecked_ok ⟨Nat.le_refl 1, show 1 < 2 ^ 16 by decide⟩ h
  · rw [if_neg hs] at h
    simp only [if_neg hs]
    exact pushSegmentChecked_ok hx h

theorem pushLoopChecked_ok {fuel : Nat} {x : TCPSender} {b : ByteStream}
    {r : TCPSender × ByteStream} (hx : Bounded x) (h : pushLoopChecked fuel x b = .ok r) :
    x.pushLoop fuel b = .ok r ∧ Bounded r.1 := by
  induction fuel generalizing x b with
  | zero =>
    cases h
    exact ⟨rfl, hx⟩
  | succ fuel ih =>
    unfold pushLoopChecked at h
    unfold TCPSender.pushLoop
    by_cases ht : x.LoopTest b
    · rw [if_pos ht] at h ⊢
      obtain ⟨⟨x₁, b₁⟩, hr, h⟩ := exists_of_bind_ok h
      obtain ⟨hr', hx₁⟩ := pushRoundChecked_ok hx hr
      rw [hr']
      exact ih hx₁ h
    · rw [if_neg ht] at h ⊢
      cases h
      exact ⟨rfl, hx⟩

/-- The checks change nothing but stop. -/
theorem push_of_pushChecked {x : TCPSender} {b : ByteStream} {r : TCPSender × ByteStream}
    (hx : Bounded x) (h : pushChecked x b = .ok r) : x.push b = .ok r ∧ Bounded r.1 := by
  unfold pushChecked at h
  unfold TCPSender.push
  split_ifs at h ⊢
  · obtain ⟨x', hs, rfl⟩ := exists_of_map_ok h
    obtain ⟨rfl, hx'⟩ := pushSynChecked_ok hx hs
    exact ⟨rfl, hx'⟩
  · cases h
    exact ⟨rfl, hx⟩
  · cases h
    exact ⟨rfl, hx⟩
  · exact pushLoopChecked_ok hx h
  · obtain ⟨x', hf, rfl⟩ := exists_of_map_ok h
    obtain ⟨rfl, hx'⟩ := updateStatusChecked_ok (hx.withFin true) hf
    exact ⟨rfl, hx'⟩
  · cases h
    exact ⟨rfl, hx⟩

/-! ## Which pushes pass the checks -/

theorem pushSegmentChecked_total {x : TCPSender} {b : ByteStream} (hb : b.Inv) {n : Nat}
    (hn : n ≤ b.stream.length) (hs : n ≤ x.receiverWindowSpace) :
    ∃ x', pushSegmentChecked x b n = .ok (x', Reader.pop b n) := by
  unfold pushSegmentChecked
  rw [ByteStream.read_eq hb, Nat.min_eq_left hn]
  have hlen : (b.stream.take n).length = n := by rw [List.length_take, Nat.min_eq_left hn]
  -- the FIN is added only where the payload leaves space
  have hfit : n + (Reader.isFinished (Reader.pop b n) &&
      decide (x.receiverWindowSpace > n)).toNat ≤ x.receiverWindowSpace := by
    by_cases hlt : x.receiverWindowSpace > n
    · have := Bool.toNat_le (Reader.isFinished (Reader.pop b n) &&
        decide (x.receiverWindowSpace > n))
      omega
    · rw [decide_eq_false hlt, Bool.and_false]
      exact hs
  simp only [Except.bind, updateStatusChecked, TCPSenderMessage.sequenceLength, hlen,
    Bool.toNat_false, Nat.zero_add, if_pos hfit]
  exact ⟨_, rfl⟩

theorem pushRoundChecked_total {x : TCPSender} {b : ByteStream} (hb : b.Inv)
    (ht : x.LoopTest b) : ∃ x' n, pushRoundChecked x b = .ok (x', Reader.pop b n) := by
  have hr := TCPSender.readSize_eq (s := x) hb
  have hbuf : b.stream.length ≠ 0 := by
    rw [← hb.buffered]
    rcases ht with ht | ht
    · exact ht.2
    · exact ht.2
  unfold pushRoundChecked
  by_cases hs : x.WindowShut
  · rw [if_pos hs]
    obtain ⟨x', h⟩ := pushSegmentChecked_total (x := x.probing) hb (n := 1)
      (Nat.pos_of_ne_zero hbuf) (Nat.le_refl 1)
    exact ⟨x', 1, h⟩
  · rw [if_neg hs]
    obtain ⟨x', h⟩ := pushSegmentChecked_total (x := x) hb (n := x.readSize b)
      (by rw [hr]; omega) (by rw [hr]; omega)
    exact ⟨x', _, h⟩

theorem pushLoopChecked_total (fuel : Nat) {x : TCPSender} {b : ByteStream} (hb : b.Inv) :
    ∃ r, pushLoopChecked fuel x b = .ok r := by
  induction fuel generalizing x b with
  | zero => exact ⟨_, rfl⟩
  | succ fuel ih =>
    unfold pushLoopChecked
    by_cases ht : x.LoopTest b
    · obtain ⟨x', n, h⟩ := pushRoundChecked_total hb ht
      rw [if_pos ht, h]
      exact ih (ByteStream.inv_pop hb n)
    · rw [if_neg ht]
      exact ⟨_, rfl⟩

theorem pushSynChecked_iff {x : TCPSender} {b : ByteStream} :
    (∃ x', pushSynChecked x b = .ok x') ↔ x.receiverWindowSpace ≠ 0 := by
  unfold pushSynChecked
  split_ifs with h
  · exact ⟨fun _ => by omega, fun _ => ⟨_, rfl⟩⟩
  · exact ⟨fun ⟨_, h'⟩ => (nomatch h'), fun h' => by omega⟩

theorem pushFinChecked_iff {x : TCPSender} :
    (∃ x', pushFinChecked x = .ok x') ↔ x.receiverWindowSpace ≠ 0 := by
  unfold pushFinChecked updateStatusChecked
  split_ifs with h
  · exact ⟨fun _ => Nat.one_le_iff_ne_zero.mp h, fun _ => ⟨_, rfl⟩⟩
  · exact ⟨fun ⟨_, h'⟩ => (nomatch h'), fun h' => absurd (Nat.one_le_iff_ne_zero.mpr h') h⟩

theorem exists_map_ok {α β : Type} {f : α → β} {e : Except String α} :
    (∃ r, e.map f = .ok r) ↔ ∃ a, e = .ok a :=
  ⟨fun ⟨_, h⟩ => (exists_of_map_ok h).imp fun _ => And.left, fun ⟨a, h⟩ => ⟨f a, by rw [h]; rfl⟩⟩

/-- A push is stopped exactly where it takes a sequence number that no space is
left for. -/
theorem pushChecked_iff {x : TCPSender} {b : ByteStream} (hb : b.Inv) :
    (∃ r, pushChecked x b = .ok r) ↔ ¬ Overdraws x b := by
  have hok : ∀ r : TCPSender × ByteStream,
      ∃ r', (Except.ok r : Except String (TCPSender × ByteStream)) = .ok r' := fun r => ⟨r, rfl⟩
  unfold pushChecked Overdraws
  cases hsyn : x.syn with
  | false =>
    rw [Bool.not_false, if_pos rfl, exists_map_ok, pushSynChecked_iff]
    simp
  | true =>
    cases hf : x.fin with
    | true => simp
    | false =>
      cases hp : x.synPending with
      | true => simp
      | false =>
        simp only [Bool.not_true, Bool.false_eq_true, Bool.true_eq_false, if_false, true_and,
          false_or]
        by_cases hbuf : Reader.bytesBuffered b = 0
        · rw [if_neg (not_not_intro hbuf)]
          split_ifs with hc
          · rw [exists_map_ok, pushFinChecked_iff]
            rcases hc.2 with h0 | ⟨h1, h0⟩
            · simp [h0]
            · simp [h0, h1, hbuf, hc.1]
          · refine iff_of_true (hok _) ?_
            rintro ⟨h0, -, hd, h1⟩
            exact hc ⟨hd, .inr ⟨h1, h0⟩⟩
        · rw [if_pos hbuf]
          exact iff_of_true (pushLoopChecked_total _ hb) fun h => hbuf h.2.1

/-! ## Runs -/

/-- Any stream at each push, any acknowledgment, any time. -/
def step (x : TCPSender) : SenderRun.Label → Option TCPSender
  | .push b => if b.Inv then (x.push b).toOption.map Prod.fst else none
  | .receive msg => some (x.receive msg)
  | .tick ms => some (x.tick ms)
  | .maybeSend => some x.maybeSend.1

def start (isn : Wrap32) (initialRTOms : Nat) : TCPSender :=
  { isn := isn, initialRTOms := initialRTOms, retransmissionTimeout := initialRTOms }

def machine : LTS TCPSender SenderRun.Label :=
  LTS.ofFn (fun x => ∃ isn rto, x = start isn rto) step

/-- Each decrement takes at most what there is, and the space is at most the size
afterwards. -/
def Sound (x : TCPSender) : SenderRun.Label → TCPSender → Prop
  | .push b, x' => (∃ r, pushChecked x b = .ok r) ∧ x'.receiverWindowSpace ≤ x'.receiverWindowSize
  | _, x' => x'.receiverWindowSpace ≤ x'.receiverWindowSize

/-- No push finds the space used up and the SYN, or the FIN alone, to be sent. -/
def Funded (x : TCPSender) : SenderRun.Label → TCPSender → Prop
  | .push b, _ => ¬ Overdraws x b
  | _, _ => True

theorem acceptAck_bounded (x : TCPSender) (A : Nat) (W : UInt16) :
    Bounded (x.acceptAck A W.toNat) := by
  have hW := W.toNat_lt
  unfold TCPSender.acceptAck
  obtain ⟨idx, inFlight⟩ := x.ackLoop A x.outstandingMessages 0 x.sequenceNumbersInFlight
  dsimp only
  split_ifs <;> exact ⟨by simp, hW⟩

theorem receive_bounded {x : TCPSender} (h : Bounded x) (msg : TCPReceiverMessage) :
    Bounded (x.receive msg) := by
  unfold TCPSender.receive
  split
  · exact h
  · dsimp only
    split
    · exact h
    · exact acceptAck_bounded x _ msg.windowSize

theorem tick_bounded {x : TCPSender} (h : Bounded x) (ms : Nat) : Bounded (x.tick ms) := by
  cases ho : x.outstandingMessages with
  | nil => rwa [TCPSender.tick_nil ho]
  | cons m rest =>
    obtain ⟨-, -, -, -, -, -, -, hsize, hspace, -⟩ := (TCPSender.tick_spec ho ms).frame
    exact ⟨by rw [hsize, hspace]; exact h.le, by rw [hsize]; exact h.lt⟩

theorem maybeSend_bounded {x : TCPSender} (h : Bounded x) : Bounded x.maybeSend.1 := by
  unfold TCPSender.maybeSend
  split
  · exact h
  · exact ⟨h.le, h.lt⟩

/-- Every push is a step, also one that overdraws. -/
theorem step_push {x : TCPSender} {b : ByteStream} (h : Bounded x) (hb : b.Inv) :
    ∃ x', step x (.push b) = some x' := by
  have hpush : ∃ r, x.push b = .ok r := by
    by_cases ho : Overdraws x b
    · unfold TCPSender.push
      rcases ho.2 with hsyn | ⟨hf, hp, hbuf, -, -⟩
      · exact ⟨_, if_pos (by rw [hsyn]; rfl)⟩
      · rw [if_neg (Bool.eq_false_iff.mp hf), if_neg (Bool.eq_false_iff.mp hp),
          if_neg (not_not_intro hbuf)]
        split_ifs <;> exact ⟨_, rfl⟩
    · obtain ⟨r, hr⟩ := (pushChecked_iff hb).mpr ho
      exact ⟨r, (push_of_pushChecked h hr).1⟩
  obtain ⟨r, hr⟩ := hpush
  simp only [step, if_pos hb, hr]
  exact ⟨r.1, rfl⟩

/-- A push that passes the checks is the push, and keeps the space below the size. -/
theorem push_bounded {x x' : TCPSender} {b : ByteStream} (h : Bounded x)
    (hs : step x (.push b) = some x') (hc : ∃ r, pushChecked x b = .ok r) : Bounded x' := by
  obtain ⟨r, hc⟩ := hc
  obtain ⟨hp, hr⟩ := push_of_pushChecked h hc
  simp only [step] at hs
  split_ifs at hs
  rw [hp] at hs
  cases hs
  exact hr

theorem bounded_step {x x' : TCPSender} {l : SenderRun.Label} (h : Bounded x)
    (hs : step x l = some x') (hc : Sound x l x') : Bounded x' := by
  cases l with
  | push b => exact push_bounded h hs hc.1
  | receive msg => cases hs; exact receive_bounded h msg
  | tick ms => cases hs; exact tick_bounded h ms
  | maybeSend => cases hs; exact maybeSend_bounded h

/-- One step is sound exactly if no push overdraws. -/
theorem sound_iff_funded {x x' : TCPSender} {l : SenderRun.Label} (h : Bounded x)
    (hs : step x l = some x') : Sound x l x' ↔ Funded x l x' := by
  cases l with
  | push b =>
    have hb : b.Inv := by
      simp only [step] at hs
      split_ifs at hs with hb
      exact hb
    have hiff := pushChecked_iff (x := x) hb
    exact ⟨fun hc => hiff.mp hc.1, fun hf =>
      ⟨hiff.mpr hf, (push_bounded h hs (hiff.mpr hf)).le⟩⟩
  | receive msg => cases hs; exact iff_of_true (receive_bounded h msg).le trivial
  | tick ms => cases hs; exact iff_of_true (tick_bounded h ms).le trivial
  | maybeSend => cases hs; exact iff_of_true (maybeSend_bounded h).le trivial

theorem start_bounded (isn : Wrap32) (rto : Nat) : Bounded (start isn rto) :=
  ⟨Nat.le_refl 1, show 1 < 2 ^ 16 by decide⟩

/-- **The window space never wraps** in a run whose pushes all find space for the
SYN, and for a FIN alone; in any other run it does. -/
theorem space_never_wraps_iff (isn : Wrap32) (rto : Nat) (ls : List SenderRun.Label)
    (x : TCPSender) : (machine.restrict Sound).Run (start isn rto) ls x ↔
      (machine.restrict Funded).Run (start isn rto) ls x :=
  LTS.run_restrict_iff (I := Bounded) (fun _ _ _ h hs hc => bounded_step h hs hc)
    (fun _ _ _ h hs => sound_iff_funded h hs) (start_bounded isn rto)

/-- An acknowledgment of nothing closes the window before the SYN; and the FIN
alone is sent into a window that is closed after it. -/
theorem space_wraps :
    (∃ x, machine.Run (start ⟨7⟩ 1000) [.receive ⟨some ⟨7⟩, 0⟩, .push (.new 8)] x ∧
      x.receiverWindowSpace = 65535 ∧ x.receiverWindowSize = 0) ∧
    ∃ x, machine.Run (start ⟨7⟩ 1000)
      [.push (.new 8), .receive ⟨some ⟨8⟩, 0⟩, .push (Writer.close (.new 8))] x ∧
      x.receiverWindowSpace = 65535 ∧ x.receiverWindowSize = 0 := by
  have run : ∀ ls : List SenderRun.Label, (LTS.exec step (start ⟨7⟩ 1000) ls).map
      (fun x => (x.receiverWindowSpace, x.receiverWindowSize)) = some (65535, 0) →
      ∃ x, machine.Run (start ⟨7⟩ 1000) ls x ∧
        x.receiverWindowSpace = 65535 ∧ x.receiverWindowSize = 0 := by
    intro ls h
    obtain ⟨x, hx, he⟩ := Option.map_eq_some_iff.mp h
    rw [Prod.mk.injEq] at he
    exact ⟨x, LTS.run_of_exec hx, he⟩
  exact ⟨run _ (by decide +kernel), run _ (by decide +kernel)⟩

end StreamSocket.L3.SenderSpace
