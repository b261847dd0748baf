import StreamSocket.L3Protocol.SenderRun

/-!
# One acknowledgment, in absolute numbers

`receive` compares 32-bit numbers that it unwraps around `next_abs_seqno_`.
With fewer than `2^31` sequence numbers in flight it reads back the numbers
the log gives the outstanding messages (`Numbered`), so it computes on
absolute numbers: `State.acked` is the state it leaves.

* `ack_matches_absolute_numbers`: a receive is rejected exactly above
  `next_abs_seqno_` or below the oldest outstanding message, else it leaves
  `State.acked`, and a second receive of the same message changes nothing.
* `stale_ack_harmless_iff`: what an old acknowledgment leaves alone. It is not
  harmless in general: `stale_ack_moves_window`.
-/
namespace StreamSocket.L3.SenderRun

open L1 L2

/-! ## The numbers of the outstanding messages -/

/-- Where the oldest outstanding message starts in the 64-bit numbering;
`next_abs_seqno_` when nothing is outstanding. -/
def oldestStart (log : List TCPSenderMessage) (x : TCPSender) : Nat :=
  totalLength (log.take (log.length - x.outstandingMessages.length)) % 2 ^ 64

/-- The sender reads back the number of each outstanding message. -/
structure Numbered (x : TCPSender) (start : Nat) : Prop where
  next : start + totalLength x.outstandingMessages = x.nextAbsSeqno
  decode : ∀ i m, x.outstandingMessages[i]? = some m →
    x.startOf m = start + totalLength (x.outstandingMessages.take i)

/-- The log splits at the oldest outstanding message. -/
theorem log_split {log : List TCPSenderMessage} {x : TCPSender} (h : LogInv log x) :
    log = log.take (log.length - x.outstandingMessages.length) ++ x.outstandingMessages := by
  obtain ⟨acked, rfl⟩ := h.suffix
  rw [List.length_append, Nat.add_sub_cancel, List.take_left' rfl]

/-- Either the numbers are read back, or the 64-bit counter has lapped past
the oldest message, which is then read as one not yet sent. -/
theorem numbered_or_lapped {log : List TCPSenderMessage} {x : TCPSender} (h : LogInv log x)
    (hO : totalLength x.outstandingMessages < 2 ^ 31) : Numbered x (oldestStart log x) ∨
      (x.outstandingMessages ≠ [] ∧ x.nextAbsSeqno < oldestStart log x ∧
        ∀ m rest, x.outstandingMessages = m :: rest → x.nextAbsSeqno < x.startOf m) := by
  have hsplit := log_split h
  unfold oldestStart
  generalize log.take (log.length - x.outstandingMessages.length) = acked at hsplit ⊢
  have hnext := h.next
  rw [hsplit, totalLength_append] at hnext
  have hseqno : ∀ i m, x.outstandingMessages[i]? = some m → m.seqno = Wrap32.wrap
      (totalLength acked % 2 ^ 64 + totalLength (x.outstandingMessages.take i)) x.isn := by
    intro i m hm
    have hlog : log[acked.length + i]? = some m := by
      rw [hsplit, List.getElem?_append_right (Nat.le_add_right _ _), Nat.add_sub_cancel_left, hm]
    have htake : totalLength (log.take (acked.length + i)) =
        totalLength acked + totalLength (x.outstandingMessages.take i) := by
      rw [hsplit, List.take_length_add_append, totalLength_append]
    rw [h.numbered _ _ hlog, htake, ← Wrap32.wrap_mod, ← Nat.mod_add_mod, Wrap32.wrap_mod]
  by_cases hlap : totalLength acked % 2 ^ 64 + totalLength x.outstandingMessages < 2 ^ 64
  · refine .inl ⟨by omega, fun i m hm => ?_⟩
    have hle := totalLength_take_le x.outstandingMessages i
    unfold TCPSender.startOf
    rw [hseqno i m hm, Wrap32.unwrap_wrap_of_le _ _ _ (by omega) (by omega) (by omega)]
  · have hne : x.outstandingMessages ≠ [] := by
      intro hnil
      rw [hnil, totalLength_nil] at hlap
      omega
    refine .inr ⟨hne, by omega, fun m rest ho => ?_⟩
    unfold TCPSender.startOf
    rw [hseqno 0 m (by rw [ho]; rfl), List.take_zero, totalLength_nil, Nat.add_zero]
    exact Wrap32.unwrap_wrap_lap _ _ _ (by omega) (by omega) (by omega)

/-! ## What an acknowledgment keeps -/

/-- The messages, numbered from `start` on, that end above `A`. -/
def keptFrom (A : Nat) : Nat → List TCPSenderMessage → List TCPSenderMessage
  | _, [] => []
  | start, m :: ms =>
    if A < start + m.sequenceLength then m :: keptFrom A (start + m.sequenceLength) ms
    else keptFrom A (start + m.sequenceLength) ms

theorem keptFrom_of_lt {A : Nat} : ∀ {start : Nat} {ms : List TCPSenderMessage}, A < start →
    keptFrom A start ms = ms
  | _, [], _ => rfl
  | start, m :: ms, h => by
    rw [keptFrom, if_pos (by omega), keptFrom_of_lt (by omega)]

/-- The removal loop keeps exactly these. -/
theorem keptFrom_eq_drop {x : TCPSender} {A : Nat} : ∀ {ms : List TCPSenderMessage} {start k : Nat},
    (∀ i m, ms[i]? = some m → x.startOf m = start + totalLength (ms.take i)) →
    start + totalLength ms < 2 ^ 64 → (∀ m ∈ ms.take k, x.Covers A m) →
    (∀ m, ms[k]? = some m → ¬ x.Covers A m) → keptFrom A start ms = ms.drop k
  | [], _, _, _, _, _, _ => by rw [List.drop_nil]; rfl
  | m :: ms, start, k, hnum, hlt, hcov, hstop => by
    rw [totalLength_cons] at hlt
    have hm : x.startOf m = start := by
      have := hnum 0 m rfl
      rwa [List.take_zero, totalLength_nil, Nat.add_zero] at this
    have hend : x.Covers A m ↔ start + m.sequenceLength ≤ A := by
      unfold TCPSender.Covers
      rw [hm, add64_of_lt (by omega)]
    cases k with
    | zero =>
      have hk := Nat.not_le.mp (mt hend.mpr (hstop m rfl))
      rw [keptFrom, if_pos hk, keptFrom_of_lt hk, List.drop_zero]
    | succ k =>
      have hk := hend.mp (hcov m (by rw [List.take_succ_cons]; exact List.mem_cons_self ..))
      rw [keptFrom, if_neg (by omega), List.drop_succ_cons]
      refine keptFrom_eq_drop (x := x) (fun i y hy => ?_) (by omega) (fun y hy => ?_) hstop
      · have := hnum (i + 1) y hy
        rw [List.take_succ_cons, totalLength_cons] at this
        omega
      · exact hcov y (by rw [List.take_succ_cons]; exact List.mem_cons_of_mem _ hy)

/-- The state after an accepted acknowledgment of `A` with window `W`, when the
oldest outstanding message starts at `start`. -/
def acked (x : TCPSender) (start A W : Nat) : TCPSender :=
  let kept := keptFrom A start x.outstandingMessages
  let removed := kept.length < x.outstandingMessages.length
  { x with outstandingMessages := kept, sequenceNumbersInFlight := totalLength kept,
           receiverWindowSize := W, receiverWindowSpace := W - totalLength kept,
           freeWindow := false,
           timeElapsed := if removed then 0 else x.timeElapsed,
           retransmissionTimeout := if removed then x.initialRTOms else x.retransmissionTimeout,
           consecutiveRetransmissions := if removed then 0 else x.consecutiveRetransmissions }

theorem sender_ext {x y : TCPSender} (h1 : x.isn = y.isn ∧ x.initialRTOms = y.initialRTOms ∧
      x.sendMessages = y.sendMessages ∧ x.nextAbsSeqno = y.nextAbsSeqno ∧ x.syn = y.syn ∧
      x.fin = y.fin)
    (h2 : x.outstandingMessages = y.outstandingMessages)
    (h3 : x.sequenceNumbersInFlight = y.sequenceNumbersInFlight)
    (h4 : x.receiverWindowSize = y.receiverWindowSize)
    (h5 : x.receiverWindowSpace = y.receiverWindowSpace) (h6 : x.freeWindow = y.freeWindow)
    (h7 : x.timeElapsed = y.timeElapsed ∧ x.retransmissionTimeout = y.retransmissionTimeout ∧
      x.consecutiveRetransmissions = y.consecutiveRetransmissions) : x = y := by
  cases x
  cases y
  simp_all

theorem acked_of_accepted {x x' : TCPSender} {start A W k : Nat} (hn : Numbered x start)
    (hlt : x.nextAbsSeqno < 2 ^ 64) (h : x.Accepted A W k x') : x' = acked x start A W := by
  have hkept : keptFrom A start x.outstandingMessages = x.outstandingMessages.drop k :=
    keptFrom_eq_drop hn.decode (by rw [hn.next]; exact hlt) h.covered h.stop
  have hfl : x'.sequenceNumbersInFlight = totalLength (x.outstandingMessages.drop k) := by
    have := congrArg totalLength (List.take_append_drop k x.outstandingMessages)
    have := hn.next
    rw [totalLength_append] at *
    rw [h.inFlight, h.outstanding, Nat.mod_eq_of_lt (by omega)]
  have hrem : (x.outstandingMessages.drop k).length < x.outstandingMessages.length ↔ k ≠ 0 := by
    have := h.le
    rw [List.length_drop]; omega
  obtain ⟨f1, f2, f3, f4, f5, f6⟩ := h.frame
  refine sender_ext ⟨f1, f2, f3, f4, f5, f6⟩ ?_ ?_ h.size ?_ h.free ?_
  · rw [h.outstanding]; exact hkept.symm
  · rw [hfl, ← hkept]; rfl
  · rw [h.space, hfl, ← hkept]; rfl
  · unfold acked
    simp only [hkept, hrem]
    by_cases hk : k = 0
    · simp only [hk, ne_eq, not_true_eq_false, if_false]
      exact h.keep hk
    · simp only [hk, ne_eq, not_false_eq_true, if_true]
      exact h.restart hk

/-! ## The specification -/

/-- The acknowledgment is out of range. -/
def Rejects (s : State) (A : Nat) : Prop :=
  s.tx.nextAbsSeqno < A ∨
    (s.tx.outstandingMessages ≠ [] ∧ A < oldestStart s.log s.tx)

theorem validAck_iff_not_rejects {s : State} (h : LogInv s.log s.tx)
    (hO : totalLength s.tx.outstandingMessages < 2 ^ 31) (A : Nat) :
    s.tx.validAck A = true ↔ ¬ Rejects s A := by
  rw [TCPSender.validAck_iff]
  unfold Rejects
  rw [not_or, not_and, Nat.not_lt, Nat.not_lt]
  refine and_congr_right fun hA => ?_
  rcases numbered_or_lapped h hO with hn | ⟨-, hlap, hfirst⟩
  · constructor
    · intro hv hne
      obtain ⟨m, rest, ho⟩ := List.exists_cons_of_ne_nil hne
      have := hn.decode 0 m (by rw [ho]; rfl)
      rw [List.take_zero, totalLength_nil, Nat.add_zero] at this
      exact this ▸ hv m rest ho
    · intro hs m rest ho
      have := hn.decode 0 m (by rw [ho]; rfl)
      rw [List.take_zero, totalLength_nil, Nat.add_zero] at this
      rw [this]
      exact hs (by rw [ho]; exact List.cons_ne_nil _ _)
  · -- lapped: both sides put the oldest message above `A`
    constructor
    · intro hv hne
      obtain ⟨m, rest, ho⟩ := List.exists_cons_of_ne_nil hne
      have h1 := hv m rest ho
      have h2 := hfirst m rest ho
      omega
    · intro hs m rest ho
      have := hs (by rw [ho]; exact List.cons_ne_nil _ _)
      omega

theorem receive_of_rejects {s : State} (h : LogInv s.log s.tx)
    (hO : totalLength s.tx.outstandingMessages < 2 ^ 31) {msg : TCPReceiverMessage} {a : Wrap32}
    (ha : msg.ackno = some a) (hr : Rejects s (s.tx.absAckno a)) : s.tx.receive msg = s.tx := by
  rcases TCPSender.receive_spec h.inFlight msg with ⟨-, he⟩ | ⟨a', k, ha', hv, -, -⟩
  · exact he
  · rw [ha, Option.some.injEq] at ha'
    subst ha'
    exact absurd hr ((validAck_iff_not_rejects h hO _).mp hv)

/-- An accepted acknowledgment, and where the oldest outstanding message is. -/
theorem receive_of_not_rejects {s : State} (h : LogInv s.log s.tx)
    (hO : totalLength s.tx.outstandingMessages < 2 ^ 31) {msg : TCPReceiverMessage} {a : Wrap32}
    (ha : msg.ackno = some a) (hr : ¬ Rejects s (s.tx.absAckno a)) :
    Numbered s.tx (oldestStart s.log s.tx) ∧
    s.tx.receive msg =
      acked s.tx (oldestStart s.log s.tx) (s.tx.absAckno a) msg.windowSize.toNat ∧
    ∃ k, s.tx.Accepted (s.tx.absAckno a) msg.windowSize.toNat k (s.tx.receive msg) := by
  have hv := (validAck_iff_not_rejects h hO _).mpr hr
  have hlt : s.tx.nextAbsSeqno < 2 ^ 64 := by rw [h.next]; exact Nat.mod_lt _ (by decide)
  rcases TCPSender.receive_spec h.inFlight msg with ⟨hno, -⟩ | ⟨a', k, ha', -, -, hk⟩
  · rcases hno with hno | ⟨a', ha', hv'⟩
    · rw [hno] at ha; cases ha
    · rw [ha, Option.some.injEq] at ha'
      rw [← ha', hv] at hv'; cases hv'
  · rw [ha, Option.some.injEq] at ha'
    subst ha'
    have hn : Numbered s.tx (oldestStart s.log s.tx) := by
      rcases numbered_or_lapped h hO with hn | ⟨hne, hlap, -⟩
      · exact hn
      · -- lapped: nothing would have been accepted
        have := (TCPSender.validAck_iff.mp hv).1
        exact absurd (.inr ⟨hne, by omega⟩) hr
    exact ⟨hn, acked_of_accepted hn hlt hk, k, hk⟩

/-- The messages removed all end at or below the ackno. -/
theorem removed_le {x x' : TCPSender} {start A W k : Nat} (hn : Numbered x start)
    (hlt : x.nextAbsSeqno < 2 ^ 64) (h : x.Accepted A W k x') (hs : start ≤ A) :
    start + totalLength (x.outstandingMessages.take k) ≤ A := by
  cases k with
  | zero => rwa [List.take_zero, totalLength_nil, Nat.add_zero]
  | succ k =>
    have hk : k < x.outstandingMessages.length := h.le
    have hget := List.getElem?_eq_getElem hk
    have hmem : x.outstandingMessages[k] ∈ x.outstandingMessages.take (k + 1) :=
      List.mem_take_iff_getElem.mpr ⟨k, by omega, rfl⟩
    have hc := h.covered _ hmem
    have hle := totalLength_take_le x.outstandingMessages (k + 1)
    have hnext := hn.next
    have hsucc : totalLength (x.outstandingMessages.take (k + 1)) =
        totalLength (x.outstandingMessages.take k) +
          (x.outstandingMessages[k]).sequenceLength := by
      rw [List.take_add_one, hget, totalLength_append, Option.toList_some, totalLength_cons,
        totalLength_nil, Nat.add_zero]
    unfold TCPSender.Covers at hc
    rw [hn.decode k _ hget, add64_of_lt (by omega)] at hc
    omega

/-- The same acknowledgment again finds nothing to remove. -/
theorem receive_receive {s : State} (h : LogInv s.log s.tx)
    (hO : totalLength s.tx.outstandingMessages < 2 ^ 31) {msg : TCPReceiverMessage} {a : Wrap32}
    (ha : msg.ackno = some a) : (s.tx.receive msg).receive msg = s.tx.receive msg := by
  by_cases hr : Rejects s (s.tx.absAckno a)
  · rw [receive_of_rejects h hO ha hr, receive_of_rejects h hO ha hr]
  obtain ⟨hn, -, k, hk⟩ := receive_of_not_rejects h hO ha hr
  have h' := h.receive msg
  have hlt : s.tx.nextAbsSeqno < 2 ^ 64 := by rw [h.next]; exact Nat.mod_lt _ (by decide)
  generalize s.tx.receive msg = x at hk h' ⊢
  obtain ⟨f1, f2, f3, f4, f5, f6⟩ := hk.frame
  have hstart : ∀ m, x.startOf m = s.tx.startOf m := fun m => by
    unfold TCPSender.startOf; rw [f1, f4]
  have hA : x.absAckno a = s.tx.absAckno a := by unfold TCPSender.absAckno; rw [f1, f4]
  have hcov : ∀ m, x.Covers (s.tx.absAckno a) m ↔ s.tx.Covers (s.tx.absAckno a) m := fun m => by
    unfold TCPSender.Covers; rw [hstart]
  have hhead : ∀ m rest, x.outstandingMessages = m :: rest →
      s.tx.outstandingMessages[k]? = some m := fun m rest ho => by
    rw [hk.outstanding] at ho
    rw [← List.head?_drop, ho]; rfl
  -- the first message kept starts where the last one removed ends
  have hv : x.validAck (s.tx.absAckno a) = true := by
    obtain ⟨h1, -⟩ := not_or.mp hr
    refine TCPSender.validAck_iff.mpr ⟨by rw [f4]; exact Nat.not_lt.mp h1, fun m rest ho => ?_⟩
    have hm := hhead m rest ho
    have hne : s.tx.outstandingMessages ≠ [] := fun hnil => by rw [hnil] at hm; cases hm
    have hbase : oldestStart s.log s.tx ≤ s.tx.absAckno a :=
      Nat.not_lt.mp fun hlt' => hr (.inr ⟨hne, hlt'⟩)
    rw [hstart, hn.decode k m hm]
    exact removed_le hn hlt hk hbase
  rcases TCPSender.receive_spec h'.inFlight msg with ⟨-, he⟩ | ⟨a', j, ha', -, -, hj⟩
  · exact he
  rw [ha, Option.some.injEq] at ha'
  subst ha'
  rw [hA] at hj
  have hj0 : j = 0 := by
    by_contra hne
    obtain ⟨j, rfl⟩ := Nat.exists_eq_succ_of_ne_zero hne
    obtain ⟨m, rest, ho⟩ := List.exists_cons_of_length_pos
      (Nat.lt_of_lt_of_le (Nat.succ_pos j) hj.le)
    have hmem : m ∈ x.outstandingMessages.take (j + 1) := by
      rw [ho, List.take_succ_cons]; exact List.mem_cons_self ..
    exact hk.stop m (hhead m rest ho) ((hcov m).mp (hj.covered m hmem))
  obtain ⟨g1, g2, g3, g4, g5, g6⟩ := hj.frame
  have hout := hj.outstanding
  rw [hj0, List.drop_zero] at hout
  have hfl : (x.receive msg).sequenceNumbersInFlight = x.sequenceNumbersInFlight := by
    rw [hj.inFlight, hout, hk.inFlight]
  exact sender_ext ⟨g1, g2, g3, g4, g5, g6⟩ hout hfl (hj.size.trans hk.size.symm)
    (by rw [hj.space, hk.space, hfl]) (hj.free.trans hk.free.symm) (hj.keep hj0)

/-- **Acknowledgment processing on absolute numbers.** With fewer than `2^31`
sequence numbers in flight, let `A` be nearest to `next_abs_seqno_` among the
numbers that wrap to the ackno (which is not half a turn away). The receive
is rejected, or it is `acked`; and the same message again changes nothing. -/
theorem ack_matches_absolute_numbers (s : State) (hr : machine.Reachable s)
    (hO : totalLength s.tx.outstandingMessages < 2 ^ 31) (msg : TCPReceiverMessage) (a : Wrap32)
    (ha : msg.ackno = some a) (A : Nat) (hA : Wrap32.Nearest a s.tx.isn s.tx.nextAbsSeqno A)
    (htie : a ≠ Wrap32.wrap (s.tx.nextAbsSeqno + 2 ^ 31) s.tx.isn) :
    (Rejects s A → s.tx.receive msg = s.tx) ∧
    (¬ Rejects s A → s.tx.receive msg =
      acked s.tx (oldestStart s.log s.tx) A msg.windowSize.toNat) ∧
    (s.tx.receive msg).receive msg = s.tx.receive msg := by
  have h := inductive_log.reachable s hr
  have hlt : s.tx.nextAbsSeqno < 2 ^ 64 := by rw [h.next]; exact Nat.mod_lt _ (by decide)
  have hu : s.tx.absAckno a = A := Wrap32.unwrap_of_nearest hlt hA htie
  refine ⟨fun hrej => ?_, fun hrej => ?_, receive_receive h hO ha⟩
  · exact receive_of_rejects h hO ha (hu.symm ▸ hrej)
  · rw [(receive_of_not_rejects h hO ha (hu.symm ▸ hrej)).2.1, hu]

/-- A partial acknowledgment: of two segments, the first goes. -/
theorem ack_matches_absolute_numbers_run : ∃ s, machine.Run (.start ⟨7⟩ 1000)
    [.push (.new 8), .receive ⟨some ⟨8⟩, 9⟩, .push (Writer.push (.new 8) [1, 2]),
      .push (Writer.push (.new 8) [3, 4])] s ∧
    (s.tx.receive ⟨some ⟨11⟩, 9⟩).outstandingMessages =
      keptFrom 4 (oldestStart s.log s.tx) s.tx.outstandingMessages ∧
    (s.tx.receive ⟨some ⟨11⟩, 9⟩).receive ⟨some ⟨11⟩, 9⟩ = s.tx.receive ⟨some ⟨11⟩, 9⟩ := by
  have hx : (LTS.exec step (.start ⟨7⟩ 1000) [.push (.new 8), .receive ⟨some ⟨8⟩, 9⟩,
      .push (Writer.push (.new 8) [1, 2]), .push (Writer.push (.new 8) [3, 4])]).map
      (fun s => (totalLength s.tx.outstandingMessages, s.tx.nextAbsSeqno, s.tx.isn,
        oldestStart s.log s.tx)) = some (4, 5, ⟨7⟩, 1) := by decide +kernel
  obtain ⟨s, hs, he⟩ := Option.map_eq_some_iff.mp hx
  simp only [Prod.mk.injEq] at he
  obtain ⟨e1, e2, e3, e4⟩ := he
  have hr : machine.Reachable s := LTS.reachable_of_exec ⟨⟨7⟩, 1000, by decide, rfl⟩ hs
  have hnear : Wrap32.Nearest ⟨11⟩ s.tx.isn s.tx.nextAbsSeqno 4 := by
    have := Wrap32.nearest_unwrap_self ⟨11⟩ ⟨7⟩ (c := 5) (by decide)
    rw [e2, e3]
    rwa [show Wrap32.unwrap ⟨11⟩ ⟨7⟩ 5 = 4 by decide +kernel] at this
  obtain ⟨-, h2, h3⟩ := ack_matches_absolute_numbers s hr (by rw [e1]; decide) ⟨some ⟨11⟩, 9⟩ ⟨11⟩
    rfl 4 hnear (by rw [e2, e3]; decide)
  refine ⟨s, LTS.run_of_exec hs, ?_, h3⟩
  rw [h2 (by unfold Rejects; rw [e2, e4]; omega)]
  rfl

/-! ## Outdated acknowledgments -/

/-- The acknowledgment removes nothing, and its window is the one in force. -/
structure NothingNew (s : State) (A W : Nat) : Prop where
  keeps : keptFrom A (oldestStart s.log s.tx) s.tx.outstandingMessages = s.tx.outstandingMessages
  size : s.tx.receiverWindowSize = W
  space : s.tx.receiverWindowSpace = W - s.tx.sequenceNumbersInFlight
  free : s.tx.freeWindow = false

theorem acked_eq_self_iff {s : State} (h : LogInv s.log s.tx)
    (hO : totalLength s.tx.outstandingMessages < 2 ^ 31) (A W : Nat) :
    acked s.tx (oldestStart s.log s.tx) A W = s.tx ↔ NothingNew s A W := by
  have hfl : totalLength s.tx.outstandingMessages = s.tx.sequenceNumbersInFlight := by
    rw [h.inFlight, Nat.mod_eq_of_lt (by omega)]
  constructor
  · intro he
    have hk : keptFrom A (oldestStart s.log s.tx) s.tx.outstandingMessages =
        s.tx.outstandingMessages := congrArg TCPSender.outstandingMessages he
    refine ⟨hk, (congrArg TCPSender.receiverWindowSize he).symm, ?_,
      (congrArg TCPSender.freeWindow he).symm⟩
    have hsp := congrArg TCPSender.receiverWindowSpace he
    unfold acked at hsp
    simp only [hk, hfl] at hsp
    exact hsp.symm
  · rintro ⟨hk, h1, h2, h3⟩
    refine sender_ext ⟨rfl, rfl, rfl, rfl, rfl, rfl⟩ hk ?_ h1.symm ?_ h3.symm ?_
    · unfold acked; simp only [hk, hfl]
    · unfold acked; simp only [hk, hfl, h2]
    · unfold acked
      simp only [hk, Nat.lt_irrefl, if_false, and_self]

/-- **What an acknowledgment leaves alone.** It changes nothing exactly when it
is rejected, or removes nothing and repeats the window in force; an outdated
one, below the largest accepted, is no exception. -/
theorem stale_ack_harmless_iff (s : State) (hr : machine.Reachable s)
    (hO : totalLength s.tx.outstandingMessages < 2 ^ 31) (msg : TCPReceiverMessage) (a : Wrap32)
    (ha : msg.ackno = some a) : s.tx.receive msg = s.tx ↔
      Rejects s (s.tx.absAckno a) ∨ NothingNew s (s.tx.absAckno a) msg.windowSize.toNat := by
  have h := inductive_log.reachable s hr
  by_cases hrej : Rejects s (s.tx.absAckno a)
  · exact ⟨fun _ => .inl hrej, fun _ => receive_of_rejects h hO ha hrej⟩
  · rw [(receive_of_not_rejects h hO ha hrej).2.1, acked_eq_self_iff h hO]
    exact ⟨.inr, fun hc => hc.resolve_left hrej⟩

/-- All of `abc` is acknowledged with a window of 3; the acknowledgment of the
SYN, with a window of 10, comes again. -/
theorem stale_ack_harmless_iff_run : ∃ s, machine.Run (.start ⟨7⟩ 1000)
    [.push (.new 8), .receive ⟨some ⟨8⟩, 10⟩, .push (Writer.push (.new 8) [97, 98, 99]),
      .receive ⟨some ⟨11⟩, 3⟩] s ∧
    (s.tx.receive ⟨some ⟨8⟩, 3⟩ = s.tx ↔ Rejects s 1 ∨ NothingNew s 1 3) := by
  have hx : (LTS.exec step (.start ⟨7⟩ 1000) [.push (.new 8), .receive ⟨some ⟨8⟩, 10⟩,
      .push (Writer.push (.new 8) [97, 98, 99]), .receive ⟨some ⟨11⟩, 3⟩]).map
      (fun s => (totalLength s.tx.outstandingMessages, s.tx.absAckno ⟨8⟩)) =
      some (0, 1) := by decide +kernel
  obtain ⟨s, hs, he⟩ := Option.map_eq_some_iff.mp hx
  simp only [Prod.mk.injEq] at he
  obtain ⟨e1, e2⟩ := he
  have hr : machine.Reachable s := LTS.reachable_of_exec ⟨⟨7⟩, 1000, by decide, rfl⟩ hs
  have := stale_ack_harmless_iff s hr (by rw [e1]; decide) ⟨some ⟨8⟩, 3⟩ ⟨8⟩ rfl
  rw [e2] at this
  exact ⟨s, LTS.run_of_exec hs, this⟩

/-- With nothing outstanding the old acknowledgment is accepted: the window
is 10 again, and the next push sends up to 14, past the right edge 4 + 3. -/
theorem stale_ack_moves_window : ∃ s, machine.Reachable s ∧ s.last = some (4, 3) ∧
    totalLength s.tx.outstandingMessages < 2 ^ 31 ∧ s.tx.absAckno ⟨8⟩ < s.maxAck ∧
    s.tx.receive ⟨some ⟨8⟩, 10⟩ ≠ s.tx ∧
    ∃ p, (s.tx.receive ⟨some ⟨8⟩, 10⟩).push (Writer.push (.new 16) (List.replicate 16 97)) =
      .ok p ∧ p.1.nextAbsSeqno = 14 := by
  have hx : (LTS.exec step (.start ⟨7⟩ 1000) [.push (.new 8), .receive ⟨some ⟨8⟩, 10⟩,
      .push (Writer.push (.new 8) [97, 98, 99]), .receive ⟨some ⟨11⟩, 3⟩]).map
      (fun s => (s.last, totalLength s.tx.outstandingMessages,
        decide (s.tx.absAckno ⟨8⟩ < s.maxAck), decide (s.tx.receive ⟨some ⟨8⟩, 10⟩ = s.tx),
        ((s.tx.receive ⟨some ⟨8⟩, 10⟩).push
          (Writer.push (.new 16) (List.replicate 16 97))).toOption.map (·.1.nextAbsSeqno))) =
      some (some (4, 3), 0, true, false, some 14) := by decide +kernel
  obtain ⟨s, hs, he⟩ := Option.map_eq_some_iff.mp hx
  simp only [Prod.mk.injEq] at he
  obtain ⟨e1, e2, e3, e4, e5⟩ := he
  refine ⟨s, LTS.reachable_of_exec ⟨⟨7⟩, 1000, by decide, rfl⟩ hs, e1, by rw [e2]; decide,
    of_decide_eq_true e3, of_decide_eq_false e4, ?_⟩
  cases hp : (s.tx.receive ⟨some ⟨8⟩, 10⟩).push
      (Writer.push (.new 16) (List.replicate 16 97)) with
  | error e => rw [hp] at e5; cases e5
  | ok p =>
    rw [hp] at e5
    exact ⟨p, rfl, Option.some.inj e5⟩

end StreamSocket.L3.SenderRun
