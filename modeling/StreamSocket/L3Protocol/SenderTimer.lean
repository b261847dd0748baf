import StreamSocket.L3Protocol.SenderRun

/-!
# The retransmission timer over whole runs

The timer lives in five fields that `push`, `receive` and `tick` each touch in
part. What it means is a matter of history: how long ago the timer restarted
(`since`), how many retransmissions were counted since the last reset (`retx`)
and which window the last accepted acknowledgment advertised (`last`).

* `timer_laws`: the timeout is the initial one doubled `retx` times, the
  elapsed time is `since` while something is outstanding, as long as the ticks
  add up to less than 2^64 ms, and a retransmission
  is counted exactly when the last advertised window is open or the SYN is
  what is resent, whatever window a probe has put in its place.
* `elapsed_and_counter_drift`: the elapsed time stands still while nothing is
  outstanding, and the 64-bit retransmission counter can lap.
-/
namespace StreamSocket.L3.SenderRun

open L1 L2

/-! ## The window behind a probe -/

/-- What `last` says of the window fields. A probe overwrites the closed
window, and marks it with `free_window`. -/
structure Advertised (last : Option (Nat × UInt16)) (x : TCPSender) : Prop where
  opened : ¬ ZeroWindow last → x.receiverWindowSize ≠ 0 ∧ x.freeWindow = false
  closed : ZeroWindow last → (x.receiverWindowSize = 0 ∧ x.freeWindow = false) ∨
    (x.freeWindow = true ∧ x.syn = true ∧ x.synPending = false)

theorem Advertised.emits {last : Option (Nat × UInt16)} {x x' : TCPSender} {b b' : ByteStream}
    {m : TCPSenderMessage} (h : Advertised last x) (he : x.Emits b m x' b') :
    Advertised last x' := by
  have hkeep : x.syn = true ∧ x.synPending = false → x'.syn = true ∧ x'.synPending = false :=
    fun ⟨hs, hp⟩ => ⟨he.syn, he.synPending hs hp⟩
  cases he.branch with
  | syn hs _ _ hsize _ hfree =>
    refine ⟨fun hz => by rw [hsize, hfree]; exact h.opened hz, fun hz => ?_⟩
    rw [hsize, hfree]
    rcases h.closed hz with hc | ⟨-, hs', -⟩
    · exact .inl hc
    · rw [hs] at hs'; cases hs'
  | fit hs hp _ _ _ hsize _ hfree =>
    refine ⟨fun hz => ?_, fun hz => ?_⟩
    · rw [hsize, hfree]; exact h.opened hz
    · rw [hsize, hfree]
      exact (h.closed hz).imp_right fun hc => ⟨hc.1, hkeep hc.2⟩
  | probe hs hp hshut _ _ _ _ hfree =>
    exact ⟨fun hz => absurd hshut.1 (h.opened hz).1, fun _ => .inr ⟨hfree, hkeep ⟨hs, hp⟩⟩⟩
  | finProbe hs hp hshut _ _ _ hsize _ hfree =>
    refine ⟨fun hz => absurd hshut.1 (h.opened hz).1, fun hz => ?_⟩
    rw [hsize, hfree]
    rcases h.closed hz with hc | hc
    · exact .inl ⟨rfl, hc.2⟩
    · exact .inr ⟨hc.1, hkeep hc.2⟩

/-! ## The invariant -/

structure TimerInv (s : State) : Prop where
  log : LogInv s.log s.tx
  initial : s.tx.initialRTOms < 2 ^ 64
  backoff : s.tx.retransmissionTimeout = s.tx.initialRTOms * 2 ^ s.retx % 2 ^ 64
  counted : s.tx.consecutiveRetransmissions = s.retx % 2 ^ 64
  quiet : s.tx.outstandingMessages = [] → s.tx.timeElapsed = 0 ∧ s.retx = 0
  elapsed : s.clock < 2 ^ 64 → s.tx.outstandingMessages ≠ [] → s.tx.timeElapsed = s.since
  since : s.since ≤ s.clock
  window : Advertised s.last s.tx

theorem timerInv_start (isn : Wrap32) {rto : Nat} (h : rto < 2 ^ 64) :
    TimerInv (.start isn rto) where
  log := logInv_new isn rto
  initial := h
  backoff := by
    show rto = rto * 2 ^ 0 % 2 ^ 64
    rw [Nat.pow_zero, Nat.mul_one, Nat.mod_eq_of_lt h]
  counted := rfl
  quiet := fun _ => ⟨rfl, rfl⟩
  elapsed := fun _ hne => absurd rfl hne
  since := Nat.le_refl _
  window := ⟨fun _ => ⟨Nat.one_ne_zero, rfl⟩, fun ⟨_, h⟩ => nomatch h⟩

/-- A push leaves the timer alone. -/
theorem creation_timer {ms : List TCPSenderMessage} {p p' : TCPSender × ByteStream}
    (hr : TCPSender.creation.Run p ms p') : p'.1.initialRTOms = p.1.initialRTOms ∧
      p'.1.timeElapsed = p.1.timeElapsed ∧
      p'.1.retransmissionTimeout = p.1.retransmissionTimeout ∧
      p'.1.consecutiveRetransmissions = p.1.consecutiveRetransmissions := by
  induction hr with
  | nil => exact ⟨rfl, rfl, rfl, rfl⟩
  | cons hs _ ih =>
    obtain ⟨h1, h2, h3, h4⟩ := ih
    have ht := hs.timer
    exact ⟨h1.trans hs.rto, h2.trans ht.1, h3.trans ht.2.1, h4.trans ht.2.2⟩

theorem TimerInv.push {s s' : State} {b b' : ByteStream} {ms : List TCPSenderMessage}
    (h : TimerInv s) (hp : Pushes s b ms s' b') : TimerInv s' := by
  obtain ⟨h1, h2, h3, h4⟩ := creation_timer hp.run
  have hadv : Advertised s.last s'.tx :=
    hp.run.keeps (P := fun p => Advertised s.last p.1) (fun _ _ _ ha hs => ha.emits hs) h.window
  have hsince : s'.since = if s.tx.outstandingMessages = [] ∧ s'.tx.outstandingMessages ≠ []
      then 0 else s.since := by rw [hp.after]; rfl
  have hretx : s'.retx = s.retx := by rw [hp.after]; rfl
  have hlast : s'.last = s.last := by rw [hp.after]; rfl
  have hclock : s'.clock = s.clock := by rw [hp.after]; rfl
  refine { log := hp.logInv, initial := by rw [h1]; exact h.initial,
           backoff := by rw [h3, h1, hretx]; exact h.backoff,
           counted := by rw [h4, hretx]; exact h.counted, quiet := fun hnil => ?_,
           elapsed := fun hc hne => ?_, since := ?_,
           window := by rw [hlast]; exact hadv }
  · rw [hp.created.outstanding, List.append_eq_nil_iff] at hnil
    rw [h2, hretx]
    exact h.quiet hnil.1
  · rw [hclock] at hc
    rw [h2, hsince]
    split
    · rename_i hfirst; exact (h.quiet hfirst.1).1
    · rename_i hmore; exact h.elapsed hc fun hnil => hmore ⟨hnil, hne⟩
  · have := h.since
    rw [hsince, hclock]
    split <;> omega

/-- An acknowledgment restarts the timer exactly when it removes a message. -/
theorem TimerInv.receive {s s' : State} {msg : TCPReceiverMessage} (h : TimerInv s)
    (hs : SenderRun.step s (.receive msg) = some s') : TimerInv s' := by
  have hlog := logInv_step h.log hs
  rcases receive_cases h.log hs with ⟨-, rfl⟩ | ⟨a, k, hacc, -, ha, he⟩
  · exact h
  obtain ⟨-, f2, -⟩ := ha.frame
  have hlen : s'.tx.outstandingMessages.length < s.tx.outstandingMessages.length ↔ k ≠ 0 := by
    have := ha.le
    rw [ha.outstanding, List.length_drop]; omega
  have hlast : s'.last = some (s.tx.absAckno a, msg.windowSize) := by
    rw [he]; unfold State.afterReceive; rw [hacc]; rfl
  have hsince : s'.since = if k ≠ 0 then 0 else s.since := by
    rw [he]; unfold State.afterReceive; simp only [hlen]
  have hretx : s'.retx = if k ≠ 0 then 0 else s.retx := by
    rw [he]; unfold State.afterReceive; simp only [hlen]
  have hclock : s'.clock = s.clock := by rw [he]; rfl
  have hwin : Advertised s'.last s'.tx := by
    rw [hlast]
    refine ⟨fun hz => ⟨?_, ha.free⟩, fun ⟨A, hz⟩ => .inl ⟨?_, ha.free⟩⟩
    · rw [ha.size]
      refine fun h0 => hz ⟨s.tx.absAckno a, ?_⟩
      rw [UInt16.toNat_inj.mp (show msg.windowSize.toNat = (0 : UInt16).toNat from h0)]
    · rw [ha.size]
      simp only [Option.some.injEq, Prod.mk.injEq] at hz
      rw [hz.2]; rfl
  have hsc : s'.since ≤ s'.clock := by
    have := h.since
    rw [hsince, hclock]; split <;> omega
  by_cases hk : k = 0
  · obtain ⟨k1, k2, k3⟩ := ha.keep hk
    have hout := ha.outstanding
    rw [hk, List.drop_zero] at hout
    rw [if_neg (not_not_intro hk)] at hsince hretx
    exact { log := hlog, initial := by rw [f2]; exact h.initial,
            backoff := by rw [k2, f2, hretx]; exact h.backoff,
            counted := by rw [k3, hretx]; exact h.counted,
            quiet := by rw [hout, k1, hretx]; exact h.quiet,
            elapsed := by rw [hout, k1, hsince, hclock]; exact h.elapsed, since := hsc,
            window := hwin }
  · obtain ⟨r1, r2, r3⟩ := ha.restart hk
    rw [if_pos hk] at hsince hretx
    refine { log := hlog, initial := by rw [f2]; exact h.initial, backoff := ?_,
             counted := by rw [r3, hretx]; rfl, quiet := fun _ => ⟨r1, hretx⟩,
             elapsed := fun _ _ => by rw [r1, hsince], since := hsc, window := hwin }
    rw [r2, f2, hretx, Nat.pow_zero, Nat.mul_one, Nat.mod_eq_of_lt h.initial]

theorem TimerInv.tick {s s' : State} {ms : Nat} (h : TimerInv s)
    (hs : SenderRun.step s (.tick ms) = some s') : TimerInv s' := by
  have hlog := logInv_step h.log hs
  cases hs
  have hsince := h.since
  cases ho : s.tx.outstandingMessages with
  | nil =>
    rw [TCPSender.tick_nil ho] at hlog ⊢
    have hq := h.quiet ho
    unfold State.afterTick at hlog ⊢
    simp only [if_true] at hlog ⊢
    exact { log := hlog, initial := h.initial, backoff := h.backoff, counted := h.counted,
            quiet := fun _ => hq, elapsed := fun _ hne => absurd ho hne,
            since := by show s.since + ms ≤ s.clock + ms; omega,
            window := h.window }
  | cons m rest =>
    have ht := TCPSender.tick_spec ho ms
    generalize s.tx.tick ms = x at hlog ht ⊢
    obtain ⟨-, f2, f3, -, -, f6, -, f8, -, f10⟩ := ht.frame
    have hwin : Advertised s.last x := by
      have hp : x.synPending = s.tx.synPending := by unfold TCPSender.synPending; rw [f3]
      exact ⟨by rw [f8, f10]; exact h.window.opened,
        by rw [f8, f10, f6, hp]; exact h.window.closed⟩
    have hne : x.outstandingMessages ≠ [] := by rw [f3, ho]; exact List.cons_ne_nil _ _
    have hel : s.clock + ms < 2 ^ 64 → add64 s.tx.timeElapsed ms = s.since + ms := by
      intro hc
      rw [h.elapsed (by omega) (by rw [ho]; exact List.cons_ne_nil _ _), add64_of_lt (by omega)]
    by_cases hlt : add64 s.tx.timeElapsed ms < s.tx.retransmissionTimeout
    · obtain ⟨w1, w2, w3, w4⟩ := ht.wait hlt
      unfold State.afterTick at hlog ⊢
      simp only [w1, w4, if_true] at hlog ⊢
      exact { log := hlog, initial := by rw [f2]; exact h.initial,
              backoff := by rw [w3, f2]; exact h.backoff, counted := by rw [w4]; exact h.counted,
              quiet := fun hnil => absurd hnil hne, elapsed := fun hc _ => by rw [w2, hel hc],
              since := by show s.since + ms ≤ s.clock + ms; omega,
              window := hwin }
    · have hge := Nat.not_lt.mp hlt
      obtain ⟨r1, r2⟩ := ht.resend hge
      have hsend : x.sendMessages ≠ s.tx.sendMessages := by
        rw [r1]; exact fun he => absurd (congrArg List.length he) (by simp)
      unfold State.afterTick at hlog ⊢
      simp only [hsend, if_false] at hlog ⊢
      by_cases hb : (s.tx.receiverWindowSize ≠ 0 ∨ m.SYN = true) ∧ s.tx.freeWindow = false
      · obtain ⟨b1, b2⟩ := ht.backoff hge hb
        have hc : x.consecutiveRetransmissions ≠ s.tx.consecutiveRetransmissions := by
          rw [b2, add64_eq, h.counted]; omega
        simp only [hc, if_false] at hlog ⊢
        refine { log := hlog, initial := by rw [f2]; exact h.initial, backoff := ?_,
                 counted := ?_, quiet := fun hnil => absurd hnil hne, elapsed := fun _ _ => r2,
                 since := Nat.zero_le _, window := hwin }
        · show x.retransmissionTimeout = x.initialRTOms * 2 ^ (s.retx + 1) % 2 ^ 64
          rw [b1, f2, h.backoff, Nat.mod_mul_mod, Nat.mul_assoc, ← Nat.pow_succ]
        · show x.consecutiveRetransmissions = (s.retx + 1) % 2 ^ 64
          rw [b2, h.counted, add64_eq, Nat.mod_add_mod]
      · obtain ⟨b1, b2⟩ := ht.steady hge hb
        simp only [b2, if_true] at hlog ⊢
        exact { log := hlog, initial := by rw [f2]; exact h.initial,
                backoff := by rw [b1, f2]; exact h.backoff, counted := by rw [b2]; exact h.counted,
                quiet := fun hnil => absurd hnil hne, elapsed := fun _ _ => r2,
                since := Nat.zero_le _, window := hwin }

theorem inductive_timer : machine.Inductive TimerInv where
  init := by rintro _ ⟨isn, rto, hr, rfl⟩; exact timerInv_start isn hr
  step := by
    intro s l s' h hs
    cases l with
    | push b =>
      obtain ⟨ms, b', hp⟩ := push_cases h.log hs
      exact h.push hp
    | receive msg => exact h.receive hs
    | tick ms => exact h.tick hs
    | maybeSend =>
      have hlog := logInv_step h.log hs
      cases hs
      unfold TCPSender.maybeSend at hlog ⊢
      split at hlog
      · exact h
      · exact { h with log := hlog, window := ⟨h.window.opened, h.window.closed⟩ }

/-! ## The laws -/

/-- `resent` is the sender's state after a tick that retransmits `m`. -/
structure Counts (s : State) (m : TCPSenderMessage) (resent : TCPSender) : Prop where
  counted : m.SYN = true ∨ ¬ ZeroWindow s.last →
    resent.consecutiveRetransmissions = add64 s.tx.consecutiveRetransmissions 1
  free : ¬ (m.SYN = true ∨ ¬ ZeroWindow s.last) →
    resent.consecutiveRetransmissions = s.tx.consecutiveRetransmissions

/-- The laws of the timer in a state `s`, with the history in its ghosts. The
elapsed time is a `uint64_t`. -/
structure TimerLaws (s : State) : Prop where
  backoff : s.tx.retransmissionTimeout = s.tx.initialRTOms * 2 ^ s.retx % 2 ^ 64
  counted : s.tx.consecutiveRetransmissions = s.retx % 2 ^ 64
  quiet : s.tx.outstandingMessages = [] → s.tx.timeElapsed = 0 ∧
    s.tx.consecutiveRetransmissions = 0 ∧ s.tx.retransmissionTimeout = s.tx.initialRTOms
  elapsed : s.clock < 2 ^ 64 → s.tx.outstandingMessages ≠ [] → s.tx.timeElapsed = s.since
  resends : ∀ ms, (s.tx.tick ms).sendMessages = s.tx.sendMessages ∨
    ∃ m rest, s.tx.outstandingMessages = m :: rest ∧
      (s.tx.tick ms).sendMessages = s.tx.sendMessages ++ [m]
  counts : ∀ ms m rest, s.tx.outstandingMessages = m :: rest →
    (s.tx.tick ms).sendMessages ≠ s.tx.sendMessages → Counts s m (s.tx.tick ms)

theorem TimerInv.counts {s : State} {m : TCPSenderMessage} {rest : List TCPSenderMessage}
    {ms : Nat} (h : TimerInv s) (ho : s.tx.outstandingMessages = m :: rest)
    (hr : (s.tx.tick ms).sendMessages ≠ s.tx.sendMessages) : Counts s m (s.tx.tick ms) := by
  have ht := TCPSender.tick_spec ho ms
  have hge : s.tx.retransmissionTimeout ≤ add64 s.tx.timeElapsed ms := by
    by_contra hlt
    exact hr (ht.wait (Nat.not_le.mp hlt)).1
  have hpend : s.tx.synPending = m.SYN := by unfold TCPSender.synPending; rw [ho]
  have hb : (s.tx.receiverWindowSize ≠ 0 ∨ m.SYN = true) ∧ s.tx.freeWindow = false ↔
      m.SYN = true ∨ ¬ ZeroWindow s.last := by
    by_cases hz : ZeroWindow s.last
    · rcases h.window.closed hz with ⟨h1, h2⟩ | ⟨h1, -, h3⟩
      · simp [h1, h2, hz]
      · rw [hpend] at h3
        simp [h1, h3, hz]
    · obtain ⟨h1, h2⟩ := h.window.opened hz
      simp [h1, h2, hz]
  exact ⟨fun hc => (ht.backoff hge (hb.mpr hc)).2, fun hc => (ht.steady hge (mt hb.mp hc)).2⟩

/-- **The laws of the retransmission timer**, in every reachable state. -/
theorem timer_laws (s : State) (hr : machine.Reachable s) : TimerLaws s := by
  have h := inductive_timer.reachable s hr
  refine { backoff := h.backoff, counted := h.counted, quiet := fun hnil => ?_,
           elapsed := h.elapsed, resends := fun ms => ?_,
           counts := fun ms m rest => h.counts }
  · obtain ⟨h1, h2⟩ := h.quiet hnil
    have hb := h.backoff
    rw [h2, Nat.pow_zero, Nat.mul_one, Nat.mod_eq_of_lt h.initial] at hb
    exact ⟨h1, by rw [h.counted, h2]; rfl, hb⟩
  · cases ho : s.tx.outstandingMessages with
    | nil => exact .inl (by rw [TCPSender.tick_nil ho])
    | cons m rest =>
      have ht := TCPSender.tick_spec ho ms
      by_cases hlt : add64 s.tx.timeElapsed ms < s.tx.retransmissionTimeout
      · exact .inl (ht.wait hlt).1
      · exact .inr ⟨m, rest, rfl, (ht.resend (Nat.not_lt.mp hlt)).1⟩

/-- A probe of a closed window, resent: the retransmission is not counted. -/
theorem timer_laws_run : ∃ s, machine.Run (.start ⟨7⟩ 1000)
    [.push (.new 4), .receive ⟨some ⟨8⟩, 0⟩, .push (Writer.push (.new 4) [97]), .tick 1000] s ∧
    TimerLaws s := by
  obtain ⟨s, hs⟩ := Option.isSome_iff_exists.mp (show (LTS.exec step (.start ⟨7⟩ 1000)
    [.push (.new 4), .receive ⟨some ⟨8⟩, 0⟩, .push (Writer.push (.new 4) [97]),
      .tick 1000]).isSome = true by decide +kernel)
  exact ⟨s, LTS.run_of_exec hs,
    timer_laws s (LTS.reachable_of_exec ⟨⟨7⟩, 1000, by decide, rfl⟩ hs)⟩

/-! ## Where the timer drifts from its history -/

/-- The SYN, resent `n + 1` times: once the timeout has doubled to `2^64`, it
is 0, and every tick of length 0 resends. -/
structure Lapping (n : Nat) (s : State) : Prop where
  reach : machine.Reachable s
  out : s.tx.outstandingMessages = [{ SYN := true, seqno := ⟨7⟩ }]
  initial : s.tx.initialRTOms = 2 ^ 63
  rto : s.tx.retransmissionTimeout = 0
  elapsed : s.tx.timeElapsed = 0
  size : s.tx.receiverWindowSize = 1
  free : s.tx.freeWindow = false
  count : s.tx.consecutiveRetransmissions = (n + 1) % 2 ^ 64
  clock : s.clock = 2 ^ 63

theorem lapping_zero : ∃ s, Lapping 0 s := by
  let m : TCPSenderMessage := { SYN := true, seqno := ⟨7⟩ }
  let x : TCPSender :=
    { isn := ⟨7⟩, initialRTOms := 2 ^ 63, sendMessages := [m, m], outstandingMessages := [m],
      nextAbsSeqno := 1, sequenceNumbersInFlight := 1, consecutiveRetransmissions := 1,
      retransmissionTimeout := 0, receiverWindowSpace := 0, syn := true }
  have hx : (LTS.exec step (.start ⟨7⟩ (2 ^ 63)) [.push (.new 4), .tick (2 ^ 63)]).map
      (fun s => (s.tx, s.clock)) = some (x, 2 ^ 63) := by decide +kernel
  obtain ⟨s, hs, he⟩ := Option.map_eq_some_iff.mp hx
  simp only [Prod.mk.injEq] at he
  have hr : machine.Reachable s :=
    LTS.reachable_of_exec ⟨⟨7⟩, 2 ^ 63, by decide, rfl⟩ hs
  exact ⟨s, hr, by rw [he.1], by rw [he.1], by rw [he.1], by rw [he.1], by rw [he.1],
    by rw [he.1], by rw [he.1]; rfl, he.2⟩

theorem Lapping.succ {n : Nat} {s : State} (h : Lapping n s) : ∃ s', Lapping (n + 1) s' := by
  have hs : step s (.tick 0) = some (s.afterTick 0 (s.tx.tick 0)) := rfl
  have ht := TCPSender.tick_spec h.out 0
  have hge : s.tx.retransmissionTimeout ≤ add64 s.tx.timeElapsed 0 := by
    rw [h.rto]; exact Nat.zero_le _
  obtain ⟨-, f2, f3, -, -, -, -, f8, -, f10⟩ := ht.frame
  obtain ⟨b1, b2⟩ := ht.backoff hge ⟨.inr rfl, h.free⟩
  refine ⟨_, h.reach.snoc hs, ?_, ?_, ?_, ?_, ?_, ?_, ?_, ?_⟩
  · exact f3.trans h.out
  · exact f2.trans h.initial
  · exact b1.trans (by rw [h.rto]; rfl)
  · exact (ht.resend hge).2
  · exact f8.trans h.size
  · exact f10.trans h.free
  · exact b2.trans (by rw [h.count, add64_eq, Nat.mod_add_mod])
  · exact h.clock

theorem lapping (n : Nat) : ∃ s, Lapping n s := by
  induction n with
  | zero => exact lapping_zero
  | succ n ih =>
    obtain ⟨s, hs⟩ := ih
    exact hs.succ

/-- The elapsed time stands still while nothing is outstanding; and after
`2^64` counted retransmissions the counter is back at 0, but not the timeout. -/
theorem elapsed_and_counter_drift :
    (∃ s, machine.Reachable s ∧ s.clock < 2 ^ 64 ∧ s.tx.timeElapsed ≠ s.since) ∧
    (∃ s, machine.Reachable s ∧ s.clock < 2 ^ 64 ∧ s.tx.retransmissionTimeout ≠
      s.tx.initialRTOms * 2 ^ s.tx.consecutiveRetransmissions % 2 ^ 64) := by
  constructor
  · have hx : (LTS.exec step (.start ⟨7⟩ 1000)
        [.push (.new 4), .receive ⟨some ⟨8⟩, 1⟩, .tick 5]).map
        (fun s => (s.clock, s.tx.timeElapsed, s.since)) = some (5, 0, 5) := by decide +kernel
    obtain ⟨s, hs, he⟩ := Option.map_eq_some_iff.mp hx
    simp only [Prod.mk.injEq] at he
    exact ⟨s, LTS.reachable_of_exec ⟨⟨7⟩, 1000, by decide, rfl⟩ hs, by rw [he.1]; decide,
      by rw [he.2.1, he.2.2]; decide⟩
  · obtain ⟨s, hs⟩ := lapping (2 ^ 64 - 1)
    have h0 : s.tx.consecutiveRetransmissions = 0 := hs.count
    exact ⟨s, hs.reach, by rw [hs.clock]; decide, by rw [hs.rto, hs.initial, h0]; decide⟩

end StreamSocket.L3.SenderRun
