import StreamSocket.L3Protocol.SenderAck
import StreamSocket.L3Protocol.SenderPush

/-!
# The sender and the advertised window

The code keeps no right edge, only a window space that it pays down and
recomputes from the in-flight count. `Edge` says what the space stands for:
with `(A, W)` the last accepted acknowledgment, the log plus the space ends at
most at `A + W`, and the oldest outstanding message does not start above `A`.

Runs are restricted to acknowledgments that do not move back (`Ordered`), and
to probes of a closed window with nothing outstanding (`ProbesIdle`).

* `window_respected`: while every advertised window is open, what push creates
  ends at most at `A + W`.
* `zero_window_iff`: a window of 0 is treated as a window of 1 exactly when
  the probes find nothing outstanding. `zero_window_overrun`: else they do not.
-/
namespace StreamSocket.L3.SenderRun

open L1 L2

/-! ## The restrictions -/

/-- The accepted acknos do not decrease. -/
def Ordered (s : State) : Label → State → Prop
  | .receive msg, _ => ∀ A ∈ accepts s.tx msg, ∀ p ∈ s.last, p.1 ≤ A
  | _, _ => True

/-- The accepted acknowledgments advertise an open window. -/
def OpenWindow (s : State) : Label → State → Prop
  | .receive msg, _ => (accepts s.tx msg).isSome = true → 1 ≤ msg.windowSize.toNat
  | _, _ => True

/-- A push finds the window shut, and has something to send. -/
def Probing (x : TCPSender) (b : ByteStream) : Prop :=
  x.syn = true ∧ x.fin = false ∧ x.synPending = false ∧ x.WindowShut ∧ TCPSender.Work b

/-- A push probes a closed window only with nothing outstanding. -/
def ProbesIdle (s : State) : Label → State → Prop
  | .push b, _ => Probing s.tx b → s.tx.outstandingMessages = []
  | _, _ => True

instance (s : State) (l : Label) (s' : State) : Decidable (Ordered s l s') :=
  match l with
  | .receive msg => inferInstanceAs (Decidable (∀ A ∈ accepts s.tx msg, ∀ p ∈ s.last, p.1 ≤ A))
  | .push _ | .tick _ | .maybeSend => .isTrue trivial

instance (s : State) (l : Label) (s' : State) : Decidable (OpenWindow s l s') :=
  match l with
  | .receive msg =>
    inferInstanceAs (Decidable ((accepts s.tx msg).isSome = true → 1 ≤ msg.windowSize.toNat))
  | .push _ | .tick _ | .maybeSend => .isTrue trivial

instance (x : TCPSender) (b : ByteStream) : Decidable (Probing x b) :=
  inferInstanceAs (Decidable (_ ∧ _ ∧ _ ∧ _ ∧ (_ ∨ _)))

instance (s : State) (l : Label) (s' : State) : Decidable (ProbesIdle s l s') :=
  match l with
  | .push b => inferInstanceAs (Decidable (Probing s.tx b → s.tx.outstandingMessages = []))
  | .receive _ | .tick _ | .maybeSend => .isTrue trivial

/-! ## What the window space stands for -/

structure Edge (last : Option (Nat × UInt16)) (log : List TCPSenderMessage) (x : TCPSender) :
    Prop where
  flight : totalLength x.outstandingMessages ≤ 65537 + x.fin.toNat
  room : x.fin = true ∨ x.synPending = true ∨
    totalLength x.outstandingMessages + x.receiverWindowSpace ≤ 65537
  fresh : last = none → x.outstandingMessages = log ∧ (log = [] ∨ x.synPending = true)
  below : ∀ A W, last = some (A, W) → A ≤ totalLength log ∧
    totalLength log ≤ A + totalLength x.outstandingMessages ∧
    (x.outstandingMessages ≠ [] → A < totalLength log)
  edge : ∀ A W, last = some (A, W) → x.fin = true ∨ x.synPending = true ∨
    x.receiverWindowSpace = 0 ∨ totalLength log + x.receiverWindowSpace ≤ A + W.toNat
  zero : x.receiverWindowSize = 0 → ZeroWindow last

theorem edge_new (isn : Wrap32) (rto : Nat) :
    Edge none [] { isn := isn, initialRTOms := rto, retransmissionTimeout := rto } where
  flight := Nat.zero_le _
  room := .inr (.inr (show 0 + 1 ≤ 65537 by decide))
  fresh := fun _ => ⟨rfl, .inl rfl⟩
  below := fun _ _ h => nomatch h
  edge := fun _ _ h => nomatch h
  zero := fun h => nomatch h

/-- A segment that fits is paid for by the space. -/
theorem fits_space {x x' : TCPSender} {b b' : ByteStream} {m : TCPSenderMessage}
    (he : x.Emits b m x' b') (hs : x.syn = true)
    (hlen : m.payload.length = min (min b.stream.length x.receiverWindowSpace) maxPayloadSize)
    (hF : m.FIN = (Reader.isFinished b' && decide (m.payload.length < x.receiverWindowSpace))) :
    m.sequenceLength ≤ x.receiverWindowSpace := by
  unfold TCPSenderMessage.sequenceLength
  rw [he.SYN, hs, hF]
  by_cases hlt : m.payload.length < x.receiverWindowSpace
  · have := Bool.toNat_le
      (Reader.isFinished b' && decide (m.payload.length < x.receiverWindowSpace))
    simp only [Bool.not_true, Bool.toNat_false]
    omega
  · simp only [hlt, decide_false, Bool.and_false, Bool.not_true, Bool.toNat_false]
    omega

/-- A probe takes one sequence number. -/
theorem probing_of_emits {x x' : TCPSender} {b b' : ByteStream} {m : TCPSenderMessage}
    (he : x.Emits b m x' b') (hb : b.Inv) (hs : x.syn = true) (hshut : x.WindowShut) :
    Probing x b ∧ m.sequenceLength = 1 := by
  have hS : m.SYN = false := by rw [he.SYN, hs]; rfl
  have hf := he.unsealed hs
  cases he.branch with
  | syn h0 => rw [h0] at hs; cases hs
  | fit _ _ hsp => exact absurd hshut.2 hsp
  | probe _ hp _ hlen hF =>
    have hfits := he.fits
    refine ⟨⟨hs, hf, hp, hshut, .inl ?_⟩, ?_⟩
    · rw [hb.buffered]; omega
    · unfold TCPSenderMessage.sequenceLength
      rw [hS, hlen, hF]; rfl
  | finProbe _ hp _ hnil hF hstream =>
    refine ⟨⟨hs, hf, hp, hshut, .inr (finished_of_emits_nil he hb hs hstream)⟩, ?_⟩
    unfold TCPSenderMessage.sequenceLength
    rw [hS, hnil, hF]; rfl

theorem Edge.emits {last : Option (Nat × UInt16)} {log : List TCPSenderMessage}
    {x x' : TCPSender} {b b' : ByteStream} {m : TCPSenderMessage} (h : Edge last log x)
    (hlog : LogInv log x) (hb : b.Inv) (he : x.Emits b m x' b')
    (hidle : Probing x b → x.outstandingMessages = []) : Edge last (log ++ [m]) x' := by
  have hO : totalLength x'.outstandingMessages =
      totalLength x.outstandingMessages + m.sequenceLength := by
    rw [he.outstanding, totalLength_append, totalLength_cons, totalLength_nil, Nat.add_zero]
  have hT : totalLength (log ++ [m]) = totalLength log + m.sequenceLength := by
    rw [totalLength_append, totalLength_cons, totalLength_nil, Nat.add_zero]
  have hpos := he.pos
  -- wherever the ackno lies, a new message is above it
  have hbelow : ∀ A W, last = some (A, W) → A ≤ totalLength (log ++ [m]) ∧
      totalLength (log ++ [m]) ≤ A + totalLength x'.outstandingMessages ∧
      (x'.outstandingMessages ≠ [] → A < totalLength (log ++ [m])) := by
    intro A W hl
    obtain ⟨h1, h2, -⟩ := h.below A W hl
    rw [hO, hT]
    exact ⟨by omega, by omega, fun _ => by omega⟩
  have hfresh : x.syn = true → x.synPending = false → last = none →
      x'.outstandingMessages = log ++ [m] ∧ (log ++ [m] = [] ∨ x'.synPending = true) := by
    intro hs hp hl
    rcases (h.fresh hl).2 with h0 | h0
    · exact absurd h0 (hlog.opened.mp hs)
    · rw [hp] at h0; cases h0
  cases he.branch with
  | syn hs hnil hF hsize =>
    obtain ⟨hlognil, hout, hpend⟩ := hlog.synPending_emits he hs
    refine { flight := ?_, room := .inr (.inl hpend), fresh := fun _ => ?_, below := hbelow,
             edge := fun _ _ _ => .inr (.inl hpend), zero := by rw [hsize]; exact h.zero }
    · have hlen : m.sequenceLength ≤ 2 := by
        have := Bool.toNat_le m.SYN
        have := Bool.toNat_le m.FIN
        unfold TCPSenderMessage.sequenceLength
        rw [hnil, List.length_nil]; omega
      rw [hO, hout, totalLength_nil]; omega
    · rw [he.outstanding, hout, hlognil]
      exact ⟨rfl, .inr hpend⟩
  | fit hs hp hsp hlen hF hsize hspace =>
    have hf := he.unsealed hs
    have hfit := fits_space he hs hlen hF
    have hroom : totalLength x.outstandingMessages + x.receiverWindowSpace ≤ 65537 := by
      rcases h.room with h0 | h0 | h0
      · rw [hf] at h0; cases h0
      · rw [hp] at h0; cases h0
      · exact h0
    refine { flight := by rw [hO]; omega, room := .inr (.inr (by rw [hO, hspace]; omega)),
             fresh := hfresh hs hp, below := hbelow, edge := fun A W hl => ?_,
             zero := by rw [hsize]; exact h.zero }
    rcases h.edge A W hl with h0 | h0 | h0 | h0
    · rw [hf] at h0; cases h0
    · rw [hp] at h0; cases h0
    · exact absurd h0 hsp
    · refine .inr (.inr (.inr ?_))
      rw [hT, hspace]; omega
  | probe hs hp hshut _ _ hsize hspace =>
    obtain ⟨hprobe, hone⟩ := probing_of_emits he hb hs hshut
    have hout := hidle hprobe
    rw [hout, totalLength_nil, hone] at hO
    exact { flight := by rw [hO]; omega, room := .inr (.inr (by rw [hO, hspace]; omega)),
            fresh := hfresh hs hp, below := hbelow, edge := fun _ _ _ => .inr (.inr (.inl hspace)),
            zero := fun h0 => by rw [hsize] at h0; cases h0 }
  | finProbe hs hp hshut _ hF _ hsize hspace =>
    obtain ⟨hprobe, hone⟩ := probing_of_emits he hb hs hshut
    have hout := hidle hprobe
    rw [hout, totalLength_nil, hone] at hO
    have hfin : x'.fin = true := by rw [he.fin, hF, Bool.or_true]
    exact { flight := by rw [hO]; omega, room := .inl hfin, fresh := hfresh hs hp,
            below := hbelow, edge := fun _ _ _ => .inl hfin, zero := fun _ => h.zero hshut.1 }

/-- After one message of a push, no probe can follow. -/
theorem not_probing_of_emits {log : List TCPSenderMessage} {x x' : TCPSender} {b b' : ByteStream}
    {m : TCPSenderMessage} (hlog : LogInv log x) (he : x.Emits b m x' b') : ¬ Probing x' b' := by
  rintro ⟨-, hf, hp, hshut, -⟩
  cases he.branch with
  | syn hs =>
    rw [(hlog.synPending_emits he hs).2.2] at hp; cases hp
  | fit hs hp₀ hsp _ _ hsize =>
    rcases hlog.shut (hsize.symm.trans hshut.1) with h0 | h0 | h0
    · exact hsp h0
    · rw [hp₀] at h0; cases h0
    · rw [he.unsealed hs] at h0; cases h0
  | probe _ _ _ _ _ hsize => exact absurd hshut.1 (by rw [hsize]; decide)
  | finProbe _ _ _ _ _ _ _ hspace => exact absurd hshut.2 (by rw [hspace]; decide)

theorem Edge.run {last : Option (Nat × UInt16)} {ms : List TCPSenderMessage}
    {p p' : TCPSender × ByteStream} (hr : TCPSender.creation.Run p ms p') :
    ∀ {log : List TCPSenderMessage}, Edge last log p.1 → LogInv log p.1 → p.2.Inv →
      (Probing p.1 p.2 → p.1.outstandingMessages = []) → Edge last (log ++ ms) p'.1 := by
  induction hr with
  | nil p =>
    intro log h _ _ _
    rwa [List.append_nil]
  | @cons p p₁ p' m ms hs _ ih =>
    intro log h hlog hb hidle
    have he : p.1.Emits p.2 m p₁.1 p₁.2 := hs
    have := ih (h.emits hlog hb he hidle) (hlog.emits he) (he.inv hb)
      (fun hp => absurd hp (not_probing_of_emits hlog he))
    rwa [List.append_assoc, List.singleton_append] at this

/-! ## Acknowledgments -/

theorem oldestStart_add {log : List TCPSenderMessage} {x : TCPSender} (h : LogInv log x)
    (hT : totalLength log < 2 ^ 64) :
    oldestStart log x + totalLength x.outstandingMessages = totalLength log := by
  have hsplit := congrArg totalLength (log_split h)
  rw [totalLength_append] at hsplit
  unfold oldestStart
  rw [Nat.mod_eq_of_lt (by omega)]
  exact hsplit.symm

/-- An acknowledgment that does not move back finds the 64-bit counter exact. -/
theorem Edge.counts {s : State} (h : Edge s.last s.log s.tx) {A : Nat} (hA : A ≤ s.tx.nextAbsSeqno)
    (hlog : LogInv s.log s.tx) (hord : ∀ p ∈ s.last, p.1 ≤ A) : totalLength s.log < 2 ^ 64 := by
  have hfl := h.flight
  have hb := Bool.toNat_le s.tx.fin
  have hnext := hlog.next
  cases hl : s.last with
  | none =>
    rw [(h.fresh hl).1] at hfl
    omega
  | some p =>
    obtain ⟨A₀, W₀⟩ := p
    obtain ⟨h1, h2, -⟩ := h.below A₀ W₀ hl
    have hle : A₀ ≤ A := hord (A₀, W₀) hl
    -- had it lapped, `A` would lie near 0, and `A₀` near `2 ^ 64`
    omega

theorem Edge.accepted {s : State} {x' : TCPSender} {A k : Nat} {W : UInt16}
    (h : Edge s.last s.log s.tx) (hlog : LogInv s.log s.tx) (hv : s.tx.validAck A = true)
    (ha : s.tx.Accepted A W.toNat k x') (hord : ∀ p ∈ s.last, p.1 ≤ A) :
    Edge (some (A, W)) s.log x' := by
  have hW := W.toNat_lt
  have hA := (TCPSender.validAck_iff.mp hv).1
  have hT := h.counts hA hlog hord
  have hnext := hlog.next
  rw [Nat.mod_eq_of_lt hT] at hnext
  have hfl := h.flight
  have hfb := Bool.toNat_le s.tx.fin
  have hsplit := congrArg totalLength (List.take_append_drop k s.tx.outstandingMessages)
  rw [totalLength_append, ← ha.outstanding] at hsplit
  have hbase := oldestStart_add hlog hT
  have hO : totalLength s.tx.outstandingMessages < 2 ^ 31 := by omega
  have hn : Numbered s.tx (oldestStart s.log s.tx) := by
    rcases numbered_or_lapped hlog hO with hn | ⟨-, hlap, -⟩
    · exact hn
    · omega
  -- the oldest message that is left does not start above `A`
  have hstart : oldestStart s.log s.tx ≤ A := by
    by_cases hne : s.tx.outstandingMessages = []
    · rw [hne, totalLength_nil] at hbase
      cases hl : s.last with
      | none =>
        have hT0 : totalLength s.log = 0 := by
          rw [← (h.fresh hl).1, hne, totalLength_nil]
        omega
      | some p =>
        obtain ⟨A₀, W₀⟩ := p
        obtain ⟨-, h2, -⟩ := h.below A₀ W₀ hl
        have hle : A₀ ≤ A := hord (A₀, W₀) hl
        rw [hne, totalLength_nil] at h2
        omega
    · have hr := (validAck_iff_not_rejects hlog hO A).mp hv
      exact Nat.not_lt.mp fun hlt => hr (.inr ⟨hne, hlt⟩)
  have hrem := removed_le hn (by omega) ha hstart
  have hspace : x'.receiverWindowSpace = W.toNat - totalLength x'.outstandingMessages := by
    rw [ha.space, ha.inFlight, Nat.mod_eq_of_lt (by omega)]
  have hf : x'.fin = s.tx.fin := ha.frame.2.2.2.2.2
  refine { flight := by rw [hf]; omega, room := ?_, fresh := fun h0 => (nomatch h0),
           below := fun A' W' hl => ?_, edge := fun A' W' hl => ?_, zero := fun h0 => ?_ }
  · rw [hf, hspace]
    cases hfin : s.tx.fin with
    | true => exact .inl rfl
    | false =>
      rw [hfin] at hfl
      simp only [Bool.toNat_false, Nat.add_zero] at hfl
      exact .inr (.inr (by omega))
  · cases hl
    refine ⟨by omega, by omega, fun hne => ?_⟩
    obtain ⟨m, rest, ho⟩ := List.exists_cons_of_ne_nil hne
    have hm : s.tx.outstandingMessages[k]? = some m := by
      rw [ha.outstanding] at ho
      rw [← List.head?_drop, ho]; rfl
    have hstop := ha.stop m hm
    unfold TCPSender.Covers at hstop
    rw [ho, totalLength_cons] at hsplit
    rw [hn.decode k m hm, add64_of_lt (by omega)] at hstop
    omega
  · cases hl
    by_cases hle : W.toNat ≤ totalLength x'.outstandingMessages
    · exact .inr (.inr (.inl (by rw [hspace]; omega)))
    · exact .inr (.inr (.inr (by rw [hspace]; omega)))
  · rw [ha.size] at h0
    exact ⟨A, by rw [UInt16.toNat_inj.mp (show W.toNat = (0 : UInt16).toNat from h0)]⟩

/-! ## Runs -/

structure WindowInv (s : State) : Prop where
  log : LogInv s.log s.tx
  edge : Edge s.last s.log s.tx

theorem windowInv_start (isn : Wrap32) (rto : Nat) : WindowInv (.start isn rto) :=
  ⟨logInv_new isn rto, edge_new isn rto⟩

theorem Edge.congr {last : Option (Nat × UInt16)} {log : List TCPSenderMessage} {x x' : TCPSender}
    (h : Edge last log x) (h1 : x'.outstandingMessages = x.outstandingMessages)
    (h2 : x'.fin = x.fin) (h3 : x'.receiverWindowSize = x.receiverWindowSize)
    (h4 : x'.receiverWindowSpace = x.receiverWindowSpace) : Edge last log x' := by
  have hp : x'.synPending = x.synPending := by unfold TCPSender.synPending; rw [h1]
  exact ⟨by rw [h1, h2]; exact h.flight, by rw [h1, h2, h4, hp]; exact h.room,
    by rw [h1, hp]; exact h.fresh, by rw [h1]; exact h.below, by rw [h2, h4, hp]; exact h.edge,
    by rw [h3]; exact h.zero⟩

theorem WindowInv.step {s s' : State} {l : Label} (h : WindowInv s) (hs : machine.step s l s')
    (hord : Ordered s l s') (hidle : ProbesIdle s l s') : WindowInv s' := by
  refine ⟨logInv_step h.log hs, ?_⟩
  cases l with
  | push b =>
    obtain ⟨ms, b', hp⟩ := push_cases h.log hs
    have hlast : s'.last = s.last := by rw [hp.after]; rfl
    rw [hp.log, hlast]
    exact Edge.run hp.run h.edge h.log hp.stream hidle
  | receive msg =>
    rcases receive_cases h.log hs with ⟨-, rfl⟩ | ⟨a, k, hacc, hv, ha, he⟩
    · exact h.edge
    · have hlast : s'.last = some (s.tx.absAckno a, msg.windowSize) := by
        rw [he]; unfold State.afterReceive; rw [hacc]; rfl
      have hlog : s'.log = s.log := by rw [he]; rfl
      rw [hlast, hlog]
      exact h.edge.accepted h.log hv ha (hord _ hacc)
  | tick ms =>
    cases hs
    cases ho : s.tx.outstandingMessages with
    | nil =>
      rw [TCPSender.tick_nil ho]
      exact h.edge
    | cons m rest =>
      obtain ⟨-, -, f3, -, -, -, f7, f8, f9, -⟩ := (TCPSender.tick_spec ho ms).frame
      exact h.edge.congr f3 f7 f8 f9
  | maybeSend =>
    cases hs
    unfold TCPSender.maybeSend
    split
    · exact h.edge
    · exact h.edge.congr rfl rfl rfl rfl

/-- Without probes, a push pays for what it creates out of the space. -/
theorem paid_of_run {ms : List TCPSenderMessage} {p p' : TCPSender × ByteStream}
    (hr : TCPSender.creation.Run p ms p') : p.1.syn = true → p.1.receiverWindowSize ≠ 0 →
      totalLength ms ≤ p.1.receiverWindowSpace := by
  induction hr with
  | nil => exact fun _ _ => Nat.zero_le _
  | @cons p p₁ p' m ms he _ ih =>
    intro hs hsize
    have he : p.1.Emits p.2 m p₁.1 p₁.2 := he
    obtain ⟨-, hlen, hF, hsize₁, hspace⟩ := he.fit hs hsize
    have hfit := fits_space he hs hlen hF
    have := ih he.syn (by rw [hsize₁]; exact hsize)
    rw [totalLength_cons]
    omega

/-- The first message of a push that creates one without SYN. -/
theorem first_of_push {s s' : State} {b b' : ByteStream} {ms : List TCPSenderMessage}
    (hp : Pushes s b ms s' b') {i : Nat} {m : TCPSenderMessage} (hi : s.log.length ≤ i)
    (hm : s'.log[i]? = some m) (hS : m.SYN = false) : s.tx.syn = true ∧ s.tx.fin = false ∧
      s.tx.synPending = false ∧ ∃ m₁ ms₁ p₁, ms = m₁ :: ms₁ ∧
        s.tx.Emits b m₁ p₁.1 p₁.2 ∧ TCPSender.creation.Run p₁ ms₁ (s'.tx, b') := by
  have hget : ms[i - s.log.length]? = some m := by
    rw [hp.log, List.getElem?_append_right hi] at hm
    exact hm
  have hr := hp.run
  have ho := hp.outcome
  cases ms with
  | nil => cases hget
  | cons m₁ ms₁ =>
    cases hr with
    | cons he hr =>
      cases ho with
      | syn h0 hone =>
        -- the only message is the SYN
        have hnil : ms₁ = [] := List.length_eq_zero_iff.mp (Nat.succ.inj hone)
        subst hnil
        have hm₁ : m₁.SYN = true := by rw [he.SYN, h0]; rfl
        have := List.mem_of_getElem? hget
        rw [List.mem_singleton] at this
        rw [← this, hS] at hm₁; cases hm₁
      | idle _ _ hnil => cases hnil
      | data hs hf hpend _ => exact ⟨hs, hf, hpend, m₁, ms₁, _, rfl, he, hr⟩

/-- Where the messages of a push end. -/
theorem end_le_of_push {s s' : State} {b b' : ByteStream} {ms : List TCPSenderMessage}
    (hp : Pushes s b ms s' b') (i : Nat) :
    totalLength (s'.log.take i) ≤ totalLength s.log + totalLength ms := by
  have := totalLength_take_le s'.log i
  rwa [hp.log, totalLength_append, ← hp.log] at this

/-! ## Open windows -/

/-- Only acknowledgments that do not move back, with open windows. -/
def openRuns : LTS State Label := (machine.restrict Ordered).restrict OpenWindow

theorem open_step {s s' : State} {l : Label}
    (h : WindowInv s ∧ s.tx.receiverWindowSize ≠ 0) (hs : openRuns.step s l s') :
    WindowInv s' ∧ s'.tx.receiverWindowSize ≠ 0 := by
  obtain ⟨⟨hs, hord⟩, hopen⟩ := hs
  obtain ⟨h, hsize⟩ := h
  have hidle : ProbesIdle s l s' := by
    cases l with
    | push b => exact fun hp => absurd hp.2.2.2.1.1 hsize
    | receive _ | tick _ | maybeSend => exact trivial
  refine ⟨h.step hs hord hidle, ?_⟩
  cases l with
  | push b =>
    obtain ⟨ms, b', hp⟩ := push_cases h.log hs
    refine hp.run.keeps (P := fun p => p.1.receiverWindowSize ≠ 0) ?_ hsize
    intro p m p₁ h0 he
    cases he.branch with
    | syn _ _ _ h1 => rw [h1]; exact h0
    | fit _ _ _ _ _ h1 => rw [h1]; exact h0
    | probe _ _ h1 => exact absurd h1.1 h0
    | finProbe _ _ h1 => exact absurd h1.1 h0
  | receive msg =>
    rcases receive_cases h.log hs with ⟨-, rfl⟩ | ⟨a, k, hacc, -, ha, -⟩
    · exact hsize
    · have := hopen (by rw [hacc]; rfl)
      rw [ha.size]; omega
  | tick ms =>
    cases hs
    cases ho : s.tx.outstandingMessages with
    | nil => rw [TCPSender.tick_nil ho]; exact hsize
    | cons m rest =>
      obtain ⟨-, -, -, -, -, -, -, f8, -⟩ := (TCPSender.tick_spec ho ms).frame
      exact fun h0 => hsize (f8.symm.trans h0)
  | maybeSend =>
    cases hs
    unfold TCPSender.maybeSend
    split
    · exact hsize
    · exact hsize

/-- **The window is respected.** In every run whose accepted acknowledgments
do not move back and advertise open windows, each message without SYN that a
push creates ends at most at `A + W`, for `(A, W)` the last one accepted. -/
theorem window_respected (s : State) (hr : openRuns.Reachable s) (b : ByteStream) (s' : State)
    (hs : machine.step s (.push b) s') (i : Nat) (m : TCPSenderMessage) (hi : s.log.length ≤ i)
    (hm : s'.log[i]? = some m) (hS : m.SYN = false) :
    ∃ A W, s.last = some (A, W) ∧ totalLength (s'.log.take (i + 1)) ≤ A + W.toNat := by
  obtain ⟨h, hsize⟩ : WindowInv s ∧ s.tx.receiverWindowSize ≠ 0 :=
    LTS.Inductive.reachable (M := openRuns)
      ⟨by rintro _ ⟨isn, rto, -, rfl⟩; exact ⟨windowInv_start isn rto, Nat.one_ne_zero⟩,
        fun _ _ _ h hs => open_step h hs⟩ s hr
  obtain ⟨ms, b', hp⟩ := push_cases h.log hs
  obtain ⟨hsyn, hf, hpend, m₁, ms₁, p₁, hms, he, -⟩ := first_of_push hp hi hm hS
  have hpaid := paid_of_run hp.run hsyn hsize
  have hend := end_le_of_push hp (i + 1)
  have hpos := he.pos
  have htot : m₁.sequenceLength ≤ totalLength ms := by
    rw [hms, totalLength_cons]; omega
  cases hl : s.last with
  | none =>
    rcases (h.edge.fresh hl).2 with h0 | h0
    · exact absurd h0 (h.log.opened.mp hsyn)
    · rw [hpend] at h0; cases h0
  | some p =>
    obtain ⟨A, W⟩ := p
    refine ⟨A, W, rfl, ?_⟩
    rcases h.edge.edge A W hl with h0 | h0 | h0 | h0
    · rw [hf] at h0; cases h0
    · rw [hpend] at h0; cases h0
    · change totalLength ms ≤ s.tx.receiverWindowSpace at hpaid
      omega
    · change totalLength ms ≤ s.tx.receiverWindowSpace at hpaid
      omega

/-- The steps of `openRuns`, computed. -/
def openStep (s : State) (l : Label) : Option State :=
  (step s l).filter fun s' => decide (Ordered s l s' ∧ OpenWindow s l s')

/-- A window of 4, and six bytes. -/
theorem window_respected_run : ∃ s s', openRuns.Run (.start ⟨7⟩ 1000)
    [.push (.new 8), .receive ⟨some ⟨8⟩, 4⟩] s ∧
    machine.step s (.push (Writer.push (.new 8) [1, 2, 3, 4, 5, 6])) s' ∧
    ∃ A W, s.last = some (A, W) ∧ totalLength (s'.log.take 2) ≤ A + W.toNat := by
  have hx : ((LTS.exec openStep (.start ⟨7⟩ 1000)
      [.push (.new 8), .receive ⟨some ⟨8⟩, 4⟩]).bind fun s =>
        (step s (.push (Writer.push (.new 8) [1, 2, 3, 4, 5, 6]))).map fun s' =>
          (s.log.length, s'.log[1]?)) =
      some (1, some { seqno := ⟨8⟩, payload := [1, 2, 3, 4] }) := by decide +kernel
  obtain ⟨s, hs, he⟩ := Option.bind_eq_some_iff.mp hx
  obtain ⟨s', hs', he⟩ := Option.map_eq_some_iff.mp he
  simp only [Prod.mk.injEq] at he
  have hrun := LTS.run_of_filter (M := openRuns) (fun _ _ _ h hc => ⟨⟨h, hc.1⟩, hc.2⟩) hs
  exact ⟨s, s', hrun, hs', window_respected s ⟨_, _, ⟨⟨7⟩, 1000, by decide, rfl⟩, hrun⟩ _ s' hs' 1 _
    (by rw [he.1]) he.2 rfl⟩

/-! ## The closed window -/

/-- A push after a window of 0 at `A` ends at most at `A + 1`. -/
def ZeroAsOne (s : State) : Label → State → Prop
  | .push _, s' => ∀ A, s.last = some (A, 0) → ∀ i m, s.log.length ≤ i →
      s'.log[i]? = some m → m.SYN = false → totalLength (s'.log.take (i + 1)) ≤ A + 1
  | _, _ => True

/-- With a closed window only a probe is made. -/
theorem shut_of_emits {s : State} {A : Nat} {m : TCPSenderMessage} {x' : TCPSender}
    {b b' : ByteStream} (h : WindowInv s) (hl : s.last = some (A, 0)) (hs : s.tx.syn = true)
    (he : s.tx.Emits b m x' b') : s.tx.WindowShut := by
  cases he.branch with
  | syn h0 => rw [h0] at hs; cases hs
  | probe _ _ h0 => exact h0
  | finProbe _ _ h0 => exact h0
  | fit _ hp hsp =>
    obtain ⟨h1, -, -⟩ := h.edge.below A 0 hl
    rcases h.edge.edge A 0 hl with h0 | h0 | h0 | h0
    · rw [he.unsealed hs] at h0; cases h0
    · rw [hp] at h0; cases h0
    · exact absurd h0 hsp
    · rw [show (0 : UInt16).toNat = 0 from rfl] at h0
      omega

theorem zeroAsOne_of_idle {s s' : State} {l : Label} (h : WindowInv s) (hs : machine.step s l s')
    (hidle : ProbesIdle s l s') : ZeroAsOne s l s' := by
  cases l with
  | receive _ | tick _ | maybeSend => exact trivial
  | push b =>
    intro A hl i m hi hm hS
    obtain ⟨ms, b', hp⟩ := push_cases h.log hs
    obtain ⟨hsyn, hf, hpend, m₁, ms₁, p₁, hms, he, hr⟩ := first_of_push hp hi hm hS
    have hshut := shut_of_emits h hl hsyn he
    obtain ⟨hprobe, hone⟩ := probing_of_emits he hp.stream hsyn hshut
    have hout := hidle hprobe
    -- the probe is the only message
    have hnil : ms₁ = [] := by
      cases he.branch with
      | syn h0 => rw [h0] at hsyn; cases hsyn
      | fit _ _ h0 => exact absurd hshut.2 h0
      | probe _ _ _ _ _ hsize hspace =>
        exact (run_stuck hr he.syn hspace (by rw [hsize]; decide)).1
      | finProbe _ _ _ _ hF => exact (run_sealed hr he.syn (by rw [he.fin, hF, Bool.or_true])).1
    have hend := end_le_of_push hp (i + 1)
    obtain ⟨-, h2, -⟩ := h.edge.below A 0 hl
    rw [hout, totalLength_nil] at h2
    rw [hms, hnil, totalLength_cons, totalLength_nil, hone] at hend
    omega

theorem idle_of_zeroAsOne {s s' : State} {l : Label} (h : WindowInv s) (hs : machine.step s l s')
    (hzero : ZeroAsOne s l s') : ProbesIdle s l s' := by
  cases l with
  | receive _ | tick _ | maybeSend => exact trivial
  | push b =>
    rintro ⟨hsyn, hf, hpend, hshut, hwork⟩
    obtain ⟨ms, b', hp⟩ := push_cases h.log hs
    obtain ⟨A, hl⟩ := h.edge.zero hshut.1
    have hr := hp.run
    have ho := hp.outcome
    cases ms with
    | nil =>
      -- a push that creates nothing has nothing to send
      have hsame : s'.tx = s.tx ∧ b' = b := by
        generalize hq : ((s'.tx, b') : TCPSender × ByteStream) = q at hr
        cases hr with
        | nil =>
          simp only [Prod.mk.injEq] at hq
          exact hq
      cases ho with
      | syn h0 => rw [h0] at hsyn; cases hsyn
      | idle _ h0 =>
        rcases h0 with h0 | h0
        · rw [hf] at h0; cases h0
        · rw [hpend] at h0; cases h0
      | data _ _ _ hh =>
        have := hh fun _ => hshut.2
        rw [hsame.1, hsame.2] at this
        exact absurd hshut.1 (this hf hwork).2
    | cons m₁ ms₁ =>
      cases hr with
      | cons he _ =>
        have hS : m₁.SYN = false := by rw [he.SYN, hsyn]; rfl
        have hpos := he.pos
        have hget : s'.log[s.log.length]? = some m₁ := by
          rw [hp.log, List.getElem?_append_right (Nat.le_refl _), Nat.sub_self]; rfl
        have hend := hzero A hl s.log.length m₁ (Nat.le_refl _) hget hS
        rw [hp.log, List.take_length_add_append, totalLength_append] at hend
        simp only [List.take_succ_cons, List.take_zero, totalLength_cons, totalLength_nil] at hend
        obtain ⟨-, -, h3⟩ := h.edge.below A 0 hl
        by_contra hne
        have := h3 hne
        omega

/-- **A closed window is treated as a window of one, if probes are idle.** The
pushes of a run with acknowledgments that do not move back send at most up to
`A + 1` after a window of 0 at `A`, exactly when they probe with nothing
outstanding. -/
theorem zero_window_iff (s₀ : State) (h0 : machine.init s₀) (ls : List Label) (s : State) :
    ((machine.restrict Ordered).restrict ProbesIdle).Run s₀ ls s ↔
      ((machine.restrict Ordered).restrict ZeroAsOne).Run s₀ ls s := by
  refine LTS.run_restrict_iff (M := machine.restrict Ordered) (I := WindowInv)
    (fun s l s' h hs hidle => h.step hs.1 hs.2 hidle)
    (fun s l s' h hs => ⟨zeroAsOne_of_idle h hs.1, idle_of_zeroAsOne h hs.1⟩) ?_
  obtain ⟨isn, rto, -, rfl⟩ := h0
  exact windowInv_start isn rto

def idleStep (s : State) (l : Label) : Option State :=
  (step s l).filter fun s' => decide (Ordered s l s' ∧ ProbesIdle s l s')

/-- A probe with nothing outstanding; the second push sends nothing. -/
theorem zero_window_iff_run : ∃ s, ((machine.restrict Ordered).restrict ZeroAsOne).Run
    (.start ⟨7⟩ 1000) [.push (.new 8), .receive ⟨some ⟨8⟩, 0⟩,
      .push (Writer.push (.new 8) [1, 2]), .push (Writer.push (.new 8) [2])] s := by
  obtain ⟨s, hs⟩ := Option.isSome_iff_exists.mp (show (LTS.exec idleStep (.start ⟨7⟩ 1000)
    [.push (.new 8), .receive ⟨some ⟨8⟩, 0⟩, .push (Writer.push (.new 8) [1, 2]),
      .push (Writer.push (.new 8) [2])]).isSome = true by decide +kernel)
  exact ⟨s, (zero_window_iff _ ⟨⟨7⟩, 1000, by decide, rfl⟩ _ s).mp
    (LTS.run_of_filter (M := (machine.restrict Ordered).restrict ProbesIdle)
      (fun _ _ _ h hc => ⟨⟨h, hc.1⟩, hc.2⟩) hs)⟩

def orderedStep (s : State) (l : Label) : Option State :=
  (step s l).filter fun s' => decide (Ordered s l s')

/-- Three bytes are in flight when the window closes at 1. The push sends a
fourth, which ends at 5. -/
theorem zero_window_overrun : ∃ s s', (machine.restrict Ordered).Run (.start ⟨7⟩ 1000)
    [.push (.new 8), .receive ⟨some ⟨8⟩, 3⟩, .push (Writer.push (.new 8) [1, 2, 3]),
      .receive ⟨some ⟨8⟩, 0⟩] s ∧ s.last = some (1, 0) ∧ s.tx.synPending = false ∧
    machine.step s (.push (Writer.push (.new 8) [4])) s' ∧
    s'.log[2]? = some { seqno := ⟨11⟩, payload := [4] } ∧ totalLength (s'.log.take 3) = 5 ∧
    ¬ ZeroAsOne s (.push (Writer.push (.new 8) [4])) s' := by
  have hx : ((LTS.exec orderedStep (.start ⟨7⟩ 1000) [.push (.new 8), .receive ⟨some ⟨8⟩, 3⟩,
      .push (Writer.push (.new 8) [1, 2, 3]), .receive ⟨some ⟨8⟩, 0⟩]).bind fun s =>
        (step s (.push (Writer.push (.new 8) [4]))).map fun s' =>
          ((s.last, s.tx.synPending, s.log.length), s'.log[2]?, totalLength (s'.log.take 3))) =
      some ((some (1, 0), false, 2), some { seqno := ⟨11⟩, payload := [4] }, 5) := by
    decide +kernel
  obtain ⟨s, hs, he⟩ := Option.bind_eq_some_iff.mp hx
  obtain ⟨s', hs', he⟩ := Option.map_eq_some_iff.mp he
  simp only [Prod.mk.injEq] at he
  obtain ⟨⟨e1, e2, e3⟩, e4, e5⟩ := he
  have hrun := LTS.run_of_filter (M := machine.restrict Ordered) (fun _ _ _ h hc => ⟨h, hc⟩) hs
  refine ⟨s, s', hrun, e1, e2, hs', e4, e5, fun hz => ?_⟩
  have := hz 1 e1 2 _ (by rw [e3]) e4 rfl
  rw [e5] at this
  exact absurd this (by decide)

end StreamSocket.L3.SenderRun
