import StreamSocket.L3Protocol.SenderRun

/-!
# What one push sends

A push in an open window cuts the buffered bytes into segments: full ones, a
last one that takes what is left, and the FIN where it still fits. A push in a
shut window sends one byte, or the FIN alone.

* `Filled`: how many bytes a push sends, how they are cut, when the FIN is
  sent, and what is left.
* `filled_open`, `filled_shut`: a run of creations that ends halted has this
  form, by induction over the run.
* `push_fills_window`: so does a push, in any reachable state.
-/
namespace StreamSocket.L3.SenderRun

open L1 L2

/-- What a push that creates the messages `ms` has sent of `b`, leaving `b'`. -/
structure Filled (x : TCPSender) (b : ByteStream) (ms : List TCPSenderMessage) (x' : TCPSender)
    (b' : ByteStream) : Prop where
  total : (payloads ms).length = if x.WindowShut then min 1 (Reader.bytesBuffered b)
    else min x.receiverWindowSpace (Reader.bytesBuffered b)
  full : ∀ m ∈ ms.dropLast, m.payload.length = maxPayloadSize ∧ m.FIN = false
  last : ∀ m, ms.getLast? = some m → (1 ≤ m.payload.length ∧ m.payload.length ≤ maxPayloadSize) ∨
    (ms = [m] ∧ m.payload = [] ∧ m.FIN = true)
  FIN : (∃ m, ms.getLast? = some m ∧ m.FIN = true) ↔
    (Reader.isFinished b' = true ∧ (payloads ms).length + 1 ≤ x.receiverWindowSpace) ∨
    (Reader.bytesBuffered b = 0 ∧ Reader.isFinished b = true ∧ x.WindowShut)
  rest : x'.receiverWindowSpace = 0 ∨
    (Reader.bytesBuffered b' = 0 ∧ (Reader.isFinished b' = true → x'.fin = true))
  stops : ¬ x'.LoopTest b'

/-! ## Runs of creations -/

/-- Nothing is created after a FIN. -/
theorem run_sealed {x : TCPSender} {b : ByteStream} {ms : List TCPSenderMessage}
    {p : TCPSender × ByteStream} (hr : TCPSender.creation.Run (x, b) ms p) (hs : x.syn = true)
    (hf : x.fin = true) : ms = [] ∧ p = (x, b) := by
  cases hr with
  | nil => exact ⟨rfl, rfl⟩
  | cons he _ =>
    have hu : x.fin = false := he.unsealed hs
    rw [hf] at hu
    cases hu

/-- Nothing is created while the window is used up and not shut. -/
theorem run_stuck {x : TCPSender} {b : ByteStream} {ms : List TCPSenderMessage}
    {p : TCPSender × ByteStream} (hr : TCPSender.creation.Run (x, b) ms p) (hs : x.syn = true)
    (hsp : x.receiverWindowSpace = 0) (hsize : x.receiverWindowSize ≠ 0) :
    ms = [] ∧ p = (x, b) := by
  cases hr with
  | nil => exact ⟨rfl, rfl⟩
  | cons he _ => exact absurd hsp (TCPSender.Emits.fit he hs hsize).space

theorem run_queued {ms : List TCPSenderMessage} {p p' : TCPSender × ByteStream}
    (hr : TCPSender.creation.Run p ms p') : p'.1.sendMessages = p.1.sendMessages ++ ms := by
  induction hr with
  | nil => rw [List.append_nil]
  | cons he _ ih => rw [ih, he.queued, List.append_assoc, List.singleton_append]

/-- What is left when the window stops the push. -/
theorem rest_of_halted {x : TCPSender} {b : ByteStream} (hb : b.Inv) (h : x.Halted b)
    (hf : x.fin = true → Reader.isFinished b = true) :
    (x.receiverWindowSpace = 0 ∨
      (Reader.bytesBuffered b = 0 ∧ (Reader.isFinished b = true → x.fin = true))) ∧
    ¬ x.LoopTest b := by
  have hnil : Reader.isFinished b = true → Reader.bytesBuffered b = 0 := fun hd => by
    rw [hb.buffered, (hb.finished.mp hd).2]; rfl
  cases hfin : x.fin with
  | true =>
    have h0 := hnil (hf hfin)
    refine ⟨.inr ⟨h0, fun _ => rfl⟩, fun ht => ?_⟩
    rcases ht with ht | ht
    · exact ht.2 h0
    · exact ht.2 h0
  | false =>
    by_cases hw : TCPSender.Work b
    · obtain ⟨h1, h2⟩ := h hfin hw
      refine ⟨.inl h1, fun ht => ?_⟩
      rcases ht with ht | ht
      · exact ht.1 h1
      · exact h2 ht.1.1
    · have h0 : Reader.bytesBuffered b = 0 := by
        by_contra hne; exact hw (.inl hne)
      refine ⟨.inr ⟨h0, fun hd => absurd (.inr hd) hw⟩, fun ht => ?_⟩
      rcases ht with ht | ht
      · exact ht.2 h0
      · exact ht.2 h0

/-! ## The open window -/

/-- The messages that fill `space` with the `len` bytes buffered; `ended`: the
stream is finished behind them. -/
structure Cut (space len : Nat) (ms : List TCPSenderMessage) (ended : Bool) : Prop where
  total : (payloads ms).length = min space len
  full : ∀ m ∈ ms.dropLast, m.payload.length = maxPayloadSize ∧ m.FIN = false
  last : ∀ m, ms.getLast? = some m → (1 ≤ m.payload.length ∧ m.payload.length ≤ maxPayloadSize) ∨
    (ms = [m] ∧ m.payload = [] ∧ m.FIN = true)
  FIN : (∃ m, ms.getLast? = some m ∧ m.FIN = true) ↔
    ended = true ∧ (payloads ms).length + 1 ≤ space

theorem cut_nil {space len : Nat} {ended : Bool} (h0 : space = 0 ∨ (len = 0 ∧ ended = false)) :
    Cut space len [] ended where
  total := by
    show 0 = min space len
    omega
  full := by simp
  last := by simp
  FIN := by
    rcases h0 with h0 | h0
    · simp [h0]
    · simp [h0.2]

/-- The last segment: it takes all the bytes, or all the space. -/
theorem cut_single {space len : Nat} {m : TCPSenderMessage} {ended : Bool}
    (hshort : m.payload.length ≤ maxPayloadSize) (hpos : m.payload = [] → m.FIN = true)
    (hF : m.FIN = (ended && decide (m.payload.length < space)))
    (hall : m.payload.length = min space len) : Cut space len [m] ended where
  total := by rw [payloads_cons, payloads_nil, List.append_nil, hall]
  full := by simp
  last := by
    intro y hy
    simp only [List.getLast?_singleton, Option.some.injEq] at hy
    subst hy
    by_cases he : m.payload = []
    · exact .inr ⟨rfl, he, hpos he⟩
    · exact .inl ⟨List.length_pos_of_ne_nil he, hshort⟩
  FIN := by
    simp only [List.getLast?_singleton, Option.some.injEq, exists_eq_left', hF, payloads_cons,
      payloads_nil, List.append_nil, Bool.and_eq_true, decide_eq_true_eq, Nat.succ_le_iff]

/-- A full segment in front of more. -/
theorem Cut.cons {space len : Nat} {m m₂ : TCPSenderMessage} {ms : List TCPSenderMessage}
    {ended : Bool} (hm : m.payload.length = maxPayloadSize) (hF : m.FIN = false)
    (hs : m.payload.length < space) (hl : m.payload.length < len)
    (h : Cut (space - m.payload.length) (len - m.payload.length) (m₂ :: ms) ended) :
    Cut space len (m :: m₂ :: ms) ended := by
  have htot := h.total
  have hlen : (payloads (m :: m₂ :: ms)).length =
      m.payload.length + (payloads (m₂ :: ms)).length := by
    rw [payloads_cons, List.length_append]
  refine { total := by omega, full := ?_, last := ?_, FIN := ?_ }
  · intro y hy
    rw [List.dropLast_cons_cons, List.mem_cons] at hy
    rcases hy with rfl | hy
    · exact ⟨hm, hF⟩
    · exact h.full y hy
  · intro y hy
    rw [List.getLast?_cons_cons] at hy
    rcases h.last y hy with hy' | ⟨he, hnil, -⟩
    · exact .inl hy'
    · rw [he, payloads_cons, hnil] at htot
      simp only [payloads_nil, List.append_nil, List.length_nil] at htot
      omega
  · rw [List.getLast?_cons_cons, h.FIN, hlen]
    constructor
    · rintro ⟨h1, h2⟩; exact ⟨h1, by omega⟩
    · rintro ⟨h1, h2⟩; exact ⟨h1, by omega⟩

/-- Without bytes, only a finished stream makes a message. -/
theorem finished_of_emits_nil {x x' : TCPSender} {b b' : ByteStream} {m : TCPSenderMessage}
    (he : x.Emits b m x' b') (hb : b.Inv) (hs : x.syn = true) (hnil : b.stream = []) :
    Reader.isFinished b = true := by
  have hp : m.payload.length = 0 := by
    have := he.fits
    rw [hnil] at this; exact Nat.le_zero.mp this
  have hF : m.FIN = true := by
    have hpos := he.pos
    have hS : m.SYN = false := by rw [he.SYN, hs]; rfl
    unfold TCPSenderMessage.sequenceLength at hpos
    rw [hp, hS] at hpos
    cases hf : m.FIN with
    | true => rfl
    | false => rw [hf] at hpos; exact absurd hpos (by decide)
  have := he.finished hF
  rwa [he.popped, hp, ByteStream.pop_zero hb] at this

theorem cut_open {ms : List TCPSenderMessage} {p p' : TCPSender × ByteStream}
    (hr : TCPSender.creation.Run p ms p') : p.1.syn = true → p.1.fin = false →
      p.1.receiverWindowSize ≠ 0 → p.2.Inv → p'.1.Halted p'.2 →
      Cut p.1.receiverWindowSpace p.2.stream.length ms (Reader.isFinished p'.2) := by
  induction hr with
  | nil p =>
    intro _ hf _ hb hh
    refine cut_nil ?_
    by_cases hw : TCPSender.Work p.2
    · exact .inl (hh hf hw).1
    · refine .inr ⟨?_, Bool.eq_false_iff.mpr fun hd => hw (.inr hd)⟩
      rw [← hb.buffered]
      by_contra hne; exact hw (.inl hne)
  | @cons p p₁ p' m ms he hr ih =>
    intro hs hf hsize hb hh
    have he : p.1.Emits p.2 m p₁.1 p₁.2 := he
    have hb₁ := he.inv hb
    have hlen : p.2.stream.length = m.payload.length + p₁.2.stream.length := by
      rw [he.stream, List.length_append]
    have hseq : m.sequenceLength = m.payload.length + m.FIN.toNat := by
      unfold TCPSenderMessage.sequenceLength
      rw [he.SYN, hs]; simp
    obtain ⟨hsp, hpay, hF, hsize₁, hspace⟩ := he.fit hs hsize
    cases hfin : m.FIN with
    | true =>
      -- the FIN is the last message, and everything is read
      obtain ⟨rfl, rfl⟩ := run_sealed hr he.syn (by rw [he.fin, hfin, Bool.or_true])
      have hnil := (hb₁.finished.mp (he.finished hfin)).2
      refine cut_single he.short (fun _ => hfin) hF ?_
      have hlt : m.payload.length < p.1.receiverWindowSpace := by
        rw [hfin, eq_comm, Bool.and_eq_true, decide_eq_true_eq] at hF
        exact hF.2
      rw [hlen, hnil, List.length_nil, Nat.add_zero, Nat.min_eq_right hlt.le]
    | false =>
      rw [hfin, Bool.toNat_false, Nat.add_zero] at hseq
      have hpos : 0 < m.payload.length := hseq ▸ he.pos
      rw [hseq] at hspace
      have hfin₁ : p₁.1.fin = false := by rw [he.fin, hf, hfin]; rfl
      cases hr with
      | nil =>
        -- the push stops here, so no byte or no space is left
        refine cut_single he.short (fun hnil => ?_) hF ?_
        · rw [hnil] at hpos; cases hpos
        · by_cases hw : p₁.2.stream.length = 0
          · omega
          · have h0 := (hh hfin₁ (.inl (by rw [hb₁.buffered]; exact hw))).1
            omega
      | @cons _ p₂ _ m₂ ms he₂ hr₂ =>
        have he₂ : p₁.1.Emits p₁.2 m₂ p₂.1 p₂.2 := he₂
        have hopen₁ : p₁.1.receiverWindowSize ≠ 0 := by rwa [hsize₁]
        have hcut := ih he.syn hfin₁ hopen₁ hb₁ hh
        have hsp₁ := (he₂.fit he.syn hopen₁).space
        have hlt : m.payload.length < p.1.receiverWindowSpace := by omega
        have hne : p₁.2.stream.length ≠ 0 := by
          intro h0
          have hd := finished_of_emits_nil he₂ hb₁ he.syn (List.length_eq_zero_iff.mp h0)
          rw [hfin, hd, decide_eq_true hlt] at hF
          cases hF
        rw [hspace, show p₁.2.stream.length = p.2.stream.length - m.payload.length by omega]
          at hcut
        exact hcut.cons (by omega) hfin hlt (by omega)

theorem filled_open {x x' : TCPSender} {b b' : ByteStream} {ms : List TCPSenderMessage}
    (hr : TCPSender.creation.Run (x, b) ms (x', b')) (hs : x.syn = true) (hf : x.fin = false)
    (hsize : x.receiverWindowSize ≠ 0) (hb : b.Inv) (hb' : b'.Inv) (hh : x'.Halted b')
    (hfin : x'.fin = true → Reader.isFinished b' = true) : Filled x b ms x' b' := by
  have hc := cut_open hr hs hf hsize hb hh
  have hshut : ¬ x.WindowShut := fun h => hsize h.1
  obtain ⟨h1, h2⟩ := rest_of_halted hb' hh hfin
  refine { total := ?_, full := hc.full, last := hc.last, FIN := ?_, rest := h1, stops := h2 }
  · rw [if_neg hshut, hb.buffered]; exact hc.total
  · rw [hc.FIN]
    simp only [hshut, and_false, or_false]

/-! ## The shut window -/

theorem filled_shut {x x' : TCPSender} {b b' : ByteStream} {ms : List TCPSenderMessage}
    (hr : TCPSender.creation.Run (x, b) ms (x', b')) (hs : x.syn = true) (hf : x.fin = false)
    (hshut : x.WindowShut) (hb : b.Inv) (hb' : b'.Inv) (hh : x'.Halted b')
    (hfin : x'.fin = true → Reader.isFinished b' = true) : Filled x b ms x' b' := by
  obtain ⟨h1, h2⟩ := rest_of_halted hb' hh hfin
  have hsp : ∀ n, ¬ (n + 1 ≤ x.receiverWindowSpace) := fun n => by rw [hshut.2]; omega
  cases hr with
  | nil =>
    have hw : ¬ TCPSender.Work b := fun hw => (hh hf hw).2 hshut.1
    have h0 : Reader.bytesBuffered b = 0 := by
      by_contra hne; exact hw (.inl hne)
    have hd : ¬ Reader.isFinished b = true := fun hd => hw (.inr hd)
    refine { total := ?_, full := by simp, last := by simp, FIN := ?_, rest := h1, stops := h2 }
    · rw [if_pos hshut, h0]; rfl
    · simp [hd, hsp]
  | @cons _ p _ m ms he hr =>
    have he : x.Emits b m p.1 p.2 := he
    cases he.branch with
    | syn h0 => rw [hs] at h0; cases h0
    | fit _ _ h0 => exact absurd hshut.2 h0
    | probe _ _ _ hlen hF hsize hspace =>
      obtain ⟨rfl, -⟩ := run_stuck hr he.syn hspace (by rw [hsize]; decide)
      have hfits := he.fits
      have h0 : Reader.bytesBuffered b ≠ 0 := by rw [hb.buffered]; omega
      refine { total := ?_, full := by simp, last := ?_, FIN := ?_, rest := h1, stops := h2 }
      · rw [if_pos hshut, payloads_cons, payloads_nil, List.append_nil, hlen]
        omega
      · intro y hy
        cases hy
        exact .inl ⟨hlen.ge, he.short⟩
      · simp [hF, hsp, h0]
    | finProbe _ _ _ hnil hF hstream =>
      obtain ⟨rfl, -⟩ := run_sealed hr he.syn (by rw [he.fin, hF, Bool.or_true])
      have h0 : Reader.bytesBuffered b = 0 := by rw [hb.buffered, hstream]; rfl
      have hd := finished_of_emits_nil he hb hs hstream
      refine { total := ?_, full := by simp, last := ?_, FIN := ?_, rest := h1, stops := h2 }
      · rw [if_pos hshut, payloads_cons, payloads_nil, List.append_nil, hnil, h0]; rfl
      · intro y hy
        cases hy
        exact .inr ⟨rfl, hnil, hF⟩
      · simp [hF, hd, h0, hshut]

/-! ## A push in any reachable state -/

/-- The data loop ends on its own: more fuel than there are bytes buffered
changes nothing. -/
theorem pushLoop_fuel {x : TCPSender} {b : ByteStream} (hb : b.Inv) (hs : x.syn = true)
    (hf : x.fin = false) (hp : x.synPending = false) (hw : x.receiverWindowSpace < 2 ^ 16)
    (hbuf : Reader.bytesBuffered b ≠ 0) (fuel : Nat) (hfuel : Reader.bytesBuffered b ≤ fuel) :
    x.pushLoop fuel b = x.push b := by
  have hpush : x.push b = x.pushLoop (Reader.bytesBuffered b) b := by
    unfold TCPSender.push
    simp only [hs, hf, hp, hbuf, Bool.not_true, Bool.false_eq_true, ne_eq, not_false_eq_true,
      if_true, if_false]
  rw [hb.buffered] at hbuf hfuel hpush
  obtain ⟨x', b', ms, h, -, -⟩ := TCPSender.pushLoop_spec _ x b (Nat.le_refl _) hb
    (fun h0 => hbuf (List.length_eq_zero_iff.mpr h0)) hs hf hp hw
  rw [hpush, h _ hfuel, h _ (Nat.le_refl _)]

/-- **A push fills the window with maximal segments and stops.** Once the SYN
is acknowledged and before the FIN is sent, a push on any stream ends with a
result, whatever fuel the loop has from the number of buffered bytes on, and
the messages it creates are `Filled`. -/
theorem push_fills_window (s : State) (hr : machine.Reachable s) (hs : s.tx.syn = true)
    (hp : s.tx.synPending = false) (hf : s.tx.fin = false) (b : ByteStream) (hb : b.Inv) :
    ∃ x' b' ms, s.tx.push b = .ok (x', b') ∧
      (∀ fuel, Reader.bytesBuffered b ≠ 0 → Reader.bytesBuffered b ≤ fuel →
        s.tx.pushLoop fuel b = .ok (x', b')) ∧
      x'.sendMessages = s.tx.sendMessages ++ ms ∧
      x'.outstandingMessages = s.tx.outstandingMessages ++ ms ∧
      b.stream = payloads ms ++ b'.stream ∧ Filled s.tx b ms x' b' := by
  have hlog := inductive_log.reachable s hr
  obtain ⟨x', b', ms, h1, h2, h3, -, h5⟩ := hlog.push hb
  have hshut : s.tx.receiverWindowSize = 0 → s.tx.receiverWindowSpace = 0 := fun h0 => by
    rcases hlog.shut h0 with h | h | h
    · exact h
    · rw [hp] at h; cases h
    · rw [hf] at h; cases h
  have hh : x'.Halted b' := by
    cases h3 with
    | syn h0 => rw [hs] at h0; cases h0
    | idle _ h0 =>
      rcases h0 with h0 | h0
      · rw [hf] at h0; cases h0
      · rw [hp] at h0; cases h0
    | data _ _ _ hh => exact hh hshut
  have hfin : x'.fin = true → Reader.isFinished b' = true := fun h => by
    rcases h5.ended h with h | h
    · rw [hf] at h; cases h
    · exact h
  refine ⟨x', b', ms, h1, fun fuel h0 hfuel => ?_, run_queued h2, h5.outstanding, h5.stream, ?_⟩
  · rw [pushLoop_fuel hb hs hf hp hlog.space h0 fuel hfuel, h1]
  · by_cases hsize : s.tx.receiverWindowSize = 0
    · exact filled_shut h2 hs hf ⟨hsize, hshut hsize⟩ hb h5.inv hh hfin
    · exact filled_open h2 hs hf hsize hb h5.inv hh hfin

/-- A window of three and five bytes. -/
theorem push_fills_window_run : ∃ s, machine.Run (.start ⟨7⟩ 1000)
    [.push (.new 8), .receive ⟨some ⟨8⟩, 3⟩] s ∧ ∃ x' b' ms,
      s.tx.push (Writer.push (.new 8) [1, 2, 3, 4, 5]) = .ok (x', b') ∧
      Filled s.tx (Writer.push (.new 8) [1, 2, 3, 4, 5]) ms x' b' := by
  have hx : (LTS.exec step (.start ⟨7⟩ 1000) [.push (.new 8), .receive ⟨some ⟨8⟩, 3⟩]).map
      (fun s => (s.tx.syn, s.tx.synPending, s.tx.fin)) = some (true, false, false) := by
    decide +kernel
  obtain ⟨s, hs, he⟩ := Option.map_eq_some_iff.mp hx
  simp only [Prod.mk.injEq] at he
  have hr : machine.Reachable s := LTS.reachable_of_exec ⟨⟨7⟩, 1000, by decide, rfl⟩ hs
  obtain ⟨x', b', ms, h1, -, -, -, -, h2⟩ := push_fills_window s hr he.1 he.2.1 he.2.2 _
    (ByteStream.inv_push (ByteStream.inv_new 8 (by decide)) [1, 2, 3, 4, 5])
  exact ⟨s, LTS.run_of_exec hs, x', b', ms, h1, h2⟩

end StreamSocket.L3.SenderRun
