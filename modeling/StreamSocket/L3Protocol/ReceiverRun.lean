import StreamSocket.Core.LTS
import StreamSocket.L2Machine.TcpReceiver

/-!
# Runs of the TCPReceiver: the window never moves back

One `TCPReceiver`, its `Reassembler` and its inbound `ByteStream` take
arbitrary segments; the application pops at most what is buffered. A segment
step needs the positions below `2^62`.

* `Inv.advances`: once SYN is received, from each state to the next neither
  the absolute ackno nor the right edge `ackno + window` decreases.
* `Inv.promise`: while the stream is open, the bytes of a non-SYN segment that
  lie in the window reported just before are held afterwards.
* `window_never_moves_back`: both, in every reachable state.
-/
namespace StreamSocket.L3.ReceiverRun

open L1 L2 FirstWins

structure State where
  t : TCPReceiver
  r : Reassembler
  inbound : ByteStream
  deriving DecidableEq, Repr

inductive Label where
  | segment (m : TCPSenderMessage)
  | pop (len : Nat)
  deriving DecidableEq, Repr

def State.start (capacity : Nat) : State := { t := {}, r := {}, inbound := .new capacity }

def step (s : State) : Label → Option State
  | .segment m =>
    if Writer.bytesPushed s.inbound < 2 ^ 62 ∧ m.payload.length < 2 ^ 62 then
      (s.t.receive m s.r s.inbound).map fun (t, r, inbound) => ⟨t, r, inbound⟩
    else none
  | .pop len =>
    if len ≤ Reader.bytesBuffered s.inbound then
      some { s with inbound := Reader.pop s.inbound len }
    else none

def machine : LTS State Label :=
  LTS.ofFn (fun s => ∃ c, c < 2 ^ 62 ∧ s = State.start c) step

/-- The absolute ackno that `send` wraps. -/
def State.ackno (s : State) : Nat := s.t.lastAckAbsSeqno s.inbound

/-- The window that `send` reports. -/
def State.window (s : State) : Nat := (s.t.send s.inbound).windowSize.toNat

/-- The receiver holds stream index `k`: pushed, or pending. -/
def State.Holds (s : State) (k : Nat) : Prop :=
  k < Writer.bytesPushed s.inbound ∨ s.r.flag[k - s.r.baseIndex]? = some true

/-! ## The invariant -/

structure Inv (s : State) : Prop where
  inv : s.r.Inv s.inbound
  cap : s.inbound.capacity < 2 ^ 62
  pushed : Writer.bytesPushed s.inbound < 2 ^ 63

theorem inv_start {c : Nat} (hc : c < 2 ^ 62) : Inv (.start c) where
  inv := Reassembler.inv_new c (by omega)
  cap := hc
  pushed := by simp [State.start, ByteStream.new, Writer.bytesPushed]

theorem Inv.window {s : State} (h : Inv s) :
    s.window = min (s.inbound.capacity - s.inbound.stream.length) 65535 :=
  TCPReceiver.send_window h.inv.out

theorem Inv.ackno {s : State} (h : Inv s) :
    s.ackno = Writer.bytesPushed s.inbound + 1 + (s.t.fin && s.inbound.close).toNat :=
  TCPReceiver.lastAckAbsSeqno_eq h.pushed

/-- The kinds of step: a segment that stores nothing, one that is inserted,
a pop. -/
theorem Inv.step_cases {s s' : State} {l : Label} (h : Inv s) (hs : step s l = some s') :
    (∃ m t', l = .segment m ∧ (t' = s.t ∨ t' = s.t.recordSyn m) ∧
      (s.t.syn = true → ¬ s.t.Overlaps m s.inbound) ∧ s' = ⟨t', s.r, s.inbound⟩) ∨
    (∃ m tmp r' inbound', l = .segment m ∧ Writer.bytesPushed s.inbound < 2 ^ 62 ∧
      Reassembler.Inserted s.r s.inbound
        (TCPReceiver.streamIndex ((s.t.recordSyn m).absSeqno m s.inbound)) m.payload
        ((s.t.recordSyn m).recordFin m).fin tmp r' inbound' ∧
      s' = ⟨(s.t.recordSyn m).recordFin m, r', inbound'⟩) ∨
    (∃ len, l = .pop len ∧ len ≤ s.inbound.stream.length ∧
      s' = { s with inbound := Reader.pop s.inbound len }) := by
  cases l with
  | segment m =>
    simp only [step] at hs
    split at hs
    · rename_i hb
      have hcap : s.inbound.capacity < 2 ^ 63 := by have := h.cap; omega
      rcases TCPReceiver.receive_cases h.inv m fun ho => ho.fits_of_pushed h.inv hcap hb.1 hb.2 with
        ⟨h1, -, h3⟩ | ⟨h1, h2, h3⟩ | ⟨h1, h2, tmp, r', inbound', h3, h4⟩
      all_goals rw [h3] at hs; cases hs
      · exact .inl ⟨m, _, rfl, .inl rfl, fun hsyn => absurd (h1 ▸ hsyn) (by simp), rfl⟩
      · refine .inl ⟨m, _, rfl, .inr rfl, fun hsyn => ?_, rfl⟩
        rwa [TCPReceiver.recordSyn_of_syn hsyn] at h2
      · exact .inr (.inl ⟨m, tmp, r', inbound', rfl, hb.1, h4, rfl⟩)
    · cases hs
  | pop len =>
    simp only [step, h.inv.out.buffered] at hs
    split at hs
    · rename_i hl
      cases hs
      exact .inr (.inr ⟨len, rfl, hl, rfl⟩)
    · cases hs

theorem Inv.step {s s' : State} {l : Label} (h : Inv s) (hs : ReceiverRun.step s l = some s') :
    Inv s' := by
  rcases h.step_cases hs with ⟨m, t', -, -, -, rfl⟩ | ⟨m, tmp, r', inbound', -, hb, hi, rfl⟩ |
      ⟨len, -, hl, rfl⟩
  · exact ⟨h.inv, h.cap, h.pushed⟩
  · refine ⟨hi.inv, hi.cap ▸ h.cap, ?_⟩
    have h1 : Writer.bytesPushed inbound' = r'.baseIndex := hi.inv.base.symm
    have h2 : Writer.bytesPushed s.inbound = s.r.baseIndex := h.inv.base.symm
    have := hi.base
    have := hi.fits
    have := h.cap
    show Writer.bytesPushed inbound' < 2 ^ 63
    omega
  · exact ⟨h.inv.pop len, by rw [ByteStream.pop_eq hl]; exact h.cap,
      by rw [ByteStream.pop_eq hl]; exact h.pushed⟩

theorem inductive_inv : machine.Inductive Inv where
  init := by rintro _ ⟨c, hc, rfl⟩; exact inv_start hc
  step := fun _ _ _ h hs => h.step hs

/-! ## The window -/

/-- What the receiver announces in `s'` does not fall behind `s`. -/
structure Advances (s s' : State) : Prop where
  reported : (s.t.send s.inbound).ackno = some (Wrap32.wrap s.ackno s.t.isn)
  syn : s'.t.syn = true
  isn : s'.t.isn = s.t.isn
  ackno : s.ackno ≤ s'.ackno
  edge : s.ackno + s.window ≤ s'.ackno + s'.window

theorem Inv.advances {s s' : State} {l : Label} (h : Inv s) (hs : ReceiverRun.step s l = some s')
    (hsyn : s.t.syn = true) : Advances s s' := by
  have h' := h.step hs
  have hrep : (s.t.send s.inbound).ackno = some (Wrap32.wrap s.ackno s.t.isn) := by
    simp only [TCPReceiver.send, hsyn, if_true, State.ackno]
  rcases h.step_cases hs with ⟨m, t', -, ht, -, rfl⟩ | ⟨m, tmp, r', inbound', -, hb, hi, rfl⟩ |
      ⟨len, -, hl, rfl⟩
  · have ht' : t' = s.t := by
      rcases ht with ht | ht
      · exact ht
      · rw [ht, TCPReceiver.recordSyn_of_syn hsyn]
    subst ht'
    exact ⟨hrep, hsyn, rfl, Nat.le_refl _, Nat.le_refl _⟩
  · have hfin : (s.t.fin && s.inbound.close).toNat ≤
        (((s.t.recordSyn m).recordFin m).fin && inbound'.close).toNat := by
      rw [hi.close, TCPReceiver.recordFin_fin, TCPReceiver.recordSyn_fin]
      cases s.t.fin <;> cases s.inbound.close <;> simp
    have h1 : Writer.bytesPushed inbound' = r'.baseIndex := hi.inv.base.symm
    have h2 : Writer.bytesPushed s.inbound = s.r.baseIndex := h.inv.base.symm
    have h3 := hi.base
    have h4 := hi.fits
    have h5 : inbound'.stream.length = s.inbound.stream.length + tmp.length := by
      rw [hi.stream, List.length_append]
    have h6 := hi.cap
    refine ⟨hrep, ?_, ?_, ?_, ?_⟩
    · simp only [TCPReceiver.recordFin_syn, TCPReceiver.recordSyn_of_syn hsyn, hsyn]
    · simp only [TCPReceiver.recordFin_isn, TCPReceiver.recordSyn_of_syn hsyn]
    all_goals simp only [h.ackno, h'.ackno, h.window, h'.window]
    · omega
    · omega
  · have h1 : Writer.bytesPushed (Reader.pop s.inbound len) = Writer.bytesPushed s.inbound := by
      rw [ByteStream.pop_eq hl]; rfl
    have h2 : (Reader.pop s.inbound len).close = s.inbound.close := by rw [ByteStream.pop_eq hl]
    have h3 : (Reader.pop s.inbound len).capacity = s.inbound.capacity := by
      rw [ByteStream.pop_eq hl]
    have h4 : (Reader.pop s.inbound len).stream.length = s.inbound.stream.length - len := by
      rw [ByteStream.pop_eq hl]; simp
    refine ⟨hrep, hsyn, rfl, ?_, ?_⟩
    all_goals simp only [h.ackno, h'.ackno, h.window, h'.window, h1, h2, h3, h4]
    · exact Nat.le_refl _
    · omega

/-! ## The promise -/

/-- While the stream is open, what the reported window covers passes the
window test and is inserted. -/
theorem Inv.promise {s s' : State} {m : TCPSenderMessage} (h : Inv s)
    (hs : ReceiverRun.step s (.segment m) = some s') (hsyn : s.t.syn = true)
    (hopen : s.inbound.close = false) (hm : m.SYN = false)
    (ha : 1 ≤ s.t.absSeqno m s.inbound) {j : Nat} (hj : j < m.payload.length)
    (hlo : s.ackno ≤ s.t.absSeqno m s.inbound + j)
    (hhi : s.t.absSeqno m s.inbound + j < s.ackno + s.window) :
    s'.Holds (s.t.absSeqno m s.inbound + j - 1) := by
  have hb : s.r.baseIndex = Writer.bytesPushed s.inbound := h.inv.base
  rw [h.window] at hhi
  have hack := h.ackno
  rw [hopen, Bool.and_false, Bool.toNat_false, Nat.add_zero] at hack
  rcases h.step_cases hs with ⟨_, t', hl, -, hno, -⟩ | ⟨_, tmp, r', inbound', hl, hp, hi, rfl⟩ |
      ⟨_, hl, -⟩
  · -- the segment would have passed the window test
    cases hl
    refine absurd ?_ (hno hsyn)
    have hu := Wrap32.unwrap_lt_add m.seqno s.t.isn (Writer.bytesPushed s.inbound)
      (by have := h.pushed; omega)
    have hcap := h.cap
    have hp := h.pushed
    have hlen : m.sequenceLength = m.payload.length + m.FIN.toNat := by
      simp [TCPSenderMessage.sequenceLength, hm]
    have hlt : m.payload.length < 2 ^ 62 := by
      simp only [ReceiverRun.step] at hs
      split at hs
      · rename_i hb; exact hb.2
      · cases hs
    have hfin := Bool.toNat_le m.FIN
    unfold TCPReceiver.Overlaps
    change _ < add64 s.ackno _ ∧ _ > s.ackno
    unfold TCPReceiver.absSeqno at *
    rw [h.inv.out.available, add64_of_lt (by omega), add64_of_lt (by omega)]
    omega
  · cases hl
    rw [TCPReceiver.recordSyn_of_syn hsyn] at hi
    have hidx : TCPReceiver.streamIndex (s.t.absSeqno m s.inbound) =
        s.t.absSeqno m s.inbound - 1 := by
      unfold TCPReceiver.streamIndex; rw [if_pos ha]
    rw [hidx] at hi
    have hb' : Writer.bytesPushed inbound' = r'.baseIndex := hi.inv.base.symm
    show s.t.absSeqno m s.inbound + j - 1 < Writer.bytesPushed inbound' ∨
      r'.flag[s.t.absSeqno m s.inbound + j - 1 - r'.baseIndex]? = some true
    rw [hb', hi.flag_iff h.inv.sized.len]
    omega
  · cases hl

/-- **The window never moves back, and its promise is kept.** Once SYN is
received, a step decreases neither the absolute ackno nor the right edge; and
while the stream is open, each byte of a non-SYN segment that lies in the
window reported just before is pushed or pending afterwards. -/
theorem window_never_moves_back (s : State) (hr : machine.Reachable s) (l : Label) (s' : State)
    (hs : machine.step s l s') (hsyn : s.t.syn = true) :
    Advances s s' ∧ ∀ m, l = .segment m → s.inbound.close = false → m.SYN = false →
      1 ≤ s.t.absSeqno m s.inbound → ∀ j, j < m.payload.length →
      s.ackno ≤ s.t.absSeqno m s.inbound + j →
      s.t.absSeqno m s.inbound + j < s.ackno + s.window →
      s'.Holds (s.t.absSeqno m s.inbound + j - 1) := by
  have hi := inductive_inv.reachable s hr
  refine ⟨hi.advances hs hsyn, fun m hl hopen hm ha j hj hlo hhi => ?_⟩
  subst hl
  exact hi.promise hs hsyn hopen hm ha hj hlo hhi

/-- A segment ahead of a hole, after the SYN: both its bytes are held. -/
theorem window_never_moves_back_run : ∃ s s',
    machine.Run (.start 4) [.segment { seqno := ⟨7⟩, SYN := true }] s ∧
    machine.step s (.segment { seqno := ⟨9⟩, payload := [98, 99] }) s' ∧ Advances s s' ∧
      s'.Holds 1 ∧ s'.Holds 2 := by
  let s : State := ⟨{ syn := true, isn := ⟨7⟩ }, {}, .new 4⟩
  have h1 : step (.start 4) (.segment { seqno := ⟨7⟩, SYN := true }) = some s := by
    decide +kernel
  obtain ⟨s', h2⟩ := Option.isSome_iff_exists.mp
    (show (step s (.segment { seqno := ⟨9⟩, payload := [98, 99] })).isSome = true by
      decide +kernel)
  have ha : s.t.absSeqno { seqno := ⟨9⟩, payload := [98, 99] } s.inbound = 2 := by decide +kernel
  have hk : s.ackno = 1 ∧ s.window = 4 := by decide +kernel
  have hrun := LTS.Run.cons (M := machine) h1 (.nil s)
  obtain ⟨hadv, hprom⟩ := window_never_moves_back s ⟨_, _, ⟨4, by decide, rfl⟩, hrun⟩ _ s' h2 rfl
  have hp := hprom _ rfl rfl rfl (by rw [ha]; decide)
  rw [ha, hk.1, hk.2] at hp
  exact ⟨s, s', hrun, h2, hadv, hp 0 (by decide) (by decide) (by decide),
    hp 1 (by decide) (by decide) (by decide)⟩

end StreamSocket.L3.ReceiverRun
