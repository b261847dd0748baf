import StreamSocket.L2Machine.TcpSender

/-!
# The sender's log: every message `push` has created

`LogInv log x` couples a sender `x` to the list of all messages it has
created, in order: sequence numbers count the log, the outstanding messages
are its last ones, and what waits for transmission is in it. It is kept by
the creation of a message (`LogInv.emits`, so by a whole push), by any
acknowledgment and by any tick; the other sender modules start from it.

`machine` is a sender on one outbound stream that only it reads and that is
not written after `close`. Four ghosts record the log, the bytes popped, the
bytes the Writer accepted, and the messages `maybe_send` returned.

* `log_invariant`: in every reachable state the log is well formed, its
  payloads are the bytes popped, and whatever is sent is in it unchanged.
-/
namespace StreamSocket.L3

open L1 L2

/-! ## The coupling of a sender to its log -/

structure LogInv (log : List TCPSenderMessage) (x : TCPSender) : Prop where
  next : x.nextAbsSeqno = totalLength log % 2 ^ 64
  inFlight : x.sequenceNumbersInFlight = totalLength x.outstandingMessages % 2 ^ 64
  suffix : x.outstandingMessages <:+ log
  queued : ∀ m ∈ x.sendMessages, m ∈ log
  numbered : ∀ i m, log[i]? = some m → m.seqno = Wrap32.wrap (totalLength (log.take i)) x.isn
  SYN : ∀ i m, log[i]? = some m → (m.SYN = true ↔ i = 0)
  opened : x.syn = true ↔ log ≠ []
  FIN : ∀ i m, log[i]? = some m → m.FIN = true → i + 1 = log.length
  sealed : x.fin = true ↔ ∃ m ∈ log, m.FIN = true
  pos : ∀ m ∈ log, 0 < m.sequenceLength
  short : ∀ m ∈ log, m.payload.length ≤ maxPayloadSize
  space : x.receiverWindowSpace < 2 ^ 16
  shut : x.receiverWindowSize = 0 →
    x.receiverWindowSpace = 0 ∨ x.synPending = true ∨ x.fin = true

theorem logInv_new (isn : Wrap32) (rto : Nat) :
    LogInv [] { isn := isn, initialRTOms := rto, retransmissionTimeout := rto } where
  next := rfl
  inFlight := rfl
  suffix := List.suffix_refl _
  queued := by simp
  numbered := by simp
  SYN := by simp
  opened := by simp
  FIN := by simp
  sealed := by simp
  pos := by simp
  short := by simp
  space := show 1 < 2 ^ 16 by decide
  shut := by simp

theorem getElem?_snoc {α : Type} {l : List α} {a x : α} {i : Nat} :
    (l ++ [a])[i]? = some x ↔ l[i]? = some x ∨ (i = l.length ∧ x = a) := by
  rcases Nat.lt_trichotomy i l.length with hi | hi | hi
  · rw [List.getElem?_append_left hi]; simp; omega
  · subst hi; simp [eq_comm]
  · have hn : l[i]? = none := List.getElem?_eq_none (by omega)
    have hn' : (l ++ [a])[i]? = none := List.getElem?_eq_none (by simp; omega)
    rw [hn, hn']; simp; omega

theorem LogInv.eq_nil {log : List TCPSenderMessage} {x : TCPSender} (h : LogInv log x)
    (hs : x.syn = false) : log = [] := by
  by_contra hne
  rw [h.opened.mpr hne] at hs
  cases hs

/-- Nothing is created behind a FIN. -/
theorem LogInv.unsealed {log : List TCPSenderMessage} {x x' : TCPSender} {b b' : ByteStream}
    {m : TCPSenderMessage} (h : LogInv log x) (he : x.Emits b m x' b') :
    ∀ y ∈ log, y.FIN = false := by
  intro y hy
  have hf := he.unsealed (h.opened.mpr (List.ne_nil_of_mem hy))
  cases hyf : y.FIN with
  | false => rfl
  | true => rw [h.sealed.mpr ⟨y, hy, hyf⟩] at hf; cases hf

/-- The SYN is the first message, and pending once it is made. -/
theorem LogInv.synPending_emits {log : List TCPSenderMessage} {x x' : TCPSender}
    {b b' : ByteStream} {m : TCPSenderMessage} (h : LogInv log x) (he : x.Emits b m x' b')
    (hs : x.syn = false) :
    log = [] ∧ x.outstandingMessages = [] ∧ x'.synPending = true := by
  have hnil := h.eq_nil hs
  have hout : x.outstandingMessages = [] := by
    have := h.suffix
    rw [hnil] at this
    exact List.suffix_nil.mp this
  refine ⟨hnil, hout, ?_⟩
  unfold TCPSender.synPending
  rw [he.outstanding, hout]
  exact he.SYN.trans (by rw [hs]; rfl)

/-- A new message that leaves no window is the SYN, or there was none before. -/
theorem LogInv.shut_emits {log : List TCPSenderMessage} {x x' : TCPSender} {b b' : ByteStream}
    {m : TCPSenderMessage} (h : LogInv log x) (he : x.Emits b m x' b')
    (hz : x'.receiverWindowSize = 0) :
    x'.receiverWindowSpace = 0 ∨ x'.synPending = true ∨ x'.fin = true := by
  cases he.branch with
  | syn hs => exact .inr (.inl (h.synPending_emits he hs).2.2)
  | fit hs hp hsp _ _ hsize =>
    rw [hsize] at hz
    rcases h.shut hz with h0 | h0 | h0
    · exact absurd h0 hsp
    · rw [h0] at hp; cases hp
    · rw [he.unsealed hs] at h0; cases h0
  | probe _ _ _ _ _ hsize => rw [hsize] at hz; cases hz
  | finProbe _ _ _ _ hF => exact .inr (.inr (by rw [he.fin, hF, Bool.or_true]))

/-- Creating one message appends it to the log. -/
theorem LogInv.emits {log : List TCPSenderMessage} {x x' : TCPSender} {b b' : ByteStream}
    {m : TCPSenderMessage} (h : LogInv log x) (he : x.Emits b m x' b') :
    LogInv (log ++ [m]) x' := by
  have hsyn : m.SYN = true ↔ log = [] := by
    rw [he.SYN]
    cases hs : x.syn with
    | false => simp [h.eq_nil hs]
    | true => simp [h.opened.mp hs]
  have hadd : ∀ a b : Nat, add64 (a % 2 ^ 64) b = (a + b) % 2 ^ 64 := fun a b => addW_mod 64 a b
  refine { next := ?_, inFlight := ?_, suffix := ?_, queued := ?_, numbered := ?_, SYN := ?_,
           opened := ?_, FIN := ?_, sealed := ?_, pos := ?_, short := ?_,
           space := he.space_lt h.space, shut := h.shut_emits he }
  · rw [he.next, h.next, hadd, totalLength_append, totalLength_cons, totalLength_nil,
      Nat.add_zero]
  · rw [he.inFlight, h.inFlight, hadd, he.outstanding, totalLength_append, totalLength_cons,
      totalLength_nil, Nat.add_zero]
  · obtain ⟨acked, hacked⟩ := h.suffix
    exact ⟨acked, by rw [he.outstanding, ← hacked, List.append_assoc]⟩
  · intro y hy
    rw [he.queued, List.mem_append] at hy
    rcases hy with hy | hy
    · exact List.mem_append_left _ (h.queued y hy)
    · exact List.mem_append_right _ hy
  · intro i y hy
    rw [he.isn]
    rcases getElem?_snoc.mp hy with hy | ⟨hi, rfl⟩
    · have hlt := (List.getElem?_eq_some_iff.mp hy).1
      rw [List.take_append_of_le_length (by omega)]
      exact h.numbered i y hy
    · rw [hi, List.take_left' rfl, he.seqno, h.next, Wrap32.wrap_mod]
  · intro i y hy
    rcases getElem?_snoc.mp hy with hy | ⟨hi, rfl⟩
    · exact h.SYN i y hy
    · rw [hsyn, hi, List.length_eq_zero_iff]
  · simp [he.syn]
  · intro i y hy hf
    rcases getElem?_snoc.mp hy with hy | ⟨hi, rfl⟩
    · rw [h.unsealed he y (List.mem_of_getElem? hy)] at hf; cases hf
    · simp [hi]
  · rw [he.fin, Bool.or_eq_true, h.sealed]
    simp only [List.mem_append, List.mem_singleton]
    constructor
    · rintro (⟨y, hy, hf⟩ | hf)
      · exact ⟨y, .inl hy, hf⟩
      · exact ⟨m, .inr rfl, hf⟩
    · rintro ⟨y, hy | rfl, hf⟩
      · exact .inl ⟨y, hy, hf⟩
      · exact .inr hf
  · intro y hy
    rcases List.mem_append.mp hy with hy | hy
    · exact h.pos y hy
    · rw [List.mem_singleton.mp hy]; exact he.pos
  · intro y hy
    rcases List.mem_append.mp hy with hy | hy
    · exact h.short y hy
    · rw [List.mem_singleton.mp hy]; exact he.short

/-- An accepted acknowledgment leaves a shorter suffix outstanding. -/
theorem LogInv.accepted {log : List TCPSenderMessage} {x x' : TCPSender} {A k : Nat} {W : UInt16}
    (h : LogInv log x) (ha : x.Accepted A W.toNat k x') : LogInv log x' := by
  obtain ⟨h1, -, h3, h4, h5, h6⟩ := ha.frame
  refine { next := by rw [h4]; exact h.next, inFlight := ha.inFlight, suffix := ?_,
           queued := by rw [h3]; exact h.queued, numbered := by rw [h1]; exact h.numbered,
           SYN := h.SYN, opened := by rw [h5]; exact h.opened, FIN := h.FIN,
           sealed := by rw [h6]; exact h.sealed, pos := h.pos, short := h.short, space := ?_,
           shut := ?_ }
  · rw [ha.outstanding]
    exact (List.drop_suffix _ _).trans h.suffix
  · have := W.toNat_lt
    rw [ha.space]; omega
  · intro hz
    rw [ha.size] at hz
    rw [ha.space, hz, Nat.zero_sub]
    exact .inl rfl

theorem LogInv.receive {log : List TCPSenderMessage} {x : TCPSender} (h : LogInv log x)
    (msg : TCPReceiverMessage) : LogInv log (x.receive msg) := by
  rcases TCPSender.receive_spec h.inFlight msg with ⟨-, he⟩ | ⟨a, k, -, -, -, ha⟩
  · rw [he]; exact h
  · exact h.accepted ha

theorem LogInv.tick {log : List TCPSenderMessage} {x : TCPSender} (h : LogInv log x) (ms : Nat) :
    LogInv log (x.tick ms) := by
  cases ho : x.outstandingMessages with
  | nil => rw [TCPSender.tick_nil ho]; exact h
  | cons m rest =>
    have ht := TCPSender.tick_spec ho ms
    obtain ⟨h1, -, h3, h4, h5, h6, h7, h8, h9, -⟩ := ht.frame
    have hq : ∀ y ∈ (x.tick ms).sendMessages, y ∈ log := by
      intro y hy
      have hm : m ∈ log := h.suffix.subset (by rw [ho]; exact List.mem_cons_self ..)
      by_cases hlt : add64 x.timeElapsed ms < x.retransmissionTimeout
      · rw [(ht.wait hlt).1] at hy; exact h.queued y hy
      · rw [(ht.resend (Nat.not_lt.mp hlt)).1, List.mem_append] at hy
        rcases hy with hy | hy
        · exact h.queued y hy
        · rw [List.mem_singleton.mp hy]; exact hm
    have hpend : (x.tick ms).synPending = x.synPending := by
      unfold TCPSender.synPending; rw [h3]
    exact { next := by rw [h4]; exact h.next, inFlight := by rw [h5, h3]; exact h.inFlight,
            suffix := by rw [h3]; exact h.suffix, queued := hq,
            numbered := by rw [h1]; exact h.numbered, SYN := h.SYN,
            opened := by rw [h6]; exact h.opened, FIN := h.FIN,
            sealed := by rw [h7]; exact h.sealed, pos := h.pos, short := h.short,
            space := by rw [h9]; exact h.space,
            shut := by rw [h8, h9, h7, hpend]; exact h.shut }

theorem LogInv.maybeSend {log : List TCPSenderMessage} {x : TCPSender} (h : LogInv log x) :
    LogInv log x.maybeSend.1 ∧ ∀ m, x.maybeSend.2 = some m → m ∈ log := by
  unfold TCPSender.maybeSend
  cases hq : x.sendMessages with
  | nil => exact ⟨h, fun m hm => by cases hm⟩
  | cons m ms =>
    have hsub : ∀ y ∈ m :: ms, y ∈ log := by rw [← hq]; exact h.queued
    refine ⟨{ h with queued := fun y hy => hsub y (List.mem_cons_of_mem _ hy) }, fun y hy => ?_⟩
    cases hy
    exact hsub m (List.mem_cons_self ..)

theorem receive_isn {log : List TCPSenderMessage} {x : TCPSender} (h : LogInv log x)
    (msg : TCPReceiverMessage) : (x.receive msg).isn = x.isn := by
  rcases TCPSender.receive_spec h.inFlight msg with ⟨-, he⟩ | ⟨a, k, -, -, -, ha⟩
  · rw [he]
  · exact ha.frame.1

theorem tick_isn (x : TCPSender) (ms : Nat) : (x.tick ms).isn = x.isn := by
  cases ho : x.outstandingMessages with
  | nil => rw [TCPSender.tick_nil ho]
  | cons m rest => exact (TCPSender.tick_spec ho ms).frame.1

theorem maybeSend_isn (x : TCPSender) : x.maybeSend.1.isn = x.isn := by
  unfold TCPSender.maybeSend
  split <;> rfl

/-! ## A whole push -/

def payloads (ms : List TCPSenderMessage) : Bytes := (ms.map (·.payload)).flatten

@[simp] theorem payloads_nil : payloads [] = [] := rfl

@[simp] theorem payloads_cons (m : TCPSenderMessage) (ms : List TCPSenderMessage) :
    payloads (m :: ms) = m.payload ++ payloads ms := by simp [payloads]

@[simp] theorem payloads_append (xs ys : List TCPSenderMessage) :
    payloads (xs ++ ys) = payloads xs ++ payloads ys := by simp [payloads]

theorem payloads_mono {log log' : List TCPSenderMessage} (h : log <+: log') :
    payloads log <+: payloads log' := by
  obtain ⟨ms, rfl⟩ := h
  exact ⟨payloads ms, (payloads_append _ _).symm⟩

theorem payloads_take (log : List TCPSenderMessage) (n : Nat) :
    payloads (log.take n) <+: payloads log :=
  payloads_mono <| List.take_prefix n log

theorem totalLength_mono {log log' : List TCPSenderMessage} (h : log <+: log') :
    totalLength log ≤ totalLength log' := by
  obtain ⟨ms, rfl⟩ := h
  rw [totalLength_append]
  omega

theorem totalLength_take_le (log : List TCPSenderMessage) (n : Nat) :
    totalLength (log.take n) ≤ totalLength log :=
  totalLength_mono <| List.take_prefix n log

/-- What a run of creations does to the log and the stream. -/
structure Created (x : TCPSender) (b : ByteStream) (ms : List TCPSenderMessage) (x' : TCPSender)
    (b' : ByteStream) : Prop where
  inv : b'.Inv
  outstanding : x'.outstandingMessages = x.outstandingMessages ++ ms
  stream : b.stream = payloads ms ++ b'.stream
  close : b'.close = b.close
  ended : x'.fin = true → x.fin = true ∨ Reader.isFinished b' = true
  isn : x'.isn = x.isn

theorem LogInv.creation {ms : List TCPSenderMessage} {p p' : TCPSender × ByteStream}
    (hr : TCPSender.creation.Run p ms p') : ∀ {log : List TCPSenderMessage}, LogInv log p.1 →
      p.2.Inv → LogInv (log ++ ms) p'.1 ∧ Created p.1 p.2 ms p'.1 p'.2 := by
  induction hr with
  | nil p =>
    intro log h hb
    exact ⟨by simpa using h, hb, by simp, by simp, rfl, fun hf => .inl hf, rfl⟩
  | @cons p p₁ p₂ m ms hs _ ih =>
    intro log h hb
    have he : p.1.Emits p.2 m p₁.1 p₁.2 := hs
    obtain ⟨h1, h2⟩ := ih (h.emits he) (he.inv hb)
    rw [List.append_assoc, List.singleton_append] at h1
    refine ⟨h1, h2.inv, ?_, ?_, h2.close.trans he.close, fun hf => ?_, h2.isn.trans he.isn⟩
    · rw [h2.outstanding, he.outstanding, List.append_assoc, List.singleton_append]
    · rw [he.stream, h2.stream, payloads_cons, List.append_assoc]
    · rcases h2.ended hf with hf1 | hfin
      · rw [he.fin, Bool.or_eq_true] at hf1
        rcases hf1 with hf1 | hm
        · exact .inl hf1
        · -- nothing is left to read after the FIN
          have hd := (he.inv hb).finished.mp (he.finished hm)
          refine .inr (h2.inv.finished.mpr ⟨h2.close.trans hd.1, ?_⟩)
          have := h2.stream
          rw [hd.2] at this
          exact (List.append_eq_nil_iff.mp this.symm).2
      · exact .inr hfin

/-- A push never throws; what it creates is appended to the log. -/
theorem LogInv.push {log : List TCPSenderMessage} {x : TCPSender} {b : ByteStream}
    (h : LogInv log x) (hb : b.Inv) :
    ∃ x' b' ms, x.push b = .ok (x', b') ∧ TCPSender.creation.Run (x, b) ms (x', b') ∧
      x.Pushed ms x' b' ∧ LogInv (log ++ ms) x' ∧ Created x b ms x' b' := by
  obtain ⟨x', b', ms, h1, h2, h3⟩ := TCPSender.push_spec hb h.space
  obtain ⟨h4, h5⟩ := LogInv.creation h2 h hb
  exact ⟨x', b', ms, h1, h2, h3, h4, h5⟩

/-! ## Runs on one outbound stream -/

namespace SenderLog

/-- `tx` and `out` are the program's; the rest is history. -/
structure State where
  tx : TCPSender
  out : ByteStream
  log : List TCPSenderMessage
  popped : Bytes
  written : Bytes
  sent : List TCPSenderMessage
  deriving DecidableEq, Repr

inductive Label where
  | write (data : Bytes)
  | close
  | setError
  | push
  | receive (msg : TCPReceiverMessage)
  | tick (ms : Nat)
  | maybeSend
  deriving DecidableEq, Repr

/-- mirrors src/src/tcp_sender.cc:9-11 -/
def State.start (isn : Wrap32) (initialRTOms capacity : Nat) : State :=
  { tx := { isn := isn, initialRTOms := initialRTOms, retransmissionTimeout := initialRTOms },
    out := .new capacity, log := [], popped := [], written := [], sent := [] }

/-- What a push created and popped, read off the two states. -/
def State.pushed (s : State) (tx' : TCPSender) (out' : ByteStream) : State :=
  { s with tx := tx', out := out',
           log := s.log ++ tx'.outstandingMessages.drop s.tx.outstandingMessages.length,
           popped := s.popped ++ s.out.stream.take (s.out.stream.length - out'.stream.length) }

/-- `none`: a write after `close`, or an exception. -/
def step (s : State) : Label → Option State
  | .write data =>
    if Writer.isClosed s.out then none
    else some { s with out := Writer.push s.out data,
                       written := s.written ++ data.take (Writer.availableCapacity s.out) }
  | .close => some { s with out := Writer.close s.out }
  | .setError => some { s with out := Writer.setError s.out }
  | .push => (s.tx.push s.out).toOption.map fun (tx', out') => s.pushed tx' out'
  | .receive msg => some { s with tx := s.tx.receive msg }
  | .tick ms => some { s with tx := s.tx.tick ms }
  | .maybeSend =>
    some { s with tx := s.tx.maybeSend.1, sent := s.sent ++ s.tx.maybeSend.2.toList }

def machine : LTS State Label :=
  LTS.ofFn (fun s => ∃ isn rto c, c < 2 ^ 64 ∧ s = State.start isn rto c) step

structure Inv (s : State) : Prop where
  log : LogInv s.log s.tx
  out : s.out.Inv
  popped : s.popped = payloads s.log
  written : s.written = s.popped ++ s.out.stream
  ended : s.tx.fin = true → s.out.close = true ∧ s.out.stream = []
  sent : ∀ m ∈ s.sent, m ∈ s.log

theorem inv_start (isn : Wrap32) (rto : Nat) {c : Nat} (hc : c < 2 ^ 64) :
    Inv (.start isn rto c) where
  log := logInv_new isn rto
  out := ByteStream.inv_new c hc
  popped := rfl
  written := rfl
  ended := by simp [State.start]
  sent := by simp [State.start]

/-- A push succeeds; `ms` is what it creates. -/
theorem Inv.push {s : State} (h : Inv s) : ∃ tx' out' ms, s.tx.push s.out = .ok (tx', out') ∧
    TCPSender.creation.Run (s.tx, s.out) ms (tx', out') ∧ Created s.tx s.out ms tx' out' ∧
    LogInv (s.log ++ ms) tx' ∧ step s .push = some (s.pushed tx' out') ∧
    s.pushed tx' out' = { s with tx := tx', out := out', log := s.log ++ ms,
                                 popped := s.popped ++ payloads ms } := by
  obtain ⟨tx', out', ms, h1, h2, -, h3, h4⟩ := h.log.push h.out
  refine ⟨tx', out', ms, h1, h2, h4, h3, by simp only [step, h1]; rfl, ?_⟩
  have hlen : s.out.stream.length - out'.stream.length = (payloads ms).length := by
    rw [h4.stream, List.length_append, Nat.add_sub_cancel]
  unfold State.pushed
  rw [h4.outstanding, List.drop_left' rfl, hlen, h4.stream, List.take_left' rfl]

theorem Inv.step {s s' : State} {l : Label} (h : Inv s) (hs : SenderLog.step s l = some s') :
    Inv s' := by
  cases l with
  | write data =>
    simp only [SenderLog.step] at hs
    split at hs
    · cases hs
    · rename_i hopen
      cases hs
      refine ⟨h.log, ByteStream.inv_push h.out data, h.popped, ?_, fun hf => ?_, h.sent⟩
      · rw [h.out.push_stream, h.out.available, h.written, List.append_assoc]
      · exact absurd (h.ended hf).1 hopen
  | close =>
    cases hs
    exact ⟨h.log, ByteStream.inv_close h.out, h.popped, h.written,
      fun hf => ⟨rfl, (h.ended hf).2⟩, h.sent⟩
  | setError =>
    cases hs
    exact ⟨h.log, ⟨h.out.cap_lt, h.out.fits, h.out.write_eq, h.out.read_lt⟩, h.popped, h.written,
      h.ended, h.sent⟩
  | push =>
    obtain ⟨tx', out', ms, -, -, hc, hlog, h5, h6⟩ := h.push
    rw [h5, h6] at hs
    cases hs
    refine ⟨hlog, hc.inv, ?_, ?_, fun hf => ?_, fun m hm => List.mem_append_left _ (h.sent m hm)⟩
    · rw [h.popped, payloads_append]
    · rw [h.written, hc.stream, List.append_assoc]
    · rcases hc.ended hf with hf | hf
      · obtain ⟨e1, e2⟩ := h.ended hf
        have hnil := hc.stream
        rw [e2] at hnil
        exact ⟨hc.close.trans e1, (List.append_eq_nil_iff.mp hnil.symm).2⟩
      · exact hc.inv.finished.mp hf
  | receive msg =>
    cases hs
    refine ⟨h.log.receive msg, h.out, h.popped, h.written, fun hf => h.ended ?_, h.sent⟩
    rcases TCPSender.receive_spec h.log.inFlight msg with ⟨-, he⟩ | ⟨a, k, -, -, -, ha⟩
    · rwa [he] at hf
    · rwa [ha.frame.2.2.2.2.2] at hf
  | tick ms =>
    cases hs
    refine ⟨h.log.tick ms, h.out, h.popped, h.written, fun hf => h.ended ?_, h.sent⟩
    cases ho : s.tx.outstandingMessages with
    | nil => rwa [TCPSender.tick_nil ho] at hf
    | cons m rest => rwa [(TCPSender.tick_spec ho ms).frame.2.2.2.2.2.2.1] at hf
  | maybeSend =>
    cases hs
    obtain ⟨h1, h2⟩ := h.log.maybeSend
    refine ⟨h1, h.out, h.popped, h.written, fun hf => h.ended ?_, fun m hm => ?_⟩
    · unfold TCPSender.maybeSend at hf
      split at hf <;> exact hf
    · rcases List.mem_append.mp hm with hm | hm
      · exact h.sent m hm
      · exact h2 m (Option.mem_toList.mp hm)

theorem inductive_inv : machine.Inductive Inv where
  init := by rintro _ ⟨isn, rto, c, hc, rfl⟩; exact inv_start isn rto hc
  step := fun _ _ _ h hs => h.step hs

/-- A step keeps the zero point and only appends to the history. -/
theorem Inv.grows {s s' : State} {l : Label} (h : Inv s) (hs : SenderLog.step s l = some s') :
    s'.tx.isn = s.tx.isn ∧ s.log <+: s'.log ∧ s.written <+: s'.written ∧ s.sent <+: s'.sent := by
  cases l with
  | write data =>
    simp only [SenderLog.step] at hs
    split at hs
    · cases hs
    · cases hs
      exact ⟨rfl, List.prefix_refl _, List.prefix_append _ _, List.prefix_refl _⟩
  | close => cases hs; exact ⟨rfl, List.prefix_refl _, List.prefix_refl _, List.prefix_refl _⟩
  | setError => cases hs; exact ⟨rfl, List.prefix_refl _, List.prefix_refl _, List.prefix_refl _⟩
  | push =>
    obtain ⟨tx', out', ms, -, -, hc, -, h5, h6⟩ := h.push
    rw [h5, h6] at hs
    cases hs
    exact ⟨hc.isn, List.prefix_append _ _, List.prefix_refl _, List.prefix_refl _⟩
  | receive msg =>
    cases hs
    exact ⟨receive_isn h.log msg, List.prefix_refl _, List.prefix_refl _, List.prefix_refl _⟩
  | tick ms =>
    cases hs
    exact ⟨tick_isn _ ms, List.prefix_refl _, List.prefix_refl _, List.prefix_refl _⟩
  | maybeSend =>
    cases hs
    exact ⟨maybeSend_isn _, List.prefix_refl _, List.prefix_refl _, List.prefix_append _ _⟩

/-- The log of a sender and what it says of the sender. The 64-bit counters
hold the totals modulo `2^64`. -/
structure WellLogged (s : State) : Prop where
  SYN : ∀ i m, s.log[i]? = some m → (m.SYN = true ↔ i = 0)
  FIN : ∀ i m, s.log[i]? = some m → m.FIN = true → i + 1 = s.log.length
  finished : ∀ m ∈ s.log, m.FIN = true → Reader.isFinished s.out = true
  short : ∀ m ∈ s.log, m.payload.length ≤ maxPayloadSize
  seqno : ∀ i m, s.log[i]? = some m →
    m.seqno = Wrap32.wrap (totalLength (s.log.take i)) s.tx.isn
  next : s.tx.nextAbsSeqno = totalLength s.log % 2 ^ 64
  payloads : payloads s.log = s.popped
  outstanding : s.tx.outstandingMessages <:+ s.log
  inFlight : s.tx.sequenceNumbersInFlight = totalLength s.tx.outstandingMessages % 2 ^ 64
  sent : ∀ m ∈ s.sent, m ∈ s.log
  pushes : ∃ s', step s .push = some s'

/-- **The sender log invariant.** In every reachable state the log of created
messages is well formed and accounts for the bytes popped, the counters, the
outstanding messages and everything `maybe_send` has returned; and a push does
not throw. -/
theorem log_invariant (s : State) (h : machine.Reachable s) : WellLogged s := by
  have hi := inductive_inv.reachable s h
  refine { SYN := hi.log.SYN, FIN := hi.log.FIN, finished := fun m hm hf => ?_,
           short := hi.log.short, seqno := hi.log.numbered, next := hi.log.next,
           payloads := hi.popped.symm, outstanding := hi.log.suffix, inFlight := hi.log.inFlight,
           sent := hi.sent, pushes := ?_ }
  · exact hi.out.finished.mpr (hi.ended (hi.log.sealed.mpr ⟨m, hm, hf⟩))
  · obtain ⟨tx', out', ms, -, -, -, -, h5, -⟩ := hi.push
    exact ⟨_, h5⟩

/-- SYN, one byte, a zero window and its probe, the FIN, a retransmission. -/
theorem log_invariant_run : ∃ s, machine.Run (.start ⟨7⟩ 1000 8)
    [.write [97], .push, .maybeSend, .receive ⟨some ⟨8⟩, 1⟩, .push, .receive ⟨some ⟨9⟩, 0⟩,
      .write [98], .close, .push, .push, .tick 1000, .maybeSend, .maybeSend] s ∧
    WellLogged s := by
  obtain ⟨s, hs⟩ := Option.isSome_iff_exists.mp (show (LTS.exec step (.start ⟨7⟩ 1000 8)
    [.write [97], .push, .maybeSend, .receive ⟨some ⟨8⟩, 1⟩, .push, .receive ⟨some ⟨9⟩, 0⟩,
      .write [98], .close, .push, .push, .tick 1000, .maybeSend, .maybeSend]).isSome = true by
    decide +kernel)
  exact ⟨s, LTS.run_of_exec hs,
    log_invariant s (LTS.reachable_of_exec ⟨⟨7⟩, 1000, 8, by decide, rfl⟩ hs)⟩

end SenderLog
end StreamSocket.L3
