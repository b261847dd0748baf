import StreamSocket.L3Protocol.ReassemblerRun
import StreamSocket.L3Protocol.SenderLog
import StreamSocket.L2Machine.TcpReceiver

/-!
# Inbox: a receiver that follows a sender's log

The receiving end of one direction: `TCPReceiver`, `Reassembler` and inbound
`ByteStream`, with the bytes popped so far as history. `Follows log isn b` says
that everything `b` holds comes from the messages of `log`: the bytes held are
those of its payloads at their places, the zero point is `isn`, and a recorded
FIN is one of the log's.

* `Numbering.totalLength_take`: where a message of the log lies in the stream.
* `Follows.receive`: a message that belongs to the log keeps `Follows`, whatever
  came before it; a message of the log belongs, if its sequence number is read
  back exactly (`Follows.belongs`).
* `Follows.isPrefix`, `Follows.ackno_le`: the bytes pushed are a prefix of the
  log's payloads, and the ackno does not exceed the log's length.
-/
namespace StreamSocket.L3

open L1 L2 FirstWins

/-! ## The numbering of a log -/

/-- A log as `push` numbers it. -/
structure Numbering (log : List TCPSenderMessage) (isn : Wrap32) : Prop where
  seqno : ∀ i m, log[i]? = some m → m.seqno = Wrap32.wrap (totalLength (log.take i)) isn
  SYN : ∀ i m, log[i]? = some m → (m.SYN = true ↔ i = 0)
  FIN : ∀ i m, log[i]? = some m → m.FIN = true → i + 1 = log.length
  short : ∀ m ∈ log, m.payload.length ≤ maxPayloadSize

theorem LogInv.numbering {log : List TCPSenderMessage} {x : TCPSender} (h : LogInv log x) :
    Numbering log x.isn := ⟨h.numbered, h.SYN, h.FIN, h.short⟩

theorem Numbering.take {log : List TCPSenderMessage} {isn : Wrap32} (h : Numbering log isn)
    (n : Nat) : Numbering (log.take n) isn := by
  have hget : ∀ {i m}, (log.take n)[i]? = some m → i < n ∧ log[i]? = some m := by
    intro i m hm
    rw [List.getElem?_take] at hm
    split at hm
    · rename_i hi
      exact ⟨hi, hm⟩
    · cases hm
  refine ⟨fun i m hm => ?_, fun i m hm => h.SYN i m (hget hm).2, fun i m hm hf => ?_,
    fun m hm => h.short m (List.mem_of_mem_take hm)⟩
  · obtain ⟨hi, hm⟩ := hget hm
    rw [List.take_take, Nat.min_eq_left (Nat.le_of_lt hi)]
    exact h.seqno i m hm
  · obtain ⟨hi, hm⟩ := hget hm
    have := h.FIN i m hm hf
    rw [List.length_take]
    omega

theorem totalLength_counts (ms : List TCPSenderMessage) : totalLength ms =
    ms.countP (·.SYN) + (payloads ms).length + ms.countP (·.FIN) := by
  induction ms with
  | nil => rfl
  | cons m ms ih =>
    have hb : ∀ b : Bool, b.toNat = if b = true then 1 else 0 := by decide
    rw [totalLength_cons, ih, payloads_cons, List.length_append, List.countP_cons,
      List.countP_cons, TCPSenderMessage.sequenceLength, hb, hb]
    omega

theorem Numbering.countP_SYN {log : List TCPSenderMessage} {isn : Wrap32} (h : Numbering log isn) :
    log.countP (·.SYN) = if log = [] then 0 else 1 := by
  cases log with
  | nil => rfl
  | cons m ms =>
    have hm : m.SYN = true := (h.SYN 0 m rfl).mpr rfl
    have hms : ms.countP (·.SYN) = 0 := by
      rw [List.countP_eq_zero]
      intro y hy hs
      obtain ⟨j, hj⟩ := List.mem_iff_getElem?.mp hy
      have := (h.SYN (j + 1) y hj).mp hs
      omega
    rw [List.countP_cons, hms, if_pos hm, if_neg (List.cons_ne_nil _ _)]

/-- No message before another one carries the FIN. -/
theorem Numbering.countP_FIN_take {log : List TCPSenderMessage} {isn : Wrap32}
    (h : Numbering log isn) {i : Nat} (hi : i < log.length) : (log.take i).countP (·.FIN) = 0 := by
  rw [List.countP_eq_zero]
  intro y hy hf
  obtain ⟨j, hj⟩ := List.mem_iff_getElem?.mp hy
  have hlt := (List.getElem?_eq_some_iff.mp hj).1
  rw [List.length_take] at hlt
  rw [List.getElem?_take, if_pos (by omega)] at hj
  have := h.FIN j y hj hf
  omega

theorem Numbering.countP_FIN {log : List TCPSenderMessage} {isn : Wrap32} (h : Numbering log isn) :
    log.countP (·.FIN) = (log.any (·.FIN)).toNat := by
  cases hany : log.any (·.FIN) with
  | false =>
    rw [Bool.toNat_false, List.countP_eq_zero]
    intro y hy hf
    rw [List.any_eq_false] at hany
    exact hany y hy hf
  | true =>
    obtain ⟨y, hy, hf⟩ := List.any_eq_true.mp hany
    obtain ⟨i, hi⟩ := List.mem_iff_getElem?.mp hy
    have hlen := h.FIN i y hi hf
    obtain ⟨hlt, he⟩ := List.getElem?_eq_some_iff.mp hi
    have hl : log = log.take i ++ [y] := by
      rw [← he, List.take_concat_get', hlen, List.take_length]
    rw [hl, List.countP_append, h.countP_FIN_take hlt]
    simp [hf]

/-- The sequence numbers before the `i`-th message: the SYN and the bytes. -/
theorem Numbering.totalLength_take {log : List TCPSenderMessage} {isn : Wrap32}
    (h : Numbering log isn) {i : Nat} (hi : i < log.length) :
    totalLength (log.take i) = (if i = 0 then 0 else 1) + (payloads (log.take i)).length := by
  rw [totalLength_counts, (h.take i).countP_SYN, h.countP_FIN_take hi, Nat.add_zero]
  congr 1
  by_cases h0 : i = 0
  · simp [h0]
  · rw [if_neg h0, if_neg]
    intro hn
    have := congrArg List.length hn
    rw [List.length_take, List.length_nil] at this
    omega

theorem Numbering.totalLength_eq {log : List TCPSenderMessage} {isn : Wrap32}
    (h : Numbering log isn) (hne : log ≠ []) :
    totalLength log = 1 + (payloads log).length + (log.any (·.FIN)).toNat := by
  rw [totalLength_counts, h.countP_SYN, h.countP_FIN, if_neg hne]

theorem Numbering.totalLength_le {log : List TCPSenderMessage} {isn : Wrap32}
    (h : Numbering log isn) : totalLength log ≤ (payloads log).length + 2 := by
  by_cases hne : log = []
  · rw [hne, totalLength_nil]; omega
  · have := Bool.toNat_le (log.any (·.FIN))
    rw [h.totalLength_eq hne]
    omega

/-- With fewer than `2^31` bytes every number is read back, from any
checkpoint in the stream. -/
theorem Numbering.readsBack {log : List TCPSenderMessage} {isn : Wrap32} (h : Numbering log isn)
    {i : Nat} {m : TCPSenderMessage} (hm : log[i]? = some m) {c : Nat}
    (hp : (payloads log).length < 2 ^ 31) (hc : c ≤ (payloads log).length) :
    m.seqno.unwrap isn c = totalLength (log.take i) := by
  have ht := h.totalLength_take (List.getElem?_eq_some_iff.mp hm).1
  have hle := (payloads_take log i).length_le
  have hif : (if i = 0 then 0 else 1) ≤ 1 := by split <;> omega
  rw [h.seqno i m hm]
  rcases Nat.lt_or_ge (totalLength (log.take i)) c with hlt | hge
  · exact Wrap32.unwrap_wrap_of_le _ _ _ (by omega) (Nat.le_of_lt hlt) (by omega)
  · exact Wrap32.unwrap_wrap_of_small _ _ _ (by omega) hge

/-- The payload of a message stands in the stream right behind those before it. -/
theorem payloads_getElem? {log : List TCPSenderMessage} {i : Nat} {m : TCPSenderMessage}
    (hm : log[i]? = some m) {j : Nat} {c : UInt8} (hc : m.payload[j]? = some c) :
    (payloads log)[(payloads (log.take i)).length + j]? = some c := by
  obtain ⟨hlt, he⟩ := List.getElem?_eq_some_iff.mp hm
  have hl : log = log.take i ++ m :: log.drop (i + 1) := by
    rw [← he, List.cons_getElem_drop_succ, List.take_append_drop]
  have hj := (List.getElem?_eq_some_iff.mp hc).1
  have hp : payloads log = payloads (log.take i) ++ (m.payload ++ payloads (log.drop (i + 1))) := by
    conv_lhs => rw [hl, payloads_append, payloads_cons]
  rw [hp, List.getElem?_append_right (Nat.le_add_right _ _), Nat.add_sub_cancel_left,
    List.getElem?_append_left hj, hc]

/-! ## The receiving end -/

/-- `t`, `r` and `inbound` are the program's; `popped` is history. -/
structure Inbox where
  t : TCPReceiver
  r : Reassembler
  inbound : ByteStream
  popped : Bytes
  deriving DecidableEq, Repr

namespace Inbox

def start (capacity : Nat) : Inbox := { t := {}, r := {}, inbound := .new capacity, popped := [] }

/-- The bytes ever pushed to the inbound stream. -/
def pushed (b : Inbox) : Bytes := b.popped ++ b.inbound.stream

def receive (b : Inbox) (m : TCPSenderMessage) : Option Inbox :=
  (b.t.receive m b.r b.inbound).map fun (t, r, inbound) =>
    { t := t, r := r, inbound := inbound, popped := b.popped }

/-- The application pops; more than is buffered is refused by the Reader. -/
def pop (b : Inbox) (len : Nat) : Inbox :=
  { b with
    inbound := Reader.pop b.inbound len
    popped := b.popped ++ b.inbound.stream.take
      (b.inbound.stream.length - (Reader.pop b.inbound len).stream.length) }

/-- The absolute ackno that `send` wraps. -/
def ackno (b : Inbox) : Nat := b.t.lastAckAbsSeqno b.inbound

/-- The Reassembler's part, with the held bytes as the accepted ones. -/
def history (b : Inbox) : ReassemblerRun.State :=
  { r := b.r, out := b.inbound, popped := b.popped, acc := b.r.held b.pushed, last := b.r.eof }

end Inbox

/-- What `b` holds comes from `log`. -/
structure Follows (log : List TCPSenderMessage) (isn : Wrap32) (b : Inbox) : Prop where
  history : ReassemblerRun.Inv b.history
  cap : b.inbound.capacity < 2 ^ 63
  opened : b.t.syn = true → b.t.isn = isn ∧ log ≠ []
  agrees : Agrees (b.r.held b.pushed) (payloads log)
  FIN : b.t.fin = true → ∃ m ∈ log, m.FIN = true
  eof : b.r.eof = true → b.t.fin = true

theorem follows_start (isn : Wrap32) {c : Nat} (hc : c < 2 ^ 63) : Follows [] isn (.start c) where
  history := ⟨Reassembler.inv_new c (by omega), rfl, rfl, fun _ => rfl, rfl⟩
  cap := hc
  opened := by simp [Inbox.start]
  agrees := fun k c hk => by
    simp [Inbox.start, Inbox.pushed, ByteStream.new, Reassembler.held, Reassembler.cell] at hk
  FIN := by simp [Inbox.start]
  eof := by simp [Inbox.start]

/-- A longer log is followed too. -/
theorem Follows.mono {log log' : List TCPSenderMessage} {isn : Wrap32} {b : Inbox}
    (h : Follows log isn b) (hl : log <+: log') : Follows log' isn b where
  history := h.history
  cap := h.cap
  opened := fun hs => by
    obtain ⟨h1, h2⟩ := h.opened hs
    obtain ⟨ms, rfl⟩ := hl
    exact ⟨h1, List.append_ne_nil_of_left_ne_nil h2 ms⟩
  agrees := h.agrees.mono (payloads_mono hl)
  FIN := fun hf => by
    obtain ⟨m, hm, hmf⟩ := h.FIN hf
    exact ⟨m, hl.subset hm, hmf⟩
  eof := h.eof

section

variable {log : List TCPSenderMessage} {isn : Wrap32} {b : Inbox}

theorem Follows.isPrefix (h : Follows log isn b) : b.pushed <+: payloads log :=
  Front.isPrefix h.history.front h.agrees

theorem Follows.bytesPushed (h : Follows log isn b) :
    Writer.bytesPushed b.inbound = b.pushed.length := h.history.bytesPushed

theorem Follows.ackno_eq (h : Follows log isn b) (hp : b.pushed.length < 2 ^ 62) :
    b.ackno = b.pushed.length + 1 + (b.t.fin && b.inbound.close).toNat := by
  unfold Inbox.ackno
  rw [TCPReceiver.lastAckAbsSeqno_eq (by rw [h.bytesPushed]; omega), h.bytesPushed]

/-- An ackno is reported once the SYN is received. -/
theorem Follows.of_send (h : Follows log isn b) {w : Wrap32}
    (hw : (b.t.send b.inbound).ackno = some w) :
    b.t.syn = true ∧ w = Wrap32.wrap b.ackno isn := by
  unfold TCPReceiver.send at hw
  cases hs : b.t.syn with
  | false => simp only [hs, Bool.false_eq_true, if_false] at hw; cases hw
  | true =>
    simp only [hs, if_true, Option.some.injEq, (h.opened hs).1] at hw
    exact ⟨rfl, hw.symm⟩

/-- What is acknowledged has been created. -/
theorem Follows.ackno_le (h : Follows log isn b) (hn : Numbering log isn) (hs : b.t.syn = true)
    (hp : b.pushed.length < 2 ^ 62) : b.ackno ≤ totalLength log := by
  have hle := h.isPrefix.length_le
  rw [h.ackno_eq hp, hn.totalLength_eq (h.opened hs).2]
  have hf : (b.t.fin && b.inbound.close).toNat ≤ (log.any (·.FIN)).toNat := by
    cases hfin : b.t.fin with
    | false => exact Nat.zero_le _
    | true =>
      rw [List.any_eq_true.mpr (h.FIN hfin)]
      exact Bool.toNat_le _
  omega

/-! ## One message, one pop -/

/-- The message is dropped, or inserted at `first`. -/
inductive Received (b : Inbox) (first : Nat) (m : TCPSenderMessage) (b' : Inbox) : Prop
  | kept : ¬ ((b.t.recordSyn m).syn = true ∧ (b.t.recordSyn m).Overlaps m b.inbound) →
      b'.r = b.r → b'.inbound = b.inbound → b'.popped = b.popped → b'.t.fin = b.t.fin →
      Received b first m b'
  | stored (tmp : Bytes) : (b.t.recordSyn m).syn = true →
      (b.t.recordSyn m).Overlaps m b.inbound → b'.popped = b.popped →
      b'.t.fin = (b.t.fin || m.FIN) →
      Reassembler.Inserted b.r b.inbound first m.payload b'.t.fin tmp b'.r b'.inbound →
      Received b first m b'

/-- Whichever message sets the zero point, it is the SYN of the log. -/
theorem Follows.recordSyn_isn (h : Follows log isn b) (hn : Numbering log isn) {i : Nat}
    {m : TCPSenderMessage} (hm : log[i]? = some m) (hs : (b.t.recordSyn m).syn = true) :
    (b.t.recordSyn m).isn = isn := by
  unfold TCPReceiver.recordSyn at hs ⊢
  split
  · rename_i hc
    have h0 := (hn.SYN i m hm).mp (Bool.and_eq_true_iff.mp hc).1
    show m.seqno = isn
    rw [hn.seqno i m hm, h0]
    simp [Wrap32.wrap, Wrap32.add]
  · rename_i hc
    rw [if_neg hc] at hs
    exact (h.opened hs).1

/-- The first index of the payload, as the receiver computes it. -/
theorem Follows.streamIndex (h : Follows log isn b) (hn : Numbering log isn) {i : Nat}
    {m : TCPSenderMessage} (hm : log[i]? = some m)
    (hu : m.seqno.unwrap isn b.pushed.length = totalLength (log.take i))
    (hs : (b.t.recordSyn m).syn = true) :
    TCPReceiver.streamIndex ((b.t.recordSyn m).absSeqno m b.inbound) =
      (payloads (log.take i)).length := by
  unfold TCPReceiver.absSeqno TCPReceiver.streamIndex
  rw [h.recordSyn_isn hn hm hs, h.bytesPushed, hu,
    hn.totalLength_take (List.getElem?_eq_some_iff.mp hm).1]
  by_cases h0 : i = 0
  · subst h0; simp
  · rw [if_neg h0, if_pos (by omega), Nat.add_sub_cancel_left]

/-- What a message must be for the receiver to go on following the log: its
SYN, its bytes and its FIN are the log's, at their places. -/
structure Belongs (log : List TCPSenderMessage) (isn : Wrap32) (b : Inbox)
    (m : TCPSenderMessage) : Prop where
  opened : (b.t.recordSyn m).syn = true → (b.t.recordSyn m).isn = isn ∧ log ≠ []
  payload : (b.t.recordSyn m).syn = true → ∀ j c, m.payload[j]? = some c →
    (payloads log)[TCPReceiver.streamIndex ((b.t.recordSyn m).absSeqno m b.inbound) + j]? = some c
  FIN : m.FIN = true → ∃ x ∈ log, x.FIN = true
  short : m.payload.length ≤ maxPayloadSize

theorem Follows.receive (h : Follows log isn b) {m : TCPSenderMessage} (hm : Belongs log isn b m)
    (hp : b.pushed.length < 2 ^ 62) :
    ∃ b', b.receive m = some b' ∧ Follows log isn b' ∧ b.pushed <+: b'.pushed ∧
      Received b (TCPReceiver.streamIndex ((b.t.recordSyn m).absSeqno m b.inbound)) m b' := by
  have hlen : m.payload.length < 2 ^ 62 := Nat.lt_of_le_of_lt hm.short (by decide)
  have hinv : b.r.Inv b.inbound := h.history.inv
  have hpushed : Writer.bytesPushed b.inbound < 2 ^ 62 := by rw [h.bytesPushed]; exact hp
  rcases TCPReceiver.receive_cases hinv m fun ho => ho.fits_of_pushed hinv h.cap hpushed hlen with
    ⟨h1, h2, h3⟩ | ⟨h1, h2, h3⟩ | ⟨h1, h2, tmp, r', inbound', h3, h4⟩
  · refine ⟨b, by unfold Inbox.receive; rw [h3]; rfl, h, List.prefix_refl _,
      .kept (fun hs => ?_) rfl rfl rfl rfl⟩
    have hs := hs.1
    unfold TCPReceiver.recordSyn at hs
    rw [h2, Bool.false_and, if_neg Bool.false_ne_true, h1] at hs
    cases hs
  · refine ⟨{ b with t := b.t.recordSyn m }, by unfold Inbox.receive; rw [h3]; rfl, ?_,
      List.prefix_refl _, .kept (fun hs => h2 hs.2) rfl rfl rfl (TCPReceiver.recordSyn_fin _ _)⟩
    exact ⟨h.history, h.cap, fun _ => hm.opened h1, h.agrees,
      fun hf => h.FIN (by rwa [TCPReceiver.recordSyn_fin] at hf),
      fun he => (TCPReceiver.recordSyn_fin _ _).trans (h.eof he)⟩
  · have hfin : ((b.t.recordSyn m).recordFin m).fin = (b.t.fin || m.FIN) := by
      rw [TCPReceiver.recordFin_fin, TCPReceiver.recordSyn_fin, h1, Bool.true_and]
    have hnew := h.history.inserted h4
    refine ⟨{ t := (b.t.recordSyn m).recordFin m, r := r', inbound := inbound',
              popped := b.popped }, by unfold Inbox.receive; rw [h3]; rfl, ?_, ?_,
      .stored tmp h1 h2 rfl hfin h4⟩
    · refine ⟨⟨hnew.inv, hnew.popped, hnew.pushed, fun _ => rfl, rfl⟩, h4.cap ▸ h.cap,
        fun _ => ⟨(TCPReceiver.recordFin_isn _ _).trans (hm.opened h1).1, (hm.opened h1).2⟩,
        fun k c hk => ?_, fun hf => ?_, fun he => ?_⟩
      · exact agrees_offer h.agrees (hm.payload h1) _ _ k c ((hnew.acc k).trans hk)
      · rw [hfin, Bool.or_eq_true] at hf
        exact hf.elim h.FIN hm.FIN
      · rw [h4.eof, Bool.or_eq_true] at he
        refine he.elim (fun he => ?_) id
        rw [hfin, h.eof he, Bool.true_or]
    · refine ⟨tmp, ?_⟩
      show (b.popped ++ b.inbound.stream) ++ tmp = b.popped ++ inbound'.stream
      rw [h4.stream, List.append_assoc]

/-- A message of the log belongs, if its number is read back exactly. -/
theorem Follows.belongs (h : Follows log isn b) (hn : Numbering log isn) {i : Nat}
    {m : TCPSenderMessage} (hm : log[i]? = some m)
    (hu : m.seqno.unwrap isn b.pushed.length = totalLength (log.take i)) : Belongs log isn b m where
  opened := fun hs => ⟨h.recordSyn_isn hn hm hs, List.ne_nil_of_mem (List.mem_of_getElem? hm)⟩
  payload := fun hs j c hj => by
    rw [h.streamIndex hn hm hu hs]
    exact payloads_getElem? hm hj
  FIN := fun hf => ⟨m, List.mem_of_getElem? hm, hf⟩
  short := hn.short m (List.mem_of_getElem? hm)

/-- So does an empty message, wherever it is. -/
theorem Follows.belongs_empty (h : Follows log isn b) (seqno : Wrap32) :
    Belongs log isn b { seqno := seqno } where
  opened := fun hs => by
    unfold TCPReceiver.recordSyn at hs ⊢
    exact h.opened hs
  payload := fun _ j c hj => by cases hj
  FIN := fun hf => by cases hf
  short := Nat.zero_le _

/-- The error flag is nothing the log knows of. -/
theorem Follows.error (h : Follows log isn b) (e : Bool) :
    Follows log isn { b with inbound := { b.inbound with error := e } } := by
  have hi := h.history
  exact ⟨⟨⟨⟨hi.inv.out.cap_lt, hi.inv.out.fits, hi.inv.out.write_eq, hi.inv.out.read_lt⟩,
    hi.inv.sized, hi.inv.cap, hi.inv.fresh, hi.inv.base, hi.inv.gap, hi.inv.window⟩, hi.popped,
    hi.pushed, fun _ => rfl, rfl⟩, h.cap, h.opened, h.agrees, h.FIN, h.eof⟩

theorem Follows.pop (h : Follows log isn b) (len : Nat) :
    Follows log isn (b.pop len) ∧ (b.pop len).pushed = b.pushed := by
  unfold Inbox.pop
  by_cases hl : len ≤ b.inbound.stream.length
  · have hk : b.inbound.stream.length - (Reader.pop b.inbound len).stream.length = len := by
      rw [ByteStream.pop_eq hl, List.length_drop]; omega
    have hpush : (b.popped ++ b.inbound.stream.take len) ++ (Reader.pop b.inbound len).stream =
        b.pushed := by
      rw [ByteStream.pop_eq hl, List.append_assoc, List.take_append_drop]; rfl
    have hnew := h.history.took hl
    rw [hk]
    refine ⟨⟨⟨hnew.inv, hnew.popped, hnew.pushed, fun _ => rfl, rfl⟩, ?_, h.opened, ?_, h.FIN,
      h.eof⟩, hpush⟩
    · rw [ByteStream.pop_eq hl]; exact h.cap
    · show Agrees (b.r.held ((b.popped ++ b.inbound.stream.take len) ++ _)) _
      rw [hpush]; exact h.agrees
  · -- the error flag is all that changes
    have he : Reader.pop b.inbound len = { b.inbound with error := true } := by
      unfold Reader.pop; rw [if_pos (by omega)]
    rw [he, Nat.sub_self, List.take_zero, List.append_nil]
    exact ⟨h.error true, rfl⟩

end

end StreamSocket.L3
