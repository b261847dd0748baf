import StreamSocket.L3Protocol.SenderLog

/-!
# Runs of a TCPSender on arbitrary streams and acknowledgments

The same sender as in `SenderLog`, but every push may see any well-formed
stream, so a run is any interleaving of pushes, acknowledgments, ticks and
`maybe_send`. The ghosts record what the code does not keep: the log, the
last accepted acknowledgment, the largest one, the ticks since the timer last
restarted, the retransmissions counted since the last reset, and the time.

* `push_cases`, `receive_cases`: what each kind of step does, once for all
  invariants.
* `push_total`: a push is always possible.
* `inductive_log`: the sender stays coupled to its log.
-/
namespace StreamSocket.L3.SenderRun

open L1 L2

/-- `last` is the absolute ackno and window of the last accepted
acknowledgment, `since` the ticks since the outstanding queue became
non-empty, an acknowledgment removed a message, or a retransmission. -/
structure State where
  tx : TCPSender
  log : List TCPSenderMessage
  last : Option (Nat × UInt16)
  maxAck : Nat
  since : Nat
  retx : Nat
  clock : Nat
  deriving DecidableEq, Repr

inductive Label where
  | push (b : ByteStream)
  | receive (msg : TCPReceiverMessage)
  | tick (ms : Nat)
  | maybeSend
  deriving DecidableEq, Repr

def State.start (isn : Wrap32) (initialRTOms : Nat) : State :=
  { tx := { isn := isn, initialRTOms := initialRTOms, retransmissionTimeout := initialRTOms },
    log := [], last := none, maxAck := 0, since := 0, retx := 0, clock := 0 }

/-- The absolute ackno of `msg`, if the sender accepts it. -/
def accepts (x : TCPSender) (msg : TCPReceiverMessage) : Option Nat :=
  msg.ackno.bind fun a => if x.validAck (x.absAckno a) then some (x.absAckno a) else none

def State.afterPush (s : State) (tx' : TCPSender) : State :=
  { s with tx := tx',
           log := s.log ++ tx'.outstandingMessages.drop s.tx.outstandingMessages.length,
           since :=
            if s.tx.outstandingMessages = [] ∧ tx'.outstandingMessages ≠ [] then 0 else s.since }

def State.afterReceive (s : State) (msg : TCPReceiverMessage) (tx' : TCPSender) : State :=
  let removed := tx'.outstandingMessages.length < s.tx.outstandingMessages.length
  { s with tx := tx',
           last := ((accepts s.tx msg).map fun A => (A, msg.windowSize)).or s.last,
           maxAck := max s.maxAck ((accepts s.tx msg).getD 0),
           since := if removed then 0 else s.since,
           retx := if removed then 0 else s.retx }

def State.afterTick (s : State) (ms : Nat) (tx' : TCPSender) : State :=
  { s with tx := tx',
           since := if tx'.sendMessages = s.tx.sendMessages then s.since + ms else 0,
           retx := if tx'.consecutiveRetransmissions = s.tx.consecutiveRetransmissions
            then s.retx else s.retx + 1,
           clock := s.clock + ms }

/-- `none`: not a well-formed stream, or an exception. -/
def step (s : State) : Label → Option State
  | .push b => if b.Inv then (s.tx.push b).toOption.map fun (tx', _) => s.afterPush tx' else none
  | .receive msg => some (s.afterReceive msg (s.tx.receive msg))
  | .tick ms => some (s.afterTick ms (s.tx.tick ms))
  | .maybeSend => some { s with tx := s.tx.maybeSend.1 }

def machine : LTS State Label :=
  LTS.ofFn (fun s => ∃ isn rto, rto < 2 ^ 64 ∧ s = State.start isn rto) step

/-- The last accepted acknowledgment advertised a window of zero. -/
def ZeroWindow (last : Option (Nat × UInt16)) : Prop := ∃ A, last = some (A, 0)

/-! ## The kinds of step -/

/-- A push, with the messages `ms` it creates. -/
structure Pushes (s : State) (b : ByteStream) (ms : List TCPSenderMessage) (s' : State)
    (b' : ByteStream) : Prop where
  stream : b.Inv
  push : s.tx.push b = .ok (s'.tx, b')
  run : TCPSender.creation.Run (s.tx, b) ms (s'.tx, b')
  outcome : s.tx.Pushed ms s'.tx b'
  created : Created s.tx b ms s'.tx b'
  log : s'.log = s.log ++ ms
  logInv : LogInv s'.log s'.tx
  after : s' = s.afterPush s'.tx

theorem push_cases {s s' : State} {b : ByteStream} (h : LogInv s.log s.tx)
    (hs : step s (.push b) = some s') : ∃ ms b', Pushes s b ms s' b' := by
  simp only [step] at hs
  split at hs
  · rename_i hb
    obtain ⟨x', b', ms, h1, h2, h3, h4, h5⟩ := h.push hb
    rw [h1] at hs
    cases hs
    have hlog : (s.afterPush x').log = s.log ++ ms := by
      unfold State.afterPush
      rw [h5.outstanding, List.drop_left' rfl]
    exact ⟨ms, b', hb, h1, h2, h3, h5, hlog, by rw [hlog]; exact h4, rfl⟩
  · cases hs

theorem push_total {s : State} {b : ByteStream} (h : LogInv s.log s.tx) (hb : b.Inv) :
    ∃ s', step s (.push b) = some s' := by
  obtain ⟨x', b', ms, h1, -⟩ := h.push hb
  exact ⟨s.afterPush x', by simp only [step, if_pos hb, h1]; rfl⟩

theorem accepts_eq_none {x : TCPSender} {msg : TCPReceiverMessage}
    (h : msg.ackno = none ∨ ∃ a, msg.ackno = some a ∧ x.validAck (x.absAckno a) = false) :
    accepts x msg = none := by
  unfold accepts
  rcases h with h | ⟨a, h, hv⟩
  · rw [h]; rfl
  · rw [h, Option.bind_some, hv]; rfl

theorem accepts_eq_some {x : TCPSender} {msg : TCPReceiverMessage} {a : Wrap32}
    (h : msg.ackno = some a) (hv : x.validAck (x.absAckno a) = true) :
    accepts x msg = some (x.absAckno a) := by
  unfold accepts
  rw [h, Option.bind_some, hv]; rfl

/-- A receive changes nothing at all, or accepts. -/
theorem receive_cases {s s' : State} {msg : TCPReceiverMessage} (h : LogInv s.log s.tx)
    (hs : step s (.receive msg) = some s') :
    (accepts s.tx msg = none ∧ s' = s) ∨
    ∃ a k, accepts s.tx msg = some (s.tx.absAckno a) ∧
      s.tx.validAck (s.tx.absAckno a) = true ∧
      s.tx.Accepted (s.tx.absAckno a) msg.windowSize.toNat k s'.tx ∧
      s' = s.afterReceive msg s'.tx := by
  cases hs
  rcases TCPSender.receive_spec h.inFlight msg with ⟨hn, he⟩ | ⟨a, k, h1, h2, -, h4⟩
  · left
    have hacc := accepts_eq_none hn
    refine ⟨hacc, ?_⟩
    unfold State.afterReceive
    simp only [he, hacc, Option.map_none, Option.none_or, Option.getD_none, Nat.max_zero,
      Nat.lt_irrefl, if_false]
  · exact .inr ⟨a, k, accepts_eq_some h1 h2, h2, h4, rfl⟩

theorem logInv_step {s s' : State} {l : Label} (h : LogInv s.log s.tx)
    (hs : step s l = some s') : LogInv s'.log s'.tx := by
  cases l with
  | push b =>
    obtain ⟨ms, b', hp⟩ := push_cases h hs
    exact hp.logInv
  | receive msg =>
    cases hs
    exact h.receive msg
  | tick ms =>
    cases hs
    exact h.tick ms
  | maybeSend =>
    cases hs
    exact h.maybeSend.1

theorem inductive_log : machine.Inductive fun s => LogInv s.log s.tx where
  init := by rintro _ ⟨isn, rto, -, rfl⟩; exact logInv_new isn rto
  step := fun _ _ _ h hs => logInv_step h hs

end StreamSocket.L3.SenderRun
