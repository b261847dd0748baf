import StreamSocket.Core.LTS
import StreamSocket.L2Machine.ByteStream

/-!
# Runs of a ByteStream

Any interleaving of the Writer's and the Reader's methods and of the helper
`read`. The ghosts record the bytes the Writer accepted and the bytes removed,
both read off the buffer before and after the step.

* `inductive_inv`: the buffer is what was accepted and not yet removed.
* `bounded_fifo`: so the stream is a FIFO of bounded size, its three sizes
  agree, and a `read` always succeeds.
-/
namespace StreamSocket.L3.ByteStreamRun

open L2

structure State where
  s : ByteStream
  accepted : Bytes
  removed : Bytes
  deriving DecidableEq, Repr

inductive Label where
  | push (data : Bytes)
  | close
  | setError
  | pop (len : Nat)
  | read (len : Nat)
  deriving DecidableEq, Repr

def State.start (capacity : Nat) : State := ⟨.new capacity, [], []⟩

/-- The step to `s'`: what the buffer gained at the end came from `data`, what
it lost was at the front. -/
def State.wrote (t : State) (data : Bytes) (s' : ByteStream) : State :=
  { t with s := s', accepted := t.accepted ++ data.take (s'.stream.length - t.s.stream.length) }

def State.took (t : State) (s' : ByteStream) : State :=
  { t with s := s',
           removed := t.removed ++ t.s.stream.take (t.s.stream.length - s'.stream.length) }

/-- `none`: `read` throws. -/
def step (t : State) : Label → Option State
  | .push data => some (t.wrote data (Writer.push t.s data))
  | .close => some { t with s := Writer.close t.s }
  | .setError => some { t with s := Writer.setError t.s }
  | .pop len => some (t.took (Reader.pop t.s len))
  | .read len => (read t.s len).toOption.map fun (s', _) => t.took s'

def machine : LTS State Label :=
  LTS.ofFn (fun t => ∃ c, c < 2 ^ 64 ∧ t = .start c) step

structure Inv (t : State) : Prop where
  stream : t.s.Inv
  fifo : t.removed ++ t.s.stream = t.accepted
  pushed : t.s.bytesWrite = t.accepted.length % 2 ^ 64
  popped : t.s.bytesRead = t.removed.length % 2 ^ 64

theorem inv_start {c : Nat} (hc : c < 2 ^ 64) : Inv (.start c) :=
  ⟨ByteStream.inv_new c hc, rfl, rfl, rfl⟩

/-- The bytes a push appends are the prefix of `data` that fits. -/
theorem wrote_eq {t : State} (h : Inv t) (data : Bytes) :
    t.wrote data (Writer.push t.s data) =
      { t with s := Writer.push t.s data,
               accepted := t.accepted ++ data.take (t.s.capacity - t.s.stream.length) } := by
  have hs := congrArg List.length (h.stream.push_stream data)
  rw [List.length_append, List.length_take] at hs
  have htake : data.take ((Writer.push t.s data).stream.length - t.s.stream.length) =
      data.take (t.s.capacity - t.s.stream.length) := by
    rw [List.take_eq_take_iff]; omega
  unfold State.wrote
  rw [htake]

theorem Inv.push {t : State} (h : Inv t) (data : Bytes) :
    Inv (t.wrote data (Writer.push t.s data)) := by
  rw [wrote_eq h]
  refine ⟨ByteStream.inv_push h.stream data, ?_, ?_, h.popped⟩
  · rw [h.stream.push_stream, ← List.append_assoc, h.fifo]
  · show (Writer.push t.s data).bytesWrite = _
    rw [h.stream.push_write, h.pushed, Nat.mod_add_mod, List.length_append]

/-- A pop of at most what is buffered removes that prefix. -/
theorem took_pop {t : State} {len : Nat} (hl : len ≤ t.s.stream.length) :
    t.took (Reader.pop t.s len) =
      { t with s := Reader.pop t.s len, removed := t.removed ++ t.s.stream.take len } := by
  unfold State.took
  have : t.s.stream.length - (Reader.pop t.s len).stream.length = len := by
    rw [ByteStream.pop_eq hl, List.length_drop]; omega
  rw [this]

theorem Inv.pop {t : State} (h : Inv t) {len : Nat} (hl : len ≤ t.s.stream.length) :
    Inv (t.took (Reader.pop t.s len)) := by
  rw [took_pop hl]
  have hp := ByteStream.pop_eq hl
  refine ⟨ByteStream.inv_pop h.stream len, ?_, ?_, ?_⟩
  · show t.removed ++ t.s.stream.take len ++ (Reader.pop t.s len).stream = t.accepted
    rw [hp, List.append_assoc, List.take_append_drop, h.fifo]
  · show (Reader.pop t.s len).bytesWrite = _
    rw [hp]; exact h.pushed
  · show (Reader.pop t.s len).bytesRead = (t.removed ++ t.s.stream.take len).length % 2 ^ 64
    rw [hp, List.length_append, List.length_take, Nat.min_eq_left hl]
    show add64 t.s.bytesRead len = _
    rw [h.popped, add64_eq, Nat.mod_add_mod]

/-- A pop of more sets the error flag only. -/
theorem pop_over {s : ByteStream} {len : Nat} (hl : s.stream.length < len) :
    Reader.pop s len = { s with error := true } := by
  unfold Reader.pop; rw [if_pos hl]

theorem Inv.step {t t' : State} {l : Label} (h : Inv t)
    (hs : ByteStreamRun.step t l = some t') : Inv t' := by
  cases l with
  | push data =>
    cases hs
    exact h.push data
  | close =>
    cases hs
    exact ⟨ByteStream.inv_close h.stream, h.fifo, h.pushed, h.popped⟩
  | setError =>
    cases hs
    exact ⟨⟨h.stream.cap_lt, h.stream.fits, h.stream.write_eq, h.stream.read_lt⟩, h.fifo,
      h.pushed, h.popped⟩
  | pop len =>
    cases hs
    by_cases hl : len ≤ t.s.stream.length
    · exact h.pop hl
    · rw [pop_over (Nat.not_le.mp hl)]
      unfold State.took
      rw [Nat.sub_self, List.take_zero, List.append_nil]
      exact ⟨⟨h.stream.cap_lt, h.stream.fits, h.stream.write_eq, h.stream.read_lt⟩, h.fifo,
        h.pushed, h.popped⟩
  | read len =>
    simp only [ByteStreamRun.step, ByteStream.read_eq h.stream] at hs
    cases hs
    exact h.pop (Nat.min_le_right _ _)

theorem inductive_inv : machine.Inductive Inv where
  init := by rintro _ ⟨c, hc, rfl⟩; exact inv_start hc
  step := fun _ _ _ h hs => h.step hs

/-! ## The laws -/

/-- What a `read` of `len` bytes returns, and leaves of `s`. -/
structure Reads (s : ByteStream) (len : Nat) (s' : ByteStream) (out : Bytes) : Prop where
  read : read s len = .ok (s', out)
  fuel : ∀ fuel, readLoop len (fuel + 1) s [] = .ok (s', out)
  returned : out = (Reader.peek s).take (min len (Reader.bytesBuffered s))
  stream : Reader.peek s = out ++ Reader.peek s'
  popped : Reader.bytesPopped s' = add64 (Reader.bytesPopped s) out.length
  frame : s'.capacity = s.capacity ∧ s'.bytesWrite = s.bytesWrite ∧ s'.close = s.close ∧
    s'.error = s.error

/-- What a pop of `len` bytes leaves of `s`. -/
structure Pops (s : ByteStream) (len : Nat) : Prop where
  beyond : Reader.bytesBuffered s < len → Reader.pop s len = { s with error := true }
  within : len ≤ Reader.bytesBuffered s → Reader.pop s len =
    { s with stream := s.stream.drop len, bytesRead := add64 s.bytesRead len }

/-- A bounded FIFO: `t.accepted` and `t.removed` are the history. -/
structure BoundedFifo (t : State) : Prop where
  fifo : t.removed ++ Reader.peek t.s = t.accepted
  buffered : Reader.bytesBuffered t.s = (Reader.peek t.s).length
  counters : Reader.bytesBuffered t.s = sub64 (Writer.bytesPushed t.s) (Reader.bytesPopped t.s)
  totals : Writer.bytesPushed t.s = t.accepted.length % 2 ^ 64 ∧
    Reader.bytesPopped t.s = t.removed.length % 2 ^ 64
  bounded : (Reader.peek t.s).length ≤ t.s.capacity
  room : Writer.availableCapacity t.s + (Reader.peek t.s).length = t.s.capacity
  accepts : ∀ data, (t.wrote data (Writer.push t.s data)).accepted =
    t.accepted ++ data.take (min data.length (Writer.availableCapacity t.s))
  pops : ∀ len, Pops t.s len
  reads : ∀ len, ∃ s' out, Reads t.s len s' out

theorem Inv.reads {t : State} (h : Inv t) (len : Nat) : ∃ s' out, Reads t.s len s' out := by
  have hp := ByteStream.pop_eq (Nat.min_le_right len t.s.stream.length)
  have hmin : t.s.stream.take (min len t.s.stream.length) = t.s.stream.take len := by
    rw [List.take_eq_take_iff]; omega
  refine ⟨_, _, ByteStream.read_eq h.stream len, ByteStream.readLoop_eq h.stream len, ?_, ?_, ?_,
    by rw [hp]; exact ⟨rfl, rfl, rfl, rfl⟩⟩
  · rw [h.stream.buffered]; exact hmin.symm
  · rw [hp, ← hmin]; exact (List.take_append_drop _ _).symm
  · rw [hp, List.length_take]; rfl

/-- **ByteStream is a bounded FIFO**, in every reachable state: nothing is
lost, reordered or invented, the three sizes agree within the capacity, and
`pop` and `read` do what they say. -/
theorem bounded_fifo (t : State) (hr : machine.Reachable t) : BoundedFifo t := by
  have h := inductive_inv.reachable t hr
  have hav := h.stream.available
  have hfits := h.stream.fits
  refine { fifo := h.fifo, buffered := h.stream.buffered, counters := rfl,
           totals := ⟨h.pushed, h.popped⟩, bounded := hfits, room := ?_, accepts := fun data => ?_,
           pops := fun len => ⟨fun hl => ?_, fun hl => ?_⟩, reads := h.reads }
  · rw [hav]; exact Nat.sub_add_cancel hfits
  · rw [wrote_eq h, hav]
    have : data.take (min data.length (t.s.capacity - t.s.stream.length)) =
        data.take (t.s.capacity - t.s.stream.length) := by
      rw [List.take_eq_take_iff]; omega
    rw [this]
  · rw [h.stream.buffered] at hl
    exact pop_over hl
  · rw [h.stream.buffered] at hl
    exact ByteStream.pop_eq hl

/-- A push that is cut off, a read, and a pop of too much. -/
theorem bounded_fifo_run : ∃ t, machine.Run (.start 4)
    [.push [1, 2, 3], .read 2, .push [4, 5, 6, 7], .pop 9, .close] t ∧ BoundedFifo t := by
  obtain ⟨t, ht⟩ := Option.isSome_iff_exists.mp (show (LTS.exec step (.start 4)
    [.push [1, 2, 3], .read 2, .push [4, 5, 6, 7], .pop 9, .close]).isSome = true by
    decide +kernel)
  exact ⟨t, LTS.run_of_exec ht, bounded_fifo t (LTS.reachable_of_exec ⟨4, by decide, rfl⟩ ht)⟩

end StreamSocket.L3.ByteStreamRun
