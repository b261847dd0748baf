import StreamSocket.Core.Word

/-!
# ByteStream: the bounded byte queue between a Writer and a Reader

`Writer` and `Reader` are two views of one `ByteStream` (no fields of their
own), so their methods are functions on it. `std::vector<char>` is a
`List UInt8`; the counters are 64-bit and wrap.

`Inv` ties the three size representations together: the buffer fits in the
capacity and `bytes_write` is `bytes_read` plus the buffered bytes, modulo
`2^64`. `read_eq`: under `Inv` the helper `read` neither throws nor sets the
error flag and takes exactly the first `min len size` bytes.
-/
namespace StreamSocket.L2

/-- mirrors src/src/byte_stream.hh:12-23 -/
structure ByteStream where
  capacity : Nat
  stream : Bytes := []
  bytesRead : Nat := 0
  bytesWrite : Nat := 0
  error : Bool := false
  close : Bool := false
  deriving DecidableEq, Repr

namespace Writer

/-- mirrors src/src/byte_stream.cc:37-41 -/
def availableCapacity (s : ByteStream) : Nat := sub64 s.capacity s.stream.length

/-- mirrors src/src/byte_stream.cc:9-17 -/
def push (s : ByteStream) (data : Bytes) : ByteStream :=
  let lengthWrite := min data.length (sub64 s.capacity s.stream.length)
  { s with stream := s.stream ++ data.take lengthWrite,
           bytesWrite := add64 s.bytesWrite lengthWrite }

/-- mirrors src/src/byte_stream.cc:19-23 -/
def close (s : ByteStream) : ByteStream := { s with close := true }

/-- mirrors src/src/byte_stream.cc:25-29 -/
def setError (s : ByteStream) : ByteStream := { s with error := true }

/-- mirrors src/src/byte_stream.cc:31-35 -/
def isClosed (s : ByteStream) : Bool := s.close

/-- mirrors src/src/byte_stream.cc:43-46 -/
def bytesPushed (s : ByteStream) : Nat := s.bytesWrite

end Writer

namespace Reader

/-- mirrors src/src/byte_stream.cc:48-52 -/
def peek (s : ByteStream) : Bytes := s.stream

/-- mirrors src/src/byte_stream.cc:54-58 -/
def isFinished (s : ByteStream) : Bool := s.close && s.bytesWrite == s.bytesRead

/-- mirrors src/src/byte_stream.cc:60-63 -/
def hasError (s : ByteStream) : Bool := s.error

/-- mirrors src/src/byte_stream.cc:65-74 -/
def pop (s : ByteStream) (len : Nat) : ByteStream :=
  if len > s.stream.length then { s with error := true }
  else { s with stream := s.stream.drop len, bytesRead := add64 s.bytesRead len }

/-- mirrors src/src/byte_stream.cc:76-80 -/
def bytesBuffered (s : ByteStream) : Nat := sub64 s.bytesWrite s.bytesRead

/-- mirrors src/src/byte_stream.cc:82-85 -/
def bytesPopped (s : ByteStream) : Nat := s.bytesRead

end Reader

/-- The loop of `read`; each round appends at least one byte to `out`, so
`len + 1` rounds reach the exit test.
mirrors src/src/byte_stream_helpers.cc:14-24 -/
def readLoop (len : Nat) : Nat → ByteStream → Bytes → Except String (ByteStream × Bytes)
  | 0, s, out => .ok (s, out)
  | fuel + 1, s, out =>
    if Reader.bytesBuffered s ≠ 0 ∧ out.length < len then
      let view := Reader.peek s
      if view.isEmpty then .error "Reader::peek() returned empty string_view"
      else
        let view := view.take (len - out.length)
        readLoop len fuel (Reader.pop s view.length) (out ++ view)
    else .ok (s, out)

/-- mirrors src/src/byte_stream_helpers.cc:10-25 -/
def read (s : ByteStream) (len : Nat) : Except String (ByteStream × Bytes) :=
  readLoop len (len + 1) s []

namespace ByteStream

/-- mirrors src/src/byte_stream.cc:7 -/
def new (capacity : Nat) : ByteStream := { capacity := capacity }

structure Inv (s : ByteStream) : Prop where
  cap_lt : s.capacity < 2 ^ 64
  fits : s.stream.length ≤ s.capacity
  write_eq : s.bytesWrite = (s.bytesRead + s.stream.length) % 2 ^ 64
  read_lt : s.bytesRead < 2 ^ 64

instance (s : ByteStream) : Decidable s.Inv :=
  decidable_of_iff (s.capacity < 2 ^ 64 ∧ s.stream.length ≤ s.capacity ∧
      s.bytesWrite = (s.bytesRead + s.stream.length) % 2 ^ 64 ∧ s.bytesRead < 2 ^ 64)
    ⟨fun h => ⟨h.1, h.2.1, h.2.2.1, h.2.2.2⟩, fun h => ⟨h.1, h.2, h.3, h.4⟩⟩

theorem inv_new (c : Nat) (hc : c < 2 ^ 64) : (new c).Inv :=
  ⟨hc, Nat.zero_le _, by simp [new], by simp [new]⟩

theorem Inv.available {s : ByteStream} (h : s.Inv) :
    Writer.availableCapacity s = s.capacity - s.stream.length := by
  unfold Writer.availableCapacity
  rw [sub64_of_le h.fits h.cap_lt]

theorem Inv.buffered {s : ByteStream} (h : s.Inv) : Reader.bytesBuffered s = s.stream.length := by
  have := h.fits
  have := h.cap_lt
  unfold Reader.bytesBuffered
  rw [h.write_eq, Nat.add_comm, sub64_mod_add, Nat.mod_eq_of_lt (by omega)]

theorem Inv.finished {s : ByteStream} (h : s.Inv) :
    Reader.isFinished s = true ↔ s.close = true ∧ s.stream = [] := by
  have hb := h.write_eq
  have := h.fits
  have := h.cap_lt
  have := h.read_lt
  have hl : s.stream = [] ↔ s.stream.length = 0 := List.length_eq_zero_iff.symm
  unfold Reader.isFinished
  rw [Bool.and_eq_true, beq_iff_eq, hl]
  constructor
  · rintro ⟨hc, he⟩; exact ⟨hc, by omega⟩
  · rintro ⟨hc, he⟩; exact ⟨hc, by omega⟩

/-- What `push` accepts: the prefix that fits. -/
theorem Inv.push_stream {s : ByteStream} (h : s.Inv) (data : Bytes) :
    (Writer.push s data).stream = s.stream ++ data.take (s.capacity - s.stream.length) := by
  simp only [Writer.push, sub64_of_le h.fits h.cap_lt]
  rcases Nat.le_total data.length (s.capacity - s.stream.length) with hle | hle
  · rw [Nat.min_eq_left hle, List.take_of_length_le (Nat.le_refl _), List.take_of_length_le hle]
  · rw [Nat.min_eq_right hle]

theorem Inv.push_write {s : ByteStream} (h : s.Inv) (data : Bytes) :
    (Writer.push s data).bytesWrite =
      (s.bytesWrite + (data.take (s.capacity - s.stream.length)).length) % 2 ^ 64 := by
  simp only [Writer.push, sub64_of_le h.fits h.cap_lt, add64_eq, List.length_take]
  rw [Nat.min_comm]

theorem inv_push {s : ByteStream} (h : s.Inv) (data : Bytes) : (Writer.push s data).Inv := by
  have hs := h.push_stream data
  have hw := h.push_write data
  refine ⟨h.cap_lt, ?_, ?_, h.read_lt⟩
  · have := h.fits
    rw [hs, List.length_append, List.length_take]
    show _ ≤ s.capacity
    omega
  · rw [hw, hs, List.length_append, h.write_eq, Nat.mod_add_mod, ← Nat.add_assoc]
    rfl

theorem inv_close {s : ByteStream} (h : s.Inv) : (Writer.close s).Inv :=
  ⟨h.cap_lt, h.fits, h.write_eq, h.read_lt⟩

theorem inv_pop {s : ByteStream} (h : s.Inv) (len : Nat) : (Reader.pop s len).Inv := by
  unfold Reader.pop
  split
  · exact ⟨h.cap_lt, h.fits, h.write_eq, h.read_lt⟩
  · have hf := h.fits
    refine ⟨h.cap_lt, ?_, ?_, add64_lt _ _⟩
    · simp only [List.length_drop]; omega
    · simp only [List.length_drop, h.write_eq, add64_eq, Nat.mod_add_mod]
      congr 1; omega

/-- A pop of at most the buffered size takes that many bytes. -/
theorem pop_eq {s : ByteStream} {len : Nat} (h : len ≤ s.stream.length) :
    Reader.pop s len =
      { s with stream := s.stream.drop len, bytesRead := add64 s.bytesRead len } := by
  unfold Reader.pop; rw [if_neg (by omega)]

theorem pop_zero {s : ByteStream} (h : s.Inv) : Reader.pop s 0 = s := by
  rw [pop_eq (Nat.zero_le _), add64_of_lt h.read_lt]; simp

/-- The exit test of the loop: nothing buffered, or `len` bytes read. -/
theorem readLoop_done {s : ByteStream} (h : s.Inv) (len fuel : Nat) (out : Bytes)
    (hd : s.stream = [] ∨ len ≤ out.length) : readLoop len fuel s out = .ok (s, out) := by
  cases fuel with
  | zero => rfl
  | succ fuel =>
    have hb := h.buffered
    rw [readLoop, if_neg]
    rintro ⟨h1, h2⟩
    rcases hd with hd | hd
    · rw [hd] at hb; exact h1 hb
    · omega

/-- One round reads everything, so the loop ends however much fuel it has. -/
theorem readLoop_eq {s : ByteStream} (h : s.Inv) (len fuel : Nat) :
    readLoop len (fuel + 1) s [] =
      .ok (Reader.pop s (min len s.stream.length), s.stream.take len) := by
  by_cases hd : s.stream = [] ∨ len = 0
  · rw [readLoop_done h _ _ _ (by rcases hd with hd | hd <;> simp [hd])]
    rcases hd with hd | hd <;> simp [hd, pop_zero h]
  · rw [not_or] at hd
    have hne : s.stream.length ≠ 0 := fun e => hd.1 (List.length_eq_zero_iff.mp e)
    rw [readLoop, if_pos ⟨by rw [h.buffered]; exact hne, by simp; omega⟩]
    simp only [Reader.peek, List.isEmpty_iff, hd.1, if_false, List.length_nil, Nat.sub_zero,
      List.nil_append, List.length_take]
    -- after it the buffer is empty or `len` bytes are out
    apply readLoop_done (inv_pop h _)
    rw [pop_eq (Nat.min_le_right _ _)]
    rcases Nat.le_total len s.stream.length with hle | hle
    · right; simp [hle]
    · left; simp [hle]

/-- Under the invariant `read` takes the first `min len size` bytes, never
throws and never sets the error flag. -/
theorem read_eq {s : ByteStream} (h : s.Inv) (len : Nat) :
    read s len = .ok (Reader.pop s (min len s.stream.length), s.stream.take len) :=
  readLoop_eq h len len

end ByteStream
end StreamSocket.L2
