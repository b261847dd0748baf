import StreamSocket.Core.Except
import StreamSocket.L2Machine.ByteStream

/-!
# FileDescriptor: reads, writes, and the bytes on their way

A descriptor counts its reads and writes and remembers the end of file. What
the kernel answers is an argument.

A loop of this repository moves bytes in two ways. It reads a descriptor into a
ByteStream, as much as there is room for, and closes the stream at the end of
file (`fill`); and it writes what a stream has buffered, and pops what was taken
(`drain`).

* `read_eq`: whatever the buffers held, the bytes that arrive fill them in
  order, and nothing else is left in them.
* `fill_eq`, `drain_eq`: the bytes move from one place to the other.
-/
namespace StreamSocket.L2

/-- The state that all duplicates of a descriptor share.
mirrors src/util/file_descriptor.hh:18-23 -/
structure FileDescriptor where
  fd : Nat
  eof : Bool := false
  closed : Bool := false
  nonBlocking : Bool := false
  readCount : UInt32 := 0
  writeCount : UInt32 := 0
  deriving DecidableEq, Repr

namespace FileDescriptor

/-- mirrors src/util/file_descriptor.hh:49 -/
def kReadBufferSize : Nat := 16384

/-! ## Reading into several buffers -/

/-- `readv` fills the buffers in order, and leaves what is behind the bytes. -/
def readv : List Bytes → Bytes → List Bytes
  | [], _ => []
  | buf :: bufs, bytes =>
    (bytes.take buf.length ++ buf.drop bytes.length) :: readv bufs (bytes.drop buf.length)

/-- The loop that cuts the buffers down to what was read.
mirrors src/util/file_descriptor.cc:142-150 -/
def resize : Nat → List Bytes → List Bytes
  | _, [] => []
  | remainingSize, buf :: bufs =>
    if remainingSize ≥ buf.length then buf :: resize (remainingSize - buf.length) bufs
    else buf.take remainingSize :: resize 0 bufs

/-- A read that gets `bytes`, or as much of them as there is room for.
mirrors src/util/file_descriptor.cc:111-151 -/
def read (buffers : List Bytes) (bytes : Bytes) : List Bytes :=
  if buffers = [] then []
  else
    let buffers := buffers.dropLast ++ [List.replicate kReadBufferSize 0]
    let totalSize := (buffers.map List.length).sum
    resize (min totalSize bytes.length) (readv buffers bytes)

/-- The bytes, cut into pieces of the given sizes. -/
def cut : List Nat → Bytes → List Bytes
  | [], _ => []
  | size :: sizes, bytes => bytes.take size :: cut sizes (bytes.drop size)

/-- The loop leaves in each buffer the bytes that it got. -/
theorem resize_readv (buffers : List Bytes) (bytes : Bytes) :
    resize (min (buffers.map List.length).sum bytes.length) (readv buffers bytes) =
      cut (buffers.map List.length) bytes := by
  induction buffers generalizing bytes with
  | nil => rfl
  | cons buf bufs ih =>
    simp only [List.map_cons, List.sum_cons, readv, resize, cut]
    have hlen : (bytes.take buf.length ++ buf.drop bytes.length).length = buf.length := by
      rw [List.length_append, List.length_take, List.length_drop]
      omega
    rw [hlen]
    have hrest := ih (bytes.drop buf.length)
    rw [List.length_drop] at hrest
    by_cases hfull : buf.length ≤ bytes.length
    · -- the buffer is filled
      have hmin : min (buf.length + (bufs.map List.length).sum) bytes.length - buf.length =
          min (bufs.map List.length).sum (bytes.length - buf.length) := by omega
      rw [if_pos (by omega), hmin, hrest, List.drop_of_length_le hfull, List.append_nil]
    · -- the bytes end in it, and the loop empties those behind it
      have hmin : min (buf.length + (bufs.map List.length).sum) bytes.length = bytes.length := by
        omega
      have hzero : bytes.length - buf.length = 0 := by omega
      rw [hzero, Nat.min_zero] at hrest
      rw [hmin, if_neg (by omega), hrest, List.take_of_length_le (by omega : _ ≤ buf.length),
        List.take_left' rfl]

/-- Nothing that the buffers held before is left. -/
theorem read_eq {buffers : List Bytes} (h : buffers ≠ []) (bytes : Bytes) :
    read buffers bytes =
      cut (buffers.dropLast.map List.length ++ [kReadBufferSize]) bytes := by
  unfold read
  rw [if_neg h]
  dsimp only
  rw [resize_readv, List.map_append, List.map_singleton, List.length_replicate]

/-! ## Reads and writes of one buffer -/

/-- A read into a buffer of `size` zero bytes; `kernel` says what arrives
(`none`: EAGAIN), and nothing is the end of file. Without anything to read the
buffer stays as it is.
mirrors src/util/file_descriptor.cc:83-109 -/
def readString (fd : FileDescriptor) (size : Nat) (kernel : Nat → Option Bytes) :
    Except String (FileDescriptor × Bytes) :=
  let size := if size = 0 then kReadBufferSize else size
  match kernel size with
  | none => if fd.nonBlocking then .ok (fd, List.replicate size 0) else .error "read"
  | some bytes =>
    if bytes.length > size then .error "read() read more than requested"
    else .ok ({ fd with readCount := fd.readCount + 1, eof := fd.eof || bytes.isEmpty }, bytes)

/-- `kernel` says how many bytes are taken (`none`: EAGAIN).
mirrors src/util/file_descriptor.cc:17-28, 153-191 -/
def writeString (fd : FileDescriptor) (buffer : Bytes) (kernel : Nat → Option Nat) :
    Except String (FileDescriptor × Nat) :=
  let written : Except String Nat :=
    match kernel buffer.length with
    | none => if fd.nonBlocking then .ok 0 else .error "writev"
    | some n => .ok n
  written.bind fun n =>
    if n = 0 ∧ buffer.length ≠ 0 then .error "write returned 0 given non-empty input buffer"
    else if n > buffer.length then .error "write wrote more than length of input buffer"
    else .ok ({ fd with writeCount := fd.writeCount + 1 }, n)

/-- What `read` gives of a pipe or a stream socket: some of the bytes that wait,
or the end of file behind the last of them. `moves` is how many there may be at
once, less one; `none`: nothing moves now. -/
def arrived (waiting : Bytes) (ended : Bool) (moves : Option Nat) (size : Nat) : Option Bytes :=
  moves.bind fun k =>
    if waiting = [] then if ended then some [] else none
    else some (waiting.take (min (k + 1) size))

/-- What `writev` takes. -/
def accepted (moves : Option Nat) (size : Nat) : Option Nat := moves.map fun k => min (k + 1) size

/-- How many bytes were taken comes last.
mirrors src/util/tcp_minnow_socket.cc:117-122 -/
def fill (fd : FileDescriptor) (out : ByteStream) (kernel : Nat → Option Bytes) :
    Except String (FileDescriptor × ByteStream × Nat) :=
  let size := Writer.availableCapacity out
  (fd.readString size kernel).map fun (fd, data) =>
    let out := Writer.push out data
    (fd, if fd.eof then Writer.close out else out,
      ((kernel (if size = 0 then kReadBufferSize else size)).getD []).length)

/-- `broken`: a write fails.
mirrors src/util/tcp_minnow_socket.cc:154-158 -/
def drain (fd : FileDescriptor) (inp : ByteStream) (broken : Bool) (kernel : Nat → Option Nat) :
    Except String (FileDescriptor × ByteStream × Bytes) :=
  if Reader.bytesBuffered inp = 0 then .ok (fd, inp, [])
  else if broken then .error "writev"
  else
    let buffer := Reader.peek inp
    (fd.writeString buffer kernel).map fun (fd, bytesWritten) =>
      (fd, Reader.pop inp bytesWritten, buffer.take bytesWritten)

/-! ## What moves -/

/-- Something can be read. -/
def Readable (waiting : Bytes) (ended : Bool) (moves : Option Nat) : Prop :=
  moves ≠ none ∧ (waiting ≠ [] ∨ ended = true)

instance (waiting : Bytes) (ended : Bool) (moves : Option Nat) :
    Decidable (Readable waiting ended moves) := inferInstanceAs (Decidable (_ ∧ _))

section

variable {fd fd' : FileDescriptor} {waiting : Bytes} {ended : Bool} {moves : Option Nat}

theorem Readable.arrived_eq (hr : Readable waiting ended moves) (size : Nat) :
    arrived waiting ended moves size = some (waiting.take (min (moves.getD 0 + 1) size)) := by
  obtain ⟨k, hk⟩ := Option.ne_none_iff_exists'.mp hr.1
  unfold arrived
  rw [hk, Option.bind_some, Option.getD_some]
  split
  · rename_i hnil
    rw [hnil, List.take_nil, if_pos (hr.2.resolve_left fun hne => hne hnil)]
  · rfl

/-- The outcome of a `fill` that had room: the first bytes, no more than there
is room for, or the end of file. -/
structure Filled (fd : FileDescriptor) (out : ByteStream) (waiting : Bytes) (ended : Bool)
    (fd' : FileDescriptor) (out' : ByteStream) (taken : Nat) (data : Bytes) : Prop where
  split : waiting = data ++ waiting.drop taken
  fits : data.length ≤ Writer.availableCapacity out
  last : data = [] → waiting = [] ∧ ended = true
  count : fd'.readCount = fd.readCount + 1
  writes : fd'.writeCount = fd.writeCount
  closed : fd'.closed = fd.closed
  eof : fd'.eof = (fd.eof || data.isEmpty)
  stream : out' = if fd'.eof then Writer.close (Writer.push out data) else Writer.push out data

theorem readString_eq {size : Nat} {kernel : Nat → Option Bytes} {bytes : Bytes}
    (hpos : 0 < size) (hk : kernel size = some bytes) (hle : bytes.length ≤ size) :
    fd.readString size kernel =
      .ok ({ fd with readCount := fd.readCount + 1, eof := fd.eof || bytes.isEmpty }, bytes) := by
  have hsize : (if size = 0 then kReadBufferSize else size) = size := if_neg (by omega)
  unfold readString
  dsimp only
  rw [hsize, hk]
  exact if_neg (by omega)

theorem fill_some {out : ByteStream} {kernel : Nat → Option Bytes} {data : Bytes}
    (hpos : 0 < Writer.availableCapacity out)
    (hk : kernel (Writer.availableCapacity out) = some data)
    (hle : data.length ≤ Writer.availableCapacity out) :
    fd.fill out kernel =
      .ok ({ fd with readCount := fd.readCount + 1, eof := fd.eof || data.isEmpty },
        if fd.eof || data.isEmpty then Writer.close (Writer.push out data)
        else Writer.push out data, data.length) := by
  unfold fill
  dsimp only
  rw [readString_eq hpos hk hle, if_neg (by omega), hk]
  rfl

/-- With something to read and room for it, bytes move. -/
theorem fill_total (fd : FileDescriptor) {out : ByteStream}
    (hr : Readable waiting ended moves)
    (hpos : 0 < Writer.availableCapacity out) : ∃ fd' out' taken data,
      fd.fill out (arrived waiting ended moves) = .ok (fd', out', taken) ∧
      Filled fd out waiting ended fd' out' taken data := by
  have harrived := hr.arrived_eq (Writer.availableCapacity out)
  generalize hdata : waiting.take (min (moves.getD 0 + 1) (Writer.availableCapacity out)) = data
    at harrived
  have hle : data.length ≤ Writer.availableCapacity out := by
    rw [← hdata, List.length_take]
    omega
  refine ⟨_, _, _, data, fill_some hpos harrived hle, ?_, hle, fun hnil => ?_, rfl, rfl, rfl, rfl,
    rfl⟩
  · rw [← hdata, List.length_take, ← List.drop_eq_drop_min, List.take_append_drop]
  · rw [hnil] at hdata
    rcases List.take_eq_nil_iff.mp hdata with hz | hnone
    · omega
    · exact ⟨hnone, hr.2.resolve_left fun hne => hne hnone⟩

theorem fill_eq {out out' : ByteStream} {taken : Nat} (hr : Readable waiting ended moves)
    (hpos : 0 < Writer.availableCapacity out)
    (h : fd.fill out (arrived waiting ended moves) = .ok (fd', out', taken)) :
    ∃ data, Filled fd out waiting ended fd' out' taken data := by
  obtain ⟨fd₁, out₁, taken₁, data, heq, hfilled⟩ := fd.fill_total hr hpos
  rw [heq] at h
  cases h
  exact ⟨data, hfilled⟩

/-- The outcomes of a `drain`: there is nothing to write, or some of it is. -/
theorem drain_eq {inp inp' : ByteStream} {broken : Bool} {kernel : Nat → Option Nat}
    {bytes : Bytes} (h : fd.drain inp broken kernel = .ok (fd', inp', bytes)) :
    (Reader.bytesBuffered inp = 0 ∧ fd' = fd ∧ inp' = inp ∧ bytes = []) ∨
    ∃ n, n ≤ inp.stream.length ∧ fd' = { fd with writeCount := fd.writeCount + 1 } ∧
      inp' = Reader.pop inp n ∧ bytes = inp.stream.take n := by
  unfold drain at h
  split at h
  · rename_i hnone
    cases h
    exact .inl ⟨hnone, rfl, rfl, rfl⟩
  · split at h
    · cases h
    · obtain ⟨⟨fd₁, n⟩, hwrite, he⟩ := Except.map_eq_ok.mp h
      cases he
      obtain ⟨m, -, hwrite⟩ := Except.bind_eq_ok.mp hwrite
      split at hwrite
      · cases hwrite
      · split at hwrite
        · cases hwrite
        · rename_i hle
          cases hwrite
          exact .inr ⟨n, Nat.le_of_not_gt hle, rfl, rfl, rfl⟩

theorem drain_total {inp : ByteStream} {broken : Bool} (hmoves : moves ≠ none)
    (hbroken : broken = true → Reader.bytesBuffered inp = 0) :
    ∃ res, fd.drain inp broken (accepted moves) = .ok res := by
  obtain ⟨k, hk⟩ := Option.ne_none_iff_exists'.mp hmoves
  unfold drain writeString accepted
  split
  · exact ⟨_, rfl⟩
  · rename_i hbuf
    rw [if_neg fun hs => hbuf (hbroken hs), hk]
    dsimp only [Option.map_some, Except.bind]
    rw [if_neg (by omega), if_neg (by omega)]
    exact ⟨_, rfl⟩

end

end FileDescriptor
end StreamSocket.L2
