import StreamSocket.Core.Word

/-!
# Parser and Serializer: bytes in, bytes out

A `Serializer` collects integers in network byte order and hands whole buffers
through; a `Parser` reads integers back from a list of buffers. `Parse` is a
parsing step: it reads and changes the parser's state, and is `none` where the
code throws, or takes the front of an empty view.

Results:
* `beValue_beBytes`: an integer of `n` bytes is read back modulo `256 ^ n`.
* `parse_eq_some`: a parse succeeds if its reader ends without the error flag.
* `integer_at`, `removePrefix_at`, `allRemainingBuffer_at`: what each operation
  does to a parser that stands at known bytes (`At`).
-/
namespace StreamSocket.L1

/-! ## Network byte order -/

/-- mirrors src/util/parser.hh:173-178 -/
def beBytes : Nat → Nat → Bytes
  | 0, _ => []
  | n + 1, val => UInt8.ofNat (val / 256 ^ n) :: beBytes n val

def beValue (acc : Nat) (bs : Bytes) : Nat := bs.foldl (fun acc b => acc * 256 + b.toNat) acc

@[simp] theorem beBytes_length (n val : Nat) : (beBytes n val).length = n := by
  induction n with
  | zero => rfl
  | succ n ih => simp [beBytes, ih]

/-- Big-endian bytes read back as the number, in the width they hold. -/
theorem beValue_beBytes (n val acc : Nat) :
    beValue acc (beBytes n val) = acc * 256 ^ n + val % 256 ^ n := by
  induction n generalizing acc with
  | zero => simp [beBytes, beValue, Nat.mod_one]
  | succ n ih =>
    have hb : (UInt8.ofNat (val / 256 ^ n)).toNat = val / 256 ^ n % 256 := UInt8.toNat_ofNat' ..
    have hstep : beValue acc (beBytes (n + 1) val) =
        beValue (acc * 256 + val / 256 ^ n % 256) (beBytes n val) := by
      rw [← hb]; rfl
    rw [hstep, ih, Nat.pow_succ, Nat.mod_mul]
    ring

/-! ## Serializer -/

/-- mirrors src/util/parser.hh:163-164 -/
structure Serializer where
  output : List Bytes := []
  buffer : Bytes := []
  deriving DecidableEq, Repr

namespace Serializer

/-- mirrors src/util/parser.hh:170-179 -/
def integer (n val : Nat) (s : Serializer) : Serializer :=
  { s with buffer := s.buffer ++ beBytes n val }

/-- mirrors src/util/parser.hh:194-198 -/
def flush (s : Serializer) : Serializer := { output := s.output ++ [s.buffer], buffer := [] }

/-- mirrors src/util/parser.hh:181-185 -/
def pushBuffer (buf : Bytes) (s : Serializer) : Serializer :=
  { s.flush with output := s.flush.output ++ [buf] }

/-- mirrors src/util/parser.hh:187-192 -/
def pushBuffers (bufs : List Bytes) (s : Serializer) : Serializer :=
  bufs.foldl (fun s b => s.pushBuffer b) s

/-- mirrors src/util/parser.hh:200-204 -/
def finish (s : Serializer) : List Bytes := s.flush.output

/-- All bytes, whatever the buffers. -/
def bytes (s : Serializer) : Bytes := s.output.flatten ++ s.buffer

theorem finish_flatten (s : Serializer) : s.finish.flatten = s.bytes := by
  simp [finish, flush, bytes]

@[simp] theorem bytes_integer (n val : Nat) (s : Serializer) :
    (s.integer n val).bytes = s.bytes ++ beBytes n val := by
  simp [integer, bytes]

@[simp] theorem bytes_pushBuffer (buf : Bytes) (s : Serializer) :
    (s.pushBuffer buf).bytes = s.bytes ++ buf := by
  simp [pushBuffer, flush, bytes]

/-- What is flushed between the buffers: nothing, in a buffer each. -/
def spaced : List Bytes → List Bytes
  | [] => []
  | b :: bs => b :: [] :: spaced bs

@[simp] theorem spaced_flatten (bufs : List Bytes) : (spaced bufs).flatten = bufs.flatten := by
  induction bufs with
  | nil => rfl
  | cons b bs ih => simp [spaced, ih]

/-- What was written so far is one buffer, in front of those pushed. -/
theorem finish_pushBuffers (bufs : List Bytes) (s : Serializer) :
    (s.pushBuffers bufs).finish = s.output ++ s.buffer :: spaced bufs := by
  induction bufs generalizing s with
  | nil => rfl
  | cons b bs ih =>
    have hstep : s.pushBuffers (b :: bs) = (s.pushBuffer b).pushBuffers bs := rfl
    rw [hstep, ih]
    simp [pushBuffer, flush, spaced]

end Serializer

/-! ## Parser -/

/-- mirrors src/util/parser.hh:23-25 -/
structure BufferList where
  size : Nat := 0
  buffer : List Bytes := []
  skip : Nat := 0
  deriving DecidableEq, Repr

namespace BufferList

/-- mirrors src/util/parser.hh:29-34,94-98 -/
def ofBuffers (buffers : List Bytes) : BufferList :=
  { size := (buffers.map List.length).sum, buffer := buffers }

/-- `none`: the list is empty, and the code throws.
mirrors src/util/parser.hh:40-46 -/
def peek (l : BufferList) : Option Bytes :=
  match l.buffer with
  | [] => none
  | b :: _ => some (b.drop l.skip)

/-- The loop of `remove_prefix`: it drops whole buffers, then part of one, and
`len` is then used up.
mirrors src/util/parser.hh:48-60 -/
def removeLoop (size len : Nat) : List Bytes → Nat → BufferList
  | [], skip => { size := size, buffer := [], skip := skip }
  | b :: bs, skip =>
    if len = 0 then { size := size, buffer := b :: bs, skip := skip }
    else
      let toPopNow := min len (b.length - skip)
      if skip + toPopNow = b.length then removeLoop (size - toPopNow) (len - toPopNow) bs 0
      else { size := size - toPopNow, buffer := b :: bs, skip := skip + toPopNow }

def removePrefix (l : BufferList) (len : Nat) : BufferList :=
  removeLoop l.size len l.buffer l.skip

/-- mirrors src/util/parser.hh:62-77 -/
def dumpAll (l : BufferList) : List Bytes :=
  if l.size = 0 then []
  else
    match l.buffer with
    | [] => []
    | b :: bs => b.drop l.skip :: bs

/-- The first byte of the view; `none`: there is no view, or it is empty.
mirrors src/util/parser.hh:129,136 -/
def front (l : BufferList) : Option UInt8 := l.peek.bind List.head?

end BufferList

/-- mirrors src/util/parser.hh:101-102 -/
structure Parser where
  input : BufferList
  error : Bool := false
  deriving DecidableEq, Repr

/-- A step of parsing; `none` is an exception or undefined behaviour. -/
abbrev Parse := StateT Parser Option

namespace Parser

/-- mirrors src/util/parser.hh:112 -/
def new (input : List Bytes) : Parser := { input := .ofBuffers input }

/-- mirrors src/util/parser.hh:104-109 -/
def checkSize (p : Parser) (size : Nat) : Parser :=
  if size > p.input.size then { p with error := true } else p

/-- mirrors src/util/parser.hh:116-117 -/
def hasError : Parse Bool := fun p => some (p.error, p)

def setError : Parse Unit := fun p => some ((), { p with error := true })

/-- mirrors src/util/parser.hh:118 -/
def removePrefix (n : Nat) : Parse Unit := fun p =>
  some ((), { p with input := p.input.removePrefix n })

/-- mirrors src/util/parser.hh:134-138 -/
def readBytes : Nat → Nat → BufferList → Option (Nat × BufferList)
  | 0, acc, l => some (acc, l)
  | n + 1, acc, l => l.front.bind fun b => readBytes n (acc * 256 + b.toNat) (l.removePrefix 1)

/-- An integer of `n` bytes; on an error `out` keeps its value.
mirrors src/util/parser.hh:120-140 -/
def integer (n out : Nat) : Parse Nat := fun p =>
  if (p.checkSize n).error then some (out, p.checkSize n)
  else (readBytes n 0 p.input).map fun (v, input) => (v, { p with input := input })

def u8 (out : UInt8) : Parse UInt8 := do return UInt8.ofNat (← integer 1 out.toNat)
def u16 (out : UInt16) : Parse UInt16 := do return UInt16.ofNat (← integer 2 out.toNat)
def u32 (out : UInt32) : Parse UInt32 := do return UInt32.ofNat (← integer 4 out.toNat)

/-- The copying loop, with `n` bytes to go. A round on an empty view copies and
removes nothing, and so does the next: no fuel is enough then.
mirrors src/util/parser.hh:149-154 -/
def stringLoop : Nat → Nat → Bytes → BufferList → Option (Bytes × BufferList)
  | 0, n, out, l => if n = 0 then some (out, l) else none
  | fuel + 1, n, out, l =>
    if n = 0 then some (out, l)
    else l.peek.bind fun view =>
      let view := view.take n
      stringLoop fuel (n - view.length) (out ++ view) (l.removePrefix view.length)

/-- A round copies a byte at least, or the loop does not end.
mirrors src/util/parser.hh:142-155 -/
def string (out : Bytes) : Parse Bytes := fun p =>
  if (p.checkSize out.length).error then some (out, p.checkSize out.length)
  else (stringLoop out.length out.length [] p.input).map fun (v, input) =>
    (v, { p with input := input })

/-- The rest of the input as buffers; nothing reads the parser's input after it.
mirrors src/util/parser.hh:157 -/
def allRemaining : Parse (List Bytes) := fun p => some (p.input.dumpAll, p)

/-- The rest of the input in one buffer.
mirrors src/util/parser.hh:79-92,158 -/
def allRemainingBuffer : Parse Bytes := fun p =>
  match p.input.dumpAll with
  | [b] => some (b, p)
  | bs => some (bs.flatten, p)

end Parser

/-- The object read, if parsing ends without an error.
mirrors src/util/parser.hh:217-223 -/
def parse {α : Type} (read : Parse α) (buffers : List Bytes) : Option (Option α) :=
  (read (.new buffers)).map fun (a, p) => if p.error then none else some a

theorem parse_eq_some {α : Type} {read : Parse α} {buffers : List Bytes} {a : α} :
    parse read buffers = some (some a) ↔
      ∃ p, read (.new buffers) = some (a, p) ∧ p.error = false := by
  unfold parse
  constructor
  · intro h
    obtain ⟨⟨a', p⟩, e, h⟩ := Option.map_eq_some_iff.mp h
    by_cases hp : p.error = true
    · simp only [if_pos hp] at h
      cases h
    · simp only [if_neg hp, Option.some.injEq] at h
      exact ⟨p, h ▸ e, Bool.eq_false_iff.mpr hp⟩
  · rintro ⟨p, e, hp⟩
    rw [e]
    simp [hp]

/-! ## A parser that stands at known bytes -/

/-- `xs` is the rest of the first buffer, and `rest` the buffers behind it. A
buffer that is used up is dropped at once. -/
structure BufferList.At (l : BufferList) (xs : Bytes) (rest : List Bytes) : Prop where
  size : l.size = xs.length + (rest.map List.length).sum
  view : (∃ b, l.buffer = b :: rest ∧ l.skip < b.length ∧ b.drop l.skip = xs) ∨
    (xs = [] ∧ l.buffer = rest ∧ l.skip = 0)

structure Parser.At (p : Parser) (xs : Bytes) (rest : List Bytes) : Prop where
  ok : p.error = false
  input : p.input.At xs rest

theorem BufferList.At.peek {l : BufferList} {x : UInt8} {xs : Bytes} {rest : List Bytes}
    (h : l.At (x :: xs) rest) : l.front = some x := by
  rcases h.view with ⟨b, hb, -, hd⟩ | ⟨hn, -⟩
  · unfold BufferList.front BufferList.peek
    rw [hb]
    simp only [hd, Option.bind_some, List.head?_cons]
  · cases hn

theorem BufferList.removePrefix_zero (l : BufferList) : l.removePrefix 0 = l := by
  unfold BufferList.removePrefix
  cases hb : l.buffer with
  | nil => rw [BufferList.removeLoop, ← hb]
  | cons b bs => rw [BufferList.removeLoop, if_pos rfl, ← hb]

theorem BufferList.removePrefix_at {l : BufferList} {ys zs : Bytes} {rest : List Bytes}
    (h : l.At (ys ++ zs) rest) : (l.removePrefix ys.length).At zs rest := by
  have hsize := h.size
  rw [List.length_append] at hsize
  by_cases hy : ys.length = 0
  · rw [List.length_eq_zero_iff.mp hy, List.nil_append] at h
    rwa [hy, BufferList.removePrefix_zero]
  rcases h.view with ⟨b, hb, hlt, hd⟩ | ⟨hn, -⟩
  · have hlen := congrArg List.length hd
    rw [List.length_drop, List.length_append] at hlen
    unfold BufferList.removePrefix
    rw [hb, BufferList.removeLoop, if_neg hy, Nat.min_eq_left (by omega)]
    by_cases hz : zs = []
    · -- the first buffer is used up
      subst hz
      rw [List.length_nil] at hlen hsize
      simp only [show l.skip + ys.length = b.length by omega, if_true, Nat.sub_self]
      have : ∀ n, BufferList.removeLoop n 0 rest 0 = { size := n, buffer := rest } := by
        intro n
        cases rest with
        | nil => rfl
        | cons c cs => rw [BufferList.removeLoop, if_pos rfl]
      rw [this]
      exact ⟨by simp only [List.length_nil]; omega, .inr ⟨rfl, rfl, rfl⟩⟩
    · have hpos := List.length_pos_of_ne_nil hz
      simp only [show ¬ l.skip + ys.length = b.length by omega, if_false]
      refine ⟨by simp only; omega, .inl ⟨b, rfl, by simp only; omega, ?_⟩⟩
      simp only
      rw [← List.drop_drop, hd, List.drop_left' rfl]
  · exact absurd (List.append_eq_nil_iff.mp hn).1 fun h0 => hy (by rw [h0]; rfl)

theorem Parser.readBytes_at {rest : List Bytes} {zs : Bytes} : ∀ {ys : Bytes} {l : BufferList}
    (acc : Nat), l.At (ys ++ zs) rest →
    ∃ l', Parser.readBytes ys.length acc l = some (beValue acc ys, l') ∧ l'.At zs rest
  | [], l, acc, h => ⟨l, rfl, h⟩
  | y :: ys, l, acc, h => by
    have hy : l.At ([y] ++ (ys ++ zs)) rest := h
    have h1 : (l.removePrefix 1).At (ys ++ zs) rest := BufferList.removePrefix_at hy
    obtain ⟨l', h2, h3⟩ := Parser.readBytes_at (acc * 256 + y.toNat) h1
    refine ⟨l', ?_, h3⟩
    rw [List.length_cons, Parser.readBytes, h.peek, Option.bind_some, h2]
    rfl

theorem Parser.At.new (b : Bytes) (rest : List Bytes) (hb : b ≠ []) :
    (Parser.new (b :: rest)).At b rest :=
  ⟨rfl, ⟨rfl, .inl ⟨b, rfl, List.length_pos_of_ne_nil hb, rfl⟩⟩⟩

theorem Parser.checkSize_at {p : Parser} {ys zs : Bytes} {rest : List Bytes}
    (h : p.At (ys ++ zs) rest) : p.checkSize ys.length = p := by
  have := h.input.size
  rw [List.length_append] at this
  unfold Parser.checkSize
  rw [if_neg (by omega)]

/-- An integer that was serialized is read back. -/
theorem Parser.integer_at {p : Parser} {n val : Nat} {zs : Bytes} {rest : List Bytes} (out : Nat)
    (h : p.At (beBytes n val ++ zs) rest) :
    ∃ p', Parser.integer n out p = some (val % 256 ^ n, p') ∧ p'.At zs rest := by
  have hc := Parser.checkSize_at h
  obtain ⟨l', h1, h2⟩ := Parser.readBytes_at 0 h.input
  rw [beBytes_length] at hc h1
  refine ⟨{ p with input := l' }, ?_, ⟨h.ok, h2⟩⟩
  unfold Parser.integer
  rw [hc, h.ok, h1, beValue_beBytes]
  simp

theorem bind_of_some {α β : Type} {x : Parse α} {f : α → Parse β} {p p' : Parser} {a : α}
    (h : x p = some (a, p')) : (x >>= f) p = f a p' := by
  show (x p).bind _ = _
  rw [h]
  rfl

theorem bind_of_none {α β : Type} {x : Parse α} {f : α → Parse β} {p : Parser}
    (h : x p = none) : (x >>= f) p = none := by
  show (x p).bind _ = _
  rw [h]
  rfl

/-- With the conversion to the type that is read. -/
theorem Parser.ofNat_at {α : Type} (ofNat : Nat → α) {p : Parser} {n val : Nat} {zs : Bytes}
    {rest : List Bytes} (out : Nat) (hv : val < 256 ^ n) (h : p.At (beBytes n val ++ zs) rest) :
    ∃ p', (do return ofNat (← Parser.integer n out)) p = some (ofNat val, p') ∧
      p'.At zs rest := by
  obtain ⟨p', h1, h2⟩ := Parser.integer_at out h
  refine ⟨p', ?_, h2⟩
  rw [bind_of_some h1, Nat.mod_eq_of_lt hv]
  rfl

theorem Parser.u8_at {p : Parser} {v : UInt8} {zs : Bytes} {rest : List Bytes} (out : UInt8)
    (h : p.At (beBytes 1 v.toNat ++ zs) rest) :
    ∃ p', Parser.u8 out p = some (v, p') ∧ p'.At zs rest := by
  have hread := Parser.ofNat_at UInt8.ofNat out.toNat v.toNat_lt h
  rwa [UInt8.ofNat_toNat] at hread

theorem Parser.u16_at {p : Parser} {v : UInt16} {zs : Bytes} {rest : List Bytes} (out : UInt16)
    (h : p.At (beBytes 2 v.toNat ++ zs) rest) :
    ∃ p', Parser.u16 out p = some (v, p') ∧ p'.At zs rest := by
  have hread := Parser.ofNat_at UInt16.ofNat out.toNat v.toNat_lt h
  rwa [UInt16.ofNat_toNat] at hread

theorem Parser.u32_at {p : Parser} {v : UInt32} {zs : Bytes} {rest : List Bytes} (out : UInt32)
    (h : p.At (beBytes 4 v.toNat ++ zs) rest) :
    ∃ p', Parser.u32 out p = some (v, p') ∧ p'.At zs rest := by
  have hread := Parser.ofNat_at UInt32.ofNat out.toNat v.toNat_lt h
  rwa [UInt32.ofNat_toNat] at hread

/-- The buffers in which `xs` and `rest` are handed out. -/
def leftOver (xs : Bytes) (rest : List Bytes) : List Bytes :=
  if xs ++ rest.flatten = [] then [] else if xs = [] then rest else xs :: rest

theorem leftOver_flatten (xs : Bytes) (rest : List Bytes) :
    (leftOver xs rest).flatten = xs ++ rest.flatten := by
  unfold leftOver
  split_ifs with h hx
  · exact h.symm
  · rw [hx, List.nil_append]
  · rfl

theorem leftOver_rest {rest : List Bytes} (h : rest.flatten ≠ []) : leftOver [] rest = rest := by
  unfold leftOver
  rw [List.nil_append, if_neg h, if_pos rfl]

theorem leftOver_one {xs : Bytes} (h : xs ≠ []) : leftOver xs [] = [xs] := by
  unfold leftOver
  rw [List.flatten_nil, List.append_nil, if_neg h, if_neg h]

theorem BufferList.At.dumpAll {l : BufferList} {xs : Bytes} {rest : List Bytes}
    (h : l.At xs rest) : l.dumpAll = leftOver xs rest := by
  have hsize : l.size = (xs ++ rest.flatten).length := by
    rw [h.size, List.length_append, List.length_flatten]
  unfold BufferList.dumpAll leftOver
  by_cases h0 : xs ++ rest.flatten = []
  · rw [if_pos (by rw [hsize, h0]; rfl), if_pos h0]
  · rw [if_neg (by rw [hsize]; exact fun hl => h0 (List.length_eq_zero_iff.mp hl)), if_neg h0]
    rcases h.view with ⟨b, hb, hlt, hd⟩ | ⟨hn, hb, hk⟩
    · have hne : xs ≠ [] := fun hn => by
        have hlen := congrArg List.length hd
        rw [hn, List.length_drop, List.length_nil] at hlen
        omega
      rw [hb, if_neg hne]
      simp only [hd]
    · rw [hb, if_pos hn, hk]
      cases rest with
      | nil => rfl
      | cons c cs => rfl

theorem Parser.allRemaining_at {p : Parser} {xs : Bytes} {rest : List Bytes} (h : p.At xs rest) :
    Parser.allRemaining p = some (leftOver xs rest, p) := by
  unfold Parser.allRemaining
  rw [h.input.dumpAll]

theorem Parser.allRemainingBuffer_at {p : Parser} {xs : Bytes}
    (h : p.At xs []) : Parser.allRemainingBuffer p = some (xs, p) := by
  have hd := h.input.dumpAll
  unfold Parser.allRemainingBuffer
  by_cases hx : xs = []
  · subst hx
    rw [hd]
    rfl
  · rw [leftOver_one hx] at hd
    rw [hd]

end StreamSocket.L1
