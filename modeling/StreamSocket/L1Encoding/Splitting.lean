import StreamSocket.L1Encoding.FixedWidth

/-!
# How the bytes are cut into buffers

A parser reads a list of buffers; `Cursor` is what it means on the bytes alone:
how many have been removed, and the error flag. An integer and a string take
their bytes from the view at the front, which is empty where the list has an
empty buffer.

Results:
* `emptyAt_iff`: where an empty buffer stands.
* `removePrefix_add`: removing is counting, past the end too.
* `removeLoop_peek`: what is at the front when `k` bytes have been removed.
* `Op.run_clear`, `Op.run_stuck`: one operation, on any list of buffers.
* `CutFree.bind`: two readers in a row, without an empty buffer in their way.
* `splitting_ignored_iff`: the cut makes no difference as long as no integer or
  string has an empty buffer in front of one of its bytes.
-/
namespace StreamSocket.L1

/-! ## Where the empty buffers are -/

/-- An empty buffer stands in front of byte `j`. -/
def EmptyAt : List Bytes → Nat → Prop
  | [], _ => False
  | b :: bs, j => (b = [] ∧ j = 0) ∨ (b.length ≤ j ∧ EmptyAt bs (j - b.length))

instance : ∀ (bufs : List Bytes) (j : Nat), Decidable (EmptyAt bufs j)
  | [], _ => .isFalse id
  | b :: bs, j =>
    have := instDecidableEmptyAt bs (j - b.length)
    inferInstanceAs (Decidable ((b = [] ∧ j = 0) ∨ (b.length ≤ j ∧ EmptyAt bs (j - b.length))))

theorem emptyAt_iff {bufs : List Bytes} {j : Nat} :
    EmptyAt bufs j ↔ ∃ pre post, bufs = pre ++ [] :: post ∧ pre.flatten.length = j := by
  induction bufs generalizing j with
  | nil =>
    refine ⟨False.elim, ?_⟩
    rintro ⟨pre, post, h, -⟩
    exact absurd h (by simp)
  | cons b bs ih =>
    rw [EmptyAt, ih]
    constructor
    · rintro (⟨rfl, rfl⟩ | ⟨hle, pre, post, rfl, hj⟩)
      · exact ⟨[], bs, rfl, rfl⟩
      · exact ⟨b :: pre, post, rfl, by rw [List.flatten_cons, List.length_append, hj]; omega⟩
    · rintro ⟨pre, post, h, rfl⟩
      cases pre with
      | nil =>
        cases h
        exact .inl ⟨rfl, rfl⟩
      | cons c pre =>
        rw [List.cons_append, List.cons.injEq] at h
        obtain ⟨rfl, rfl⟩ := h
        rw [List.flatten_cons, List.length_append]
        exact .inr ⟨Nat.le_add_right _ _, pre, post, rfl, by omega⟩

/-! ## Removing bytes -/

namespace BufferList

theorem removeLoop_zero (size : Nat) (bs : List Bytes) (skip : Nat) :
    removeLoop size 0 bs skip = { size := size, buffer := bs, skip := skip } := by
  cases bs with
  | nil => rfl
  | cons b bs => rw [removeLoop, if_pos rfl]

/-- The removal ends within the buffer. -/
theorem removeLoop_within {size n skip : Nat} {b : Bytes} {bs : List Bytes}
    (h : n < b.length - skip) : removeLoop size n (b :: bs) skip =
      { size := size - n, buffer := b :: bs, skip := skip + n } := by
  by_cases h0 : n = 0
  · rw [h0, removeLoop_zero]
    rfl
  · have hm : min n (b.length - skip) = n := by omega
    have hne : ¬ skip + n = b.length := by omega
    simp only [removeLoop, if_neg h0, hm, if_neg hne]

/-- The buffer is used up. -/
theorem removeLoop_past {size n skip : Nat} {b : Bytes} {bs : List Bytes} (hn : n ≠ 0)
    (hs : skip ≤ b.length) (h : b.length - skip ≤ n) : removeLoop size n (b :: bs) skip =
      removeLoop (size - (b.length - skip)) (n - (b.length - skip)) bs 0 := by
  have hm : min n (b.length - skip) = b.length - skip := by omega
  have he : skip + (b.length - skip) = b.length := by omega
  simp only [removeLoop, if_neg hn, hm, if_pos he]

theorem removeLoop_add {bs : List Bytes} {size n m skip : Nat}
    (hs : skip ≤ (bs.headD []).length) :
    (removeLoop size n bs skip).removePrefix m = removeLoop size (n + m) bs skip := by
  induction bs generalizing size n skip with
  | nil => rfl
  | cons b bs ih =>
    rw [List.headD_cons] at hs
    by_cases h0 : n = 0
    · rw [h0, removeLoop_zero, Nat.zero_add]
      rfl
    by_cases h : n < b.length - skip
    · rw [removeLoop_within h]
      show removeLoop (size - n) m (b :: bs) (skip + n) = _
      by_cases hm : m < b.length - (skip + n)
      · rw [removeLoop_within hm, removeLoop_within (by omega), Nat.sub_sub, Nat.add_assoc]
      · rw [removeLoop_past (by omega) (by omega) (by omega),
          removeLoop_past (n := n + m) (by omega) hs (by omega), Nat.sub_sub]
        congr 1 <;> omega
    · rw [removeLoop_past h0 hs (by omega), ih (Nat.zero_le _),
        removeLoop_past (n := n + m) (by omega) hs (by omega)]
      congr 1
      omega

/-- Removing is counting: also past the end, where nothing is left to remove. -/
theorem removePrefix_add (bufs : List Bytes) (n m : Nat) :
    ((ofBuffers bufs).removePrefix n).removePrefix m = (ofBuffers bufs).removePrefix (n + m) :=
  removeLoop_add (Nat.zero_le _)

/-- The view when `k` bytes have been removed: it holds bytes of one buffer, and none
if an empty buffer is next. -/
structure ViewAt (bufs : List Bytes) (k : Nat) (v : Bytes) : Prop where
  bytes : v <+: bufs.flatten.drop k
  empty : v = [] ↔ EmptyAt bufs k
  inside : ∀ j, k < j → j < k + v.length → ¬ EmptyAt bufs j

theorem removeLoop_peek {bs : List Bytes} (size : Nat) {k : Nat} (hk : k < bs.flatten.length) :
    ∃ v, (removeLoop size k bs 0).peek = some v ∧ ViewAt bs k v := by
  induction bs generalizing size k with
  | nil => exact absurd hk (Nat.not_lt_zero _)
  | cons b bs ih =>
    by_cases h0 : k = 0
    · subst h0
      rw [removeLoop_zero]
      refine ⟨b, rfl, ?_, ?_, fun j h1 h2 => ?_⟩
      · rw [List.flatten_cons]
        exact List.prefix_append _ _
      · rw [EmptyAt]
        refine ⟨fun h => .inl ⟨h, rfl⟩, fun h => ?_⟩
        rcases h with ⟨h, -⟩ | ⟨h, -⟩
        · exact h
        · exact List.length_eq_zero_iff.mp (Nat.le_zero.mp h)
      · rintro (⟨-, h⟩ | ⟨h, -⟩) <;> omega
    by_cases h : k < b.length
    · rw [removeLoop_within (by omega), Nat.zero_add]
      have hlen : (b.drop k).length = b.length - k := List.length_drop
      refine ⟨b.drop k, rfl, ?_, ?_, fun j h1 h2 => ?_⟩
      · rw [List.flatten_cons, List.drop_append_of_le_length (Nat.le_of_lt h)]
        exact List.prefix_append _ _
      · rw [List.drop_eq_nil_iff, EmptyAt]
        omega
      · rintro (⟨-, h⟩ | ⟨h, -⟩) <;> omega
    · rw [List.flatten_cons, List.length_append] at hk
      rw [removeLoop_past h0 (Nat.zero_le _) (by omega)]
      have hlt : k - (b.length - 0) < bs.flatten.length := by omega
      obtain ⟨v, hv, hview⟩ := ih (size - (b.length - 0)) hlt
      rw [Nat.sub_zero] at hv hview
      rw [Nat.sub_zero]
      have hiff : ∀ j, k ≤ j → (EmptyAt (b :: bs) j ↔ EmptyAt bs (j - b.length)) := by
        intro j hj
        rw [EmptyAt]
        exact ⟨fun h' => h'.elim (fun h' => by omega) And.right, fun h' => .inr ⟨by omega, h'⟩⟩
      refine ⟨v, hv, ?_, ?_, fun j h1 h2 => ?_⟩
      · rw [List.flatten_cons, List.drop_append, List.drop_of_length_le (by omega),
          List.nil_append]
        exact hview.bytes
      · rw [hview.empty, hiff k (Nat.le_refl _)]
      · rw [hiff j (by omega)]
        exact hview.inside _ (by omega) (by omega)

end BufferList

/-- No empty buffer stands in front of one of the `n` bytes from `k` on. -/
def Clear (bufs : List Bytes) (k n : Nat) : Prop := ∀ j, k ≤ j → j < k + n → ¬ EmptyAt bufs j

theorem not_clear {bufs : List Bytes} {k n : Nat} :
    ¬ Clear bufs k n ↔ ∃ j, k ≤ j ∧ j < k + n ∧ EmptyAt bufs j := by
  unfold Clear
  push Not
  rfl

/-- One buffer is always clear. -/
theorem clear_one {b : Bytes} {k n : Nat} (h : n ≤ b.length - k) : Clear [b] k n := by
  rintro j h1 h2 (⟨rfl, -⟩ | ⟨-, h'⟩)
  · rw [List.length_nil] at h
    omega
  · exact h'

namespace BufferList

/-- What is left of `bufs` behind `k` bytes. -/
def after (bufs : List Bytes) (k : Nat) : BufferList := (ofBuffers bufs).removePrefix k

theorem after_holds (bufs : List Bytes) (k : Nat) : (after bufs k).Holds (bufs.flatten.drop k) :=
  (Parser.Holds.new bufs).input.removePrefix k

theorem after_size (bufs : List Bytes) (k : Nat) :
    (after bufs k).size = bufs.flatten.length - k := by
  rw [(after_holds bufs k).size, List.length_drop]

@[simp] theorem after_removePrefix (bufs : List Bytes) (n m : Nat) :
    (after bufs n).removePrefix m = after bufs (n + m) :=
  removePrefix_add bufs n m

theorem after_peek {bufs : List Bytes} {k : Nat} (hk : k < bufs.flatten.length) :
    ∃ v, (after bufs k).peek = some v ∧ ViewAt bufs k v :=
  removeLoop_peek _ hk

theorem after_front_stuck {bufs : List Bytes} {k : Nat} (hk : k < bufs.flatten.length)
    (he : EmptyAt bufs k) : (after bufs k).front = none := by
  obtain ⟨v, hv, hview⟩ := after_peek hk
  unfold front
  rw [hv, hview.empty.mpr he]
  rfl

theorem after_front_clear {bufs : List Bytes} {k : Nat} (hk : k < bufs.flatten.length)
    (he : ¬ EmptyAt bufs k) :
    ∃ x, (after bufs k).front = some x ∧ bufs.flatten.drop k = x :: bufs.flatten.drop (k + 1) := by
  obtain ⟨v, hv, hview⟩ := after_peek hk
  obtain ⟨x, xs, rfl⟩ := List.exists_cons_of_ne_nil fun hn => he (hview.empty.mp hn)
  have hx : (after bufs k).front = some x := by
    unfold front
    rw [hv]
    rfl
  refine ⟨x, hx, ?_⟩
  rw [(after_holds bufs k).front hx, List.drop_drop]

end BufferList

/-! ## One integer, one string -/

open BufferList

theorem Parser.readBytes_clear {bufs : List Bytes} {n k acc : Nat}
    (hk : n ≤ bufs.flatten.length - k) (hc : Clear bufs k n) :
    Parser.readBytes n acc (after bufs k) =
      some (beValue acc ((bufs.flatten.drop k).take n), after bufs (k + n)) := by
  induction n generalizing k acc with
  | zero => rfl
  | succ n ih =>
    obtain ⟨x, hx, hdrop⟩ := after_front_clear (by omega) (hc k (Nat.le_refl _) (by omega))
    have hrest : Clear bufs (k + 1) n := fun j h1 h2 => hc j (by omega) (by omega)
    rw [readBytes, hx, Option.bind_some, after_removePrefix, ih (by omega) hrest, hdrop,
      List.take_succ_cons, Nat.add_assoc, Nat.add_comm 1 n]
    rfl

theorem Parser.readBytes_stuck {bufs : List Bytes} {n k acc : Nat}
    (hk : n ≤ bufs.flatten.length - k) (hc : ¬ Clear bufs k n) :
    Parser.readBytes n acc (after bufs k) = none := by
  induction n generalizing k acc with
  | zero => exact absurd (fun j h1 h2 => by omega) hc
  | succ n ih =>
    rw [readBytes]
    by_cases he : EmptyAt bufs k
    · rw [after_front_stuck (by omega) he, Option.bind_none]
    · obtain ⟨x, hx, -⟩ := after_front_clear (by omega) he
      rw [hx, Option.bind_some, after_removePrefix]
      refine ih (by omega) fun hrest => hc fun j h1 h2 => ?_
      rcases Nat.eq_or_lt_of_le h1 with rfl | h1
      · exact he
      · exact hrest j h1 (by omega)

/-- A round takes what the view has of the bytes that are asked for. -/
theorem BufferList.ViewAt.take {bufs : List Bytes} {k : Nat} {v : Bytes} (h : ViewAt bufs k v)
    (n : Nat) :
    v.take n = (bufs.flatten.drop k).take (min n v.length) := by
  obtain ⟨t, ht⟩ := h.bytes
  rw [← ht, List.take_append_of_le_length (Nat.min_le_right _ _)]
  rcases Nat.le_total n v.length with hn | hn
  · rw [Nat.min_eq_left hn]
  · rw [Nat.min_eq_right hn, List.take_of_length_le hn, List.take_length]

theorem Parser.stringLoop_clear {bufs : List Bytes} {fuel n k : Nat} {out : Bytes} (hf : n ≤ fuel)
    (hk : n ≤ bufs.flatten.length - k) (hc : Clear bufs k n) :
    Parser.stringLoop fuel n out (after bufs k) =
      some (out ++ (bufs.flatten.drop k).take n, after bufs (k + n)) := by
  induction fuel generalizing n k out with
  | zero =>
    rw [Nat.le_zero.mp hf, stringLoop, if_pos rfl]
    simp
  | succ fuel ih =>
    rw [stringLoop]
    by_cases h0 : n = 0
    · rw [if_pos h0, h0]
      simp
    have hlt : k < bufs.flatten.length := by omega
    obtain ⟨v, hv, hview⟩ := after_peek hlt
    have hne : v ≠ [] := fun hn => hc k (Nat.le_refl _) (by omega) (hview.empty.mp hn)
    have hpos := List.length_pos_of_ne_nil hne
    have hrest : Clear bufs (k + min n v.length) (n - min n v.length) :=
      fun j h1 h2 => hc j (by omega) (by omega)
    rw [if_neg h0, hv, Option.bind_some]
    simp only [List.length_take, after_removePrefix]
    rw [ih (n := n - min n v.length) (by omega) (by omega) hrest, hview.take, List.append_assoc,
      ← List.drop_drop, ← List.take_add, Nat.add_assoc, Nat.add_sub_cancel' (Nat.min_le_left _ _)]

/-- An empty view in the way: the loop never ends, whatever the fuel. -/
theorem Parser.stringLoop_stuck {bufs : List Bytes} {fuel n k : Nat} {out : Bytes}
    (hk : n ≤ bufs.flatten.length - k) (hc : ¬ Clear bufs k n) :
    Parser.stringLoop fuel n out (after bufs k) = none := by
  have h0 : n ≠ 0 := fun h0 => hc fun j h1 h2 => by omega
  induction fuel generalizing n k out with
  | zero => rw [stringLoop, if_neg h0]
  | succ fuel ih =>
    have hlt : k < bufs.flatten.length := by omega
    obtain ⟨v, hv, hview⟩ := after_peek hlt
    rw [stringLoop, if_neg h0, hv, Option.bind_some]
    simp only [List.length_take, after_removePrefix]
    have hrest : ¬ Clear bufs (k + min n v.length) (n - min n v.length) := by
      intro hrest
      by_cases hne : v = []
      · rw [hne] at hrest
        exact hc (by simpa using hrest)
      · refine hc fun j h1 h2 => ?_
        by_cases hj : j < k + min n v.length
        · rcases Nat.eq_or_lt_of_le h1 with rfl | h1
          · exact fun he => hne (hview.empty.mpr he)
          · exact hview.inside j h1 (by omega)
        · exact hrest j (by omega) (by omega)
    exact ih (by omega) hrest fun h => hrest fun j h1 h2 => by omega

/-! ## Sequences of operations -/

/-- An integer of `n` bytes and a string bring the variable that they are read into. -/
inductive Op where
  | integer (n out : Nat)
  | string (out : Bytes)
  | removePrefix (n : Nat)
  deriving DecidableEq, Repr

inductive Value where
  | integer (v : Nat)
  | string (bs : Bytes)
  | unit
  deriving DecidableEq, Repr

def Op.run : Op → Parse Value
  | .integer n out => fun p => (Parser.integer n out p).map fun (v, p) => (.integer v, p)
  | .string out => fun p => (Parser.string out p).map fun (bs, p) => (.string bs, p)
  | .removePrefix n => fun p => (Parser.removePrefix n p).map fun (_, p) => (.unit, p)

/-- What an operation gives, the error flag after it, and the bytes that
`all_remaining` would give then. -/
structure Seen where
  value : Value
  error : Bool
  rest : Bytes
  deriving DecidableEq, Repr

def seen (value : Value) (p : Parser) : Seen :=
  { value := value, error := p.error, rest := p.input.dumpAll.flatten }

/-- The operations one after the other, and `all_remaining` at the end. -/
def observe : List Op → Parser → Option (List Seen)
  | [], p => some [seen .unit p]
  | op :: ops, p => (op.run p).bind fun (v, p) => (observe ops p).map (seen v p :: ·)

/-- `bufs` is read as the one buffer that holds the same bytes is. -/
def SplittingIgnored (bufs : List Bytes) (ops : List Op) : Prop :=
  ∃ out, observe ops (.new bufs) = some out ∧ observe ops (.new [bufs.flatten]) = some out

/-! ## On the bytes alone -/

/-- How many bytes an integer or a string takes. -/
def Op.width : Op → Nat
  | .integer n _ => n
  | .string out => out.length
  | .removePrefix _ => 0

/-- The bytes that integers and strings take of `size`, from where on and how many,
with `k` removed before: none once one has asked for more than there are. -/
def taken (size : Nat) : Nat → List Op → List (Nat × Nat)
  | _, [] => []
  | k, .removePrefix n :: ops => taken size (k + n) ops
  | k, op :: ops =>
    if op.width ≤ size - k then (k, op.width) :: taken size (k + op.width) ops else []

/-- What an operation means: `k` bytes are removed. -/
structure Cursor where
  k : Nat := 0
  error : Bool := false
  deriving DecidableEq, Repr

/-- The parser of `bufs` that `c` describes. -/
def Cursor.parser (c : Cursor) (bufs : List Bytes) : Parser :=
  { input := after bufs c.k, error := c.error }

/-- The error flag is set, or will be. -/
def Cursor.Fails (c : Cursor) (xs : Bytes) (n : Nat) : Prop := c.error = true ∨ xs.length - c.k < n

instance (c : Cursor) (xs : Bytes) (n : Nat) : Decidable (c.Fails xs n) :=
  inferInstanceAs (Decidable (_ ∨ _))

/-- A value is left as it was on an error. -/
def Op.spec (xs : Bytes) : Op → Cursor → Value × Cursor
  | .integer n out, c =>
    if c.Fails xs n then (.integer out, { c with error := true })
    else (.integer (beValue 0 ((xs.drop c.k).take n)), { c with k := c.k + n })
  | .string out, c =>
    if c.Fails xs out.length then (.string out, { c with error := true })
    else (.string ((xs.drop c.k).take out.length), { c with k := c.k + out.length })
  | .removePrefix n, c => (.unit, { c with k := c.k + n })

/-- All that is seen, from the bytes alone. -/
def trace (xs : Bytes) : List Op → Cursor → List Seen
  | [], c => [{ value := .unit, error := c.error, rest := xs.drop c.k }]
  | op :: ops, c =>
    let (v, c) := op.spec xs c
    { value := v, error := c.error, rest := xs.drop c.k } :: trace xs ops c

theorem cursor_new (bufs : List Bytes) : Parser.new bufs = Cursor.parser {} bufs := by
  unfold Parser.new Cursor.parser after
  rw [removePrefix_zero]

theorem seen_cursor (v : Value) (c : Cursor) (bufs : List Bytes) :
    seen v (c.parser bufs) = { value := v, error := c.error, rest := bufs.flatten.drop c.k } := by
  unfold seen
  rw [(after_holds bufs c.k).dumpAll.symm]
  rfl

/-- `check_size`, as a condition on the cursor. -/
theorem checkSize_cursor (c : Cursor) (bufs : List Bytes) (n : Nat) :
    (c.Fails bufs.flatten n →
      (c.parser bufs).checkSize n = Cursor.parser { c with error := true } bufs) ∧
    (¬ c.Fails bufs.flatten n → (c.parser bufs).checkSize n = c.parser bufs ∧ c.error = false ∧
      n ≤ bufs.flatten.length - c.k) := by
  have hsize : (c.parser bufs).input.size = bufs.flatten.length - c.k := after_size bufs c.k
  unfold Parser.checkSize Cursor.Fails
  rw [hsize]
  constructor
  · rintro (he | hn)
    · split_ifs
      · rfl
      · rw [show ({ c with error := true } : Cursor) = c by rw [← he]]
    · rw [if_pos hn]
      rfl
  · intro h
    rw [not_or] at h
    exact ⟨if_neg h.2, Bool.eq_false_iff.mpr h.1, Nat.not_lt.mp h.2⟩

/-! ## Any list of buffers -/

/-- An integer and a string start with the same check. -/
theorem guarded_cursor {α : Type} (body : BufferList → Option (α × BufferList)) (out : α) (n : Nat)
    (c : Cursor) (bufs : List Bytes) :
    (if ((c.parser bufs).checkSize n).error then some (out, (c.parser bufs).checkSize n)
      else (body (c.parser bufs).input).map fun (v, input) =>
        (v, { c.parser bufs with input := input })) =
    if c.Fails bufs.flatten n then some (out, Cursor.parser { c with error := true } bufs)
    else (body (after bufs c.k)).map fun (v, input) =>
      (v, { input := input, error := c.error }) := by
  obtain ⟨hfail, hpass⟩ := checkSize_cursor c bufs n
  by_cases hf : c.Fails bufs.flatten n
  · rw [if_pos hf, hfail hf]
    rfl
  · obtain ⟨hs, he, -⟩ := hpass hf
    have herr : ¬ (c.parser bufs).error = true := by
      show ¬ c.error = true
      rw [he]
      exact Bool.false_ne_true
    rw [if_neg hf, hs, if_neg herr]
    rfl

theorem integer_cursor (n out : Nat) (c : Cursor) (bufs : List Bytes) :
    Parser.integer n out (c.parser bufs) =
      if c.Fails bufs.flatten n then some (out, Cursor.parser { c with error := true } bufs)
      else (Parser.readBytes n 0 (after bufs c.k)).map fun (v, input) =>
        (v, { input := input, error := c.error }) :=
  guarded_cursor (Parser.readBytes n 0) out n c bufs

theorem string_cursor (out : Bytes) (c : Cursor) (bufs : List Bytes) :
    Parser.string out (c.parser bufs) =
      if c.Fails bufs.flatten out.length then
        some (out, Cursor.parser { c with error := true } bufs)
      else (Parser.stringLoop out.length out.length [] (after bufs c.k)).map fun (v, input) =>
        (v, { input := input, error := c.error }) :=
  guarded_cursor (Parser.stringLoop out.length out.length []) out out.length c bufs

theorem Cursor.le_of_not_fails {c : Cursor} {xs : Bytes} {n : Nat} (h : ¬ c.Fails xs n) :
    n ≤ xs.length - c.k :=
  Nat.not_lt.mp fun hlt => h (.inr hlt)

/-- With nothing in the way an operation does what it means. -/
theorem Op.run_clear {op : Op} {c : Cursor} {bufs : List Bytes}
    (h : ¬ c.Fails bufs.flatten op.width → Clear bufs c.k op.width) :
    op.run (c.parser bufs) =
      some ((op.spec bufs.flatten c).1, (op.spec bufs.flatten c).2.parser bufs) := by
  cases op with
  | integer n out =>
    simp only [Op.run, Op.spec, integer_cursor]
    split_ifs with hf
    · rfl
    · rw [Parser.readBytes_clear (Cursor.le_of_not_fails hf) (h hf)]
      rfl
  | string out =>
    simp only [Op.run, Op.spec, string_cursor]
    split_ifs with hf
    · rfl
    · rw [Parser.stringLoop_clear (Nat.le_refl _) (Cursor.le_of_not_fails hf) (h hf),
        List.nil_append]
      rfl
  | removePrefix n =>
    show some _ = some _
    unfold Op.spec Cursor.parser
    rw [after_removePrefix]

/-- With an empty buffer in the way it has no result. -/
theorem Op.run_stuck {op : Op} {c : Cursor} {bufs : List Bytes}
    (hf : ¬ c.Fails bufs.flatten op.width) (h : ¬ Clear bufs c.k op.width) :
    op.run (c.parser bufs) = none := by
  have hle := Cursor.le_of_not_fails hf
  cases op with
  | integer n out =>
    have hs : Parser.readBytes n 0 (after bufs c.k) = none := Parser.readBytes_stuck hle h
    have hf : ¬ c.Fails bufs.flatten n := hf
    simp only [Op.run, integer_cursor, if_neg hf, hs, Option.map_none]
  | string out =>
    have hs : Parser.stringLoop out.length out.length [] (after bufs c.k) = none :=
      Parser.stringLoop_stuck hle h
    have hf : ¬ c.Fails bufs.flatten out.length := hf
    simp only [Op.run, string_cursor, if_neg hf, hs, Option.map_none]
  | removePrefix n => exact absurd (fun j h1 h2 => absurd h2 (Nat.not_lt.mpr h1)) h

/-- `x` takes `n` bytes at most. With no empty buffer in front of one of them it does
what it does on one buffer. -/
def CutFree {α : Type} (x : Parse α) (n : Nat) : Prop :=
  ∀ (bufs : List Bytes) (c : Cursor), Clear bufs c.k (min n (bufs.flatten.length - c.k)) →
    ∃ (a : α) (c' : Cursor), c.k ≤ c'.k ∧ c'.k ≤ c.k + n ∧
      x (c.parser bufs) = some (a, c'.parser bufs) ∧
      x (c.parser [bufs.flatten]) = some (a, c'.parser [bufs.flatten])

namespace CutFree

theorem pure {α : Type} (a : α) : CutFree (Pure.pure a) 0 :=
  fun _ c _ => ⟨a, c, Nat.le_refl _, Nat.le_refl _, rfl, rfl⟩

theorem bind {α β : Type} {x : Parse α} {f : α → Parse β} {n m : Nat} (hx : CutFree x n)
    (hf : ∀ a, CutFree (f a) m) : CutFree (x >>= f) (n + m) := by
  intro bufs c hc
  obtain ⟨a, c₁, h1, h2, e₁, e₁'⟩ := hx bufs c fun j hj hlt => hc j hj (by omega)
  obtain ⟨b, c₂, h3, h4, e₂, e₂'⟩ := hf a bufs c₁ fun j hj hlt => hc j (by omega) (by omega)
  refine ⟨b, c₂, by omega, by omega, ?_, ?_⟩
  · rw [bind_of_some e₁, e₂]
  · rw [bind_of_some e₁', e₂']

theorem integer (n out : Nat) : CutFree (Parser.integer n out) n := by
  intro bufs c hc
  rw [integer_cursor, integer_cursor, List.flatten_singleton]
  by_cases hf : c.Fails bufs.flatten n
  · rw [if_pos hf, if_pos hf]
    exact ⟨out, { c with error := true }, Nat.le_refl _, Nat.le_add_right _ _, rfl, rfl⟩
  · have hle := Cursor.le_of_not_fails hf
    rw [Nat.min_eq_left hle] at hc
    have hle' : n ≤ [bufs.flatten].flatten.length - c.k := by rwa [List.flatten_singleton]
    rw [if_neg hf, if_neg hf, Parser.readBytes_clear hle hc,
      Parser.readBytes_clear hle' (clear_one hle), List.flatten_singleton]
    exact ⟨_, { c with k := c.k + n }, Nat.le_add_right _ _, Nat.le_refl _, rfl, rfl⟩

theorem u8 (out : UInt8) : CutFree (Parser.u8 out) 1 := (integer 1 out.toNat).bind fun _ => .pure _

theorem u16 (out : UInt16) : CutFree (Parser.u16 out) 2 :=
  (integer 2 out.toNat).bind fun _ => .pure _

theorem u32 (out : UInt32) : CutFree (Parser.u32 out) 4 :=
  (integer 4 out.toNat).bind fun _ => .pure _

end CutFree

/-- An integer that has an empty buffer in its way is not read. -/
theorem Parser.integer_stuck {bufs : List Bytes} {n : Nat} (out : Nat)
    (hn : n ≤ bufs.flatten.length) (hc : ¬ Clear bufs 0 n) :
    Parser.integer n out (.new bufs) = none := by
  have hf : ¬ Cursor.Fails {} bufs.flatten n := by
    rintro (h | h)
    · cases h
    · exact Nat.not_lt.mpr hn h
  rw [cursor_new, integer_cursor, if_neg hf]
  have hs : readBytes n 0 (after bufs 0) = none := readBytes_stuck hn hc
  show (readBytes n 0 (after bufs 0)).map _ = none
  rw [hs, Option.map_none]

/-! ## Operations in a row -/

/-- Nothing is in the way of `ops` from `c` on. -/
def ClearFrom (bufs : List Bytes) (c : Cursor) (ops : List Op) : Prop :=
  c.error = false → ∀ r ∈ taken bufs.flatten.length c.k ops, Clear bufs r.1 r.2

/-- An integer or a string of `n` bytes comes first. -/
theorem clearFrom_read {bufs : List Bytes} {c : Cursor} {n : Nat} {v w : Value} {ops : List Op} :
    (c.error = false → ∀ r ∈ if n ≤ bufs.flatten.length - c.k then
        (c.k, n) :: taken bufs.flatten.length (c.k + n) ops else [], Clear bufs r.1 r.2) ↔
      (¬ c.Fails bufs.flatten n → Clear bufs c.k n) ∧
        ClearFrom bufs (if c.Fails bufs.flatten n then (v, { c with error := true })
          else (w, { c with k := c.k + n }) : Value × Cursor).2 ops := by
  unfold ClearFrom
  by_cases hf : c.Fails bufs.flatten n
  · rw [if_pos hf]
    refine iff_of_true (fun he r hr => ?_) ⟨fun h => absurd hf h, fun he => nomatch he⟩
    rcases hf with h | h
    · rw [he] at h
      cases h
    · rw [if_neg (Nat.not_le.mpr h)] at hr
      exact absurd hr List.not_mem_nil
  · have he : c.error = false := Bool.eq_false_iff.mpr fun h => hf (.inl h)
    rw [if_neg hf, if_pos (Cursor.le_of_not_fails hf), List.forall_mem_cons]
    simp only [he, hf, not_false_eq_true, true_implies]

theorem clearFrom_cons {bufs : List Bytes} {c : Cursor} {op : Op} {ops : List Op} :
    ClearFrom bufs c (op :: ops) ↔
      (¬ c.Fails bufs.flatten op.width → Clear bufs c.k op.width) ∧
        ClearFrom bufs (op.spec bufs.flatten c).2 ops := by
  cases op with
  | integer n out => exact clearFrom_read
  | string out => exact clearFrom_read
  | removePrefix n =>
    exact ⟨fun h => ⟨fun _ j h1 h2 => absurd h2 (Nat.not_lt.mpr h1), h⟩, And.right⟩

theorem observe_clear {bufs : List Bytes} {ops : List Op} {c : Cursor}
    (h : ClearFrom bufs c ops) : observe ops (c.parser bufs) = some (trace bufs.flatten ops c) := by
  induction ops generalizing c with
  | nil =>
    rw [observe, seen_cursor]
    rfl
  | cons op ops ih =>
    obtain ⟨hop, hrest⟩ := clearFrom_cons.mp h
    rw [observe, Op.run_clear hop, Option.bind_some]
    dsimp only
    rw [ih hrest, seen_cursor]
    rfl

theorem observe_stuck {bufs : List Bytes} {ops : List Op} {c : Cursor}
    (h : ¬ ClearFrom bufs c ops) : observe ops (c.parser bufs) = none := by
  induction ops generalizing c with
  | nil => exact absurd (fun _ r hr => absurd hr List.not_mem_nil) h
  | cons op ops ih =>
    rw [observe]
    by_cases hop : ¬ c.Fails bufs.flatten op.width → Clear bufs c.k op.width
    · rw [Op.run_clear hop, Option.bind_some]
      dsimp only
      rw [ih fun hrest => h (clearFrom_cons.mpr ⟨hop, hrest⟩)]
      rfl
    · rw [Classical.not_imp] at hop
      rw [Op.run_stuck hop.1 hop.2]
      rfl

theorem taken_le {size : Nat} {ops : List Op} {k : Nat} : ∀ r ∈ taken size k ops,
    r.2 ≤ size - r.1 := by
  induction ops generalizing k with
  | nil => exact fun r hr => absurd hr List.not_mem_nil
  | cons op ops ih =>
    have hread : ∀ n, ∀ r ∈ (if n ≤ size - k then (k, n) :: taken size (k + n) ops else []),
        r.2 ≤ size - r.1 := by
      intro n r hr
      split_ifs at hr with hn
      · rcases List.mem_cons.mp hr with rfl | hr
        · exact hn
        · exact ih r hr
      · exact absurd hr List.not_mem_nil
    cases op with
    | integer n out => exact hread n
    | string out => exact hread out.length
    | removePrefix n => exact ih (k := k + n)

/-- **When the cut does not matter.** Every operation ends and gives what it gives on
one buffer with the same bytes, unless an integer or a string finds an empty
buffer in front of one of the bytes that it takes. -/
theorem splitting_ignored_iff (bufs : List Bytes) (ops : List Op) :
    SplittingIgnored bufs ops ↔
      ∀ r ∈ taken bufs.flatten.length 0 ops, Clear bufs r.1 r.2 := by
  have hone : ClearFrom [bufs.flatten] {} ops := by
    intro _ r hr
    rw [List.flatten_singleton] at hr
    exact clear_one (taken_le r hr)
  have hwhole := observe_clear hone
  rw [List.flatten_singleton] at hwhole
  unfold SplittingIgnored
  rw [cursor_new, cursor_new, hwhole]
  constructor
  · rintro ⟨out, hout, -⟩
    by_contra hc
    rw [observe_stuck fun h => hc (h rfl)] at hout
    cases hout
  · intro hc
    exact ⟨_, observe_clear fun _ => hc, rfl⟩

/-- A serializer that is given one byte flushes its own buffer before and behind it;
the byte cannot be read from what it hands out, as an integer or as a string. -/
theorem serialized_byte_stuck :
    let bufs := (Serializer.pushBuffer [7] {}).finish
    bufs = [[], [7], []] ∧ ¬ SplittingIgnored bufs [.integer 1 0] ∧
      ¬ SplittingIgnored bufs [.string [0]] ∧
      ∀ fuel, Parser.stringLoop fuel 1 [] (.ofBuffers bufs) = none := by
  intro bufs
  have hn : ∀ ops, observe ops (.new bufs) = none → ¬ SplittingIgnored bufs ops := by
    rintro ops h ⟨out, hout, -⟩
    rw [h] at hout
    cases hout
  refine ⟨rfl, hn _ (by decide), hn _ (by decide), fun fuel => ?_⟩
  have hk : 1 ≤ bufs.flatten.length - 0 := by decide
  have hc : ¬ Clear bufs 0 1 := not_clear.mpr ⟨0, by decide, by decide, by decide⟩
  exact Parser.stringLoop_stuck hk hc

end StreamSocket.L1
