import StreamSocket.Core.LTS

/-!
# First-write-wins maps

A partial map from positions to values that is filled piece by piece: an
offered piece of data is laid at a position, cut to a window `[lo, hi)`, and
fills only the positions that are still empty. This is what a reassembly
buffer means, whatever its representation.

* `offer_of_some`, `offer_eq_piece`: present values win, empty positions take
  the piece.
* `Front m l`: `l` is the maximal run of present values from position 0.
* `Agrees m S`: every present value is the one of the reference sequence `S`;
  offering pieces of `S` keeps it (`agrees_offer`), and then the front is a
  prefix of `S` (`Front.isPrefix`).
-/
namespace StreamSocket.FirstWins

variable {α : Type}

/-- `data` laid at `first`, cut to `[lo, hi)`. -/
def piece (lo hi first : Nat) (data : List α) (k : Nat) : Option α :=
  if lo ≤ k ∧ k < hi ∧ first ≤ k then data[k - first]? else none

def offer (m : Nat → Option α) (lo hi first : Nat) (data : List α) (k : Nat) : Option α :=
  (m k).or (piece lo hi first data k)

theorem piece_isSome {lo hi first : Nat} {data : List α} {k : Nat} :
    (piece lo hi first data k).isSome = true ↔
      lo ≤ k ∧ k < hi ∧ first ≤ k ∧ k < first + data.length := by
  unfold piece
  split
  · rename_i h
    rw [Option.isSome_iff_ne_none, ne_eq, List.getElem?_eq_none_iff]
    omega
  · rename_i h
    simp only [Option.isSome_none, Bool.false_eq_true, false_iff]
    exact fun h' => h ⟨h'.1, h'.2.1, h'.2.2.1⟩

theorem offer_of_some {m : Nat → Option α} {k : Nat} {c : α} (h : m k = some c)
    (lo hi first : Nat) (data : List α) : offer m lo hi first data k = some c := by
  simp [offer, h]

theorem offer_eq_piece {m : Nat → Option α} {k : Nat} (h : m k = none) (lo hi first : Nat)
    (data : List α) : offer m lo hi first data k = piece lo hi first data k := by
  simp [offer, h]

theorem offer_isSome {m : Nat → Option α} {lo hi first : Nat} {data : List α} {k : Nat} :
    (offer m lo hi first data k).isSome = true ↔
      (m k).isSome = true ∨ (lo ≤ k ∧ k < hi ∧ first ≤ k ∧ k < first + data.length) := by
  rw [← piece_isSome]
  simp [offer]

/-! ## The front -/

/-- `l` is what `m` holds from position 0 up to its first empty position. -/
structure Front (m : Nat → Option α) (l : List α) : Prop where
  below : ∀ k, k < l.length → m k = l[k]?
  gap : m l.length = none

theorem Front.isSome {m : Nat → Option α} {l : List α} (h : Front m l) {k : Nat}
    (hk : k < l.length) : (m k).isSome = true := by
  rw [h.below k hk]; simpa using hk

/-! ## Agreement with a reference sequence -/

def Agrees (m : Nat → Option α) (S : List α) : Prop := ∀ k c, m k = some c → S[k]? = some c

theorem agrees_offer {m : Nat → Option α} {S : List α} (h : Agrees m S) {first : Nat}
    {data : List α} (hd : ∀ j c, data[j]? = some c → S[first + j]? = some c) (lo hi : Nat) :
    Agrees (offer m lo hi first data) S := by
  intro k c hk
  cases hm : m k with
  | some d =>
    rw [offer_of_some hm] at hk
    rw [← hk]; exact h k d hm
  | none =>
    rw [offer_eq_piece hm] at hk
    unfold piece at hk
    split at hk
    · rename_i hw
      have := hd _ _ hk
      rwa [Nat.add_sub_cancel' hw.2.2] at this
    · cases hk

theorem Agrees.mono {m : Nat → Option α} {S T : List α} (h : Agrees m S) (hST : S <+: T) :
    Agrees m T := by
  intro k c hk
  obtain ⟨t, rfl⟩ := hST
  have := h k c hk
  rw [List.getElem?_append_left (List.getElem?_eq_some_iff.mp this).1]
  exact this

theorem Agrees.lt {m : Nat → Option α} {S : List α} (h : Agrees m S) {k : Nat}
    (hk : (m k).isSome = true) : k < S.length := by
  obtain ⟨c, hc⟩ := Option.isSome_iff_exists.mp hk
  exact (List.getElem?_eq_some_iff.mp (h k c hc)).1

/-- The front of a map that agrees with `S` is a prefix of `S`. -/
theorem Front.isPrefix {m : Nat → Option α} {l S : List α} (h : Front m l) (ha : Agrees m S) :
    l <+: S := by
  rw [List.prefix_iff_getElem?]
  intro k hk
  have he := h.below k hk
  rw [List.getElem?_eq_getElem hk] at he
  exact ha k _ he

end StreamSocket.FirstWins
