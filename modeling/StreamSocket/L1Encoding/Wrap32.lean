import StreamSocket.Core.Word

/-!
# 32-bit wrapping sequence numbers

`Wrap32` is a `uint32_t` read relative to a zero point. `wrap` sends an
absolute (64-bit) sequence number to it; `unwrap` picks an absolute number
with the same residue near a checkpoint, in 64-bit arithmetic whose second
candidate `last_tmp` may wrap.

Results:
* `unwrap_eq`: the value of `unwrap` without the wrapping candidate: the
  residue itself when it is not below the checkpoint, else the nearer of the
  two representatives around the checkpoint.
* `unwrap_wrap_of_le`, `unwrap_wrap_of_gt`: `unwrap` inverts `wrap` up to
  `2^31` below the checkpoint and less than `2^31` above it.
* `unwrap_wrap_lap`: an absolute number just below `2^64` seen from a
  checkpoint that has lapped to 0 unwraps to a number above the checkpoint.
* `unwrap_of_nearest`: `unwrap` is the nearest representative, where there is
  one.
* `unwrap_eq_of_near`: it is the same from every checkpoint near to it.
* `unwrap_nearest`: the contract, at every checkpoint and zero point.
-/
namespace StreamSocket.L1

structure Wrap32 where
  rawValue : UInt32
  deriving DecidableEq, Repr

namespace Wrap32

/-- mirrors src/src/wrapping_integers.hh:34 -/
def add (a : Wrap32) (n : UInt32) : Wrap32 := ⟨a.rawValue + n⟩

/-- `zero_point + n`; the `uint64_t` argument is converted to `uint32_t`.
mirrors src/src/wrapping_integers.cc:6-11 -/
def wrap (n : Nat) (zeroPoint : Wrap32) : Wrap32 := zeroPoint.add (UInt32.ofNat n)

/-- The lambda `absolute_delta`.
mirrors src/src/wrapping_integers.cc:19-25 -/
def absoluteDelta (a b : Nat) : Nat := if a < b then b - a else a - b

/-- `seqno - isn`, kept non-negative.
mirrors src/src/wrapping_integers.cc:27-33 -/
def offset (w zeroPoint : Wrap32) : Nat :=
  if w.rawValue.toNat < zeroPoint.rawValue.toNat then
    2 ^ 32 - (zeroPoint.rawValue.toNat - w.rawValue.toNat)
  else w.rawValue.toNat - zeroPoint.rawValue.toNat

/-- `tmp` and `last_tmp` after the two representatives are chosen.
mirrors src/src/wrapping_integers.cc:37-45 -/
def candidates (tmp checkpoint : Nat) : Nat × Nat :=
  if tmp ≥ checkpoint then
    let mod := (tmp - checkpoint) % 2 ^ 32
    (add64 checkpoint mod, sub64 (add64 checkpoint mod) (2 ^ 32))
  else
    let mod := (checkpoint - tmp) % 2 ^ 32
    (sub64 checkpoint mod, add64 (sub64 checkpoint mod) (2 ^ 32))

/-- mirrors src/src/wrapping_integers.cc:13-52 -/
def unwrap (w zeroPoint : Wrap32) (checkpoint : Nat) : Nat :=
  let (tmp, lastTmp) := candidates (offset w zeroPoint) checkpoint
  if absoluteDelta checkpoint lastTmp < absoluteDelta checkpoint tmp then lastTmp else tmp

theorem offset_lt (w z : Wrap32) : offset w z < 2 ^ 32 := by
  have := w.rawValue.toNat_lt
  have := z.rawValue.toNat_lt
  unfold offset; split <;> omega

theorem wrap_mod (n : Nat) (z : Wrap32) : wrap (n % 2 ^ 64) z = wrap n z := by
  have h : UInt32.ofNat (n % 2 ^ 64) = UInt32.ofNat n := by
    apply UInt32.toNat_inj.mp
    simp only [UInt32.toNat_ofNat']
    omega
  unfold wrap
  rw [h]

theorem wrap_add_one (n : Nat) (z : Wrap32) : (wrap n z).add 1 = wrap (n + 1) z := by
  have h : z.rawValue + UInt32.ofNat n + 1 = z.rawValue + UInt32.ofNat (n + 1) := by
    rw [UInt32.ofNat_add, UInt32.add_assoc]; rfl
  unfold wrap add
  rw [h]

theorem offset_wrap (n : Nat) (z : Wrap32) : offset (wrap n z) z = n % 2 ^ 32 := by
  have hz := z.rawValue.toNat_lt
  have hr : (wrap n z).rawValue.toNat = (z.rawValue.toNat + n) % 2 ^ 32 := by
    simp [wrap, add, UInt32.toNat_add]
  unfold offset
  rw [hr]
  split <;> omega

/-- At or above the checkpoint the second candidate wraps below 0. -/
theorem candidates_of_le {o c : Nat} (ho : o < 2 ^ 32) (h : c ≤ o) :
    candidates o c = (o, o + 2 ^ 64 - 2 ^ 32) := by
  have hm : (o - c) % 2 ^ 32 = o - c := Nat.mod_eq_of_lt (by omega)
  have h1 : add64 c (o - c) = o := by rw [add64_of_lt (by omega)]; omega
  have h2 : sub64 o (2 ^ 32) = o + 2 ^ 64 - 2 ^ 32 := by unfold sub64 subW; omega
  simp only [candidates, ge_iff_le, h, if_true, hm, h1, h2]

/-- Below the checkpoint the candidates are the representatives around it. -/
theorem candidates_of_gt {o c : Nat} (hc : c < 2 ^ 64) (h : o < c) :
    candidates o c = (c - (c - o) % 2 ^ 32, add64 (c - (c - o) % 2 ^ 32) (2 ^ 32)) := by
  have hml : (c - o) % 2 ^ 32 ≤ c := by have := Nat.mod_le (c - o) (2 ^ 32); omega
  have h1 : sub64 c ((c - o) % 2 ^ 32) = c - (c - o) % 2 ^ 32 := sub64_of_le hml hc
  simp only [candidates, ge_iff_le, Nat.not_le.mpr h, if_false, h1]

theorem absoluteDelta_eq (a b : Nat) : absoluteDelta a b = (a - b) + (b - a) := by
  unfold absoluteDelta; split <;> omega

/-- `unwrap` in closed form: `last_tmp` is taken only above the checkpoint,
and only when it fits in 64 bits. -/
theorem unwrap_eq (w z : Wrap32) (c : Nat) (hc : c < 2 ^ 64) :
    unwrap w z c =
      if c ≤ offset w z then offset w z
      else if 2 ^ 31 < (c - offset w z) % 2 ^ 32 ∧ c - (c - offset w z) % 2 ^ 32 + 2 ^ 32 < 2 ^ 64
        then c - (c - offset w z) % 2 ^ 32 + 2 ^ 32
      else c - (c - offset w z) % 2 ^ 32 := by
  have ho := offset_lt w z
  unfold unwrap
  generalize offset w z = o at *
  by_cases h : c ≤ o
  · rw [candidates_of_le ho h, if_pos h]
    simp only [absoluteDelta_eq]
    rw [if_neg (by omega)]
  · rw [candidates_of_gt hc (by omega), if_neg h]
    have hm : (c - o) % 2 ^ 32 < 2 ^ 32 := Nat.mod_lt _ (by decide)
    have hml := Nat.mod_le (c - o) (2 ^ 32)
    simp only [absoluteDelta_eq]
    generalize (c - o) % 2 ^ 32 = m at *
    by_cases hfit : c - m + 2 ^ 32 < 2 ^ 64
    · rw [add64_of_lt hfit]
      by_cases hn : 2 ^ 31 < m
      · rw [if_pos (by omega), if_pos ⟨hn, hfit⟩]
      · rw [if_neg (by omega), if_neg (fun h' => hn h'.1)]
    · have h2 : add64 (c - m) (2 ^ 32) = c - m + 2 ^ 32 - 2 ^ 64 := by
        unfold add64 addW; omega
      rw [h2, if_neg (by omega), if_neg (fun h' => hfit h'.2)]

theorem unwrap_lt (w z : Wrap32) (c : Nat) (hc : c < 2 ^ 64) : unwrap w z c < 2 ^ 64 := by
  have := offset_lt w z
  rw [unwrap_eq w z c hc]
  split
  · omega
  · split <;> omega

theorem unwrap_lt_add (w z : Wrap32) (c : Nat) (hc : c < 2 ^ 64) :
    unwrap w z c < c + 2 ^ 32 := by
  have := offset_lt w z
  rw [unwrap_eq w z c hc]
  split
  · omega
  · split <;> omega

theorem lt_unwrap_add (w z : Wrap32) (c : Nat) (hc : c < 2 ^ 64) :
    c < unwrap w z c + 2 ^ 32 := by
  have := offset_lt w z
  rw [unwrap_eq w z c hc]
  split
  · omega
  · split <;> omega

/-- At most `2^31` below the checkpoint. -/
theorem unwrap_wrap_of_le (x c : Nat) (z : Wrap32) (hc : c < 2 ^ 64) (hx : x ≤ c)
    (hd : c - x ≤ 2 ^ 31) : unwrap (wrap x z) z c = x := by
  rw [unwrap_eq _ _ _ hc, offset_wrap]
  by_cases h : c ≤ x % 2 ^ 32
  · rw [if_pos h]; omega
  · rw [if_neg h]
    have hm : (c - x % 2 ^ 32) % 2 ^ 32 = c - x := by omega
    rw [hm, if_neg (fun h' => absurd h'.1 (by omega))]
    omega

/-- Less than `2^31` above the checkpoint. -/
theorem unwrap_wrap_of_gt (x c : Nat) (z : Wrap32) (hx : x < 2 ^ 64) (hcx : c < x)
    (hd : x - c < 2 ^ 31) : unwrap (wrap x z) z c = x := by
  rw [unwrap_eq _ _ _ (by omega), offset_wrap]
  by_cases h : c ≤ x % 2 ^ 32
  · rw [if_pos h]; omega
  · rw [if_neg h]
    have hm : (c - x % 2 ^ 32) % 2 ^ 32 = 2 ^ 32 - (x - c) := by omega
    rw [hm, if_pos ⟨by omega, by omega⟩]
    omega

/-- A number below `2^32` at or above the checkpoint is its own residue. -/
theorem unwrap_wrap_of_small (x c : Nat) (z : Wrap32) (hx : x < 2 ^ 32) (hcx : c ≤ x) :
    unwrap (wrap x z) z c = x := by
  rw [unwrap_eq _ _ _ (by omega), offset_wrap, Nat.mod_eq_of_lt hx, if_pos hcx]

/-- `x` and `x - 2^64` wrap alike: seen from a checkpoint `c` that has lapped
past `2^64`, a number at most `2^31` behind unwraps above `c`. -/
theorem unwrap_wrap_lap (x c : Nat) (z : Wrap32) (hc : c < 2 ^ 31) (hx : x < 2 ^ 64)
    (hd : c + 2 ^ 64 - x ≤ 2 ^ 31) : c < unwrap (wrap x z) z c := by
  rw [unwrap_eq _ _ _ (by omega), offset_wrap, if_pos (by omega)]
  omega

/-! ## The nearest representative -/

theorem wrap_eq_iff (n : Nat) (w z : Wrap32) : wrap n z = w ↔ offset w z = n % 2 ^ 32 := by
  constructor
  · rintro rfl
    exact offset_wrap n z
  · intro h
    have hz := z.rawValue.toNat_lt
    have hw := w.rawValue.toNat_lt
    have hr : (wrap n z).rawValue.toNat = w.rawValue.toNat := by
      simp only [wrap, add, UInt32.toNat_add, UInt32.toNat_ofNat']
      unfold offset at h
      split at h <;> omega
    obtain ⟨v⟩ := w
    have hv : (wrap n z).rawValue = v := UInt32.toNat_inj.mp hr
    rw [← hv]

/-- Of the absolute numbers that wrap to `w`, `x` is one nearest to `c`. -/
structure Nearest (w z : Wrap32) (c x : Nat) : Prop where
  lt : x < 2 ^ 64
  wraps : wrap x z = w
  le : ∀ y, y < 2 ^ 64 → wrap y z = w → Nat.dist c x ≤ Nat.dist c y

theorem nearest_unwrap_self (w z : Wrap32) {c : Nat} (hc : c < 2 ^ 64) :
    Nearest w z c (unwrap w z c) := by
  have ho := offset_lt w z
  refine ⟨unwrap_lt w z c hc, ?_, fun y hy hw => ?_⟩
  · rw [wrap_eq_iff, unwrap_eq w z c hc]
    generalize offset w z = o at *
    split
    · omega
    · split <;> omega
  · rw [wrap_eq_iff] at hw
    rw [unwrap_eq w z c hc]
    unfold Nat.dist
    generalize offset w z = o at *
    split
    · omega
    · split <;> omega

/-- A number near two checkpoints is seen as the same from both. -/
theorem unwrap_eq_of_near {w z : Wrap32} {c c' : Nat} (hc : c < 2 ^ 64) (hc' : c' < 2 ^ 64)
    (hlo : c' ≤ unwrap w z c + 2 ^ 31) (hhi : unwrap w z c < c' + 2 ^ 31) :
    unwrap w z c' = unwrap w z c := by
  have hu := nearest_unwrap_self w z hc
  obtain ⟨hlt, hwraps⟩ := hu.lt, hu.wraps
  generalize unwrap w z c = x at *
  rw [← hwraps]
  rcases Nat.lt_or_ge c' x with hx | hx
  · exact unwrap_wrap_of_gt x c' z hlt hx (by omega)
  · exact unwrap_wrap_of_le x c' z hc' hx (by omega)

/-- Only a number half a turn away has two nearest representatives. -/
theorem unwrap_of_nearest {w z : Wrap32} {c x : Nat} (hc : c < 2 ^ 64) (h : Nearest w z c x)
    (htie : w ≠ wrap (c + 2 ^ 31) z) : unwrap w z c = x := by
  have hu := nearest_unwrap_self w z hc
  have h1 := h.le _ hu.lt hu.wraps
  have h2 := hu.le _ h.lt h.wraps
  have ho := (wrap_eq_iff _ _ _).mp h.wraps
  have ho' := (wrap_eq_iff _ _ _).mp hu.wraps
  have ht : offset w z ≠ (c + 2 ^ 31) % 2 ^ 32 := fun he => htie ((wrap_eq_iff _ _ _).mpr he).symm
  generalize unwrap w z c = u at *
  -- two that are equally far lie on both sides of `c`, with none between them
  rcases Nat.lt_trichotomy x u with hlt | heq | hlt
  · have h3 := h.le (x + 2 ^ 32) (by have := hu.lt; omega) ((wrap_eq_iff _ _ _).mpr (by omega))
    unfold Nat.dist at h1 h2 h3
    omega
  · exact heq.symm
  · have h3 := hu.le (u + 2 ^ 32) (by have := h.lt; omega) ((wrap_eq_iff _ _ _).mpr (by omega))
    unfold Nat.dist at h1 h2 h3
    omega

theorem abs_sub_eq_dist (x c : Nat) : |(x : Int) - c| = Nat.dist c x := by
  unfold Nat.dist
  rcases abs_cases ((x : Int) - c) with ⟨h, _⟩ | ⟨h, _⟩
  · omega
  · omega

/-- **The nearest representative.** What `unwrap` returns wraps to `w`, and no
absolute number that does lies nearer to the checkpoint; so one less than
`2^31` away is returned. -/
theorem unwrap_nearest (w z : Wrap32) (c : Nat) (hc : c < 2 ^ 64) :
    unwrap w z c < 2 ^ 64 ∧ wrap (unwrap w z c) z = w ∧
      (∀ x : Nat, x < 2 ^ 64 → wrap x z = w → |(unwrap w z c : Int) - c| ≤ |(x : Int) - c|) ∧
      ∀ v : Nat, v < 2 ^ 64 → |(v : Int) - c| < 2 ^ 31 → unwrap (wrap v z) z c = v := by
  have hn := nearest_unwrap_self w z hc
  refine ⟨hn.lt, hn.wraps, fun x hx hw => ?_, fun v hv hd => ?_⟩
  · have hle := hn.le x hx hw
    rw [abs_sub_eq_dist, abs_sub_eq_dist]
    exact_mod_cast hle
  · rw [abs_sub_eq_dist] at hd
    unfold Nat.dist at hd
    rcases Nat.lt_or_ge c v with h | h
    · exact unwrap_wrap_of_gt v c z hv h (by omega)
    · exact unwrap_wrap_of_le v c z hc h (by omega)

/-- `2^64 + 5` is nearer, but does not fit in 64 bits. -/
theorem unwrap_nearest_top :
    let c : Nat := 2 ^ 64 - 1
    unwrap ⟨5⟩ ⟨0⟩ c = 2 ^ 64 - 2 ^ 32 + 5 ∧ ∀ x : Nat, x < 2 ^ 64 → wrap x ⟨0⟩ = ⟨5⟩ →
      |(unwrap ⟨5⟩ ⟨0⟩ c : Int) - c| ≤ |(x : Int) - c| :=
  ⟨by decide, (unwrap_nearest ⟨5⟩ ⟨0⟩ (2 ^ 64 - 1) (by decide)).2.2.1⟩

end Wrap32
end StreamSocket.L1
