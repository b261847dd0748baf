import Mathlib

/-!
# One's complement sums

Words are added with an end-around carry; `M` is the word of all ones. A sum of
words is a natural number modulo `M`, except that zero has two words: all ones
stands for every multiple of `M` but 0.

* `Word M s r`: `r` is the word that stands for the number `s`; there is one
  (`Word.unique`).
* `Word.foldl`: adding words to a word is adding their numbers.
* `Word.of_fold`: what overflows a word may be added back in at the end.
-/
namespace StreamSocket.OnesComplement

/-- The carry is added back in. -/
def add (M a b : Nat) : Nat := if a + b ≤ M then a + b else a + b - M

structure Word (M s r : Nat) : Prop where
  le : r ≤ M
  mod : r % M = s % M
  zero : r = 0 ↔ s = 0

variable {M s r : Nat}

theorem Word.self (h : s ≤ M) : Word M s s := ⟨h, rfl, Iff.rfl⟩

theorem Word.unique {r' : Nat} (h : Word M s r) (h' : Word M s r') : r = r' := by
  have hmod : r % M = r' % M := h.mod.trans h'.mod.symm
  have hzero : r = 0 ↔ r' = 0 := h.zero.trans h'.zero.symm
  rcases Nat.lt_or_eq_of_le h.le with hr | hr <;> rcases Nat.lt_or_eq_of_le h'.le with hr' | hr'
  · rwa [Nat.mod_eq_of_lt hr, Nat.mod_eq_of_lt hr'] at hmod
  · rw [hr', Nat.mod_eq_of_lt hr, Nat.mod_self] at hmod
    have := hzero.mp hmod
    omega
  · rw [hr, Nat.mod_eq_of_lt hr', Nat.mod_self] at hmod
    have := hzero.mpr hmod.symm
    omega
  · exact hr.trans hr'.symm

theorem Word.add {t q : Nat} (hs : Word M s r) (ht : Word M t q) :
    Word M (s + t) (OnesComplement.add M r q) := by
  have h1 := hs.le
  have h2 := ht.le
  have hmod : (r + q) % M = (s + t) % M := by
    rw [Nat.add_mod, hs.mod, ht.mod, ← Nat.add_mod]
  have hz : r + q = 0 ↔ s + t = 0 := by
    rw [Nat.add_eq_zero_iff, Nat.add_eq_zero_iff, hs.zero, ht.zero]
  unfold OnesComplement.add
  split_ifs with h
  · exact ⟨h, hmod, hz⟩
  · refine ⟨by omega, ?_, by omega⟩
    rw [← hmod, ← Nat.mod_eq_sub_mod (by omega)]

theorem Word.foldl {ws : List Nat} (h : Word M s r) (hw : ∀ w ∈ ws, w ≤ M) :
    Word M (s + ws.sum) (ws.foldl (OnesComplement.add M) r) := by
  induction ws generalizing s r with
  | nil => exact h
  | cons w ws ih =>
    rw [List.sum_cons, ← Nat.add_assoc, List.foldl_cons]
    exact ih (h.add (.self (hw w List.mem_cons_self))) fun w' hw' =>
      hw w' (List.mem_cons_of_mem _ hw')

/-- The digits of `s` to the base `M + 1` add up to `s`. -/
theorem Word.of_fold (h : Word M (s / (M + 1) + s % (M + 1)) r) : Word M s r := by
  have hs := Nat.div_add_mod s (M + 1)
  refine ⟨h.le, ?_, ?_⟩
  · rw [h.mod]
    conv_rhs => rw [← hs, Nat.add_mul, Nat.one_mul, Nat.add_assoc]
    rw [Nat.mul_add_mod]
  · rw [h.zero, Nat.add_eq_zero_iff]
    constructor
    · rintro ⟨hq, ht⟩
      rw [← hs, hq, ht, Nat.mul_zero]
    · rintro rfl
      exact ⟨Nat.zero_div _, Nat.zero_mod _⟩

end StreamSocket.OnesComplement
