import Mathlib

/-!
# Labelled transition systems

The protocol layers state every property of a run against an `LTS`: a set of
initial states and a labelled step relation. `Run s ls s'` is a finite run,
`Reachable s` its end states. Most systems here are given by a partial step
function (`LTS.ofFn`), so a run is also a computation (`exec`).

* `Inductive.reachable`: a predicate that holds initially and is kept by each
  step holds of every reachable state.
* `restrict`: only the steps that meet a condition. `Inductive.restrict` adds
  the condition to what a step lemma may assume.
* `run_restrict_iff`: when, step by step, a property of the step is equivalent
  to a condition on it, then a whole run meets the one exactly when it meets
  the other.
-/
namespace StreamSocket

structure LTS (S L : Type) where
  init : S → Prop
  step : S → L → S → Prop

namespace LTS

variable {S L : Type}

inductive Run (M : LTS S L) : S → List L → S → Prop
  | nil (s : S) : Run M s [] s
  | cons {s s' s'' : S} {l : L} {ls : List L} :
      M.step s l s' → Run M s' ls s'' → Run M s (l :: ls) s''

def Reachable (M : LTS S L) (s : S) : Prop := ∃ s₀ ls, M.init s₀ ∧ M.Run s₀ ls s

structure Inductive (M : LTS S L) (P : S → Prop) : Prop where
  init : ∀ s, M.init s → P s
  step : ∀ s l s', P s → M.step s l s' → P s'

theorem Run.keeps {M : LTS S L} {P : S → Prop} (hst : ∀ s l s', P s → M.step s l s' → P s')
    {s s' : S} {ls : List L} (hr : M.Run s ls s') (h : P s) : P s' := by
  induction hr with
  | nil => exact h
  | cons h1 _ ih => exact ih (hst _ _ _ h h1)

theorem Inductive.reachable {M : LTS S L} {P : S → Prop} (hP : M.Inductive P) (s : S)
    (hr : M.Reachable s) : P s := by
  obtain ⟨s₀, ls, hi, hrun⟩ := hr
  exact hrun.keeps hP.step (hP.init _ hi)

theorem Run.append {M : LTS S L} {a b d : S} {l₁ l₂ : List L} (h₁ : M.Run a l₁ b)
    (h₂ : M.Run b l₂ d) : M.Run a (l₁ ++ l₂) d := by
  induction h₁ with
  | nil => exact h₂
  | cons hs _ ih => exact .cons hs (ih h₂)

theorem Reachable.snoc {M : LTS S L} {s s' : S} {l : L} (hr : M.Reachable s)
    (h : M.step s l s') : M.Reachable s' := by
  obtain ⟨s₀, ls, hi, hrun⟩ := hr
  exact ⟨s₀, ls ++ [l], hi, hrun.append (.cons h (.nil _))⟩

/-! ## Systems given by a partial step function -/

/-- A deterministic system: `f s l = none` means that `l` cannot happen in `s`. -/
def ofFn (init : S → Prop) (f : S → L → Option S) : LTS S L where
  init := init
  step s l s' := f s l = some s'

def exec (f : S → L → Option S) : S → List L → Option S
  | s, [] => some s
  | s, l :: ls => (f s l).bind fun s' => exec f s' ls

/-- `f` may compute fewer steps than `M` has. -/
theorem run_of_exec_sub {M : LTS S L} {f : S → L → Option S}
    (hf : ∀ s l s', f s l = some s' → M.step s l s') :
    ∀ {ls : List L} {s s' : S}, exec f s ls = some s' → M.Run s ls s'
  | [], s, s', h => by
    simp only [exec, Option.some.injEq] at h; subst h; exact .nil _
  | l :: ls, s, s', h => by
    simp only [exec, Option.bind_eq_some_iff] at h
    obtain ⟨s₁, h₁, h₂⟩ := h
    exact .cons (hf _ _ _ h₁) (run_of_exec_sub hf h₂)

theorem run_of_exec {init : S → Prop} {f : S → L → Option S} {ls : List L} {s s' : S}
    (h : exec f s ls = some s') : (ofFn init f).Run s ls s' :=
  run_of_exec_sub (fun _ _ _ h => h) h

/-- The steps that meet a decidable condition, computed. -/
theorem run_of_filter {M : LTS S L} {f : S → L → Option S} {C : S → L → S → Prop}
    [∀ s l s', Decidable (C s l s')]
    (hM : ∀ s l s', f s l = some s' → C s l s' → M.step s l s') {ls : List L} {s s' : S}
    (h : exec (fun s l => (f s l).filter fun s' => decide (C s l s')) s ls = some s') :
    M.Run s ls s' := by
  refine run_of_exec_sub (fun s l s' hs => ?_) h
  obtain ⟨hs, hc⟩ := Option.filter_eq_some_iff.mp hs
  exact hM s l s' hs (of_decide_eq_true hc)

theorem reachable_of_exec {init : S → Prop} {f : S → L → Option S} {s₀ s : S} {ls : List L}
    (hi : init s₀) (h : exec f s₀ ls = some s) : (ofFn init f).Reachable s :=
  ⟨s₀, ls, hi, run_of_exec h⟩

/-! ## Restricting the steps -/

/-- The runs all of whose steps meet `C`. -/
def restrict (M : LTS S L) (C : S → L → S → Prop) : LTS S L where
  init := M.init
  step s l s' := M.step s l s' ∧ C s l s'

theorem Inductive.restrict {M : LTS S L} {C : S → L → S → Prop} {P : S → Prop}
    (hi : ∀ s, M.init s → P s) (hst : ∀ s l s', P s → C s l s' → M.step s l s' → P s') :
    (M.restrict C).Inductive P where
  init := hi
  step s l s' h hs := hst s l s' h hs.2 hs.1

/-- A weaker condition admits more runs. -/
theorem Run.restrict_mono {M : LTS S L} {C D : S → L → S → Prop} {I : S → Prop}
    (hI : ∀ s l s', I s → M.step s l s' → C s l s' → I s')
    (hCD : ∀ s l s', I s → M.step s l s' → C s l s' → D s l s') {s s' : S} {ls : List L}
    (h : (M.restrict C).Run s ls s') (hs : I s) : (M.restrict D).Run s ls s' := by
  induction h with
  | nil => exact .nil _
  | cons hst _ ih =>
    exact .cons ⟨hst.1, hCD _ _ _ hs hst.1 hst.2⟩ (ih (hI _ _ _ hs hst.1 hst.2))

/-- Under an invariant `I` that steps meeting `C` keep, the steps of a run
all meet `C` exactly when they all meet `D`, if that holds step by step. -/
theorem run_restrict_iff {M : LTS S L} {C D : S → L → S → Prop} {I : S → Prop}
    (hI : ∀ s l s', I s → M.step s l s' → C s l s' → I s')
    (hCD : ∀ s l s', I s → M.step s l s' → (C s l s' ↔ D s l s')) {s s' : S} {ls : List L}
    (hs : I s) : (M.restrict C).Run s ls s' ↔ (M.restrict D).Run s ls s' :=
  ⟨fun h => h.restrict_mono hI (fun s l s' hi hst => (hCD s l s' hi hst).mp) hs,
   fun h => h.restrict_mono (fun s l s' hi hst hd => hI s l s' hi hst ((hCD s l s' hi hst).mpr hd))
     (fun s l s' hi hst => (hCD s l s' hi hst).mpr) hs⟩

end LTS
end StreamSocket
