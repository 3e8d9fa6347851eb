import Mathlib.Data.Nat.Notation
import MultiDispatch.Resolution.Specificity

/-!
# Dominance as an order

`closerSomewhere` walks along two lists of verdicts, and `specificity` compares the walks in both
directions. Here both are read position by position, which is how dominance is reasoned about
everywhere else.

## Why dominance is not transitive in general

A position counts only if both lists have a tier there. If the middle one of three lists has a
wildcard where the outer two have tiers, the outer two are compared at a position at which neither
was compared with the middle one, and anything can happen there. Lists that have their tiers at the
same positions are `Aligned`, and among aligned lists dominance is a strict order. The verdicts on
the candidates that fit one call are aligned, because a null stands at its position for all of them.

## Main definitions

* `tierAt?`: the tier at a position of a list of verdicts
* `AsClose`: nowhere farther, as far as both lists have tiers
* `Aligned`: tiers at the same positions

## Main results

* `dominates_iff`: dominance is Pareto dominance
* `dominates_irrefl`, `dominates_asymm`, `dominates_trans`: a strict order on aligned lists
-/

namespace MultiDispatch

variable {a b c : List Verdict}

/-! ### Reading positions -/

/-- The tier at position `i`, if the list is that long and has a tier there. -/
def tierAt? (verdicts : List Verdict) (i : ℕ) : Option Tier :=
  verdicts[i]?.bind Verdict.tier?

@[simp] theorem tierAt?_nil (i : ℕ) : tierAt? [] i = none := rfl

@[simp] theorem tierAt?_cons_zero (v : Verdict) (vs : List Verdict) :
    tierAt? (v :: vs) 0 = v.tier? := rfl

@[simp] theorem tierAt?_cons_succ (v : Verdict) (vs : List Verdict) (i : ℕ) :
    tierAt? (v :: vs) (i + 1) = tierAt? vs i := by
  simp [tierAt?]

/-- `a` has a closer tier than `b` at position `i`. -/
def CloserAt (a b : List Verdict) (i : ℕ) : Prop :=
  ∃ s t, tierAt? a i = some s ∧ tierAt? b i = some t ∧ s.rank < t.rank

theorem closerSomewhere_cons (v w : Verdict) (vs ws : List Verdict) :
    closerSomewhere (v :: vs) (w :: ws) = true ↔
      CloserAt (v :: vs) (w :: ws) 0 ∨ closerSomewhere vs ws = true := by
  cases hv : v.tier? <;> cases hw : w.tier? <;> simp [closerSomewhere, CloserAt, hv, hw]

theorem closerSomewhere_iff : closerSomewhere a b = true ↔ ∃ i, CloserAt a b i := by
  induction a generalizing b with
  | nil => simp [closerSomewhere, CloserAt]
  | cons v vs ih =>
    cases b with
    | nil => simp [closerSomewhere, CloserAt]
    | cons w ws =>
      rw [closerSomewhere_cons, ih]
      constructor
      · rintro (h | ⟨i, h⟩)
        · exact ⟨0, h⟩
        · exact ⟨i + 1, by simpa [CloserAt] using h⟩
      · rintro ⟨i, h⟩
        cases i with
        | zero => exact .inl h
        | succ i => exact .inr ⟨i, by simpa [CloserAt] using h⟩

/-- `a` is not farther than `b` at any position at which both have a tier. -/
def AsClose (a b : List Verdict) : Prop :=
  ∀ i s t, tierAt? a i = some s → tierAt? b i = some t → s.rank ≤ t.rank

theorem not_exists_closerAt_iff : (¬ ∃ i, CloserAt b a i) ↔ AsClose a b := by
  constructor
  · intro h i s t hs ht
    exact Nat.le_of_not_lt fun hlt => h ⟨i, t, s, ht, hs, hlt⟩
  · rintro h ⟨i, t, s, ht, hs, hlt⟩
    exact absurd (h i s t hs ht) (Nat.not_le_of_lt hlt)

/-- **Dominance is Pareto dominance**: nowhere farther and somewhere closer. -/
theorem dominates_iff : dominates a b = true ↔ AsClose a b ∧ ∃ i, CloserAt a b i := by
  have key : dominates a b = true ↔ closerSomewhere a b = true ∧ ¬ closerSomewhere b a = true := by
    cases hab : closerSomewhere a b <;> cases hba : closerSomewhere b a <;>
      simp [dominates, specificity, hab, hba]
  rw [key, closerSomewhere_iff, closerSomewhere_iff, not_exists_closerAt_iff, and_comm]

/-! ### A strict order -/

theorem dominates_irrefl (a : List Verdict) : dominates a a = false := by
  cases h : closerSomewhere a a <;> simp [dominates, specificity, h]

theorem dominates_asymm (hab : dominates a b = true) : dominates b a = false := by
  obtain ⟨hle, -⟩ := dominates_iff.1 hab
  rw [← Bool.not_eq_true, dominates_iff]
  rintro ⟨-, hlt⟩
  exact not_exists_closerAt_iff.2 hle hlt

/-- Two lists of verdicts that have their tiers at the same positions. -/
def Aligned (a b : List Verdict) : Prop :=
  ∀ i, (tierAt? a i).isSome = (tierAt? b i).isSome

theorem Aligned.exists_tier (h : Aligned a b) {i : ℕ} {s : Tier} (hs : tierAt? a i = some s) :
    ∃ t, tierAt? b i = some t := by
  have hi := h i
  rw [hs, Option.isSome_some] at hi
  exact Option.isSome_iff_exists.1 hi.symm

theorem AsClose.trans (h : Aligned a b) (hab : AsClose a b) (hbc : AsClose b c) : AsClose a c := by
  intro i s u hs hu
  obtain ⟨t, ht⟩ := h.exists_tier hs
  exact Nat.le_trans (hab i s t hs ht) (hbc i t u ht hu)

/-- Among aligned lists dominance is transitive. The position at which `a` is closer than `b` is one
at which `c` has a tier as well, and `b` is not farther than `c` there. -/
theorem dominates_trans (h₁ : Aligned a b) (h₂ : Aligned b c) (hab : dominates a b = true)
    (hbc : dominates b c = true) : dominates a c = true := by
  obtain ⟨hle, i, s, t, hs, ht, hlt⟩ := dominates_iff.1 hab
  obtain ⟨hle', -⟩ := dominates_iff.1 hbc
  obtain ⟨u, hu⟩ := h₂.exists_tier ht
  exact dominates_iff.2
    ⟨hle.trans h₁ hle', i, s, u, hs, hu, Nat.lt_of_lt_of_le hlt (hle' i t u ht hu)⟩

end MultiDispatch
