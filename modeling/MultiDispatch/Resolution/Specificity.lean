import MultiDispatch.Resolution.Verdict

/-!
# Specificity

Two candidates that fit a call are compared position by position. One dominates the other when it is
closer at some position and farther at none, where only positions count at which both have a tier.
This is Pareto dominance: candidates may be incomparable.

## Main definitions

* `specificity`: the comparison of two lists of verdicts.
* `dominates`: the first list is the more specific one.
-/

namespace MultiDispatch

/-- Whether the first list is closer at some position at which both have a tier. -/
def closerSomewhere : List Verdict → List Verdict → Bool
  | a :: as, b :: bs =>
    (match a.tier?, b.tier? with
      | some s, some t => decide (s.rank < t.rank)
      | _, _ => false) || closerSomewhere as bs
  | _, _ => false

/-- The comparison of two lists of verdicts: less if the first is more specific, equal if neither is
closer anywhere, and nothing if each is closer somewhere. Where one list ends, so does the
comparison. -/
def specificity (a b : List Verdict) : Option Ordering :=
  match closerSomewhere a b, closerSomewhere b a with
  | true, false => some .lt
  | false, true => some .gt
  | false, false => some .eq
  | true, true => none

/-- Whether the first list of verdicts is more specific than the second. -/
def dominates (a b : List Verdict) : Bool :=
  specificity a b = some .lt

end MultiDispatch
