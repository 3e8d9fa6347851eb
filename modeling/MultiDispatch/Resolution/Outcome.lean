import MultiDispatch.Candidate.Basic

/-!
# Outcomes of resolution

A call is matched by one candidate, or by none, or several candidates are left of which none is more
specific than all others. The last two mean alike that nothing can be called, and are told apart for
diagnosis.

## Main definitions

* `Unmatched`: why no candidate is left.
* `Outcome`: an outcome.
* `Outcome.same`: whether two outcomes name the same candidates.
-/

namespace MultiDispatch

/-- Why no candidate is left. -/
inductive Unmatched where
  /-- The subject is null, so that there is no type to dispatch on. -/
  | nullSubject
  /-- The operation has no candidate of this arity. -/
  | noCandidates
  /-- No candidate fits the types. -/
  | noneApplicable
deriving DecidableEq, Repr

/-- The text of a reason. -/
def Unmatched.message : Unmatched → String
  | .nullSubject => "subject is null"
  | .noCandidates => "no candidates registered"
  | .noneApplicable => "no candidate accepts these argument types"

/-- What a call resolves to. -/
inductive Outcome where
  | matched (c : Candidate)
  | unmatched (reason : Unmatched)
  /-- Several candidates of which none is more specific than all others. -/
  | ambiguous (candidates : List Candidate)

namespace Outcome

/-- Whether a candidate is chosen. -/
def isMatched : Outcome → Bool
  | .matched _ => true
  | .unmatched _ => false
  | .ambiguous _ => false

/-- Whether no candidate is left. -/
def isUnmatched : Outcome → Bool
  | .matched _ => false
  | .unmatched _ => true
  | .ambiguous _ => false

/-- Whether several candidates are left. -/
def isAmbiguous : Outcome → Bool
  | .matched _ => false
  | .unmatched _ => false
  | .ambiguous _ => true

/-- The chosen candidate. -/
def matched? : Outcome → Option Candidate
  | .matched c => some c
  | .unmatched _ => none
  | .ambiguous _ => none

/-- All candidates that an outcome names. -/
def named : Outcome → List Candidate
  | .matched c => [c]
  | .unmatched _ => []
  | .ambiguous cs => cs

/-- Whether two outcomes are of one kind and name the same candidates. Lists of candidates are
compared by length and by the identities in the first list, each of which has to occur in the
second. -/
def same : Outcome → Outcome → Bool
  | .matched a, .matched b => a.id = b.id
  | .unmatched a, .unmatched b => a = b
  | .ambiguous a, .ambiguous b =>
    a.length = b.length && a.all fun x => b.any fun y => x.id = y.id
  | _, _ => false

/-- The text of an outcome. -/
def text : Outcome → String
  | .matched c => "matched " ++ c.text
  | .unmatched reason => "unmatched: " ++ reason.message
  | .ambiguous cs => "ambiguous between " ++ String.intercalate ", " (cs.map Candidate.text)

end Outcome

end MultiDispatch
