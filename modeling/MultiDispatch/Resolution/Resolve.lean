import MultiDispatch.Candidate.Index
import MultiDispatch.Event
import MultiDispatch.Resolution.Call
import MultiDispatch.Resolution.Specificity

/-!
# Resolution of calls

A call is resolved in three steps. The candidates of its operation and arity are looked up; those
with an incompatible position are eliminated; of the rest, the one that dominates every other one is
chosen. If there is no such candidate, the call is ambiguous between those that no other one
dominates.

Nulls do not take part in the choice. Where candidates differ only at null positions, none of them
is more specific.

## Main definitions

* `assess`: the verdicts on a candidate for a call, or why it is out.
* `Fit`: a candidate that fits, with its verdicts.
* `CandidateIndex.resolve`: the outcome of a call, with the eliminations on the way.
-/

namespace MultiDispatch

/-- Why a candidate is out. -/
inductive Refusal where
  /-- It has another number of positions. -/
  | arity
  /-- This position is the first incompatible one. -/
  | position (i : Nat)
deriving DecidableEq, Repr

/-- The verdicts on the positions from `start` on, or the first incompatible position. -/
def assessFrom (start : Nat) : List (Option Ty) → List Ty → Except Nat (List Verdict)
  | runtime :: rs, declared :: ds =>
    let verdict := judge runtime declared
    if verdict.isCompatible then (assessFrom (start + 1) rs ds).map (verdict :: ·)
    else .error start
  | _, _ => .ok []

/-- The verdicts on all positions of a candidate with the given signature, or why it is out. -/
def assess (s : Signature) (positions : List (Option Ty)) : Except Refusal (List Verdict) :=
  if positions.length = s.arity then (assessFrom 0 positions s.declared).mapError .position
  else .error .arity

/-- A candidate that fits a call, with the verdicts on its positions. -/
structure Fit where
  candidate : Candidate
  verdicts : List Verdict

/-- The candidates among `cs` that fit, in order; those that do not are reported. -/
def fits (positions : List (Option Ty)) : List Candidate → Traced (List Fit)
  | [] => pure []
  | c :: rest =>
    match assess c.signature positions with
    | .ok verdicts => do
      let found ← fits positions rest
      pure (⟨c, verdicts⟩ :: found)
    | .error (.position i) => do
      Traced.emit [.eliminated c i]
      fits positions rest
    | .error .arity => fits positions rest

/-- The first candidate that dominates every other one in the list. -/
def winner? (found : List Fit) : Option Fit :=
  let best := found.zipIdx.find? fun p =>
    (found.eraseIdx p.2).all fun other => dominates p.1.verdicts other.verdicts
  best.map Prod.fst

/-- The candidates that none in the list dominates. -/
def undominated (found : List Fit) : List Fit :=
  found.filter fun a => !found.any fun other => dominates other.verdicts a.verdicts

/-- Candidates by the text of their signatures, those of equal text in their order. -/
def sortByText (cs : List Candidate) : List Candidate :=
  cs.mergeSort fun a b => decide (a.text ≤ b.text)

/-- The choice among the candidates that fit. -/
def select (found : List Fit) : Outcome :=
  match found with
  | [] => .unmatched .noneApplicable
  | [only] => .matched only.candidate
  | several =>
    match winner? several with
    | some best => .matched best.candidate
    | none => .ambiguous (sortByText ((undominated several).map Fit.candidate))

/-- The outcome of a call on the candidates of an index. -/
def CandidateIndex.resolve (index : CandidateIndex) (call : Call) : Traced Outcome :=
  match call.subject with
  | none => pure (.unmatched .nullSubject)
  | some _ =>
    match index.bucket call.operation call.arity with
    | [] => pure (.unmatched .noCandidates)
    | bucket => do
      let found ← fits call.positions bucket
      pure (select found)

end MultiDispatch
