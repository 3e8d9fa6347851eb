import MultiDispatch.Candidate.Basic
import MultiDispatch.Text.Record

/-!
# The index of candidates

Candidates are found by operation and arity. The index keeps one bucket for each pair that occurs,
in the order in which the candidates of the bucket were published; a published candidate is never
taken out again, other than by starting over with the empty index.

A batch is grouped by bucket before it is published, so that every bucket is extended once.

## Main definitions

* `Bucket`: the candidates of one operation and arity.
* `CandidateIndex`: the index.
* `CandidateIndex.publish`, `CandidateIndex.publishAll`: add candidates.
* `CandidateIndex.bucket`, `CandidateIndex.named`: look candidates up.
-/

namespace MultiDispatch

/-- The candidates of one operation and arity, in the order of publication. -/
structure Bucket where
  operation : String
  arity : Nat
  members : List Candidate

/-- Candidates by operation and arity. -/
structure CandidateIndex where
  buckets : List Bucket

namespace CandidateIndex

/-- The index without candidates. -/
def empty : CandidateIndex :=
  ⟨[]⟩

/-- Add members at the end of the bucket of an operation and arity, making the bucket if needed. -/
def extend (operation : String) (arity : Nat) (added : List Candidate) :
    List Bucket → List Bucket
  | [] => [⟨operation, arity, added⟩]
  | b :: rest =>
    if b.operation = operation ∧ b.arity = arity then
      { b with members := b.members ++ added } :: rest
    else b :: extend operation arity added rest

/-- The buckets of a batch on its own. -/
def group (batch : List Candidate) : List Bucket :=
  batch.foldl (fun buckets c => extend c.operation c.arity [c] buckets) []

/-- Publish a batch of candidates. -/
def publishAll (index : CandidateIndex) (batch : List Candidate) : CandidateIndex :=
  ⟨(group batch).foldl (fun buckets b => extend b.operation b.arity b.members buckets)
    index.buckets⟩

/-- Publish one candidate. -/
def publish (index : CandidateIndex) (c : Candidate) : CandidateIndex :=
  index.publishAll [c]

/-- The candidates of an operation with exactly the given arity, in the order of publication. -/
def bucket (index : CandidateIndex) (operation : String) (arity : Nat) : List Candidate :=
  match index.buckets.find? fun b => b.operation = operation ∧ b.arity = arity with
  | some b => b.members
  | none => []

/-- The candidates of an operation by ascending arity, those of one arity in the order of
publication. -/
def named (index : CandidateIndex) (operation : String) : List Candidate :=
  let found := (index.buckets.filter fun b => b.operation = operation).flatMap Bucket.members
  found.mergeSort fun a b => a.arity ≤ b.arity

/-- The number of published candidates. -/
def size (index : CandidateIndex) : Nat :=
  (index.buckets.flatMap Bucket.members).length

/-- Whether nothing was published. -/
def isEmpty (index : CandidateIndex) : Bool :=
  index.size = 0

/-- The index as a record. -/
def text (index : CandidateIndex) : String :=
  Text.record "CandidateIndex" [("candidates", toString index.size)]

end CandidateIndex

end MultiDispatch
