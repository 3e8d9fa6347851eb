import MultiDispatch.Candidate.Body

/-!
# Candidates

An implementation of an operation is a signature with a body. Once published it is a candidate: it
has a number of its own, so that two candidates with equal signatures stay two candidates and one
that is published twice stays one.

## Main definitions

* `Implementation`: a signature with a body.
* `Candidate`: an implementation with an identity.
-/

namespace MultiDispatch

/-- A signature with what is done when it is chosen. -/
structure Implementation where
  signature : Signature
  body : Body

/-- An implementation with an identity. -/
structure Candidate where
  id : Nat
  implementation : Implementation

namespace Candidate

/-- The signature of a candidate. -/
def signature (c : Candidate) : Signature :=
  c.implementation.signature

/-- The operation a candidate implements. -/
def operation (c : Candidate) : String :=
  c.signature.operation

/-- The number of positions of a candidate. -/
def arity (c : Candidate) : Nat :=
  c.signature.arity

/-- The text of a candidate is that of its signature. -/
def text (c : Candidate) : String :=
  c.signature.text

/-- The text of a candidate that names it as one. -/
def tag (c : Candidate) : String :=
  "Candidate(" ++ c.text ++ ")"

/-- Run the body, without a check of any type. -/
def run (c : Candidate) (subject : Value) (args : List (Option Value)) :
    Except BodyError Value :=
  c.implementation.body subject args

end Candidate

end MultiDispatch
