import MultiDispatch.Candidate.Basic

/-!
# Calls

What a call shows to resolution: the operation's name and the runtime types of the subject and the
arguments, a null having none.

## Main definitions

* `Call`: a call.
* `Call.ofValues`: the call with given values.
* `CallKey`: what calls are told apart by.
-/

namespace MultiDispatch

/-- An operation with the runtime types it is called with. -/
structure Call where
  operation : String
  subject : Option Ty
  args : List (Option Ty)

/-- The operation and the identities of the runtime types of a call, nulls included. -/
structure CallKey where
  operation : String
  subject : Option TypeId
  args : List (Option TypeId)
deriving DecidableEq

namespace Call

/-- The runtime types by position. -/
def positions (c : Call) : List (Option Ty) :=
  c.subject :: c.args

/-- The number of positions. -/
def arity (c : Call) : Nat :=
  1 + c.args.length

/-- What the call is told apart by. -/
def key (c : Call) : CallKey :=
  ⟨c.operation, c.subject.map Ty.id, c.args.map (·.map Ty.id)⟩

/-- The call of an operation with values. -/
def ofValues (operation : String) (subject : Option Value) (args : List (Option Value)) : Call :=
  ⟨operation, subject.map Value.type, args.map (·.map Value.type)⟩

end Call

end MultiDispatch
