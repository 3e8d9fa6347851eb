import MultiDispatch.Universe.Ty

/-!
# Signatures

What a candidate offers to a call: the name of the operation, and the declared types of the subject
and of the parameters. The subject is position 0 and counts for the arity.

## Main definitions

* `Signature`: a signature.
* `Signature.declared`: the declared types by position.
* `Signature.same`: equality by name and by the identity of the types.
* `Signature.text`: the text of a signature, such as `area(Bar, object)`.
-/

namespace MultiDispatch

/-- The name and the declared types of a candidate. -/
structure Signature where
  operation : String
  subject : Ty
  params : List Ty
deriving DecidableEq

namespace Signature

/-- The declared types, the subject's first. -/
def declared (s : Signature) : List Ty :=
  s.subject :: s.params

/-- The number of positions. -/
def arity (s : Signature) : Nat :=
  1 + s.params.length

/-- The declared type at a position. -/
def declaredAt? (s : Signature) (position : Nat) : Option Ty :=
  s.declared[position]?

theorem length_declared (s : Signature) : s.declared.length = s.arity := by
  simp [declared, arity, Nat.add_comm]

/-- The operation with the identities of the declared types, which is what signatures are told
apart by. -/
def key (s : Signature) : String × List TypeId :=
  (s.operation, s.declared.map Ty.id)

/-- Whether two signatures have the same operation and the same declared types. -/
def same (s t : Signature) : Bool :=
  s.key = t.key

/-- The text of an operation with its types in parentheses. -/
def callText (operation subject : String) (others : List String) : String :=
  operation ++ "(" ++ subject ++ String.join (others.map (", " ++ ·)) ++ ")"

/-- The text of a signature. Types of different tables may have the same text. -/
def text (s : Signature) : String :=
  callText s.operation s.subject.name (s.params.map Ty.name)

end Signature

end MultiDispatch
