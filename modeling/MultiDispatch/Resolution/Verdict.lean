import MultiDispatch.Universe.Ty

/-!
# Verdicts on one position

How the runtime type at one position of a call fits the type that a candidate declares there. The
closer the two types, the lower the tier. A null fits everywhere except where a value type is
declared; it carries no type and therefore no tier.

## Main definitions

* `Tier`: how close a fitting type is.
* `Verdict`: the verdict on a position.
* `judge`: the verdict on a runtime type, or a null, against a declared type.
-/

namespace MultiDispatch

/-- How close a runtime type is to a declared type that it fits. -/
inductive Tier where
  /-- The same type. -/
  | exact
  /-- The declared type is a class above. -/
  | ancestor
  /-- The declared type is an interface that the runtime type implements. -/
  | interface
  /-- The declared type is universal. -/
  | universal
deriving DecidableEq, Repr

/-- The rank of a tier; the closest tier has rank zero. -/
def Tier.rank : Tier → Nat
  | .exact => 0
  | .ancestor => 1
  | .interface => 2
  | .universal => 3

/-- The verdict on one position. -/
inductive Verdict where
  | incompatible
  | tier (t : Tier)
  /-- A null where one is accepted. -/
  | wildcard
deriving DecidableEq, Repr

/-- Whether a candidate with this verdict at one position is still in the running. -/
def Verdict.isCompatible : Verdict → Bool
  | .incompatible => false
  | .tier _ => true
  | .wildcard => true

/-- The tier of a verdict, if it has one. -/
def Verdict.tier? : Verdict → Option Tier
  | .incompatible => none
  | .tier t => some t
  | .wildcard => none

/-- The verdict on a runtime type, or on a null, where a type is declared. Identifiers of different
tables differ, so a type of another table is never the declared one. It may be below it all the
same, if its declarations led there. -/
def judge (runtime : Option Ty) (declared : Ty) : Verdict :=
  match runtime with
  | none => if declared.isValue then .incompatible else .wildcard
  | some r =>
    if r.id = declared.id then .tier .exact
    else if declared.isUniversal then .tier .universal
    else if r.hasAncestor declared.id then .tier .ancestor
    else if declared.isInterface && r.implements declared.id then .tier .interface
    else .incompatible

end MultiDispatch
