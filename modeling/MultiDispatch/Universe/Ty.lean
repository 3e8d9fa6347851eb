import MultiDispatch.Universe.TypeSet

/-!
# Types

The description of a declared type. The chain of its ancestors and the set of all interfaces it
implements are part of the description, so that the relation of two types is a look-up and needs no
table.

Two descriptions are of the same type when their identifiers are equal; a type of another table is
another type, whatever its name.

## Main definitions

* `Kind`: reference classes, value types, interfaces and the universal type.
* `Ty`: a type.
* `Ty.universal`: the universal type of a table.
* `Ty.Shape`: what a repeated declaration of a type has to agree on.
-/

namespace MultiDispatch

/-- What a type is. -/
inductive Kind where
  /-- A class whose values may be missing. -/
  | reference
  /-- A type whose values are always present. -/
  | value
  /-- A type that others implement. -/
  | interface
  /-- The type that every value belongs to. -/
  | universal
deriving DecidableEq, Repr

/-- A declared type. -/
structure Ty where
  id : TypeId
  name : String
  kind : Kind
  /-- The classes above a class, nearest first. -/
  ancestors : List TypeId
  /-- All interfaces implemented, directly or through ancestors and other interfaces. -/
  interfaces : TypeSet
deriving DecidableEq

namespace Ty

/-- The name of the universal type of every table. -/
def universalName : String := "object"

/-- The universal type of the table with the given number; it is the first type of its table. -/
def universal (table : Nat) : Ty where
  id := ⟨table, 0⟩
  name := universalName
  kind := .universal
  ancestors := []
  interfaces := .empty

/-- Whether a null may not stand for a value of this type. -/
def isValue (t : Ty) : Bool :=
  t.kind = .value

/-- Whether the type is an interface. -/
def isInterface (t : Ty) : Bool :=
  t.kind = .interface

/-- Whether the type is universal. -/
def isUniversal (t : Ty) : Bool :=
  t.kind = .universal

/-- Whether `id` is a class above this one. -/
def hasAncestor (t : Ty) (id : TypeId) : Bool :=
  id ∈ t.ancestors

/-- Whether this type implements the interface `id`. -/
def implements (t : Ty) (id : TypeId) : Bool :=
  id ∈ t.interfaces

/-- What declarations of one name have to agree on: the kind, the class directly above, and the set
of all interfaces. -/
structure Shape where
  kind : Kind
  parent : Option TypeId
  interfaces : TypeSet
deriving DecidableEq

/-- The shape of a declared type. -/
def shape (t : Ty) : Shape :=
  ⟨t.kind, t.ancestors.head?, t.interfaces⟩

/-- The name and place of a type, `Name#3`. -/
def tag (t : Ty) : String :=
  t.name ++ "#" ++ toString t.id.index

end Ty

end MultiDispatch
