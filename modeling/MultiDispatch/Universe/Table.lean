import MultiDispatch.Text.Record
import MultiDispatch.Universe.Declaration

/-!
# Tables of types

A table holds the types declared in it, in the order of their declaration, after the universal type
that every table starts with. The place of a type is its index, so indexes are never given twice;
names are not given twice because a declaration of a known name either agrees with the known type or
is refused.

So the list says all there is to say of a table. A counter for the next index would always be the
number of types, and a map from names to types would have the name of each type as its key; neither
is kept apart from the list.

## Main definitions

* `TypeTable`: a table.
* `TypeTable.get?`: the type with a name.
* `TypeTable.declare`: declare a type.
-/

namespace MultiDispatch

/-- A table of types. The index of the next type is the number of types, and the key under which a
type is found is its name. -/
structure TypeTable where
  /-- The number that tells the table from all others. -/
  number : Nat
  /-- The declared types, in order. -/
  declared : List Ty

namespace TypeTable

/-- The table without declarations. Whoever creates tables counts them; a count in 32 bits gives
different numbers to fewer than `2 ^ 32` tables. -/
def create (number : Nat) : TypeTable :=
  ⟨number, []⟩

/-- The universal type of the table. -/
def universal (t : TypeTable) : Ty :=
  Ty.universal t.number

/-- All types of the table, by index. -/
def types (t : TypeTable) : List Ty :=
  t.universal :: t.declared

/-- The number of types. -/
def size (t : TypeTable) : Nat :=
  t.types.length

/-- The type with a name, which is its key: no two types of a table have the same name. -/
def get? (t : TypeTable) (name : String) : Option Ty :=
  t.types.find? fun ty => ty.name == name

/-- The table with one more type at its end. -/
def push (t : TypeTable) (ty : Ty) : TypeTable :=
  { t with declared := t.declared ++ [ty] }

/-- The identifier of the next type to be declared. Its place is the number of types, as a counter
of 32 bits has it while there are fewer than `2 ^ 32`. -/
def nextId (t : TypeTable) : TypeId :=
  ⟨t.number, t.size⟩

/-- Declare a type. A known name is answered with the known type if the shapes agree, and the table
stays as it is; a new name adds a type. -/
def declare (t : TypeTable) (d : Declaration) : Except DeclareError (Ty × TypeTable) := do
  d.check
  match t.get? d.name with
  | some known =>
    if known.isUniversal || known.shape ≠ d.shape then .error (.conflict d.name)
    else .ok (known, t)
  | none =>
    let ty := d.toTy t.nextId
    .ok (ty, t.push ty)

/-- The table as a record. -/
def text (t : TypeTable) : String :=
  Text.record "TypeTable" [("types", toString t.size)]

end TypeTable

end MultiDispatch
