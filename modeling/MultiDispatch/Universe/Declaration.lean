import MultiDispatch.Universe.Ty

/-!
# Declarations of types

A declaration names a type, says what it is and lists the interfaces it is built on. Only a
reference class can have a parent, which has to be a reference class too; everything a type is built
on is already a type, possibly of another table.

A declaration is judged by its closed shape: what it inherits counts as if it were written.

## Main definitions

* `Declaration`: a declaration.
* `Declaration.ancestors`, `Declaration.interfaces`: what a declared type inherits.
* `DeclareError`: why a declaration is refused.
* `Declaration.check`: what a declaration has to satisfy by itself.
-/

namespace MultiDispatch

/-- What a declaration introduces. -/
inductive Declaration.Form where
  /-- A class, possibly below another one. -/
  | reference (parent : Option Ty)
  | value
  | interface

/-- The declaration of a type. -/
structure Declaration where
  name : String
  form : Declaration.Form
  /-- The interfaces that are implemented or extended directly. -/
  bases : List Ty

/-- Why a type cannot be built on another one. -/
inductive BaseFault where
  | notReference
  | notInterface
deriving DecidableEq, Repr

/-- Why a declaration is refused. -/
inductive DeclareError where
  | emptyName
  /-- The name belongs to a type of another shape. -/
  | conflict (name : String)
  | invalidBase (name base : String) (fault : BaseFault)
deriving DecidableEq, Repr

/-- The rule that a base breaks. -/
def BaseFault.message : BaseFault → String
  | .notReference => "parent must be a reference class"
  | .notInterface => "only interfaces can be implemented or extended"

/-- The text of a refusal. -/
def DeclareError.message : DeclareError → String
  | .emptyName => "type name must not be empty"
  | .conflict name => "type `" ++ name ++ "` is already declared with a different shape"
  | .invalidBase name base fault =>
    "type `" ++ name ++ "` cannot derive from `" ++ base ++ "`: " ++ fault.message

namespace Declaration

/-- The kind of the declared type. -/
def kind (d : Declaration) : Kind :=
  match d.form with
  | .reference _ => .reference
  | .value => .value
  | .interface => .interface

/-- The class directly above the declared one. -/
def parent? (d : Declaration) : Option Ty :=
  match d.form with
  | .reference parent => parent
  | .value => none
  | .interface => none

/-- The ancestors of the declared type, nearest first. -/
def ancestors (d : Declaration) : List TypeId :=
  match d.parent? with
  | some p => p.id :: p.ancestors
  | none => []

/-- The interfaces that come with the parent. -/
def inherited (d : Declaration) : TypeSet :=
  match d.parent? with
  | some p => p.interfaces
  | none => .empty

/-- All interfaces of the declared type: those of the parent, the bases, and those of the bases. -/
def interfaces (d : Declaration) : TypeSet :=
  d.bases.foldr (fun b s => (b.interfaces.union s).insert b.id) d.inherited

/-- The shape of the declared type. -/
def shape (d : Declaration) : Ty.Shape :=
  ⟨d.kind, d.parent?.map Ty.id, d.interfaces⟩

/-- The declared type under an identifier. -/
def toTy (d : Declaration) (id : TypeId) : Ty where
  id := id
  name := d.name
  kind := d.kind
  ancestors := d.ancestors
  interfaces := d.interfaces

/-- The parent, if it may not be one. -/
def badParent? (d : Declaration) : Option Ty :=
  d.parent?.filter fun p => p.kind ≠ .reference

/-- The first base that is no interface. -/
def badBase? (d : Declaration) : Option Ty :=
  d.bases.find? fun b => !b.isInterface

/-- What a declaration has to satisfy whatever its table holds: a name, then a parent that is a
reference class, then bases that are interfaces. -/
def check (d : Declaration) : Except DeclareError Unit :=
  if d.name = "" then .error .emptyName
  else match d.badParent? with
    | some p => .error (.invalidBase d.name p.name .notReference)
    | none => match d.badBase? with
      | some b => .error (.invalidBase d.name b.name .notInterface)
      | none => .ok ()

end Declaration

end MultiDispatch
