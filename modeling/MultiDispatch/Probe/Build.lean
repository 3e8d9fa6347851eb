import MultiDispatch.Engine
import MultiDispatch.Probe.Manifest

/-!
# Building a probe

A probe is an engine that was filled from a manifest. Every candidate of a manifest answers with the
text of its own signature, so that a report shows which one ran; the answers have a type of their
own, which is declared after the types of the manifest.

A module that uses an undeclared type fails as a whole and does not keep the others from loading. A
type that cannot be declared is an error of the manifest.

## Main definitions

* `declareEntries`: declare the types of a manifest, in order.
* `ModuleEntry.source`: a module of a manifest as a source.
* `Probe.ofManifest`: the probe of a manifest.
-/

namespace MultiDispatch

/-- Why a manifest describes no universe. -/
inductive BuildError where
  /-- A type refers to a name that is not declared before it. -/
  | unknownType (name missing : String)
  /-- A type is refused by the table. -/
  | declare (name : String) (cause : DeclareError)
deriving DecidableEq, Repr

/-- The text of an error. -/
def BuildError.message : BuildError → String
  | .unknownType name missing =>
    "type `" ++ name ++ "` refers to undeclared type `" ++ missing ++ "`"
  | .declare name cause => "cannot declare type `" ++ name ++ "`: " ++ cause.message

/-! ### Types -/

/-- The type with a name, which a declaration refers to. -/
def TypeEntry.refer (d : TypeEntry) (t : TypeTable) (name : String) : Except BuildError Ty :=
  match t.get? name with
  | some ty => .ok ty
  | none => .error (.unknownType d.name name)

/-- What a declaration introduces. Only a class looks at the parent. -/
def TypeEntry.form (d : TypeEntry) (t : TypeTable) : Except BuildError Declaration.Form :=
  match d.kind with
  | .reference =>
    match d.parent with
    | some parent => (d.refer t parent).map fun p => .reference (some p)
    | none => .ok (.reference none)
  | .interface => .ok .interface
  | .value => .ok .value

/-- The declaration with its names replaced by types. Interfaces are looked up before the parent. -/
def TypeEntry.resolve (d : TypeEntry) (t : TypeTable) : Except BuildError Declaration := do
  let bases ← d.interfaces.mapM (d.refer t)
  let form ← d.form t
  pure ⟨d.name, form, bases⟩

/-- Declare one type of a manifest. -/
def TypeEntry.declareIn (d : TypeEntry) (t : TypeTable) : Except BuildError TypeTable := do
  let declaration ← d.resolve t
  match t.declare declaration with
  | .ok (_, t) => pure t
  | .error cause => .error (.declare d.name cause)

/-- Declare types in order up to the first that fails; the types before it stay declared. -/
def declareEntries (t : TypeTable) : List TypeEntry → Except BuildError Unit × TypeTable
  | [] => (.ok (), t)
  | d :: rest =>
    match d.declareIn t with
    | .ok t => declareEntries t rest
    | .error error => (.error error, t)

/-! ### Modules -/

/-- The name of the type of the candidates' answers. -/
def labelName : String := "probe.label"

/-- The type with a name, which a module uses. -/
def ModuleEntry.refer (m : ModuleEntry) (t : TypeTable) (name : String) :
    Except RegistrationError Ty :=
  match t.get? name with
  | some ty => .ok ty
  | none => .error (.extraction (.ofName m.name)
    ("module `" ++ m.name ++ "` uses undeclared type `" ++ name ++ "`"))

/-- The text of a candidate's signature, from the names in the manifest. -/
def CandidateEntry.text (c : CandidateEntry) : String :=
  Signature.callText c.operation c.subject c.params

/-- The implementation that a candidate of a manifest describes. Parameters are looked up before the
subject. -/
def ModuleEntry.implementation (m : ModuleEntry) (label : Ty) (t : TypeTable) (c : CandidateEntry) :
    Except RegistrationError Implementation := do
  let params ← c.params.mapM (m.refer t)
  let subject ← m.refer t c.subject
  pure ⟨⟨c.operation, subject, params⟩, Body.constant ⟨label, .text c.text⟩⟩

/-- A module of a manifest as a source. -/
def ModuleEntry.source (m : ModuleEntry) (label : Ty) : Source where
  module := .ofName m.name
  extraction := .ofTable fun t => m.candidates.mapM (m.implementation label t)

/-! ### The probe -/

/-- An engine that was filled from a manifest. -/
structure Probe where
  engine : Engine
  /-- How the modules were loaded. -/
  loading : LoadSummary

/-- The table of a manifest's types and the type of the answers. -/
def Manifest.universe (m : Manifest) (t : TypeTable) : Except BuildError (Ty × TypeTable) := do
  let (result, t) := declareEntries t m.types
  result
  match t.declare ⟨labelName, .reference none, []⟩ with
  | .ok answer => pure answer
  | .error cause => .error (.declare labelName cause)

/-- The probe of a manifest. Settings that are given take the place of the manifest's. -/
def Probe.ofManifest (m : Manifest) (settings : Option Settings) : Except BuildError Probe := do
  let (label, types) ← m.universe (.create 0)
  let engine := Engine.ofTypes (settings.getD m.engine) types
  let (loading, engine) := (engine.loadMany (m.modules.map (·.source label))).value
  pure ⟨engine, loading⟩

end MultiDispatch
