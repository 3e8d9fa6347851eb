import MultiDispatch.Settings.Decode

/-!
# Manifests

A manifest describes a universe of types, the modules with their candidates, and the calls to try,
all by name. A type may only refer to types declared before it.

## Main definitions

* `TypeEntry`, `CandidateEntry`, `ModuleEntry`, `Query`: the parts of a manifest.
* `Manifest`: a manifest.
* `Manifest.decode`: the manifest that a TOML value stands for.
* `Manifest.parse`: the manifest that a text describes.
-/

namespace MultiDispatch

/-- What a type declaration of a manifest introduces. -/
inductive EntryKind where
  | reference
  | interface
  | value
deriving DecidableEq, Repr

/-- The word for a kind. -/
def EntryKind.word : EntryKind → String
  | .reference => "class"
  | .interface => "interface"
  | .value => "value"

/-- The declaration of a type. -/
structure TypeEntry where
  name : String
  kind : EntryKind
  /-- The class above a class; it has no meaning for other kinds. -/
  parent : Option String
  interfaces : List String
deriving DecidableEq, Repr

/-- The signature of a candidate. -/
structure CandidateEntry where
  operation : String
  subject : String
  params : List String
deriving DecidableEq, Repr

/-- A module with its candidates. -/
structure ModuleEntry where
  name : String
  candidates : List CandidateEntry
deriving DecidableEq, Repr

/-- A call to try. -/
structure Query where
  operation : String
  subject : String
  args : List String
deriving DecidableEq, Repr

/-- A manifest. -/
structure Manifest where
  engine : Settings
  types : List TypeEntry
  modules : List ModuleEntry
  queries : List Query
deriving DecidableEq, Repr

/-! ### Decoding -/

/-- The kind that a value stands for. -/
def EntryKind.decode : Toml.Decoder EntryKind :=
  Toml.choice ([.reference, .interface, .value].map fun k => (k.word, k))

/-- The declaration of a type that a value stands for; it is a class unless it says otherwise. -/
def TypeEntry.decode : Toml.Decoder TypeEntry := fun v => do
  let r ← Toml.record v
  let name ← r.required 0 "name" Toml.text
  let kind ← r.optional 1 "kind" EntryKind.decode .reference
  let parent ← r.optional 2 "parent" (fun v => (Toml.text v).map some) none
  let interfaces ← r.optional 3 "interfaces" (Toml.list Toml.text) []
  pure ⟨name, kind, parent, interfaces⟩

/-- The signature that a value stands for. -/
def CandidateEntry.decode : Toml.Decoder CandidateEntry := fun v => do
  let r ← Toml.record v
  let operation ← r.required 0 "operation" Toml.text
  let subject ← r.required 1 "subject" Toml.text
  let params ← r.optional 2 "params" (Toml.list Toml.text) []
  pure ⟨operation, subject, params⟩

/-- The module that a value stands for. -/
def ModuleEntry.decode : Toml.Decoder ModuleEntry := fun v => do
  let r ← Toml.record v
  let name ← r.required 0 "name" Toml.text
  let candidates ← r.optional 1 "candidates" (Toml.list CandidateEntry.decode) []
  pure ⟨name, candidates⟩

/-- The call that a value stands for. -/
def Query.decode : Toml.Decoder Query := fun v => do
  let r ← Toml.record v
  let operation ← r.required 0 "operation" Toml.text
  let subject ← r.required 1 "subject" Toml.text
  let args ← r.optional 2 "args" (Toml.list Toml.text) []
  pure ⟨operation, subject, args⟩

/-- The manifest that a value stands for. -/
def Manifest.decode : Toml.Decoder Manifest := fun v => do
  let r ← Toml.record v
  let engine ← r.optional 0 "engine" Settings.decode {}
  let types ← r.optional 1 "types" (Toml.list TypeEntry.decode) []
  let modules ← r.optional 2 "modules" (Toml.list ModuleEntry.decode) []
  let queries ← r.optional 3 "queries" (Toml.list Query.decode) []
  pure ⟨engine, types, modules, queries⟩

/-- The manifest that a text describes. -/
def Manifest.parse : String → Except LoadError Manifest :=
  Toml.parseWith Manifest.decode

end MultiDispatch
