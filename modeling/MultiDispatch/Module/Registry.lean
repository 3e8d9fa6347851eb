import MultiDispatch.Candidate.Index
import MultiDispatch.Event
import MultiDispatch.Text.Blank

/-!
# The registry of modules

The registry remembers which modules were registered and what each of them contributed, and keeps
the index of all contributed candidates. A module is registered at most once.

A batch is screened before anything is published: an implementation is rejected if its operation has
no visible name or if an accepted one of the batch has the same signature. Equal signatures in
different modules are both kept. Accepted implementations get numbers that are never given twice,
also after the registry was cleared.

## Main definitions

* `screen`: the accepted and the rejected implementations of a batch.
* `Registry`: the registry.
* `Registry.register`, `Registry.registerResult`: register a module.
* `Registry.clear`: forget all modules.
-/

namespace MultiDispatch

/-- Why an implementation is not accepted after those of its batch accepted so far. -/
def rejection? (accepted : List Implementation) (x : Implementation) : Option RegistrationError :=
  if Text.isBlank x.signature.operation then
    some (.rejected x.signature.text .blankOperation)
  else if accepted.any fun a => a.signature.same x.signature then
    some (.rejected x.signature.text .duplicateSignature)
  else none

/-- The accepted implementations of a batch and the errors of the others, each in order, given those
accepted before. -/
def screenAfter (accepted : List Implementation) :
    List Implementation → List Implementation × List RegistrationError
  | [] => (accepted, [])
  | x :: rest =>
    match rejection? accepted x with
    | some error =>
      let (all, errors) := screenAfter accepted rest
      (all, error :: errors)
    | none => screenAfter (accepted ++ [x]) rest

/-- The accepted implementations of a batch and the errors of the others, each in order. -/
def screen (batch : List Implementation) : List Implementation × List RegistrationError :=
  screenAfter [] batch

/-- Give implementations consecutive numbers. -/
def number (first : Nat) (xs : List Implementation) : List Candidate :=
  xs.zipIdx.map fun p => ⟨first + p.2, p.1⟩

/-- The registered modules and their candidates. -/
structure Registry where
  /-- What each module contributed, in the order of registration. -/
  modules : List (ModuleId × List Candidate)
  index : CandidateIndex
  /-- The number of the next candidate. -/
  issued : Nat

namespace Registry

/-- The registry without modules. -/
def empty : Registry :=
  ⟨[], .empty, 0⟩

/-- The candidates that a module contributed, if it is registered. -/
def candidatesOf? (r : Registry) (module : ModuleId) : Option (List Candidate) :=
  (r.modules.find? fun m => m.1 = module).map Prod.snd

/-- Whether a module is registered. -/
def isRegistered (r : Registry) (module : ModuleId) : Bool :=
  (r.candidatesOf? module).isSome

/-- The number of registered modules. -/
def size (r : Registry) : Nat :=
  r.modules.length

/-- The registry with one more module and its candidates. -/
def publish (r : Registry) (module : ModuleId) (candidates : List Candidate) : Registry where
  modules := r.modules ++ [(module, candidates)]
  index := r.index.publishAll candidates
  issued := r.issued + candidates.length

/-- The result for a batch with the given numbers accepted and errors found. -/
def resultOf (accepted : Nat) (errors : List RegistrationError) : Registration :=
  if errors.isEmpty then .registered accepted else .partially accepted errors

/-- Register a module with a batch of implementations. A module that is registered already stays as
it is. -/
def register (r : Registry) (module : ModuleId) (batch : List Implementation) :
    Traced (Registration × Registry) :=
  if r.isRegistered module then do
    Traced.emit [.repeated module]
    pure (.alreadyRegistered, r)
  else do
    let (accepted, errors) := screen batch
    Traced.emit (errors.map (.faulty module))
    Traced.emit [.registered module accepted.length errors.length]
    pure (resultOf accepted.length errors, r.publish module (number r.issued accepted))

/-- Register what was extracted from a module. A failed extraction contributes nothing, and the
module stays what it was. -/
def registerResult (r : Registry) (module : ModuleId)
    (extracted : Except RegistrationError (List Implementation)) :
    Traced (Registration × Registry) :=
  match extracted with
  | .ok batch => r.register module batch
  | .error error => do
    Traced.emit [.faulty module error]
    pure (.failed error, r)

/-- Forget all modules and candidates. Numbers go on, so that no old candidate is taken for a new
one. -/
def clear (r : Registry) : Registry :=
  ⟨[], .empty, r.issued⟩

/-- The registry as a record. -/
def text (r : Registry) : String :=
  Text.record "ModuleRegistry" [("modules", toString r.size), ("index", r.index.text)]

end Registry

end MultiDispatch
