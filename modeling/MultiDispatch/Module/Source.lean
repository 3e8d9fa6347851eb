import MultiDispatch.Candidate.Basic
import MultiDispatch.Module.Registration
import MultiDispatch.Universe.Table

/-!
# Sources of modules

A source yields the implementations of one module. To describe their signatures it looks types up
and declares the ones it needs; there is nothing else that it can do to a table of types. This is
why an extraction is not a function on tables but a program with these two steps: whatever the
program, running it only ever adds types, and types it declared stay declared when it fails later.

## Main definitions

* `Extraction`: a program that yields the implementations of a module.
* `Extraction.run`: what it yields on a table, and the table afterwards.
* `Source`: a module with its extraction.
-/

namespace MultiDispatch

/-- A program that yields the implementations of a module or an error. -/
inductive Extraction where
  /-- Stop. -/
  | done (result : Except RegistrationError (List Implementation))
  /-- Look at the table and go on. -/
  | inspect (next : TypeTable → Extraction)
  /-- Declare a type and go on with the answer. -/
  | declare (d : Declaration) (next : Except DeclareError Ty → Extraction)

namespace Extraction

/-- What a program yields when it starts with the given table, and the table it leaves. -/
def run : Extraction → TypeTable → Except RegistrationError (List Implementation) × TypeTable
  | done result, t => (result, t)
  | inspect next, t => run (next t) t
  | declare d next, t =>
    match t.declare d with
    | .ok (ty, t) => run (next (.ok ty)) t
    | .error error => run (next (.error error)) t

/-- A program that only looks types up. -/
def ofTable (f : TypeTable → Except RegistrationError (List Implementation)) : Extraction :=
  inspect fun t => done (f t)

end Extraction

/-- A module that can be loaded. -/
structure Source where
  module : ModuleId
  extraction : Extraction

end MultiDispatch
