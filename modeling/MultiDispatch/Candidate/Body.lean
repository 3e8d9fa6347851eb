import MultiDispatch.Candidate.Signature
import MultiDispatch.Universe.Value

/-!
# Bodies of candidates

What a candidate does when it is called: a function of the subject and the arguments, which may be
missing, to a value or an error of its own. A body sees nothing else and changes nothing.

## Main definitions

* `Body`: a body.
* `Body.constant`, `Body.label`, `Body.subject`, `Body.argument`, `Body.sum`, `Body.failing`: bodies
  of common use.
-/

namespace MultiDispatch

/-- The error of a body. -/
inductive BodyError where
  /-- The argument wanted is null. -/
  | nullArgument (i : Nat)
  /-- The call has no such argument. -/
  | noArgument (i : Nat)
  /-- An error in the body's own words. -/
  | custom (message : String)
deriving DecidableEq, Repr

/-- The text of an error. -/
def BodyError.message : BodyError → String
  | .nullArgument i => "argument " ++ toString i ++ " is null"
  | .noArgument i => "no argument " ++ toString i
  | .custom message => message

/-- What a candidate does with a subject and arguments. -/
abbrev Body := Value → List (Option Value) → Except BodyError Value

namespace Body

/-- Always the same value. -/
def constant (v : Value) : Body :=
  fun _ _ => .ok v

/-- The text of a signature, as a value of its subject type. -/
def label (s : Signature) : Body :=
  constant ⟨s.subject, .text s.text⟩

/-- The subject itself. -/
def subject : Body :=
  fun subject _ => .ok subject

/-- The argument with the given number. -/
def argument (i : Nat) : Body :=
  fun _ args =>
    match args[i]? with
    | some (some v) => .ok v
    | some none => .error (.nullArgument i)
    | none => .error (.noArgument i)

/-- The subject's number plus that of each argument that is there, in order, as a value of the
subject's type. -/
def sum : Body :=
  fun subject args =>
    let total := args.foldl (fun x arg => match arg with
      | some v => x + v.floatOrZero
      | none => x) subject.floatOrZero
    .ok ⟨subject.type, .float total⟩

/-- Always the same error. -/
def failing (message : String) : Body :=
  fun _ _ => .error (.custom message)

end Body

end MultiDispatch
