import MultiDispatch.Module.Id

/-!
# Results of registration

Registering a module accepts the candidates that are sound and reports the others one by one. A
module that could not be read at all contributes nothing and stays unregistered, so that a later
attempt may succeed.

## Main definitions

* `RegistrationError`: what can be wrong with a module or one of its candidates.
* `Registration`: the result for one module.
* `LoadSummary`: the results for several modules.
-/

namespace MultiDispatch

/-- Why a single candidate is rejected. -/
inductive RejectionReason where
  /-- The operation has no visible name. -/
  | blankOperation
  /-- The module has a candidate of the same signature already. -/
  | duplicateSignature
  /-- A reason given from outside. -/
  | custom (message : String)
deriving DecidableEq, Repr

/-- The text of a reason. -/
def RejectionReason.message : RejectionReason → String
  | .blankOperation => "operation name is empty"
  | .duplicateSignature => "duplicate signature within the module"
  | .custom message => message

/-- What can be wrong with a module. -/
inductive RegistrationError where
  /-- The module could not be read. -/
  | extraction (module : ModuleId) (message : String)
  /-- One candidate, given by the text of its signature, is not accepted. -/
  | rejected (signature : String) (reason : RejectionReason)
deriving DecidableEq

/-- The text of an error. -/
def RegistrationError.message : RegistrationError → String
  | .extraction module message => "module " ++ module.text ++ " could not be loaded: " ++ message
  | .rejected signature reason => "candidate `" ++ signature ++ "` rejected: " ++ reason.message

/-- The result of registering one module. -/
inductive Registration where
  /-- Every candidate was accepted. -/
  | registered (accepted : Nat)
  /-- The module had been registered before; nothing changed. -/
  | alreadyRegistered
  /-- Some candidates were rejected and the others accepted. -/
  | partially (accepted : Nat) (rejected : List RegistrationError)
  /-- The module could not be read. -/
  | failed (error : RegistrationError)
deriving DecidableEq

namespace Registration

/-- The number of candidates accepted. -/
def accepted : Registration → Nat
  | .registered n => n
  | .alreadyRegistered => 0
  | .partially n _ => n
  | .failed _ => 0

/-- What was found wrong. -/
def diagnostics : Registration → List RegistrationError
  | .registered _ => []
  | .alreadyRegistered => []
  | .partially _ rejected => rejected
  | .failed error => [error]

/-- Whether the module could not be read. -/
def isFailed : Registration → Bool
  | .registered _ => false
  | .alreadyRegistered => false
  | .partially _ _ => false
  | .failed _ => true

end Registration

/-- The results of loading several modules, in order. -/
structure LoadSummary where
  results : List (ModuleId × Registration)

namespace LoadSummary

/-- The number of candidates accepted from all modules. -/
def accepted (r : LoadSummary) : Nat :=
  r.results.foldr (fun x n => x.2.accepted + n) 0

/-- What was found wrong in all modules. -/
def diagnostics (r : LoadSummary) : List RegistrationError :=
  r.results.flatMap fun x => x.2.diagnostics

/-- The modules that could not be read. -/
def failed (r : LoadSummary) : List ModuleId :=
  (r.results.filter fun x => x.2.isFailed).map Prod.fst

end LoadSummary

end MultiDispatch
