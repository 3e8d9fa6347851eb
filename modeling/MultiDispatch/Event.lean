import MultiDispatch.Module.Registration
import MultiDispatch.Resolution.Outcome

/-!
# Events

What an observer of the engine is told while it works. Events never influence a result: a traced
computation is its result together with the events in the order in which they occurred.

## Main definitions

* `Event`: what can happen.
* `Event.level`, `Event.message`, `Event.fields`: how an event is reported.
* `Traced`: a result with the events on the way to it; a monad.
-/

namespace MultiDispatch

/-- How important an event is, the most important level first. -/
inductive Level where
  | warn
  | info
  | debug
  | trace
deriving DecidableEq, Repr

/-- The rank of a level; the most important one has rank zero. -/
def Level.rank : Level → Nat
  | .warn => 0
  | .info => 1
  | .debug => 2
  | .trace => 3

/-- Something worth reporting. -/
inductive Event where
  /-- A candidate does not fit the call at this position, the first such position. -/
  | eliminated (candidate : Candidate) (position : Nat)
  /-- A call was resolved afresh. -/
  | resolved (operation : String) (outcome : Outcome)
  /-- A call resolved afresh is ambiguous. -/
  | ambiguity (operation : String) (outcome : Outcome)
  /-- A module was offered again. -/
  | repeated (module : ModuleId)
  /-- A module or one of its candidates is in error. -/
  | faulty (module : ModuleId) (error : RegistrationError)
  /-- A module was registered, with so many candidates accepted and rejected. -/
  | registered (module : ModuleId) (accepted rejected : Nat)
  /-- Of the modules loaded together so many could not be read. -/
  | unloaded (count : Nat)
  /-- All modules were forgotten. -/
  | reset

/-- The value of a field of an event. -/
inductive Field where
  | text (s : String)
  | count (n : Nat)

namespace Event

/-- How important an event is. -/
def level : Event → Level
  | .eliminated _ _ => .trace
  | .resolved _ _ => .debug
  | .ambiguity _ _ => .warn
  | .repeated _ => .debug
  | .faulty _ _ => .warn
  | .registered _ _ _ => .debug
  | .unloaded _ => .warn
  | .reset => .info

/-- What an event says. -/
def message : Event → String
  | .eliminated _ _ => "eliminated"
  | .resolved _ _ => "resolved"
  | .ambiguity _ _ => "ambiguous dispatch"
  | .repeated _ => "module already registered"
  | .faulty _ error => error.message
  | .registered _ _ _ => "module registered"
  | .unloaded _ => "some modules could not be loaded"
  | .reset => "dispatch registry reset"

/-- What an event is about. -/
def fields : Event → List (String × Field)
  | .eliminated candidate position =>
    [("candidate", .text candidate.text), ("position", .count position)]
  | .resolved operation outcome => [("operation", .text operation), ("outcome", .text outcome.text)]
  | .ambiguity operation outcome =>
    [("operation", .text operation), ("outcome", .text outcome.text)]
  | .repeated module => [("module", .text module.text)]
  | .faulty module _ => [("module", .text module.text)]
  | .registered module accepted rejected =>
    [("module", .text module.text), ("accepted", .count accepted), ("rejected", .count rejected)]
  | .unloaded count => [("failed", .count count)]
  | .reset => []

end Event

/-- A result with the events on the way to it. -/
structure Traced (α : Type) where
  value : α
  events : List Event

namespace Traced

/-- A result without events. -/
def done {α : Type} (a : α) : Traced α :=
  ⟨a, []⟩

/-- Go on with a result; the events follow each other. -/
def andThen {α β : Type} (x : Traced α) (f : α → Traced β) : Traced β :=
  ⟨(f x.value).value, x.events ++ (f x.value).events⟩

instance : Monad Traced where
  pure := done
  bind := andThen

/-- Report events. -/
def emit (events : List Event) : Traced Unit :=
  ⟨(), events⟩

@[simp]
theorem value_pure {α : Type} (a : α) : (pure a : Traced α).value = a :=
  rfl

@[simp]
theorem events_pure {α : Type} (a : α) : (pure a : Traced α).events = [] :=
  rfl

@[simp]
theorem value_bind {α β : Type} (x : Traced α) (f : α → Traced β) :
    (x >>= f).value = (f x.value).value :=
  rfl

@[simp]
theorem events_bind {α β : Type} (x : Traced α) (f : α → Traced β) :
    (x >>= f).events = x.events ++ (f x.value).events :=
  rfl

instance : LawfulMonad Traced :=
  LawfulMonad.mk' _
    (fun _ => by simp [Functor.map, andThen, done])
    (fun _ _ => rfl)
    (fun x f g => by simp [bind, andThen, List.append_assoc])

end Traced

end MultiDispatch
