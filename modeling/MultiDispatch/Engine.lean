import MultiDispatch.Module.Registry
import MultiDispatch.Module.Source
import MultiDispatch.Resolution.Cache
import MultiDispatch.Resolution.Resolve

/-!
# The engine

An engine holds a table of types, the registered modules and a cache of outcomes. Modules are
registered at any time, calls are resolved by name, and what was resolved once stays resolved: a
module that is registered later changes the outcome only of calls that the cache does not hold.

Every operation is a function from an engine to an answer and the engine afterwards, traced with the
events on the way.

## Main definitions

* `Engine`: an engine.
* `Engine.declare`: declare a type.
* `Engine.register`, `Engine.registerResult`, `Engine.load`, `Engine.loadMany`: register
  modules.
* `Engine.resolve`: resolve a call.
* `Engine.call`: resolve a call and run the chosen candidate.
* `Engine.reset`: forget everything but the types.
-/

namespace MultiDispatch

/-- A dispatch engine. -/
structure Engine where
  types : TypeTable
  registry : Registry
  cache : Cache
  settings : Settings

/-- The counts of an engine. -/
structure EngineCounts where
  types : Nat
  modules : Nat
  candidates : Nat
  cache : CacheCounts
deriving DecidableEq, Repr

/-- The counts of an engine as a record. -/
def EngineCounts.text (s : EngineCounts) : String :=
  Text.record "EngineStats"
    [("types", toString s.types), ("modules", toString s.modules),
      ("candidates", toString s.candidates), ("cache", s.cache.text)]

/-- A resolved call and the value of the chosen candidate, if there is one. -/
structure Called where
  outcome : Outcome
  value : Option Value

namespace Engine

/-- An engine without modules over a table of types. -/
def ofTypes (settings : Settings) (types : TypeTable) : Engine :=
  ⟨types, .empty, .create settings.cache, settings⟩

/-- An engine without modules over the table of types with the given number. -/
def create (settings : Settings) (number : Nat) : Engine :=
  ofTypes settings (.create number)

/-- Declare a type in the engine's table. -/
def declare (e : Engine) (d : Declaration) : Except DeclareError (Ty × Engine) :=
  (e.types.declare d).map fun r => (r.1, { e with types := r.2 })

/-! ### Modules -/

/-- The engine with what an operation on its registry makes of it. -/
def withRegistry {α : Type} (e : Engine) (result : Traced (α × Registry)) :
    Traced (α × Engine) := do
  let (answer, registry) ← result
  pure (answer, { e with registry := registry })

/-- Register a module with a batch of implementations. -/
def register (e : Engine) (module : ModuleId) (batch : List Implementation) :
    Traced (Registration × Engine) :=
  e.withRegistry (e.registry.register module batch)

/-- Register what was extracted from a module. -/
def registerResult (e : Engine) (module : ModuleId)
    (extracted : Except RegistrationError (List Implementation)) :
    Traced (Registration × Engine) :=
  e.withRegistry (e.registry.registerResult module extracted)

/-- Extract and register a source, unless its module is registered already. -/
def load (e : Engine) (source : Source) : Traced (Registration × Engine) :=
  if e.registry.isRegistered source.module then pure (.alreadyRegistered, e)
  else
    let (extracted, types) := source.extraction.run e.types
    { e with types := types }.registerResult source.module extracted

/-- Register sources one after the other. -/
def loadEach (e : Engine) :
    List Source → Traced (List (ModuleId × Registration) × Engine)
  | [] => pure ([], e)
  | source :: rest => do
    let (result, e) ← e.load source
    let (results, e) ← e.loadEach rest
    pure ((source.module, result) :: results, e)

/-- Register all sources, going on after those that fail. -/
def loadMany (e : Engine) (sources : List Source) : Traced (LoadSummary × Engine) := do
  let (results, e) ← e.loadEach sources
  let report : LoadSummary := ⟨results⟩
  if !report.failed.isEmpty then
    Traced.emit [.unloaded report.failed.length]
  pure (report, e)

/-! ### Calls -/

/-- The outcome of a call on the engine's index, reported as freshly resolved. -/
def resolveAfresh (e : Engine) (call : Call) : Traced Outcome := do
  let outcome ← e.registry.index.resolve call
  Traced.emit [.resolved call.operation outcome]
  if e.settings.logAmbiguity && outcome.isAmbiguous then
    Traced.emit [.ambiguity call.operation outcome]
  pure outcome

/-- Resolve a call through the cache. A null subject needs no resolution and is not counted. -/
def resolve (e : Engine) (call : Call) : Traced (Outcome × Engine) :=
  match call.subject with
  | none => pure (.unmatched .nullSubject, e)
  | some _ => do
    let fresh : StateT Cache Traced Outcome := e.resolveAfresh call
    let (outcome, cache) ← (Cache.readThrough call.key fresh).run e.cache
    pure (outcome, { e with cache := cache })

/-- Resolve the call of an operation with values. -/
def resolveValues (e : Engine) (operation : String) (subject : Option Value)
    (args : List (Option Value)) : Traced (Outcome × Engine) :=
  e.resolve (.ofValues operation subject args)

/-- The value of the candidate that an outcome chooses, if it chooses one. -/
def valueOf (outcome : Outcome) (subject : Option Value) (args : List (Option Value)) :
    Except BodyError (Option Value) :=
  match outcome.matched?, subject with
  | some c, some s => (c.run s args).map some
  | _, _ => .ok none

/-- Resolve the call of an operation with values and run the chosen candidate. That nothing is
chosen is no error; an error of the candidate's body is passed on. -/
def call (e : Engine) (operation : String) (subject : Option Value)
    (args : List (Option Value)) : Traced (Except BodyError Called × Engine) := do
  let (outcome, e) ← e.resolveValues operation subject args
  pure ((valueOf outcome subject args).map (⟨outcome, ·⟩), e)

/-- The value of the chosen candidate only. -/
def callValue (e : Engine) (operation : String) (subject : Option Value)
    (args : List (Option Value)) : Traced (Except BodyError (Option Value) × Engine) := do
  let (called, e) ← e.call operation subject args
  pure (called.map Called.value, e)

/-- Whether a candidate is chosen for the call of an operation with values. -/
def isCallable (e : Engine) (operation : String) (subject : Option Value)
    (args : List (Option Value)) : Traced (Bool × Engine) := do
  let (outcome, e) ← e.resolveValues operation subject args
  pure (outcome.isMatched, e)

/-! ### The engine as a whole -/

/-- All registered candidates of an operation. -/
def candidates (e : Engine) (operation : String) : List Candidate :=
  e.registry.index.named operation

/-- The counts. -/
def counts (e : Engine) : EngineCounts :=
  ⟨e.types.size, e.registry.size, e.registry.index.size, e.cache.counts⟩

/-- Forget all modules, candidates and outcomes; declared types stay. -/
def reset (e : Engine) : Traced (Unit × Engine) := do
  Traced.emit [.reset]
  pure ((), { e with registry := e.registry.clear, cache := e.cache.clear })

/-- The engine as a record. -/
def text (e : Engine) : String :=
  Text.record "Engine" [("stats", e.counts.text), ("config", e.settings.text)]

end Engine

end MultiDispatch
