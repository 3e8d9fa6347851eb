import MultiDispatch.Resolution.Call
import MultiDispatch.Resolution.Outcome
import MultiDispatch.Settings.Basic

/-!
# The cache of outcomes

A cache keeps the first outcome stored for a key until it is cleared. It never takes an outcome out
by itself: once it is full, further outcomes are computed and not kept.

Computing an outcome may use the same cache. `Cache.readThrough` is therefore written for any monad
with a cache in its state, and works in two phases with the computation between them. The first one
looks the key up; the second one settles what to store, and stores nothing if the cache was cleared
in between, which it sees by the number of clearings.

## Main definitions

* `Cache`: a cache.
* `Cache.get`, `Cache.insert`, `Cache.clear`: the plain operations.
* `Cache.readThrough`: the outcome kept for a key, or the one computed.
-/

namespace MultiDispatch

/-- The counts of a cache. -/
structure CacheCounts where
  entries : Nat
  hits : Nat
  misses : Nat
deriving DecidableEq, Repr

/-- A cache of outcomes. -/
structure Cache where
  settings : CacheSettings
  /-- The outcomes kept, in the order in which they were stored. -/
  entries : List (CallKey × Outcome)
  /-- How often the cache was cleared. -/
  clearings : Nat
  /-- How often a key was found since the last clearing. -/
  hits : Nat
  /-- How often an outcome had to be computed since the last clearing. -/
  misses : Nat

/-- The counts of a cache as a record. -/
def CacheCounts.text (s : CacheCounts) : String :=
  Text.record "CacheStats"
    [("entries", toString s.entries), ("hits", toString s.hits), ("misses", toString s.misses)]

namespace Cache

/-- A cache that keeps nothing yet. -/
def create (settings : CacheSettings) : Cache :=
  ⟨settings, [], 0, 0, 0⟩

/-- The outcome kept for a key. -/
def find? (c : Cache) (key : CallKey) : Option Outcome :=
  (c.entries.find? fun e => e.1 = key).map Prod.snd

/-- The number of outcomes kept. -/
def size (c : Cache) : Nat :=
  c.entries.length

/-- Whether nothing is kept. -/
def isEmpty (c : Cache) : Bool :=
  c.size = 0

/-- The counts. -/
def counts (c : Cache) : CacheCounts :=
  ⟨c.size, c.hits, c.misses⟩

/-- The cache after a key was found. -/
def countHit (c : Cache) : Cache :=
  { c with hits := c.hits + 1 }

/-- The cache after a key was not found. -/
def countMiss (c : Cache) : Cache :=
  { c with misses := c.misses + 1 }

/-- The outcome kept for a key; finding one counts. -/
def get (c : Cache) (key : CallKey) : Option Outcome × Cache :=
  match c.find? key with
  | some outcome => (some outcome, c.countHit)
  | none => (none, c)

/-- Store an outcome unless the key has one or the cache is full. The answer is the outcome kept for
the key afterwards. -/
def insert (c : Cache) (key : CallKey) (outcome : Outcome) : Option Outcome × Cache :=
  match c.find? key with
  | some kept => (some kept, c)
  | none =>
    if c.settings.capacity ≤ c.size then (none, c)
    else (some outcome, { c with entries := c.entries ++ [(key, outcome)] })

/-- Forget all outcomes and start counting anew. -/
def clear (c : Cache) : Cache :=
  { c with entries := [], clearings := c.clearings + 1, hits := 0, misses := 0 }

/-- Settle an outcome that was computed since the cache was cleared `clearings` times: the answer is
the outcome kept for the key afterwards, or the given one if none is. -/
def settle (c : Cache) (clearings : Nat) (key : CallKey) (outcome : Outcome) : Outcome × Cache :=
  if c.clearings = clearings then
    let (kept, c) := c.insert key outcome
    (kept.getD outcome, c)
  else (outcome, c)

/-- The outcome kept for a key, or else the one that `resolve` computes, which is then kept if the
cache allows it. A cache that is not enabled is neither read nor changed. -/
def readThrough {m : Type → Type} [Monad m] [MonadStateOf Cache m] (key : CallKey)
    (resolve : m Outcome) : m Outcome := do
  let before : Cache ← MonadStateOf.get
  if before.settings.enabled then
    match before.find? key with
    | some kept =>
      MonadStateOf.set before.countHit
      pure kept
    | none =>
      MonadStateOf.set before.countMiss
      let outcome ← resolve
      MonadStateOf.modifyGet fun (after : Cache) => after.settle before.clearings key outcome
  else resolve

/-- The cache as a record. -/
def text (c : Cache) : String :=
  Text.record "ResolutionCache"
    [("config", c.settings.text), ("stats", c.counts.text)]

end Cache

end MultiDispatch
