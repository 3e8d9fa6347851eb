import MultiDispatch.Text.Record

/-!
# Settings of an engine

What can be set: whether and how many outcomes are kept, and whether ambiguous calls are reported.

## Main definitions

* `CacheSettings`, `Settings`: the settings with their defaults.
* `CacheSettings.text`, `Settings.text`: settings as records.
-/

namespace MultiDispatch

/-- The settings of a cache. -/
structure CacheSettings where
  /-- Whether outcomes are kept at all. -/
  enabled : Bool := true
  /-- The most outcomes that are kept. -/
  capacity : Nat := 65536
deriving DecidableEq, Repr

/-- The settings of an engine. -/
structure Settings where
  cache : CacheSettings := {}
  /-- Whether a call that was resolved afresh and is ambiguous is reported with a warning. -/
  logAmbiguity : Bool := true
deriving DecidableEq, Repr

/-- The settings of a cache as a record. -/
def CacheSettings.text (s : CacheSettings) : String :=
  Text.record "CacheConfig"
    [("enabled", Text.boolean s.enabled), ("capacity", toString s.capacity)]

/-- The settings of an engine as a record. -/
def Settings.text (s : Settings) : String :=
  Text.record "EngineConfig"
    [("cache", s.cache.text), ("log_ambiguity", Text.boolean s.logAmbiguity)]

end MultiDispatch
