import MultiDispatch.Settings.Basic
import MultiDispatch.Toml.Load

/-!
# Settings in TOML

Settings are a table whose keys may all be left out; what is left out has its default.

## Main definitions

* `CacheSettings.decode`, `Settings.decode`: the settings that a TOML value stands for.
* `Settings.parse`: the settings that a text describes.
-/

namespace MultiDispatch

/-- The cache settings that a value stands for. -/
def CacheSettings.decode : Toml.Decoder CacheSettings := fun v => do
  let standard : CacheSettings := {}
  let r ← Toml.record v
  let enabled ← r.optional 0 "enabled" Toml.boolean standard.enabled
  let capacity ← r.optional 1 "capacity" Toml.count standard.capacity
  pure ⟨enabled, capacity⟩

/-- The settings that a value stands for. -/
def Settings.decode : Toml.Decoder Settings := fun v => do
  let standard : Settings := {}
  let r ← Toml.record v
  let cache ← r.optional 0 "cache" CacheSettings.decode standard.cache
  let logAmbiguity ← r.optional 1 "log_ambiguity" Toml.boolean standard.logAmbiguity
  pure ⟨cache, logAmbiguity⟩

/-- The settings that a text describes. -/
def Settings.parse : String → Except LoadError Settings :=
  Toml.parseWith Settings.decode

end MultiDispatch
