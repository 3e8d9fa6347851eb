import MultiDispatch.Engine
import MultiDispatch.Proofs.RegistryConsistency
import MultiDispatch.Proofs.TypeIdentity

/-!
# Loading modules into an engine

All ways of registering modules have the same reach: they declare types, register modules, and leave
the cache alone. They do not look at the cache or the settings either, so two engines that differ
only there load alike.

## Main definitions

* `Engine.Grown`: an engine after declarations and registrations
* `Engine.withCache`: an engine with another cache and other settings

## Main results

* `Engine.grown_load`, `Engine.grown_loadMany`: loading only declares and registers
* `Engine.load_withCache`, `Engine.loadMany_withCache`: loading does not depend on the cache
* `Engine.index_loadMany_of_accepted_eq_zero`: what accepts nothing leaves the index as it is
-/

namespace MultiDispatch

namespace Engine

variable {e e' e'' : Engine}

/-! ### What loading can do -/

/-- `e'` is `e` after declarations of types and registrations of modules. -/
structure Grown (e e' : Engine) : Prop where
  types : e.types.Later e'.types
  registry : e.registry.Later e'.registry
  cache : e'.cache = e.cache
  settings : e'.settings = e.settings

theorem Grown.refl (e : Engine) : e.Grown e := ⟨.refl, .refl, rfl, rfl⟩

theorem Grown.trans (h : e.Grown e') (h' : e'.Grown e'') : e.Grown e'' :=
  ⟨h.types.trans h'.types, h.registry.trans h'.registry, h'.cache.trans h.cache,
    h'.settings.trans h.settings⟩

theorem grown_register (e : Engine) (module : ModuleId) (batch : List Implementation) :
    e.Grown (e.register module batch).value.2 :=
  ⟨.refl, Registry.Later.refl.register module batch, rfl, rfl⟩

theorem grown_registerResult (e : Engine) (module : ModuleId)
    (extracted : Except RegistrationError (List Implementation)) :
    e.Grown (e.registerResult module extracted).value.2 :=
  ⟨.refl, e.registry.later_registerResult module extracted, rfl, rfl⟩

theorem load_of_registered {source : Source}
    (h : e.registry.isRegistered source.module = true) :
    e.load source = pure (.alreadyRegistered, e) := by
  rw [load, if_pos h]

theorem load_of_unregistered {source : Source}
    (h : e.registry.isRegistered source.module = false) :
    e.load source = { e with types := (source.extraction.run e.types).2 }.registerResult
      source.module (source.extraction.run e.types).1 := by
  rw [load, h]
  rfl

theorem grown_load (e : Engine) (source : Source) : e.Grown (e.load source).value.2 := by
  cases h : e.registry.isRegistered source.module with
  | true =>
    rw [load_of_registered h]
    exact .refl e
  | false =>
    rw [load_of_unregistered h]
    have htypes : e.Grown { e with types := (source.extraction.run e.types).2 } :=
      ⟨source.extraction.later_run e.types, .refl, rfl, rfl⟩
    exact htypes.trans (grown_registerResult _ _ _)

theorem grown_loadEach (e : Engine) (sources : List Source) :
    e.Grown (e.loadEach sources).value.2 := by
  induction sources generalizing e with
  | nil => exact .refl e
  | cons source rest ih => exact (grown_load e source).trans (ih _)

theorem value_loadMany (e : Engine) (sources : List Source) :
    (e.loadMany sources).value =
      (⟨(e.loadEach sources).value.1⟩, (e.loadEach sources).value.2) := by
  rw [loadMany]
  simp only [Traced.value_bind]
  split <;> rfl

theorem grown_loadMany (e : Engine) (sources : List Source) :
    e.Grown (e.loadMany sources).value.2 := by
  rw [value_loadMany]
  exact grown_loadEach e sources

/-! ### Loading and the cache -/

/-- The engine with another cache and other settings. -/
def withCache (e : Engine) (cache : Cache) (settings : Settings) : Engine :=
  { e with cache := cache, settings := settings }

variable (cache : Cache) (settings : Settings)

theorem register_withCache (e : Engine) (module : ModuleId) (batch : List Implementation) :
    (e.withCache cache settings).register module batch =
      e.register module batch >>= fun r => pure (r.1, r.2.withCache cache settings) := by
  simp only [register, withRegistry, bind_assoc, pure_bind]
  rfl

theorem registerResult_withCache (e : Engine) (module : ModuleId)
    (extracted : Except RegistrationError (List Implementation)) :
    (e.withCache cache settings).registerResult module extracted =
      e.registerResult module extracted >>= fun r => pure (r.1, r.2.withCache cache settings) := by
  simp only [registerResult, withRegistry, bind_assoc, pure_bind]
  rfl

theorem load_withCache (e : Engine) (source : Source) :
    (e.withCache cache settings).load source =
      e.load source >>= fun r => pure (r.1, r.2.withCache cache settings) := by
  cases h : e.registry.isRegistered source.module with
  | true =>
    rw [load_of_registered h, load_of_registered (e := e.withCache cache settings) h, pure_bind]
  | false =>
    rw [load_of_unregistered h, load_of_unregistered (e := e.withCache cache settings) h]
    exact registerResult_withCache cache settings
      { e with types := (source.extraction.run e.types).2 } source.module _

theorem loadEach_withCache (e : Engine) (sources : List Source) :
    (e.withCache cache settings).loadEach sources =
      e.loadEach sources >>= fun r => pure (r.1, r.2.withCache cache settings) := by
  induction sources generalizing e with
  | nil => rfl
  | cons source rest ih =>
    simp only [loadEach, load_withCache, bind_assoc, pure_bind, ih]

theorem loadMany_withCache (e : Engine) (sources : List Source) :
    (e.withCache cache settings).loadMany sources =
      e.loadMany sources >>= fun r => pure (r.1, r.2.withCache cache settings) := by
  simp only [loadMany, loadEach_withCache, bind_assoc, pure_bind]
  congr 1
  funext r
  split <;> simp only [bind_assoc, pure_bind]

/-! ### Loading nothing -/

theorem index_load_of_accepted_eq_zero {source : Source}
    (h : (e.load source).value.1.accepted = 0) :
    (e.load source).value.2.registry.index = e.registry.index := by
  cases hregistered : e.registry.isRegistered source.module with
  | true =>
    rw [load_of_registered hregistered]
    rfl
  | false =>
    rw [load_of_unregistered hregistered] at h ⊢
    exact Registry.index_registerResult_of_accepted_eq_zero h

theorem index_loadEach_of_accepted_eq_zero {sources : List Source}
    (h : (LoadSummary.mk (e.loadEach sources).value.1).accepted = 0) :
    (e.loadEach sources).value.2.registry.index = e.registry.index := by
  induction sources generalizing e with
  | nil => rfl
  | cons source rest ih =>
    have hsum : (e.load source).value.1.accepted +
        (LoadSummary.mk ((e.load source).value.2.loadEach rest).value.1).accepted = 0 := h
    have hrest := ih (e := (e.load source).value.2) (by omega)
    exact hrest.trans (index_load_of_accepted_eq_zero (by omega))

theorem index_loadMany_of_accepted_eq_zero {sources : List Source}
    (h : (e.loadMany sources).value.1.accepted = 0) :
    (e.loadMany sources).value.2.registry.index = e.registry.index := by
  rw [value_loadMany] at h ⊢
  exact index_loadEach_of_accepted_eq_zero h

end Engine

end MultiDispatch
