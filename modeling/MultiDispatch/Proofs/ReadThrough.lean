import Mathlib.Data.Nat.Notation
import MultiDispatch.Engine

/-!
# Resolving through the cache

`Cache.readThrough` is written for computations that may use the cache themselves. The engine's
resolution does not: between looking a key up and settling it, nothing touches the cache. So the
second look-up and the number of clearings never matter here, and a resolution is one of four plain
steps: nothing for a null subject, a fresh resolution if the cache is off, an answer from the cache,
or a fresh resolution that is kept if there is room.

## Main definitions

* `Cache.keep`: the cache with one more outcome, if there is room

## Main results

* `Engine.resolve_of_null`, `Engine.resolve_of_disabled`, `Engine.resolve_of_hit`,
  `Engine.resolve_of_miss`: the four steps
-/

namespace MultiDispatch

variable {c : Cache} {key key' : CallKey} {outcome kept : Outcome}

/-! ### Look-ups -/

/-- The cache with one more outcome at its end, unless it is full. -/
def Cache.keep (c : Cache) (key : CallKey) (outcome : Outcome) : Cache :=
  if c.settings.capacity ≤ c.size then c
  else { c with entries := c.entries ++ [(key, outcome)] }

theorem Cache.find?_eq_none_iff : c.find? key = none ↔ key ∉ c.entries.map Prod.fst := by
  rw [Cache.find?, Option.map_eq_none_iff, List.find?_eq_none, List.mem_map]
  constructor
  · rintro h ⟨entry, hentry, hkey⟩
    exact h entry hentry (by simpa using hkey)
  · intro h entry hentry hkey
    exact h ⟨entry, hentry, by simpa using hkey⟩

theorem Cache.mem_entries_of_find? (h : c.find? key = some outcome) :
    (key, outcome) ∈ c.entries := by
  obtain ⟨⟨k, o⟩, hfind, rfl⟩ := Option.map_eq_some_iff.1 h
  obtain rfl : k = key := by simpa using List.find?_some hfind
  exact List.mem_of_find?_eq_some hfind

theorem Cache.mem_entries_keep {entry : CallKey × Outcome}
    (h : entry ∈ (c.keep key outcome).entries) : entry ∈ c.entries ∨ entry = (key, outcome) := by
  rw [Cache.keep] at h
  split at h
  · exact .inl h
  · exact (List.mem_append.1 h).imp_right List.mem_singleton.1

theorem Cache.settle_of_absent (h : c.find? key = none) :
    c.settle c.clearings key outcome = (outcome, c.keep key outcome) := by
  rw [Cache.settle, if_pos rfl, Cache.insert, h, Cache.keep]
  by_cases hfull : c.settings.capacity ≤ c.size
  · simp [hfull]
  · simp [hfull]

/-- Reading through a cache that the computation does not touch. -/
theorem Cache.run_readThrough (c : Cache) (key : CallKey) (x : Traced Outcome) :
    (readThrough key (liftM x : StateT Cache Traced Outcome)).run c =
      if c.settings.enabled then
        match c.find? key with
        | some kept => pure (kept, c.countHit)
        | none => x >>= fun outcome => pure (c.countMiss.settle c.clearings key outcome)
      else x >>= fun outcome => pure (outcome, c) := by
  have hget : (MonadStateOf.get : StateT Cache Traced Cache).run c = pure (c, c) := rfl
  have hlift : ∀ c' : Cache, (liftM x : StateT Cache Traced Outcome).run c' =
      x >>= fun outcome => pure (outcome, c') := fun _ => rfl
  rw [readThrough, StateT.run_bind, hget, pure_bind]
  dsimp only
  by_cases hon : c.settings.enabled = true
  · rw [if_pos hon, if_pos hon]
    cases c.find? key with
    | some kept => rfl
    | none =>
      change (liftM x : StateT Cache Traced Outcome).run c.countMiss >>=
        (fun r => pure (r.2.settle c.clearings key r.1)) = _
      rw [hlift, bind_assoc]
      rfl
  · rw [if_neg hon, if_neg hon, hlift]

/-! ### The engine's steps -/

namespace Engine

variable {e : Engine} {call : Call}

theorem resolve_of_null (hnull : call.subject = none) :
    e.resolve call = pure (.unmatched .nullSubject, e) := by
  rw [resolve, hnull]

theorem resolve_of_subject (hsubject : call.subject.isSome = true) :
    e.resolve call = (Cache.readThrough call.key
        (liftM (e.resolveAfresh call) : StateT Cache Traced Outcome)).run e.cache >>=
      fun r => pure (r.1, { e with cache := r.2 }) := by
  obtain ⟨subject, hs⟩ := Option.isSome_iff_exists.1 hsubject
  rw [resolve, hs]

theorem resolve_of_disabled (hsubject : call.subject.isSome = true)
    (hoff : e.cache.settings.enabled = false) :
    e.resolve call = e.resolveAfresh call >>= fun outcome => pure (outcome, e) := by
  rw [resolve_of_subject hsubject, Cache.run_readThrough, if_neg (by simp [hoff]), bind_assoc]
  simp only [pure_bind]

theorem resolve_of_hit (hsubject : call.subject.isSome = true)
    (hon : e.cache.settings.enabled = true) (hfind : e.cache.find? call.key = some kept) :
    e.resolve call = pure (kept, { e with cache := e.cache.countHit }) := by
  rw [resolve_of_subject hsubject, Cache.run_readThrough, if_pos hon, hfind]
  simp only [pure_bind]

theorem resolve_of_miss (hsubject : call.subject.isSome = true)
    (hon : e.cache.settings.enabled = true) (hfind : e.cache.find? call.key = none) :
    e.resolve call = e.resolveAfresh call >>= fun outcome =>
      pure (outcome, { e with cache := e.cache.countMiss.keep call.key outcome }) := by
  have hsettle : ∀ outcome, e.cache.countMiss.settle e.cache.clearings call.key outcome =
      (outcome, e.cache.countMiss.keep call.key outcome) :=
    fun outcome => Cache.settle_of_absent (c := e.cache.countMiss) hfind
  rw [resolve_of_subject hsubject, Cache.run_readThrough, if_pos hon, hfind]
  simp only [bind_assoc, pure_bind, hsettle]

theorem value_resolveAfresh (e : Engine) (call : Call) :
    (e.resolveAfresh call).value = (e.registry.index.resolve call).value := by
  rw [resolveAfresh]
  simp only [Traced.value_bind]
  split <;> rfl

end Engine

end MultiDispatch
