import MultiDispatch.Proofs.Staleness

/-!
# What the cache counts

The entries, the hits and the misses of a cache are changed at different steps of a resolution, and
there are five operations that resolve. Still they tell the same story: how often keys were resolved
since the last reset, and which keys. Every resolution is a hit or a miss. It is a miss if its key
is resolved for the first time, and then it makes an entry as long as there is room; and it is a
miss if its key came too late to be kept, as often as that key is resolved.

Which keys are kept changes while resolutions go on, so the misses of keys that are not kept are
counted against the keys that are kept in the end. This makes no difference. Keys are only added to
those that are kept, and a key that is not kept at once is not kept later.

## Main definitions

* `Op.keptKeys`: the first keys, as many as there is room for
* `Op.overflow`: how often other keys were resolved
* `Cache.Counted`: counts that agree with a history

## Main results

* `Op.keptKeys_concat_of_full`: which keys are kept is settled once there is no more room
* `Op.overflow_concat`: what one more resolution adds while the kept keys stay the same
* `Host.counted_countHit`, `Host.counted_countMiss`: one resolution
* `Host.counted_after`: the counts of an enabled cache agree with every history
* `Host.cache_accounting`: the counts, by the history
-/

namespace MultiDispatch

namespace Op

variable {ops : List Op} {op : Op} {k : CallKey} {capacity : ℕ}

/-! ### Kept keys -/

/-- The first distinct keys that are resolved since the last reset, as many as there is room for. -/
def keptKeys (capacity : ℕ) (ops : List Op) : List CallKey :=
  (distinctKeys ops).take capacity

/-- How often keys are resolved since the last reset that are not among the first ones. -/
def overflow (capacity : ℕ) (ops : List Op) : ℕ :=
  (resolvedKeys ops).countP fun k => k ∉ keptKeys capacity ops

theorem length_keptKeys (capacity : ℕ) (ops : List Op) :
    (keptKeys capacity ops).length = min capacity (distinctKeys ops).length :=
  List.length_take

/-- As long as there is room, all keys are kept. -/
theorem mem_keptKeys_iff_of_room (hroom : (distinctKeys ops).length ≤ capacity) :
    k ∈ keptKeys capacity ops ↔ k ∈ resolvedKeys ops := by
  rw [keptKeys, List.take_of_length_le hroom, distinctKeys, List.mem_eraseDups]

theorem overflow_eq_zero (hroom : (distinctKeys ops).length ≤ capacity) :
    overflow capacity ops = 0 := by
  rw [overflow, List.countP_eq_zero]
  intro k hk
  simp [mem_keptKeys_iff_of_room hroom, hk]

section

variable (hreset : op.isReset = false) (hkey : op.key? = some k)

include hreset hkey

theorem keptKeys_concat_of_mem (hmem : k ∈ keptKeys capacity ops) :
    keptKeys capacity (ops ++ [op]) = keptKeys capacity ops := by
  have hknown : k ∈ resolvedKeys ops := List.mem_eraseDups.1 (List.mem_of_mem_take hmem)
  rw [keptKeys, distinctKeys_concat_of_mem hreset hkey hknown, keptKeys]

/-- Once there are as many keys as there is room for, those that are kept are settled. -/
theorem keptKeys_concat_of_full (hfull : capacity ≤ (distinctKeys ops).length) :
    keptKeys capacity (ops ++ [op]) = keptKeys capacity ops := by
  by_cases hknown : k ∈ resolvedKeys ops
  · rw [keptKeys, distinctKeys_concat_of_mem hreset hkey hknown, keptKeys]
  · rw [keptKeys, distinctKeys_concat_of_notMem hreset hkey hknown,
      List.take_append_of_le_length hfull, keptKeys]

theorem length_distinctKeys_concat_of_notMem (hnew : k ∉ resolvedKeys ops) :
    (distinctKeys (ops ++ [op])).length = (distinctKeys ops).length + 1 := by
  rw [distinctKeys_concat_of_notMem hreset hkey hnew, List.length_append, List.length_singleton]

theorem overflow_concat (hkept : keptKeys capacity (ops ++ [op]) = keptKeys capacity ops) :
    overflow capacity (ops ++ [op]) =
      overflow capacity ops + if k ∈ keptKeys capacity ops then 0 else 1 := by
  rw [overflow, hkept, resolvedKeys_concat ops hreset, hkey, Option.toList_some, List.countP_append,
    List.countP_singleton, overflow]
  simp

end

end Op

/-! ### The counts of a cache -/

/-- The counts of a cache with room for `capacity` outcomes agree with the operations so far. -/
structure Cache.Counted (capacity : ℕ) (ops : List Op) (c : Cache) : Prop where
  served : c.hits + c.misses = (Op.resolvedKeys ops).length
  missed : c.misses = c.size + Op.overflow capacity ops

namespace Host

variable {h : Host} {ops : List Op} {op : Op} {k : CallKey} {capacity : ℕ}

/-- After any history the cache has the settings it started with, and keeps the first keys. -/
theorem keys_after (settings : Settings) (tables : ℕ) (ops : List Op) :
    let c := ((create settings tables).after ops).engine.cache
    c.settings = settings.cache ∧ (settings.cache.enabled = true →
      c.entries.map Prod.fst = Op.keptKeys settings.cache.capacity ops) := by
  intro c
  have htracks := tracks_asOf settings tables (Nat.le_refl ops.length)
  have hkeys := htracks.keys
  have hsettings := htracks.settings_eq
  rw [asOf_length] at hkeys hsettings
  rw [List.take_length] at hkeys
  exact ⟨hsettings, hkeys⟩

/-- A hit is a resolution of a key that is kept. -/
theorem counted_countHit {c : Cache} (hcounted : c.Counted capacity ops)
    (hreset : op.isReset = false) (hkey : op.key? = some k)
    (hmem : k ∈ Op.keptKeys capacity ops) :
    c.countHit.Counted capacity (ops ++ [op]) := by
  have hoverflow := Op.overflow_concat hreset hkey (Op.keptKeys_concat_of_mem hreset hkey hmem)
  rw [if_pos hmem, Nat.add_zero] at hoverflow
  refine ⟨?_, ?_⟩
  · rw [Op.resolvedKeys_concat ops hreset, hkey, Option.toList_some, List.length_append,
      List.length_singleton, ← hcounted.served]
    show c.hits + 1 + c.misses = c.hits + c.misses + 1
    omega
  · rw [hoverflow]
    exact hcounted.missed

/-- A miss makes an entry if there is room. If there is none, the key is not one that is kept. -/
theorem counted_countMiss {c : Cache} (hcounted : c.Counted capacity ops)
    (hcapacity : c.settings.capacity = capacity)
    (hkeys : c.entries.map Prod.fst = Op.keptKeys capacity ops)
    (hreset : op.isReset = false) (hkey : op.key? = some k)
    (habsent : k ∉ Op.keptKeys capacity ops) (outcome : Outcome) :
    (c.countMiss.keep k outcome).Counted capacity (ops ++ [op]) := by
  have hserved : c.hits + (c.misses + 1) = (Op.resolvedKeys (ops ++ [op])).length := by
    rw [Op.resolvedKeys_concat ops hreset, hkey, Option.toList_some, List.length_append,
      List.length_singleton, ← hcounted.served]
    omega
  have hsize : c.countMiss.size = min capacity (Op.distinctKeys ops).length := by
    rw [← Op.length_keptKeys, ← hkeys, List.length_map]
    rfl
  have hmissed := hcounted.missed
  rw [Cache.keep, show c.countMiss.settings.capacity = capacity from hcapacity]
  by_cases hfull : capacity ≤ (Op.distinctKeys ops).length
  · rw [if_pos (by omega)]
    refine ⟨hserved, ?_⟩
    rw [Op.overflow_concat hreset hkey (Op.keptKeys_concat_of_full hreset hkey hfull),
      if_neg habsent]
    show c.misses + 1 = c.size + (Op.overflow capacity ops + 1)
    omega
  · rw [if_neg (by omega)]
    -- While there is room all keys are kept, so the key is new, and nothing has overflowed yet.
    have hnew : k ∉ Op.resolvedKeys ops := fun hknown =>
      habsent ((Op.mem_keptKeys_iff_of_room (by omega)).2 hknown)
    have hlength := Op.length_distinctKeys_concat_of_notMem hreset hkey hnew
    refine ⟨hserved, ?_⟩
    rw [Op.overflow_eq_zero (by omega)] at hmissed ⊢
    show c.misses + 1 = (c.entries ++ [(k, outcome)]).length + 0
    rw [List.length_append, List.length_singleton, hmissed, Cache.size]

/-- **Every history is accounted for.** -/
theorem counted_after (settings : Settings) (tables : ℕ) (hon : settings.cache.enabled = true)
    (ops : List Op) :
    ((create settings tables).after ops).engine.cache.Counted settings.cache.capacity ops := by
  induction ops using List.reverseRecOn with
  | nil => exact ⟨rfl, rfl⟩
  | append_singleton ops op ih =>
    obtain ⟨hsettings, hkeys⟩ := keys_after settings tables ops
    rw [after_concat]
    generalize (create settings tables).after ops = h at ih hsettings hkeys ⊢
    cases hreset : op.isReset with
    | true =>
      obtain rfl := Op.eq_reset hreset
      have hnone := Op.resolvedKeys_concat_of_reset ops hreset
      refine ⟨by rw [hnone]; rfl, ?_⟩
      rw [Op.overflow, hnone]
      rfl
    | false =>
      cases hkey : op.key? with
      | none =>
        have hnone : Op.resolvedKeys (ops ++ [op]) = Op.resolvedKeys ops := by
          rw [Op.resolvedKeys_concat ops hreset, hkey, Option.toList_none, List.append_nil]
        rw [cache_next_of_key?_eq_none hreset hkey]
        refine ⟨by rw [hnone]; exact ih.served, ?_⟩
        rw [Op.overflow, Op.keptKeys, Op.distinctKeys, hnone]
        exact ih.missed
      | some k =>
        obtain ⟨c, hcall, hsubject, rfl⟩ := Op.exists_call_of_key? hkey
        have hon' : h.engine.cache.settings.enabled = true := by rw [hsettings, hon]
        rw [next_eq_of_call? hcall]
        cases hfind : h.engine.cache.find? c.key with
        | some kept =>
          have hmem : c.key ∈ Op.keptKeys settings.cache.capacity ops :=
            hkeys hon ▸ List.mem_map_of_mem (Cache.mem_entries_of_find? hfind)
          rw [Engine.resolve_of_hit hsubject hon' hfind]
          exact counted_countHit ih hreset hkey hmem
        | none =>
          have habsent : c.key ∉ Op.keptKeys settings.cache.capacity ops :=
            hkeys hon ▸ Cache.find?_eq_none_iff.1 hfind
          rw [Engine.resolve_of_miss hsubject hon' hfind]
          exact counted_countMiss ih (congrArg CacheSettings.capacity hsettings) (hkeys hon) hreset
            hkey habsent _

/-- A cache that is not enabled counts nothing. -/
theorem counts_after_of_disabled (settings : Settings) (tables : ℕ)
    (hoff : settings.cache.enabled = false) (ops : List Op) :
    ((create settings tables).after ops).engine.cache.counts = ⟨0, 0, 0⟩ := by
  induction ops using List.reverseRecOn with
  | nil => rfl
  | append_singleton ops op ih =>
    obtain ⟨hsettings, -⟩ := keys_after settings tables ops
    rw [after_concat]
    generalize (create settings tables).after ops = h at ih hsettings ⊢
    cases hreset : op.isReset with
    | true =>
      obtain rfl := Op.eq_reset hreset
      rfl
    | false =>
      cases hkey : op.key? with
      | none => rw [cache_next_of_key?_eq_none hreset hkey, ih]
      | some k =>
        obtain ⟨c, hcall, hsubject, -⟩ := Op.exists_call_of_key? hkey
        have hoff' : h.engine.cache.settings.enabled = false := by rw [hsettings, hoff]
        rw [next_eq_of_call? hcall, Engine.resolve_of_disabled hsubject hoff']
        exact ih

/-- **What the cache counts, by the history.** Count the resolutions of calls with a subject since
the last reset, and the distinct keys among them. An enabled cache has as many entries as there are
distinct keys, up to its capacity. Every resolution was a hit or a miss, and there was one miss for
each entry and one for each resolution of a key that is not among the first ones. A cache that is
not enabled counts nothing. Whatever does not resolve a call with a subject through the cache, and
does not reset the engine, leaves the counts alone. -/
theorem cache_accounting (settings : Settings) (tables : ℕ) (ops : List Op) :
    let host := (create settings tables).after ops
    let capacity := settings.cache.capacity
    let resolved := Op.resolvedKeys ops
    let distinct := Op.distinctKeys ops
    let counts := host.engine.counts.cache
    (settings.cache.enabled = true →
      counts.entries = min capacity distinct.length ∧
      counts.hits + counts.misses = resolved.length ∧
      counts.misses =
        counts.entries + (resolved.filter fun k => k ∉ distinct.take capacity).length) ∧
    (settings.cache.enabled = false → counts = ⟨0, 0, 0⟩) ∧
    ∀ op, op.isReset = false → (∀ c, op.call? = some c → c.subject = none) →
      (host.next op).engine.counts.cache = counts := by
  intro host capacity resolved distinct counts
  refine ⟨fun hon => ⟨?_, ?_, ?_⟩, fun hoff => counts_after_of_disabled settings tables hoff ops,
    fun op hreset hnull => ?_⟩
  · obtain ⟨-, hkeys⟩ := keys_after settings tables ops
    have hsize := congrArg List.length (hkeys hon)
    rwa [List.length_map, Op.length_keptKeys] at hsize
  · exact (counted_after settings tables hon ops).served
  · have hmissed := (counted_after settings tables hon ops).missed
    rwa [Op.overflow, List.countP_eq_length_filter] at hmissed
  · have hcache := cache_next_of_key?_eq_none (h := host) hreset (Op.key?_eq_none_iff.2 hnull)
    exact congrArg Cache.counts hcache

/-- A class and calls of two operations on its values, one of which has a body that fails. There is
room for one outcome. -/
def crowded : List Op :=
  let v : Value := ⟨lateClass, .unit⟩
  [.declare ⟨"Cell", .reference none, []⟩,
    .register ⟨[1]⟩ [⟨⟨"show", lateClass, []⟩, Body.failing "no screen"⟩],
    .call "show" (some v) [], .resolve ⟨"hide", some lateClass, []⟩, .call "show" (some v) [],
    .call "show" none [], .isCallable "hide" (some v) []]

/-- The call that fails is counted, and found the second time; the other key is never kept. -/
example :
    ((create ⟨⟨true, 1⟩, true⟩ 0).after crowded).engine.counts.cache = ⟨1, 1, 3⟩ := by
  decide

end Host

end MultiDispatch
