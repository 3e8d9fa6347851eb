import Mathlib.Data.List.DropRight
import Mathlib.Data.Nat.Find
import MultiDispatch.Proofs.Histories
import MultiDispatch.Proofs.ReadThrough

/-!
# How stale an outcome can be

What was resolved once stays resolved, so an outcome can be that of an index of the past. Which one
it is depends on the history since the last reset and on nothing else. The cache keeps outcomes for
the first keys that were resolved, as many as it has room for, and each of them is the outcome on
the index at the time when its key was resolved first. All other calls are resolved on the index as
it is.

## Keys and calls

A key has the identifiers of types only, while the resolver reads their descriptions. That a later
call with the same key is the same call is `Host.Sound.call_eq_of_key_eq`, and needs that the types
of both come from the host's tables.

## Main definitions

* `Op.distinctKeys`: the keys resolved since the last reset, in the order of their first resolutions
* `Op.FirstResolved`: the time at which a key was resolved first
* `Host.Tracks`: what the cache holds, by the history

## Main results

* `Host.tracks_asOf`: the cache holds the outcomes of the first keys at their first resolutions
* `Host.outcome_by_history`: the outcome of a call, by the history
-/

namespace MultiDispatch

namespace Op

variable {ops : List Op} {op : Op} {k : CallKey} {r s t : ℕ}

/-! ### The keys of a history -/

/-- The operations after the last reset. -/
def sinceReset (ops : List Op) : List Op :=
  ops.rtakeWhile fun op => !op.isReset

/-- The keys that operations after the last reset resolve. -/
def resolvedKeys (ops : List Op) : List CallKey :=
  (sinceReset ops).filterMap key?

/-- The keys that operations after the last reset resolve, each at its first occurrence. -/
def distinctKeys (ops : List Op) : List CallKey :=
  (resolvedKeys ops).eraseDups

theorem resolvedKeys_concat_of_reset (ops : List Op) (hreset : op.isReset = true) :
    resolvedKeys (ops ++ [op]) = [] := by
  rw [resolvedKeys, sinceReset, List.rtakeWhile_concat, hreset]
  rfl

theorem resolvedKeys_concat (ops : List Op) (hreset : op.isReset = false) :
    resolvedKeys (ops ++ [op]) = resolvedKeys ops ++ op.key?.toList := by
  rw [resolvedKeys, sinceReset, List.rtakeWhile_concat, hreset]
  simp only [Bool.not_false, if_true, List.filterMap_append]
  cases hkey : op.key? <;> simp [hkey, resolvedKeys, sinceReset]

theorem distinctKeys_concat_of_mem (hreset : op.isReset = false) (hkey : op.key? = some k)
    (hmem : k ∈ resolvedKeys ops) : distinctKeys (ops ++ [op]) = distinctKeys ops := by
  rw [distinctKeys, resolvedKeys_concat ops hreset, hkey, Option.toList_some, List.eraseDups_append]
  simp [List.removeAll, hmem, distinctKeys]

theorem distinctKeys_concat_of_notMem (hreset : op.isReset = false) (hkey : op.key? = some k)
    (hmem : k ∉ resolvedKeys ops) : distinctKeys (ops ++ [op]) = distinctKeys ops ++ [k] := by
  rw [distinctKeys, resolvedKeys_concat ops hreset, hkey, Option.toList_some, List.eraseDups_append]
  simp [List.removeAll, hmem, distinctKeys, List.eraseDups_cons]

/-! ### First resolutions -/

/-- The operation at time `s` resolves `k`, and none from there on resets the engine before
time `t`. -/
structure Resolved (ops : List Op) (t : ℕ) (k : CallKey) (s : ℕ) : Prop where
  resolves : ∃ op, ops[s]? = some op ∧ op.key? = some k
  kept : ∀ i op, s ≤ i → i < t → ops[i]? = some op → op.isReset = false

/-- As of time `t`, `s` is the first time since the last reset at which `k` is resolved. -/
structure FirstResolved (ops : List Op) (t : ℕ) (k : CallKey) (s : ℕ) : Prop
    extends Resolved ops t k s where
  le : s ≤ t
  first : ∀ i < s, ¬ Resolved ops t k i

theorem Resolved.mono (h : Resolved ops t k s) (hrt : r ≤ t) : Resolved ops r k s :=
  ⟨h.resolves, fun i op hsi hir => h.kept i op hsi (Nat.lt_of_lt_of_le hir hrt)⟩

theorem FirstResolved.unique (h : FirstResolved ops t k r) (h' : FirstResolved ops t k s) :
    r = s := by
  rcases Nat.lt_trichotomy r s with hlt | heq | hlt
  · exact absurd h.toResolved (h'.first r hlt)
  · exact heq
  · exact absurd h'.toResolved (h.first s hlt)

theorem Resolved.exists_first (h : Resolved ops t k s) (hst : s ≤ t) :
    ∃ r, FirstResolved ops t k r := by
  classical
  have hex : ∃ r, Resolved ops t k r := ⟨s, h⟩
  exact ⟨Nat.find hex, Nat.find_spec hex, (Nat.find_min' hex h).trans hst,
    fun i hi => Nat.find_min hex hi⟩

/-- What is resolved at some time is resolved for the first time at some time. -/
theorem exists_firstResolved (hop : ops[t]? = some op) (hkey : op.key? = some k) :
    ∃ s, FirstResolved ops t k s :=
  Resolved.exists_first ⟨⟨op, hop, hkey⟩, fun _ _ hti hit => absurd hit (Nat.not_lt.2 hti)⟩ le_rfl

theorem Resolved.succ (h : Resolved ops t k s) (hop : ops[t]? = some op)
    (hreset : op.isReset = false) : Resolved ops (t + 1) k s := by
  refine ⟨h.resolves, fun i op' hsi hit hop' => ?_⟩
  rcases Nat.lt_succ_iff_lt_or_eq.1 hit with hlt | rfl
  · exact h.kept i op' hsi hlt hop'
  · obtain rfl : op = op' := Option.some.inj (hop.symm.trans hop')
    exact hreset

theorem FirstResolved.succ (h : FirstResolved ops t k s) (hop : ops[t]? = some op)
    (hreset : op.isReset = false) : FirstResolved ops (t + 1) k s :=
  ⟨h.toResolved.succ hop hreset, Nat.le_succ_of_le h.le,
    fun i hi hresolved => h.first i hi (hresolved.mono (Nat.le_succ t))⟩

/-- The keys of a history are those that were resolved at some time and not forgotten since. -/
theorem mem_resolvedKeys_take_iff (ht : t ≤ ops.length) :
    k ∈ resolvedKeys (ops.take t) ↔ ∃ s < t, Resolved ops t k s := by
  induction t with
  | zero =>
    simp only [Nat.not_lt_zero, false_and, exists_false, iff_false]
    exact List.not_mem_nil
  | succ t ih =>
    have hop : ops[t]? = some ops[t] := List.getElem?_eq_getElem ht
    rw [List.take_add_one, hop, Option.toList_some]
    cases hreset : ops[t].isReset with
    | true =>
      rw [resolvedKeys_concat_of_reset _ hreset]
      refine iff_of_false List.not_mem_nil ?_
      rintro ⟨s, hst, hresolved⟩
      have := hresolved.kept t _ (Nat.le_of_lt_succ hst) (Nat.lt_succ_self t) hop
      simp [hreset] at this
    | false =>
      rw [resolvedKeys_concat _ hreset, List.mem_append, ih (Nat.le_of_succ_le ht)]
      constructor
      · rintro (⟨s, hst, hresolved⟩ | hkey)
        · exact ⟨s, Nat.lt_succ_of_lt hst, hresolved.succ hop hreset⟩
        · rw [Option.mem_toList] at hkey
          refine ⟨t, Nat.lt_succ_self t, Resolved.succ ⟨⟨_, hop, hkey⟩, ?_⟩ hop hreset⟩
          exact fun i op hti hit => absurd hit (Nat.not_lt.2 hti)
      · rintro ⟨s, hst, hresolved⟩
        rcases Nat.lt_succ_iff_lt_or_eq.1 hst with hlt | rfl
        · exact .inl ⟨s, hlt, hresolved.mono (Nat.le_succ t)⟩
        · obtain ⟨op, hop', hkey⟩ := hresolved.resolves
          obtain rfl : ops[s] = op := Option.some.inj (hop.symm.trans hop')
          exact .inr (by rw [hkey]; exact List.mem_singleton_self k)

theorem firstResolved_self (hop : ops[t]? = some op) (hkey : op.key? = some k)
    (hnew : k ∉ resolvedKeys (ops.take t)) : FirstResolved ops t k t := by
  have hlen : t ≤ ops.length := Nat.le_of_lt (List.getElem?_eq_some_iff.1 hop).1
  refine ⟨⟨⟨op, hop, hkey⟩, fun i op hti hit => absurd hit (Nat.not_lt.2 hti)⟩, le_rfl,
    fun i hi hresolved => hnew ?_⟩
  exact (mem_resolvedKeys_take_iff hlen).2 ⟨i, hi, hresolved⟩

end Op

namespace Host

variable {h : Host} {ops : List Op} {op : Op} {c : Call} {s t : ℕ}

/-! ### What the cache holds -/

/-- `outcome` is that of a call on the index at the time when its key `k` was resolved first. -/
def FirstOutcome (h : Host) (ops : List Op) (t : ℕ) (k : CallKey) (outcome : Outcome) : Prop :=
  ∃ s op c, s < t ∧ Op.FirstResolved ops t k s ∧ ops[s]? = some op ∧ op.call? = some c ∧
    c.cacheKey? = some k ∧ outcome = ((h.indexAt ops s).resolve c).value

/-- The cache of an engine with the given settings, after the operations before time `t`: it holds
the first keys as far as it has room, and for each of them the outcome of its first resolution. -/
structure Tracks (h : Host) (ops : List Op) (settings : CacheSettings) (t : ℕ) : Prop where
  settings_eq : (h.asOf ops t).engine.cache.settings = settings
  keys : settings.enabled = true → (h.asOf ops t).engine.cache.entries.map Prod.fst =
    (Op.distinctKeys (ops.take t)).take settings.capacity
  outcomes : ∀ entry ∈ (h.asOf ops t).engine.cache.entries,
    h.FirstOutcome ops t entry.1 entry.2

theorem FirstOutcome.succ {k : CallKey} {outcome : Outcome}
    (hfirst : h.FirstOutcome ops t k outcome) (hop : ops[t]? = some op)
    (hreset : op.isReset = false) :
    h.FirstOutcome ops (t + 1) k outcome := by
  obtain ⟨s, op', c, hst, hresolved, hrest⟩ := hfirst
  exact ⟨s, op', c, Nat.lt_succ_of_lt hst, hresolved.succ hop hreset, hrest⟩

variable {settings : CacheSettings}

theorem Tracks.reset (htracks : h.Tracks ops settings t) (hop : ops[t]? = some op)
    (hreset : op.isReset = true) : h.Tracks ops settings (t + 1) := by
  obtain rfl := Op.eq_reset hreset
  have hcache : (h.asOf ops (t + 1)).engine.cache = (h.asOf ops t).engine.cache.clear := by
    rw [asOf_succ hop, next_reset_engine]
  refine ⟨?_, fun hon => ?_, fun entry hentry => ?_⟩
  · rw [hcache]
    exact htracks.settings_eq
  · rw [hcache, take_succ_eq_concat hop, Op.distinctKeys, Op.resolvedKeys_concat_of_reset _ hreset,
      List.eraseDups_nil, List.take_nil]
    rfl
  · rw [hcache] at hentry
    cases hentry

/-- Where the entries stay the same, so do the first keys that the cache has room for. -/
theorem Tracks.of_entries_eq (htracks : h.Tracks ops settings t) (hop : ops[t]? = some op)
    (hreset : op.isReset = false) {cache : Cache}
    (hcache : (h.asOf ops (t + 1)).engine.cache = cache)
    (hsettings : cache.settings = (h.asOf ops t).engine.cache.settings)
    (hentries : cache.entries = (h.asOf ops t).engine.cache.entries)
    (hkeys : settings.enabled = true →
      (Op.distinctKeys (ops.take t ++ [op])).take settings.capacity =
        (Op.distinctKeys (ops.take t)).take settings.capacity) :
    h.Tracks ops settings (t + 1) := by
  refine ⟨?_, fun hon => ?_, fun entry hentry => ?_⟩
  · rw [hcache, hsettings, htracks.settings_eq]
  · rw [hcache, hentries, take_succ_eq_concat hop, htracks.keys hon, hkeys hon]
  · rw [hcache, hentries] at hentry
    exact (htracks.outcomes entry hentry).succ hop hreset

/-- A key that is found is one of the first ones that the cache has room for. -/
theorem Tracks.mem_take_of_hit (htracks : h.Tracks ops settings t) (hon : settings.enabled = true)
    {k : CallKey} {kept : Outcome} (hfind : (h.asOf ops t).engine.cache.find? k = some kept) :
    k ∈ (Op.distinctKeys (ops.take t)).take settings.capacity := by
  have hentry : k ∈ (h.asOf ops t).engine.cache.entries.map Prod.fst :=
    List.mem_map_of_mem (Cache.mem_entries_of_find? hfind)
  rwa [htracks.keys hon] at hentry

/-- An operation that resolves no key leaves the cache alone. -/
theorem Tracks.of_key?_eq_none (htracks : h.Tracks ops settings t) (hop : ops[t]? = some op)
    (hreset : op.isReset = false) (hkey : op.key? = none) : h.Tracks ops settings (t + 1) := by
  have hcache : (h.asOf ops (t + 1)).engine.cache = (h.asOf ops t).engine.cache := by
    rw [asOf_succ hop, cache_next_of_key?_eq_none hreset hkey]
  refine htracks.of_entries_eq hop hreset hcache rfl rfl fun _ => ?_
  rw [Op.distinctKeys, Op.resolvedKeys_concat _ hreset, hkey, Option.toList_none, List.append_nil,
    Op.distinctKeys]

section

variable (htracks : h.Tracks ops settings t) (hop : ops[t]? = some op) (hcall : op.call? = some c)
  (hsubject : c.subject.isSome = true)

include htracks hop hcall hsubject

theorem Tracks.of_disabled (hoff : settings.enabled = false) : h.Tracks ops settings (t + 1) := by
  have hcache : (h.asOf ops (t + 1)).engine.cache = (h.asOf ops t).engine.cache := by
    rw [asOf_succ hop, next_eq_of_call? hcall,
      Engine.resolve_of_disabled hsubject (htracks.settings_eq ▸ hoff)]
    rfl
  refine htracks.of_entries_eq hop (Op.isReset_eq_false_of_call? hcall) hcache rfl rfl fun hon => ?_
  rw [hoff] at hon
  cases hon

theorem Tracks.of_hit (hon : settings.enabled = true) {kept : Outcome}
    (hfind : (h.asOf ops t).engine.cache.find? c.key = some kept) :
    h.Tracks ops settings (t + 1) := by
  have hcache : (h.asOf ops (t + 1)).engine.cache = (h.asOf ops t).engine.cache.countHit := by
    rw [asOf_succ hop, next_eq_of_call? hcall,
      Engine.resolve_of_hit hsubject (htracks.settings_eq ▸ hon) hfind]
    rfl
  have hresolved : c.key ∈ Op.resolvedKeys (ops.take t) :=
    List.mem_eraseDups.1 (List.mem_of_mem_take (htracks.mem_take_of_hit hon hfind))
  have hreset := Op.isReset_eq_false_of_call? hcall
  refine htracks.of_entries_eq hop hreset hcache rfl rfl fun _ => ?_
  rw [Op.distinctKeys_concat_of_mem hreset (Op.key?_eq_some hcall hsubject) hresolved]

/-- A key that is not found is kept exactly if it is among those that the cache has room for. -/
theorem Tracks.of_miss (hon : settings.enabled = true)
    (hfind : (h.asOf ops t).engine.cache.find? c.key = none) : h.Tracks ops settings (t + 1) := by
  have hreset := Op.isReset_eq_false_of_call? hcall
  have hkey := Op.key?_eq_some hcall hsubject
  have hcache : (h.asOf ops (t + 1)).engine.cache = (h.asOf ops t).engine.cache.countMiss.keep c.key
      ((h.indexAt ops t).resolve c).value := by
    rw [asOf_succ hop, next_eq_of_call? hcall,
      Engine.resolve_of_miss hsubject (htracks.settings_eq ▸ hon) hfind]
    exact congrArg ((h.asOf ops t).engine.cache.countMiss.keep c.key)
      (Engine.value_resolveAfresh _ c)
  have hentries := htracks.keys hon
  have habsent : c.key ∉ (Op.distinctKeys (ops.take t)).take settings.capacity :=
    hentries ▸ Cache.find?_eq_none_iff.1 hfind
  have hsize : (h.asOf ops t).engine.cache.countMiss.size =
      min settings.capacity (Op.distinctKeys (ops.take t)).length := by
    rw [← List.length_take, ← hentries, List.length_map]
    rfl
  have hcapacity : (h.asOf ops t).engine.cache.countMiss.settings.capacity = settings.capacity :=
    congrArg CacheSettings.capacity htracks.settings_eq
  rw [Cache.keep, hcapacity, hsize] at hcache
  -- The cache is full exactly if there are as many distinct keys as it has room for. A key that is
  -- not found may then be a known one; while there is room, it is new.
  by_cases hfull : settings.capacity ≤ (Op.distinctKeys (ops.take t)).length
  · rw [if_pos (by omega)] at hcache
    refine htracks.of_entries_eq hop hreset hcache rfl rfl fun _ => ?_
    by_cases hknown : c.key ∈ Op.resolvedKeys (ops.take t)
    · rw [Op.distinctKeys_concat_of_mem hreset hkey hknown]
    · rw [Op.distinctKeys_concat_of_notMem hreset hkey hknown,
        List.take_append_of_le_length hfull]
  · rw [if_neg (by omega)] at hcache
    rw [List.take_of_length_le (by omega)] at hentries habsent
    have hnew : c.key ∉ Op.resolvedKeys (ops.take t) := fun hmem =>
      habsent (List.mem_eraseDups.2 hmem)
    refine ⟨?_, fun _ => ?_, fun entry hentry => ?_⟩
    · rw [hcache]
      exact htracks.settings_eq
    · have hroom : (Op.distinctKeys (ops.take t) ++ [c.key]).length ≤ settings.capacity := by
        rw [List.length_append, List.length_singleton]
        omega
      rw [hcache, take_succ_eq_concat hop, Op.distinctKeys_concat_of_notMem hreset hkey hnew,
        List.take_of_length_le hroom, ← hentries]
      exact List.map_append
    · rw [hcache] at hentry
      rcases List.mem_append.1 hentry with hentry | hentry
      · exact (htracks.outcomes entry hentry).succ hop hreset
      · rw [List.mem_singleton.1 hentry]
        exact ⟨t, op, c, Nat.lt_succ_self t, (Op.firstResolved_self hop hkey hnew).succ hop hreset,
          hop, hcall, Op.key?_eq hcall ▸ hkey, rfl⟩

end

theorem tracks_create (settings : Settings) (tables : ℕ) (ops : List Op) :
    (create settings tables).Tracks ops settings.cache 0 :=
  ⟨rfl, fun _ => List.take_nil.symm, nofun⟩

/-- **The cache holds the first keys**, as many as it has room for, with the outcomes of their first
resolutions. -/
theorem tracks_asOf (settings : Settings) (tables : ℕ) (ht : t ≤ ops.length) :
    (create settings tables).Tracks ops settings.cache t := by
  induction t with
  | zero => exact tracks_create settings tables ops
  | succ t ih =>
    have hop : ops[t]? = some ops[t] := List.getElem?_eq_getElem ht
    have htracks := ih (Nat.le_of_succ_le ht)
    cases hreset : ops[t].isReset with
    | true => exact htracks.reset hop hreset
    | false =>
      cases hkey : ops[t].key? with
      | none => exact htracks.of_key?_eq_none hop hreset hkey
      | some k =>
        obtain ⟨c, hcall, hsubject, -⟩ := Op.exists_call_of_key? hkey
        cases hon : settings.cache.enabled with
        | false => exact htracks.of_disabled hop hcall hsubject hon
        | true =>
          cases hfind : ((create settings tables).asOf ops t).engine.cache.find? c.key with
          | some kept => exact htracks.of_hit hop hcall hsubject hon hfind
          | none => exact htracks.of_miss hop hcall hsubject hon hfind

/-! ### Outcomes -/

/-- The outcome of a call by the history: that of its first resolution if its key is among those
that the cache has room for, and a fresh one otherwise. -/
theorem Tracks.value_resolve (htracks : h.Tracks ops settings t) (hsound : h.Sound)
    (hlegal : h.Legal ops) (hop : ops[t]? = some op) (hcall : op.call? = some c)
    (hsubject : c.subject.isSome = true) (hfirst : Op.FirstResolved ops t c.key s) :
    ((h.asOf ops t).engine.resolve c).value.1 =
      if settings.enabled = true ∧
          c.key ∈ (Op.distinctKeys (ops.take (t + 1))).take settings.capacity then
        ((h.indexAt ops s).resolve c).value
      else ((h.indexAt ops t).resolve c).value := by
  have hreset := Op.isReset_eq_false_of_call? hcall
  have hkey := Op.key?_eq_some hcall hsubject
  have hfresh : ((h.asOf ops t).engine.resolveAfresh c).value =
      ((h.indexAt ops t).resolve c).value := Engine.value_resolveAfresh _ c
  rw [take_succ_eq_concat hop]
  cases hon : settings.enabled with
  | false =>
    rw [if_neg fun hroom => by simp at hroom,
      Engine.resolve_of_disabled hsubject (htracks.settings_eq ▸ hon)]
    exact hfresh
  | true =>
    cases hfind : (h.asOf ops t).engine.cache.find? c.key with
    | some kept =>
      have hknown := htracks.mem_take_of_hit hon hfind
      have hresolved : c.key ∈ Op.resolvedKeys (ops.take t) :=
        List.mem_eraseDups.1 (List.mem_of_mem_take hknown)
      obtain ⟨s', op', c', hlt, hfirst', hop', hcall', hkey', rfl⟩ :=
        htracks.outcomes _ (Cache.mem_entries_of_find? hfind)
      -- What was kept came from the first resolution of the key, which was one of this very call.
      obtain rfl : s' = s := hfirst'.unique hfirst
      obtain rfl : c' = c := by
        refine (hsound.asOf ops t).call_eq_of_key_eq (fun ty hty => ?_) (fun ty hty => ?_) ?_
        · exact types_subset_asOf hlt.le ty
            (hlegal.types_subset hop' ty (Op.types_eq hcall' ▸ hty))
        · exact hlegal.types_subset hop ty (Op.types_eq hcall ▸ hty)
        · obtain ⟨-, -, he⟩ := Option.map_eq_some_iff.1 hkey'
          exact he
      rw [Op.distinctKeys_concat_of_mem hreset hkey hresolved, if_pos ⟨rfl, hknown⟩,
        Engine.resolve_of_hit hsubject (htracks.settings_eq ▸ hon) hfind]
      rfl
    | none =>
      rw [Engine.resolve_of_miss hsubject (htracks.settings_eq ▸ hon) hfind]
      split_ifs with hroom
      -- The key was not kept before and is among the first ones, so this is its first resolution.
      · have hnew : c.key ∉ Op.resolvedKeys (ops.take t) := by
          intro hknown
          rw [Op.distinctKeys_concat_of_mem hreset hkey hknown, ← htracks.keys hon] at hroom
          exact Cache.find?_eq_none_iff.1 hfind hroom.2
        rw [hfirst.unique (Op.firstResolved_self hop hkey hnew)]
        exact hfresh
      · exact hfresh

/-- **An outcome is that of its first resolution, or fresh.** Let a call with a subject be resolved
at time `t`, and for the first time since the last reset at time `s`. If the cache is enabled and
the key is among the first ones that it has room for, the outcome is the one on the index at `s`,
and otherwise the one on the index at `t`. So if nothing was accepted from `s` to `t`, an engine
that keeps nothing comes to the same outcome. -/
theorem outcome_by_history (settings : Settings) (tables : ℕ) (ops : List Op) (t : ℕ) (op : Op)
    (c : Call) (hlegal : (create settings tables).Legal ops) (hop : ops[t]? = some op)
    (hcall : op.call? = some c) (hsubject : c.subject.isSome = true) :
    let host := create settings tables
    let outcome := ((host.asOf ops t).engine.resolve c).value.1
    let kept := settings.cache.enabled = true ∧
      c.key ∈ (Op.distinctKeys (ops.take (t + 1))).take settings.cache.capacity
    (host.asOf ops t).answer op = op.reply outcome ∧
    ∃ s, Op.FirstResolved ops t c.key s ∧
      (kept → outcome = ((host.indexAt ops s).resolve c).value) ∧
      (¬ kept → outcome = ((host.indexAt ops t).resolve c).value) ∧
      ((∀ i op, s ≤ i → i < t → ops[i]? = some op → ((host.asOf ops i).answer op).accepted = 0) →
        ∀ uncached : Settings, uncached.cache.enabled = false →
          let other := (create uncached tables).asOf ops t
          (other.engine.resolve c).value.1 = outcome ∧
            other.answer op = (host.asOf ops t).answer op) := by
  intro host outcome kept
  have hlen : t ≤ ops.length := Nat.le_of_lt (List.getElem?_eq_some_iff.1 hop).1
  obtain ⟨s, hfirst⟩ := Op.exists_firstResolved hop (Op.key?_eq_some hcall hsubject)
  have houtcome : outcome = if kept then ((host.indexAt ops s).resolve c).value
      else ((host.indexAt ops t).resolve c).value :=
    (tracks_asOf settings tables hlen).value_resolve (sound_create settings tables) hlegal hop hcall
      hsubject hfirst
  have hanswer : (host.asOf ops t).answer op = op.reply outcome := answer_eq_of_call? hcall
  refine ⟨hanswer, s, hfirst, fun hkept => ?_, fun hkept => ?_, fun hnone uncached hoff => ?_⟩
  · rw [houtcome, if_pos hkept]
  · rw [houtcome, if_neg hkept]
  · intro other
    have hindex : host.indexAt ops t = host.indexAt ops s :=
      indexAt_eq hfirst.le fun i op hsi hit hop =>
        ⟨hfirst.kept i op hsi hit hop, hnone i op hsi hit hop⟩
    have hfresh : outcome = ((host.indexAt ops t).resolve c).value := by
      rw [houtcome, hindex, ite_self]
    have hother : (other.engine.resolve c).value.1 = ((host.indexAt ops t).resolve c).value := by
      have hapart : (host.asOf ops t).CacheApart other :=
        (cacheApart_create settings uncached tables).asOf ops t
      have hoff' : other.engine.cache.settings.enabled = false :=
        (tracks_asOf uncached tables hlen).settings_eq ▸ hoff
      rw [Engine.resolve_of_disabled hsubject hoff']
      refine (Engine.value_resolveAfresh other.engine c).trans ?_
      rw [hapart.index_eq]
      rfl
    refine ⟨hother.trans hfresh.symm, ?_⟩
    rw [hanswer, answer_eq_of_call? hcall, hother, hfresh]

/-- A class of the first table. -/
def lateClass : Ty :=
  Declaration.toTy ⟨"Cell", .reference none, []⟩ ⟨0, 1⟩

/-- A call of `show` on a value of that class. -/
def lateCall : Call :=
  ⟨"show", some lateClass, []⟩

/-- The call is resolved before and after a module arrives that has a more specific candidate. -/
def lateModule : List Op :=
  [.declare ⟨"Cell", .reference none, []⟩,
    .register ⟨[1]⟩ [⟨⟨"show", .universal 0, []⟩, Body.subject⟩],
    .resolve lateCall,
    .register ⟨[2]⟩ [⟨⟨"show", lateClass, []⟩, Body.subject⟩],
    .resolve lateCall]

/-- A module that comes late does not change what was resolved before it came. -/
theorem outcome_by_history_lateModule :
    let host := create {} 0
    let outcome := ((host.asOf lateModule 4).engine.resolve lateCall).value.1
    outcome = ((host.indexAt lateModule 2).resolve lateCall).value ∧
      outcome.matched?.map Candidate.id = some 0 ∧
      ((host.indexAt lateModule 4).resolve lateCall).value.matched?.map Candidate.id = some 1 := by
  intro host outcome
  have hclass : lateClass ∈ (host.asOf lateModule 1).types := by decide
  have hlater : ∀ t, 1 ≤ t → lateClass ∈ (host.asOf lateModule t).types := fun t ht =>
    types_subset_asOf ht lateClass hclass
  have hlegal : host.Legal lateModule := by
    refine ⟨nofun, nofun, fun ty hty => ?_, nofun, fun ty hty => ?_, trivial⟩
    · rw [List.mem_singleton.1 hty]
      exact hlater 2 (by decide)
    · rw [List.mem_singleton.1 hty]
      exact hlater 4 (by decide)
  have hself : Op.FirstResolved lateModule 2 lateCall.key 2 :=
    Op.firstResolved_self rfl rfl (by decide)
  have hfirst : Op.FirstResolved lateModule 4 lateCall.key 2 := (hself.succ rfl rfl).succ rfl rfl
  obtain ⟨-, s, hs, hkept, -⟩ :=
    outcome_by_history {} 0 lateModule 4 (.resolve lateCall) lateCall hlegal rfl rfl rfl
  obtain rfl : s = 2 := hs.unique hfirst
  exact ⟨hkept (by decide), by decide, by decide⟩

end Host

end MultiDispatch
