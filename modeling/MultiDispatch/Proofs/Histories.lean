import Mathlib.Data.List.ReduceOption
import Mathlib.Data.Nat.Init
import MultiDispatch.Proofs.Host

/-!
# Histories of a host

What is true of a host after any list of operations. Tables only grow and never share a number, so
an identifier stands for one type through the whole history, and a key for one call. Types, modules
and tables take the same course whatever the cache does, so that a history can be compared with the
one in which nothing is kept.

## Main definitions

* `Host.asOf`, `Host.indexAt`: the state and the index before the operation at a time
* `Host.Sound`: tables numbered apart, with places for identifiers
* `Host.CacheApart`: hosts that differ in the cache and the settings at most

## Main results

* `Host.Sound.after`: soundness is kept
* `Host.Sound.call_eq_of_key_eq`: calls that a host can make are told apart by their keys
* `Host.CacheApart.asOf`: types and modules do not depend on the cache
* `Host.bucket_grows_asOf`: between resets buckets grow at their ends
* `Host.indexAt_eq`: as long as nothing is accepted the index stays as it is
-/

namespace MultiDispatch

namespace Host

variable {h h' : Host} {op : Op} {ops : List Op} {c d : Call} {s t : ℕ}

/-! ### Time -/

/-- The host before the operation at time `t` of a history. -/
def asOf (h : Host) (ops : List Op) (t : ℕ) : Host :=
  h.after (ops.take t)

/-- The index at time `t` of a history. -/
def indexAt (h : Host) (ops : List Op) (t : ℕ) : CandidateIndex :=
  (h.asOf ops t).engine.registry.index

theorem take_succ_eq_concat (hop : ops[t]? = some op) : ops.take (t + 1) = ops.take t ++ [op] := by
  rw [List.take_add_one, hop, Option.toList_some]

theorem asOf_succ (hop : ops[t]? = some op) : h.asOf ops (t + 1) = (h.asOf ops t).next op := by
  rw [asOf, take_succ_eq_concat hop, after_concat]
  rfl

theorem asOf_length (h : Host) (ops : List Op) : h.asOf ops ops.length = h.after ops := by
  rw [asOf, List.take_length]

theorem asOf_concat (h : Host) (ops : List Op) (op : Op) :
    h.asOf (ops ++ [op]) ops.length = h.after ops := by
  rw [asOf, List.take_left]

theorem asOf_succ_of_none (hop : ops[t]? = none) : h.asOf ops (t + 1) = h.asOf ops t := by
  rw [asOf, List.take_add_one, hop, Option.toList_none, List.append_nil]
  rfl

/-- What every operation of a span keeps is kept over the span. -/
theorem asOf_induction {P : Host → Prop} (hst : s ≤ t) (hstart : P (h.asOf ops s))
    (hstep : ∀ i op, s ≤ i → i < t → ops[i]? = some op → P (h.asOf ops i) →
      P ((h.asOf ops i).next op)) : P (h.asOf ops t) := by
  induction t, hst using Nat.le_induction with
  | base => exact hstart
  | succ t hst ih =>
    have ht := ih fun i op hi hit => hstep i op hi (Nat.lt_succ_of_lt hit)
    cases hop : ops[t]? with
    | none =>
      rw [asOf_succ_of_none hop]
      exact ht
    | some op =>
      rw [asOf_succ hop]
      exact hstep t op hst (Nat.lt_succ_self t) hop ht

/-! ### Types and calls -/

/-- Tables have numbers of their own, below that of the next one, and places for identifiers. -/
structure Sound (h : Host) : Prop where
  distinct : DistinctTables h.allTables
  below : ∀ t ∈ h.allTables, t.number < h.nextTable

theorem sound_create (settings : Settings) (tables : ℕ) : (create settings tables).Sound := by
  have hall : (create settings tables).allTables =
      .create tables :: (List.range tables).map .create := rfl
  have hnumbers : (create settings tables).allTables.map TypeTable.number =
      tables :: List.range tables := by
    rw [hall, List.map_cons, List.map_map]
    exact congrArg _ (List.map_id _)
  refine ⟨⟨?_, fun t ht => ?_⟩, fun t ht => ?_⟩
  · rw [hnumbers]
    exact List.nodup_cons.2 ⟨List.not_mem_range_self, List.nodup_range⟩
  · rw [hall, List.mem_cons, List.mem_map] at ht
    rcases ht with rfl | ⟨n, -, rfl⟩
    · exact TypeTable.indexed_create tables
    · exact TypeTable.indexed_create n
  · have hmem : t.number ∈ tables :: List.range tables := hnumbers ▸ List.mem_map_of_mem ht
    rw [List.mem_cons, List.mem_range] at hmem
    change t.number < tables + 1
    omega

theorem Sound.next (hsound : h.Sound) (op : Op) : (h.next op).Sound := by
  rcases h.allTables_next op with ⟨hlater, hnumber⟩ | ⟨htables, hnumber⟩
  · refine ⟨hsound.distinct.later hlater, ?_⟩
    rw [hnumber]
    exact number_lt_of_later hlater hsound.below
  · obtain ⟨hdistinct, hbelow⟩ := hsound.distinct.concat_of_lt hsound.below
    rw [← htables] at hdistinct hbelow
    exact ⟨hdistinct, hnumber ▸ hbelow⟩

/-- In every state types are told apart by their identifiers. -/
theorem Sound.asOf (hsound : h.Sound) (ops : List Op) (t : ℕ) : (h.asOf ops t).Sound :=
  asOf_induction (Nat.zero_le t) hsound fun _ op _ _ _ hi => hi.next op

theorem types_subset_next (h : Host) (op : Op) : ∀ ty ∈ h.types, ty ∈ (h.next op).types := by
  rcases h.allTables_next op with ⟨hlater, -⟩ | ⟨htables, -⟩
  · exact types_subset_of_later hlater
  · intro ty hty
    rw [types, htables, List.flatMap_append]
    exact List.mem_append_left _ hty

theorem types_subset_asOf (hst : s ≤ t) :
    ∀ ty ∈ (h.asOf ops s).types, ty ∈ (h.asOf ops t).types := fun ty hty =>
  asOf_induction (P := fun h => ty ∈ h.types) hst hty fun _ op _ _ _ hi =>
    types_subset_next _ op ty hi

theorem Legal.types_subset (hlegal : h.Legal ops) (hop : ops[t]? = some op) :
    ∀ ty ∈ op.types, ty ∈ (h.asOf ops t).types := by
  induction ops generalizing h t with
  | nil => cases hop
  | cons first rest ih =>
    cases t with
    | zero =>
      obtain rfl : first = op := by simpa using hop
      exact hlegal.1
    | succ t => exact ih hlegal.2 hop

theorem Legal.concat (hlegal : h.Legal ops) (hop : ∀ ty ∈ op.types, ty ∈ (h.after ops).types) :
    h.Legal (ops ++ [op]) := by
  induction ops generalizing h with
  | nil => exact ⟨hop, trivial⟩
  | cons first rest ih => exact ⟨hlegal.1, ih hlegal.2 hop⟩

theorem eq_of_map_id_eq {xs ys : List (Option Ty)}
    (hinj : ∀ a b, some a ∈ xs → some b ∈ ys → a.id = b.id → a = b)
    (heq : xs.map (·.map Ty.id) = ys.map (·.map Ty.id)) : xs = ys := by
  refine eq_of_map_eq (fun x hx y hy hid => ?_) heq
  cases x with
  | none => rw [Option.map_eq_none_iff.1 hid.symm]
  | some a =>
    obtain ⟨b, rfl, hba⟩ := Option.map_eq_some_iff.1 hid.symm
    rw [hinj a b hx hy hba.symm]

/-- **A key stands for one call.** It keeps only identifiers, but of types that a host has these say
everything. -/
theorem Sound.call_eq_of_key_eq (hsound : h.Sound) (hc : ∀ ty ∈ c.types, ty ∈ h.types)
    (hd : ∀ ty ∈ d.types, ty ∈ h.types) (hkey : c.key = d.key) : c = d := by
  rw [Call.key, Call.key, CallKey.mk.injEq] at hkey
  have hpositions : c.positions = d.positions := by
    refine eq_of_map_id_eq (fun a b ha hb => hsound.distinct.eq_of_id_eq
      (hc a (List.reduceOption_mem_iff.2 ha)) (hd b (List.reduceOption_mem_iff.2 hb))) ?_
    rw [Call.positions, Call.positions, List.map_cons, List.map_cons, hkey.2.1, hkey.2.2]
  rw [Call.positions, Call.positions, List.cons.injEq] at hpositions
  obtain ⟨operation, subject, args⟩ := c
  obtain ⟨operation', subject', args'⟩ := d
  obtain ⟨rfl, rfl⟩ := hpositions
  obtain rfl : operation = operation' := hkey.1
  rfl

/-! ### Modules -/

/-- Only resetting does more to the registry than register. -/
theorem later_registry_next (hreset : op.isReset = false) :
    h.engine.registry.Later (h.next op).engine.registry := by
  cases hcall : op.call? with
  | some c =>
    rw [next_eq_of_call? hcall, engine_resolve_eq]
    exact .refl
  | none => exact (grown_next hcall hreset).registry

/-- The index holds what the registered modules contributed, in every state. -/
theorem consistent_asOf (hstart : h.engine.registry.Consistent) (ops : List Op) (t : ℕ) :
    (h.asOf ops t).engine.registry.Consistent := by
  refine asOf_induction (P := fun h => h.engine.registry.Consistent) (Nat.zero_le t) hstart
    fun i op _ _ _ hi => ?_
  cases hreset : op.isReset with
  | false => exact (later_registry_next hreset).consistent hi
  | true =>
    obtain rfl := Op.eq_reset hreset
    exact Registry.consistent_of_modules_eq_nil

/-- What is in a bucket stays in it until the engine is reset. -/
theorem bucket_grows_asOf (hst : s ≤ t)
    (hkept : ∀ i op, s ≤ i → i < t → ops[i]? = some op → op.isReset = false)
    (operation : String) (arity : ℕ) :
    (h.indexAt ops s).bucket operation arity <+: (h.indexAt ops t).bucket operation arity :=
  asOf_induction (P := fun h' => (h.indexAt ops s).bucket operation arity <+:
      h'.engine.registry.index.bucket operation arity) hst List.prefix_rfl
    fun i op hsi hit hop hi =>
      hi.trans (later_registry_next (hkept i op hsi hit hop)).bucket_grows

theorem index_next_of_accepted_eq_zero (hreset : op.isReset = false)
    (haccepted : (h.answer op).accepted = 0) :
    (h.next op).engine.registry.index = h.engine.registry.index := by
  cases hregisters : op.registers with
  | false => rw [(registry_next_of_not_registers hregisters hreset).1]
  | true =>
    cases op with
    | register module batch => exact Registry.index_register_of_accepted_eq_zero haccepted
    | registerResult module extracted =>
      exact Registry.index_registerResult_of_accepted_eq_zero haccepted
    | load source => exact Engine.index_load_of_accepted_eq_zero haccepted
    | loadMany sources => exact Engine.index_loadMany_of_accepted_eq_zero haccepted
    | _ => cases hregisters

/-- As long as nothing is accepted, and nothing is forgotten, the index stays as it is. -/
theorem indexAt_eq (hst : s ≤ t)
    (hkept : ∀ i op, s ≤ i → i < t → ops[i]? = some op →
      op.isReset = false ∧ ((h.asOf ops i).answer op).accepted = 0) :
    h.indexAt ops t = h.indexAt ops s := by
  refine asOf_induction (P := fun h' => h'.engine.registry.index = h.indexAt ops s) hst rfl
    fun i op hsi hit hop hi => ?_
  obtain ⟨hreset, haccepted⟩ := hkept i op hsi hit hop
  rw [index_next_of_accepted_eq_zero hreset haccepted, hi]

/-! ### The cache -/

/-- The host with another cache and other settings. -/
def withCache (h : Host) (cache : Cache) (settings : Settings) : Host :=
  { h with engine := h.engine.withCache cache settings }

section

variable (cache : Cache) (settings : Settings)

theorem declare_withCache (d : Declaration) :
    ((h.withCache cache settings).declare d).2 = (h.declare d).2.withCache cache settings := by
  rw [declare_eq, declare_eq,
    show (h.withCache cache settings).engine.types = h.engine.types from rfl]
  cases h.engine.types.declare d <;> rfl

theorem declareIn_withCache (place : ℕ) (d : Declaration) :
    ((h.withCache cache settings).declareIn place d).2 =
      (h.declareIn place d).2.withCache cache settings := by
  rw [declareIn, declareIn, show (h.withCache cache settings).tables = h.tables from rfl]
  cases h.tables[place]? with
  | none => rfl
  | some t =>
    cases ht : t.declare d with
    | ok result =>
      simp only [ht]
      rfl
    | error error => simp only [ht]

/-- An operation that neither resolves a call nor resets the engine neither reads nor changes the
cache and the settings. -/
theorem next_withCache (hcall : op.call? = none) (hreset : op.isReset = false) :
    (h.withCache cache settings).next op = (h.next op).withCache cache settings := by
  -- All operations on the engine that remain are of one form.
  have hengine : ∀ {α : Type} {answer : α → Answer} {x y : Traced (α × Engine)},
      y = (x >>= fun r => pure (r.1, r.2.withCache cache settings)) →
      ((h.withCache cache settings).withEngine answer y).value.2 =
        (h.withEngine answer x).value.2.withCache cache settings := by
    rintro α answer x y rfl
    rfl
  cases op with
  | declare d => exact declare_withCache cache settings d
  | declareIn place d => exact declareIn_withCache cache settings place d
  | register module batch => exact hengine (Engine.register_withCache ..)
  | registerResult module extracted => exact hengine (Engine.registerResult_withCache ..)
  | load source => exact hengine (Engine.load_withCache ..)
  | loadMany sources => exact hengine (Engine.loadMany_withCache ..)
  | openTable => rfl
  | dispatch c => rfl
  | candidates operation => rfl
  | candidatesOf module => rfl
  | counts => rfl
  | reset => cases hreset
  | resolve c => cases hcall
  | resolveValues operation subject args => cases hcall
  | call operation subject args => cases hcall
  | callValue operation subject args => cases hcall
  | isCallable operation subject args => cases hcall

end

/-- Two hosts that differ in the cache and the settings at most. -/
def CacheApart (h h' : Host) : Prop :=
  ∃ cache settings, h' = h.withCache cache settings

theorem cacheApart_create (settings settings' : Settings) (tables : ℕ) :
    (create settings tables).CacheApart (create settings' tables) :=
  ⟨.create settings'.cache, settings', rfl⟩

theorem CacheApart.index_eq (hapart : h.CacheApart h') :
    h'.engine.registry.index = h.engine.registry.index := by
  obtain ⟨cache, settings, rfl⟩ := hapart
  rfl

theorem CacheApart.next (hapart : h.CacheApart h') (op : Op) :
    (h.next op).CacheApart (h'.next op) := by
  obtain ⟨cache, settings, rfl⟩ := hapart
  cases hcall : op.call? with
  | some c =>
    rw [next_eq_of_call? hcall, next_eq_of_call? hcall, engine_resolve_eq h.engine,
      engine_resolve_eq (h.withCache cache settings).engine]
    exact ⟨_, settings, rfl⟩
  | none =>
    cases hreset : op.isReset with
    | false => exact ⟨cache, settings, next_withCache cache settings hcall hreset⟩
    | true =>
      obtain rfl := Op.eq_reset hreset
      exact ⟨cache.clear, settings, rfl⟩

/-- **What the cache does is without influence on types and modules.** -/
theorem CacheApart.asOf (hapart : h.CacheApart h') (ops : List Op) (t : ℕ) :
    (h.asOf ops t).CacheApart (h'.asOf ops t) := by
  induction t with
  | zero => exact hapart
  | succ t ih =>
    cases hop : ops[t]? with
    | none =>
      rw [asOf_succ_of_none hop, asOf_succ_of_none hop]
      exact ih
    | some op =>
      rw [asOf_succ hop, asOf_succ hop]
      exact ih.next op

end Host

end MultiDispatch
