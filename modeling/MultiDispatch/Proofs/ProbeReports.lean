import MultiDispatch.Probe.Report
import MultiDispatch.Proofs.EntryDeclarations
import MultiDispatch.Proofs.Histories
import MultiDispatch.Proofs.ParetoFront

/-!
# What a report depends on

A report depends on the manifest and the queries, and on nothing else. Settings decide what the
cache keeps and what observers are told, and queries fill the cache, but neither can be told from an
answer: all modules are loaded before the first query, so the index stays as it is from then on, and
whatever the cache has for a key is what a fresh resolution comes to.

For this it matters that a query can name only types of the engine's own table. The key of a call
then says everything about the call, and an outcome that was kept for a key is one of that very
call.

## Main definitions

* `Engine.Faithful`: an engine whose cache keeps what a fresh resolution comes to
* `Query.refersTo`, `Query.callIn`: the names of a query and the call that it stands for
* `Probe.Alike`: probes that can differ in what their caches keep and in their settings only
* `Probe.after`: a probe after queries

## Main results

* `Engine.Faithful.resolve`: the cache makes no difference to outcomes
* `Probe.valuesOf_eq`: the values that a query stands for
* `Probe.Alike.answer_eq`, `Probe.Alike.report_eq`: alike probes answer alike
* `Probe.Alike.after`: answering queries makes no difference
* `Probe.reports_by_manifest`: what reports do not depend on
-/

namespace MultiDispatch

/-! ### Faithful engines -/

namespace Engine

variable {e : Engine} {call other : Call} {kept : Outcome}

/-- The call names types of the engine's table only. -/
def Names (e : Engine) (call : Call) : Prop :=
  ∀ ty ∈ call.types, ty ∈ e.types.types

/-- Every outcome in the cache is what a fresh resolution of its call comes to. -/
structure Faithful (e : Engine) : Prop where
  indexed : e.types.Indexed
  outcomes : ∀ entry ∈ e.cache.entries, ∃ call, e.Names call ∧ call.key = entry.1 ∧
    entry.2 = (e.registry.index.resolve call).value

/-- Among the calls that name types of one table, the key says everything. -/
theorem Faithful.call_eq_of_key_eq (h : e.Faithful) (hcall : e.Names call) (hother : e.Names other)
    (hkey : call.key = other.key) : call = other := by
  let host : Host := ⟨e, [], e.types.number + 1⟩
  have htypes : host.types = e.types.types := List.flatMap_singleton ..
  have hsound : host.Sound := by
    refine ⟨⟨List.nodup_singleton _, fun t ht => ?_⟩, fun t ht => ?_⟩
    · rw [List.mem_singleton.1 ht]
      exact h.indexed
    · rw [List.mem_singleton.1 ht]
      exact Nat.lt_succ_self _
  refine hsound.call_eq_of_key_eq (fun ty hty => ?_) (fun ty hty => ?_) hkey
  · rw [htypes]
    exact hcall ty hty
  · rw [htypes]
    exact hother ty hty

theorem Faithful.eq_of_find? (h : e.Faithful) (hcall : e.Names call)
    (hfind : e.cache.find? call.key = some kept) :
    kept = (e.registry.index.resolve call).value := by
  obtain ⟨other, hother, hkey, houtcome⟩ := h.outcomes _ (Cache.mem_entries_of_find? hfind)
  rw [h.call_eq_of_key_eq hcall hother hkey.symm]
  exact houtcome

/-- **The cache of a faithful engine makes no difference**, and the engine stays faithful. -/
theorem Faithful.resolve (h : e.Faithful) (hcall : e.Names call) :
    (e.resolve call).value.1 = (e.registry.index.resolve call).value ∧
      (e.resolve call).value.2.Faithful := by
  cases hs : call.subject with
  | none =>
    rw [resolve_of_null hs, value_resolve_of_null hs]
    exact ⟨rfl, h⟩
  | some subject =>
    have hsubject : call.subject.isSome = true := by rw [hs, Option.isSome_some]
    have hfresh := value_resolveAfresh e call
    cases hon : e.cache.settings.enabled with
    | false =>
      rw [resolve_of_disabled hsubject hon]
      exact ⟨hfresh, h⟩
    | true =>
      cases hfind : e.cache.find? call.key with
      | some kept =>
        rw [resolve_of_hit hsubject hon hfind]
        exact ⟨h.eq_of_find? hcall hfind, h.indexed, h.outcomes⟩
      | none =>
        rw [resolve_of_miss hsubject hon hfind]
        refine ⟨hfresh, h.indexed, fun entry hentry => ?_⟩
        rcases Cache.mem_entries_keep hentry with hold | hnew
        · exact h.outcomes entry hold
        · rw [hnew]
          exact ⟨call, hcall, rfl, hfresh⟩

end Engine

/-! ### The names of a query -/

namespace Query

variable {q : Query} {t : TypeTable}

/-- The names of a query that have to be those of types, in the order in which they are looked
up. -/
def refersTo (q : Query) : List String :=
  (q.subject :: q.args).filter fun n => n ≠ nullWord

/-- The type that a word of a query stands for. The word for a null stands for none, even if there
is a type of that name. -/
def typeIn (t : TypeTable) (n : String) : Option Ty :=
  if n = nullWord then none else t.get? n

/-- The call that a query stands for. -/
def callIn (q : Query) (t : TypeTable) : Call :=
  ⟨q.operation, typeIn t q.subject, q.args.map (typeIn t)⟩

/-- The value that a word of a query stands for. -/
def valueIn (t : TypeTable) (n : String) : Option Value :=
  (typeIn t n).map fun ty => ⟨ty, .unit⟩

theorem ofValues_valueIn (q : Query) (t : TypeTable) :
    Call.ofValues q.operation (valueIn t q.subject) (q.args.map (valueIn t)) = q.callIn t := by
  have htype : ∀ n, (valueIn t n).map Value.type = typeIn t n := by
    intro n
    rw [valueIn, Option.map_map]
    exact Option.map_id_apply
  rw [Call.ofValues, callIn, List.map_map, htype]
  exact congrArg _ (List.map_congr_left fun n _ => htype n)

/-- A call names types of the table only. -/
theorem mem_types_of_mem_callIn {ty : Ty} (h : ty ∈ (q.callIn t).types) : ty ∈ t.types := by
  have hpositions : (q.callIn t).positions = (q.subject :: q.args).map (typeIn t) := rfl
  rw [Call.types, List.reduceOption_mem_iff, hpositions] at h
  obtain ⟨n, -, hn⟩ := List.mem_map.1 h
  rw [typeIn] at hn
  split at hn
  · cases hn
  · exact List.mem_of_find?_eq_some hn

theorem exists_mem_refersTo_iff {P : String → Prop} :
    (∃ n ∈ q.refersTo, P n) ↔ ∃ n ∈ q.subject :: q.args, n ≠ nullWord ∧ P n := by
  simp only [refersTo, List.mem_filter, decide_eq_true_eq, and_assoc]

end Query

namespace Probe

variable {p p' : Probe} {q : Query}

theorem valueOf_eq (p : Probe) (n : String) :
    p.valueOf n = (p.engine.types.firstUnknown? ([n].filter fun n => n ≠ nullWord)).elim
      (.ok (Query.valueIn p.engine.types n)) fun missing => .error (.undeclared missing) := by
  rw [valueOf, Query.valueIn, Query.typeIn]
  by_cases hnull : n = nullWord
  · rw [if_pos hnull, if_pos hnull, hnull]
    rfl
  · have hfilter : ([n].filter fun n => n ≠ nullWord) = [n] := by simp [hnull]
    rw [if_neg hnull, if_neg hnull, hfilter]
    by_cases hknown : n ∈ p.engine.types.names
    · simp [TypeTable.get?_of_mem_names hknown, TypeTable.firstUnknown?, hknown]
    · simp [TypeTable.get?_of_notMem_names hknown, TypeTable.firstUnknown?, hknown]

/-- **The words of a query are looked up** in order, and the first that is not known is reported. -/
theorem valuesOf_eq (p : Probe) (q : Query) :
    p.valuesOf q = (p.engine.types.firstUnknown? q.refersTo).elim
      (.ok (Query.valueIn p.engine.types q.subject, q.args.map (Query.valueIn p.engine.types)))
      fun missing => .error (.undeclared missing) := by
  have hargs : (q.args.findSome? fun n =>
      p.engine.types.firstUnknown? ([n].filter fun n => n ≠ nullWord)) =
      p.engine.types.firstUnknown? (q.args.filter fun n => n ≠ nullWord) := by
    rw [← TypeTable.firstUnknown?_flatMap, ← List.filter_flatMap, List.flatMap_singleton']
  have hfirst : p.engine.types.firstUnknown? q.refersTo =
      (p.engine.types.firstUnknown? ([q.subject].filter fun n => n ≠ nullWord)).or
        (p.engine.types.firstUnknown? (q.args.filter fun n => n ≠ nullWord)) := by
    rw [Query.refersTo, ← List.singleton_append, List.filter_append]
    exact List.find?_append
  rw [valuesOf, mapM_eq_elim_findSome? p.valueOf_eq, hargs, valueOf_eq, hfirst]
  cases p.engine.types.firstUnknown? ([q.subject].filter fun n => n ≠ nullWord) with
  | some missing => rfl
  | none => cases p.engine.types.firstUnknown? (q.args.filter fun n => n ≠ nullWord) <;> rfl

/-- The words of a query stand for nulls and values of the engine's types. -/
theorem names_of_valuesOf {values : Option Value × List (Option Value)}
    (h : p.valuesOf q = .ok values) :
    p.engine.Names (.ofValues q.operation values.1 values.2) := by
  rw [valuesOf_eq] at h
  cases hmissing : p.engine.types.firstUnknown? q.refersTo with
  | some missing =>
    rw [hmissing] at h
    cases h
  | none =>
    rw [hmissing] at h
    cases h
    rw [Query.ofValues_valueIn]
    exact fun _ => Query.mem_types_of_mem_callIn

/-! ### Answers -/

/-- What a query is answered with when its call comes to an outcome. -/
def answerOf (q : Query) (subject : Option Value) (args : List (Option Value)) (outcome : Outcome) :
    Except QueryError Answer :=
  match Engine.valueOf outcome subject args with
  | .error cause => .error (.body cause)
  | .ok value => .ok ⟨Signature.callText q.operation q.subject q.args, resolved ⟨outcome, value⟩⟩

/-- An answer depends on the outcome of the call, and all that stays behind is what the engine makes
of it. -/
theorem answer_of_valuesOf {values : Option Value × List (Option Value)}
    (h : p.valuesOf q = .ok values) :
    let r := (p.engine.resolve (.ofValues q.operation values.1 values.2)).value
    p.answer q = (answerOf q values.1 values.2 r.1, { p with engine := r.2 }) := by
  obtain ⟨subject, args⟩ := values
  intro r
  rw [answer, h, answerOf]
  cases hvalue : Engine.valueOf r.1 subject args with
  | error cause =>
    have hcall : (p.engine.call q.operation subject args).value = (.error cause, r.2) :=
      congrArg (fun x => (x.map (Called.mk r.1), r.2)) hvalue
    simp only [hcall]
  | ok value =>
    have hcall : (p.engine.call q.operation subject args).value = (.ok ⟨r.1, value⟩, r.2) :=
      congrArg (fun x => (x.map (Called.mk r.1), r.2)) hvalue
    simp only [hcall]

theorem answer_of_error {error : QueryError} (h : p.valuesOf q = .error error) :
    p.answer q = (.error error, p) := by
  rw [answer, h]

/-! ### Alike probes -/

/-- Two probes of one manifest, with faithful caches. -/
structure Alike (p p' : Probe) : Prop where
  types : p'.engine.types = p.engine.types
  registry : p'.engine.registry = p.engine.registry
  loading : p'.loading = p.loading
  left : p.engine.Faithful
  right : p'.engine.Faithful

theorem Alike.symm (h : p.Alike p') : p'.Alike p :=
  ⟨h.types.symm, h.registry.symm, h.loading.symm, h.right, h.left⟩

theorem Alike.valuesOf_eq (h : p.Alike p') (q : Query) : p'.valuesOf q = p.valuesOf q := by
  have hvalueOf : p'.valueOf = p.valueOf := by
    funext name
    rw [valueOf, h.types, valueOf]
  rw [valuesOf, hvalueOf, valuesOf]

/-- **Alike probes answer alike.** -/
theorem Alike.answer_eq (h : p.Alike p') (q : Query) : (p'.answer q).1 = (p.answer q).1 := by
  have hvalues := h.valuesOf_eq q
  cases hq : p.valuesOf q with
  | error error => rw [answer_of_error hq, answer_of_error (hvalues.trans hq)]
  | ok values =>
    have hcall := names_of_valuesOf hq
    have hcall' := names_of_valuesOf (hvalues.trans hq)
    rw [answer_of_valuesOf hq, answer_of_valuesOf (hvalues.trans hq), (h.left.resolve hcall).1,
      (h.right.resolve hcall').1, h.registry]

/-- A query leaves a probe behind that is alike. -/
theorem Alike.answer (h : p.Alike p') (q : Query) : (p.answer q).2.Alike p' := by
  cases hq : p.valuesOf q with
  | error error =>
    rw [answer_of_error hq]
    exact h
  | ok values =>
    rw [answer_of_valuesOf hq]
    have hfaithful := (h.left.resolve (names_of_valuesOf hq)).2
    have hengine := Host.engine_resolve_eq p.engine (.ofValues q.operation values.1 values.2)
    rw [hengine] at hfaithful ⊢
    exact ⟨h.types, h.registry, h.loading, hfaithful, h.right⟩

/-! ### Reports -/

/-- The probe after queries, whether they have answers or not. -/
def after (p : Probe) (qs : List Query) : Probe :=
  qs.foldl (fun p q => (p.answer q).2) p

theorem Alike.after (h : p.Alike p') (qs : List Query) : (p.after qs).Alike p' := by
  induction qs generalizing p with
  | nil => exact h
  | cons q qs ih => exact ih (h.answer q)

theorem answerAll_of_error {error : QueryError} (h : (p.answer q).1 = .error error)
    (qs : List Query) : p.answerAll (q :: qs) = (.error error, (p.answer q).2) := by
  have hanswer : p.answer q = (.error error, (p.answer q).2) := Prod.ext h rfl
  rw [answerAll, hanswer]

theorem answerAll_of_ok {a : Answer} (h : (p.answer q).1 = .ok a) (qs : List Query) :
    p.answerAll (q :: qs) =
      (((p.answer q).2.answerAll qs).1.map (a :: ·), ((p.answer q).2.answerAll qs).2) := by
  have hanswer : p.answer q = (.ok a, (p.answer q).2) := Prod.ext h rfl
  rw [answerAll, hanswer]
  dsimp only
  obtain ⟨error | answers, left⟩ := (p.answer q).2.answerAll qs <;> rfl

/-- A run of queries leaves behind what they do one by one, up to the first that has no answer. -/
theorem exists_answerAll_eq_after (p : Probe) (qs : List Query) :
    ∃ n, (p.answerAll qs).2 = p.after (qs.take n) := by
  induction qs generalizing p with
  | nil => exact ⟨0, rfl⟩
  | cons q qs ih =>
    cases h : (p.answer q).1 with
    | error error => exact ⟨1, congrArg Prod.snd (answerAll_of_error h qs)⟩
    | ok a =>
      obtain ⟨n, hn⟩ := ih (p.answer q).2
      exact ⟨n + 1, (congrArg Prod.snd (answerAll_of_ok h qs)).trans hn⟩

theorem Alike.answerAll_eq (h : p.Alike p') (qs : List Query) :
    (p'.answerAll qs).1 = (p.answerAll qs).1 := by
  induction qs generalizing p p' with
  | nil => rfl
  | cons q qs ih =>
    have hanswer := h.answer_eq q
    cases hq : (p.answer q).1 with
    | error error => rw [answerAll_of_error hq, answerAll_of_error (hanswer.trans hq)]
    | ok a =>
      rw [answerAll_of_ok hq, answerAll_of_ok (hanswer.trans hq),
        ih ((h.answer q).symm.answer q).symm]

theorem report_eq (p : Probe) (qs : List Query) :
    p.report qs = ((p.answerAll qs).1.map fun answers =>
      ⟨(p.answerAll qs).2.engine.counts.modules, (p.answerAll qs).2.loading.accepted,
        (p.answerAll qs).2.loading.diagnostics.map RegistrationError.message, answers⟩,
      (p.answerAll qs).2) := by
  rw [report]
  obtain ⟨error | answers, left⟩ := p.answerAll qs <;> rfl

theorem Alike.answerAll (h : p.Alike p') (qs : List Query) : (p.answerAll qs).2.Alike p' := by
  obtain ⟨n, hn⟩ := p.exists_answerAll_eq_after qs
  rw [hn]
  exact h.after (qs.take n)

/-- **Alike probes report alike.** -/
theorem Alike.report_eq (h : p.Alike p') (qs : List Query) :
    (p'.report qs).1 = (p.report qs).1 := by
  have hleft : (p.answerAll qs).2.Alike (p'.answerAll qs).2 :=
    ((h.answerAll qs).symm.answerAll qs).symm
  have hmodules : (p'.answerAll qs).2.engine.counts.modules =
      (p.answerAll qs).2.engine.counts.modules := congrArg Registry.size hleft.registry
  rw [Probe.report_eq, Probe.report_eq, h.answerAll_eq qs, hmodules, hleft.loading]

/-- What a report says of the modules. -/
theorem Alike.report_fields (h : p.Alike p') {qs : List Query} {r : Report}
    (hr : (p.report qs).1 = .ok r) :
    r.modules = p'.engine.counts.modules ∧ r.candidates = p'.loading.accepted ∧
      r.diagnostics = p'.loading.diagnostics.map RegistrationError.message := by
  have hleft := h.answerAll qs
  rw [Probe.report_eq] at hr
  obtain ⟨answers, -, rfl⟩ := except_map_eq_ok_iff.1 hr
  rw [hleft.loading]
  exact ⟨(congrArg Registry.size hleft.registry).symm, rfl, rfl⟩

end Probe

/-! ### Building -/

namespace Probe

variable {m : Manifest} {settings : Option Settings} {p : Probe}

/-- The probe with a manifest's types and label, once its modules are loaded. -/
def loaded (settings : Settings) (types : TypeTable) (sources : List Source) : Probe :=
  let r := ((Engine.ofTypes settings types).loadMany sources).value
  ⟨r.2, r.1⟩

theorem ofManifest_eq (m : Manifest) (settings : Option Settings) :
    ofManifest m settings = (m.universe (.create 0)).map fun r =>
      loaded (settings.getD m.engine) r.2 (m.modules.map (·.source r.1)) := by
  rw [ofManifest]
  obtain error | r := m.universe (.create 0) <;> rfl

theorem faithful_loaded (settings : Settings) {types : TypeTable} (hindexed : types.Indexed)
    (sources : List Source) : (loaded settings types sources).engine.Faithful := by
  have hgrown := (Engine.ofTypes settings types).grown_loadMany sources
  refine ⟨hgrown.types.indexed hindexed, fun entry hentry => ?_⟩
  have hcache : (loaded settings types sources).engine.cache = .create settings.cache :=
    hgrown.cache
  rw [hcache] at hentry
  cases hentry

/-- Loading does not depend on the settings. -/
theorem alike_loaded (settings settings' : Settings) {types : TypeTable}
    (hindexed : types.Indexed) (sources : List Source) :
    (loaded settings types sources).Alike (loaded settings' types sources) := by
  have hload : ((Engine.ofTypes settings' types).loadMany sources).value = _ :=
    congrArg Traced.value (Engine.loadMany_withCache (.create settings'.cache) settings'
      (Engine.ofTypes settings types) sources)
  refine ⟨?_, ?_, ?_, faithful_loaded settings hindexed sources,
    faithful_loaded settings' hindexed sources⟩ <;>
  · rw [loaded, hload]
    rfl

/-- A probe is built by filling an engine over the manifest's types. -/
theorem exists_loaded_of_ofManifest (h : ofManifest m settings = .ok p) :
    ∃ label t, m.universe (.create 0) = .ok (label, t) ∧
      p = loaded (settings.getD m.engine) t (m.modules.map (·.source label)) := by
  rw [ofManifest_eq] at h
  cases huniverse : m.universe (.create 0) with
  | error error =>
    rw [huniverse] at h
    cases h
  | ok r =>
    rw [huniverse] at h
    exact ⟨r.1, r.2, rfl, (Except.ok.inj h).symm⟩

theorem exists_ofManifest (h : (m.universe (.create 0)).toOption.isSome = true) :
    ∃ p, ofManifest m settings = .ok p := by
  rw [ofManifest_eq]
  cases huniverse : m.universe (.create 0) with
  | ok r => exact ⟨_, rfl⟩
  | error error =>
    rw [huniverse] at h
    cases h

/-- **Reports depend on the manifest and the queries only.** Whatever the settings: either no probe
can be built, for the same reason, or the probes that are built answer every query alike and give
the same reports, errors included. It makes no difference which queries were answered before, how
often and in which order, nor whether a list of queries was run before. -/
theorem reports_by_manifest (m : Manifest) (settings settings' : Option Settings) :
    (∃ error, ofManifest m settings = .error error ∧ ofManifest m settings' = .error error) ∨
    ∃ p p', ofManifest m settings = .ok p ∧ ofManifest m settings' = .ok p' ∧
      ∀ before before' : List Query,
        (∀ q, ((p.after before).answer q).1 = ((p'.after before').answer q).1) ∧
        (∀ qs, ((p.after before).report qs).1 = ((p'.after before').report qs).1) ∧
        ∀ first qs,
          (((p.after before).report first).2.report qs).1 = ((p'.after before').report qs).1 := by
  rw [ofManifest_eq, ofManifest_eq]
  cases huniverse : m.universe (.create 0) with
  | error error => exact .inl ⟨error, rfl, rfl⟩
  | ok r =>
    obtain ⟨label, types⟩ := r
    have hindexed : types.Indexed :=
      (Manifest.later_universe huniverse).indexed (TypeTable.indexed_create 0)
    have halike := alike_loaded (settings.getD m.engine) (settings'.getD m.engine) hindexed
      (m.modules.map (·.source label))
    refine .inr ⟨_, _, rfl, rfl, fun before before' => ?_⟩
    have hafter := ((halike.after before).symm.after before').symm
    refine ⟨fun q => (hafter.answer_eq q).symm, fun qs => (hafter.report_eq qs).symm,
      fun first qs => ?_⟩
    have hfirst := (hafter.answerAll first).report_eq qs
    rw [Probe.report_eq _ first]
    exact hfirst.symm

/-- A query that is put twice, and what the cache counts with room for so many outcomes. Counts do
tell settings apart, and are in no report. -/
example :
    let m : Manifest := ⟨{}, [⟨"Beam", .reference, none, []⟩], [], []⟩
    let q : Query := ⟨"area", "Beam", []⟩
    let counts (capacity : ℕ) := (ofManifest m (some ⟨⟨true, capacity⟩, true⟩)).toOption.map
      fun p => (p.report [q, q]).2.engine.cache.counts
    counts 0 = some ⟨0, 0, 2⟩ ∧ counts 1 = some ⟨1, 1, 1⟩ := by
  cbv

end Probe

end MultiDispatch
