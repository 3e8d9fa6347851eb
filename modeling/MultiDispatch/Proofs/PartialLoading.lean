import Mathlib.Data.List.TakeDrop
import MultiDispatch.Proofs.Holdings
import MultiDispatch.Proofs.Reregistration

/-!
# Loading sources some of which fail

Sources are loaded one after the other, and those that fail do not keep the others from being
loaded. But the others do notice: a source is passed over if an earlier one for its module was read,
is read if all earlier ones failed, and finds the types in place that these declared before they
failed. So what becomes of a source is a matter of all sources before it.

It is described by the engine at the turn of the source. There are three cases, whatever the engine:
the source is passed over, fails, or is registered. All that is shown here follows from what these
do to the engine. A source that fails can only leave types behind; if it leaves none, the engine is
what it was, and the source might as well have been left out.

## Main definitions

* `Engine.atTurn`: the engine when the turn of a source comes
* `Engine.Reads`: a source is read and yields a batch
* `Engine.Turn`: what becomes of one source
* `Registry.Extends`: a registry with more candidates
* `keptPlaces`: the entries of a list at some places

## Main results

* `Engine.load_cases`: what loading one source can do
* `Engine.isRegistered_atTurn`: which modules are registered at the turn of a source
* `Engine.extends_loadMany`: what loading adds to the index
* `Engine.loadMany_keptPlaces`: sources without effect may be left out
* `Engine.partial_loading`: what becomes of all sources
-/

namespace MultiDispatch

/-! ### Some places of a list -/

/-- The entries of a list at the places that are kept. -/
def keptPlaces {α : Type} (keep : ℕ → Bool) (xs : List α) : List α :=
  (xs.zipIdx.filter fun p => keep p.2).map Prod.fst

theorem keptPlaces_cons {α : Type} (keep : ℕ → Bool) (x : α) (xs : List α) :
    keptPlaces keep (x :: xs) =
      if keep 0 then x :: keptPlaces (fun i => keep (i + 1)) xs
      else keptPlaces (fun i => keep (i + 1)) xs := by
  rw [keptPlaces, List.zipIdx_cons', List.filter_cons, List.filter_map]
  split <;> simp [keptPlaces, Function.comp_def]

/-! ### Registries with more candidates -/

namespace Registry

variable {r r' r'' : Registry} {xs ys : List Implementation}

/-- `r'` is `r` with candidates of the given implementations, numbered and indexed in order. -/
structure Extends (r : Registry) (xs : List Implementation) (r' : Registry) : Prop where
  buckets : ∀ operation arity, r'.index.bucket operation arity =
    r.index.bucket operation arity ++
      (number r.issued xs).filter (Candidate.belongs operation arity)
  issued : r'.issued = r.issued + xs.length
  size : r'.index.size = r.index.size + xs.length

theorem Extends.refl (r : Registry) : r.Extends [] r :=
  ⟨fun _ _ => (List.append_nil _).symm, rfl, rfl⟩

theorem Extends.trans (h : r.Extends xs r') (h' : r'.Extends ys r'') :
    r.Extends (xs ++ ys) r'' := by
  refine ⟨fun operation arity => ?_, ?_, ?_⟩
  · rw [h'.buckets, h.buckets, h.issued, number_append, List.filter_append, List.append_assoc]
  · rw [h'.issued, h.issued, List.length_append, Nat.add_assoc]
  · rw [h'.size, h.size, List.length_append, Nat.add_assoc]

theorem extends_publish (r : Registry) (module : ModuleId) (xs : List Implementation) :
    r.Extends xs (r.publish module (number r.issued xs)) := by
  refine ⟨fun operation arity => ?_, ?_, ?_⟩
  · exact CandidateIndex.bucket_publishAll _ _
  · rw [publish, length_number]
  · rw [publish, CandidateIndex.size_publishAll, length_number]

end Registry

namespace Engine

variable {e : Engine} {source : Source} {sources : List Source} {i : ℕ}

/-! ### One source -/

/-- The extraction of a source is run and yields a batch. -/
def Reads (e : Engine) (source : Source) : Prop :=
  e.registry.isRegistered source.module = false ∧
    ∃ batch, (source.extraction.run e.types).1 = .ok batch

/-- The engine after a source was read that yielded this batch. -/
def afterReading (e : Engine) (source : Source) (batch : List Implementation) : Engine where
  types := (source.extraction.run e.types).2
  registry := e.registry.publish source.module (number e.registry.issued (screen batch).1)
  cache := e.cache
  settings := e.settings

theorem value_load_of_error {error : RegistrationError}
    (h : e.registry.isRegistered source.module = false)
    (hrun : (source.extraction.run e.types).1 = .error error) :
    (e.load source).value =
      (.failed error, { e with types := (source.extraction.run e.types).2 }) := by
  rw [load_of_unregistered h, hrun]
  rfl

theorem value_load_of_ok {batch : List Implementation}
    (h : e.registry.isRegistered source.module = false)
    (hrun : (source.extraction.run e.types).1 = .ok batch) :
    (e.load source).value =
      (Registry.resultOf (screen batch).1.length (screen batch).2,
        e.afterReading source batch) := by
  rw [load_of_unregistered h, hrun]
  exact value_register_of_new (e := { e with types := (source.extraction.run e.types).2 }) h batch

/-- A source is passed over, or fails, or is registered. -/
theorem load_cases (e : Engine) (source : Source) :
    e.registry.isRegistered source.module = true ∨
      (e.registry.isRegistered source.module = false ∧
        ∃ error, (source.extraction.run e.types).1 = .error error) ∨
      e.Reads source := by
  cases h : e.registry.isRegistered source.module with
  | true => exact .inl rfl
  | false =>
    cases hrun : (source.extraction.run e.types).1 with
    | error error => exact .inr (.inl ⟨rfl, error, rfl⟩)
    | ok batch => exact .inr (.inr ⟨h, batch, hrun⟩)

/-- Only a source that is read registers its module. -/
theorem isRegistered_load {module : ModuleId} :
    (e.load source).value.2.registry.isRegistered module = true ↔
      e.registry.isRegistered module = true ∨ source.module = module ∧ e.Reads source := by
  rcases e.load_cases source with hold | ⟨hnew, error, hrun⟩ | ⟨hnew, batch, hrun⟩
  · simp [load_of_registered hold, Reads, hold]
  · rw [value_load_of_error hnew hrun]
    simp [Reads, hrun]
  · rw [value_load_of_ok hnew hrun, afterReading, Registry.isRegistered_publish]
    simp [Reads, hnew, hrun]

/-- The implementations that are accepted of sources loaded one after the other. -/
def acceptedOf (e : Engine) (sources : List Source) : List Implementation :=
  (e.offersOfEach sources).flatMap Offer.accepted

theorem extends_load (e : Engine) (source : Source) :
    e.registry.Extends ((e.offersOf source).flatMap Offer.accepted)
      (e.load source).value.2.registry := by
  rcases e.load_cases source with hold | ⟨hnew, error, hrun⟩ | ⟨hnew, batch, hrun⟩
  · rw [load_of_registered hold, offersOf, if_pos hold]
    exact .refl e.registry
  · rw [value_load_of_error hnew hrun, offersOf, hnew, hrun]
    exact .refl e.registry
  · rw [value_load_of_ok hnew hrun, offersOf, hnew, hrun, if_neg Bool.false_ne_true,
      offersOfResult, List.flatMap_singleton]
    exact e.registry.extends_publish source.module (screen batch).1

/-- **What loading adds to the index** is what is accepted of the sources that are read. -/
theorem extends_loadMany (e : Engine) (sources : List Source) :
    e.registry.Extends (e.acceptedOf sources) (e.loadMany sources).value.2.registry := by
  induction sources generalizing e with
  | nil =>
    rw [value_loadMany]
    exact .refl e.registry
  | cons source rest ih =>
    rw [value_loadMany_cons, acceptedOf, offersOfEach, List.flatMap_append]
    exact (e.extends_load source).trans (ih _)

/-! ### The turns of the sources -/

/-- The engine when the turn of the source at place `i` comes. -/
def atTurn (e : Engine) (sources : List Source) (i : ℕ) : Engine :=
  (e.loadMany (sources.take i)).value.2

theorem atTurn_zero (e : Engine) (sources : List Source) : e.atTurn sources 0 = e := by
  rw [atTurn, List.take_zero, value_loadMany]
  rfl

theorem atTurn_cons (e : Engine) (source : Source) (rest : List Source) (i : ℕ) :
    e.atTurn (source :: rest) (i + 1) = (e.load source).value.2.atTurn rest i := by
  rw [atTurn, List.take_succ_cons, value_loadMany_cons, atTurn]

theorem atTurn_succ (h : sources[i]? = some source) :
    e.atTurn sources (i + 1) = ((e.atTurn sources i).load source).value.2 := by
  induction sources generalizing e i with
  | nil => simp at h
  | cons first rest ih =>
    cases i with
    | zero =>
      obtain rfl : first = source := by simpa using h
      rw [atTurn_cons, atTurn_zero, atTurn_zero]
    | succ i => rw [atTurn_cons, atTurn_cons, ih (by simpa using h)]

/-- Each source is answered for at its place, under its module. -/
theorem results_loadMany (h : sources[i]? = some source) :
    (e.loadMany sources).value.1.results[i]? =
      some (source.module, ((e.atTurn sources i).load source).value.1) := by
  induction sources generalizing e i with
  | nil => simp at h
  | cons first rest ih =>
    rw [value_loadMany_cons]
    cases i with
    | zero =>
      obtain rfl : first = source := by simpa using h
      rw [atTurn_zero]
      rfl
    | succ i =>
      rw [List.getElem?_cons_succ, atTurn_cons, ih (by simpa using h)]

theorem map_module_results (e : Engine) (sources : List Source) :
    (e.loadMany sources).value.1.results.map Prod.fst = sources.map Source.module := by
  induction sources generalizing e with
  | nil =>
    rw [value_loadMany]
    rfl
  | cons source rest ih => rw [value_loadMany_cons, List.map_cons, ih, List.map_cons]

theorem grown_atTurn (e : Engine) (sources : List Source) (i : ℕ) :
    (e.atTurn sources i).Grown (e.loadMany sources).value.2 := by
  have hsplit := e.value_loadMany_append (sources.take i) (sources.drop i)
  rw [List.take_append_drop] at hsplit
  rw [hsplit]
  exact grown_loadMany _ _

/-- The module was registered before, or a source for it was read at an earlier turn. -/
def Seen (e : Engine) (sources : List Source) (i : ℕ) (module : ModuleId) : Prop :=
  e.registry.isRegistered module = true ∨ ∃ j < i, ∃ earlier, sources[j]? = some earlier ∧
    earlier.module = module ∧ (e.atTurn sources j).Reads earlier

/-- **Which modules are registered when the turn of a source comes.** -/
theorem isRegistered_atTurn {module : ModuleId} (hi : i ≤ sources.length) :
    (e.atTurn sources i).registry.isRegistered module = true ↔ e.Seen sources i module := by
  induction i with
  | zero => simp [atTurn_zero, Seen]
  | succ i ih =>
    have hsource : sources[i]? = some sources[i] := List.getElem?_eq_getElem hi
    rw [atTurn_succ hsource, isRegistered_load, ih (Nat.le_of_succ_le hi), Seen, Seen,
      Nat.exists_lt_succ_right, or_assoc, hsource]
    simp

/-- What becomes of one source, by the engine at its turn, the next one and the final one. `seen`
says that its module was registered before or by an earlier source. Then it is passed over whatever
its extraction is. If it fails, nothing is left of it but the types it declared. -/
structure Turn (seen : Prop) (now next final : Engine) (source : Source)
    (result : Registration) : Prop where
  repeated_iff : result = .alreadyRegistered ↔ seen
  of_repeated : seen →
    next = now ∧ ∀ x, now.load ⟨source.module, x⟩ = pure (.alreadyRegistered, now)
  failed_iff : result.isFailed = true ↔
    ¬ seen ∧ ∃ error, (source.extraction.run now.types).1 = .error error
  of_failed : ¬ seen → ∀ error, (source.extraction.run now.types).1 = .error error →
    result = .failed error ∧ next = { now with types := (source.extraction.run now.types).2 } ∧
      (source.extraction.run now.types).2.types <+: final.types.types
  of_read : ¬ seen → ∀ batch, (source.extraction.run now.types).1 = .ok batch →
    result = Registry.resultOf (screen batch).1.length (screen batch).2 ∧
      next = now.afterReading source batch

theorem turn_load {seen : Prop} {now final : Engine}
    (hseen : now.registry.isRegistered source.module = true ↔ seen)
    (hfinal : (now.load source).value.2.Grown final) :
    Turn seen now (now.load source).value.2 final source (now.load source).value.1 := by
  rw [← hseen]
  rcases now.load_cases source with hold | ⟨hnew, error, hrun⟩ | ⟨hnew, batch, hrun⟩
  · have hpassed (x : Extraction) :
        now.load ⟨source.module, x⟩ = pure (.alreadyRegistered, now) := load_of_registered hold
    rw [load_of_registered hold]
    exact ⟨⟨fun _ => hold, fun _ => rfl⟩, fun _ => ⟨rfl, hpassed⟩,
      ⟨nofun, fun h => absurd hold h.1⟩, fun h => absurd hold h, fun h => absurd hold h⟩
  · rw [value_load_of_error hnew hrun] at hfinal ⊢
    rw [hnew]
    refine ⟨⟨nofun, nofun⟩, nofun, ⟨fun _ => ⟨Bool.false_ne_true, error, hrun⟩, fun _ => rfl⟩,
      fun _ error' hrun' => ?_, fun _ batch hbatch => ?_⟩
    · obtain rfl : error = error' := Except.error.inj (hrun.symm.trans hrun')
      exact ⟨rfl, rfl, hfinal.types.types_grow⟩
    · rw [hrun] at hbatch
      cases hbatch
  · rw [value_load_of_ok hnew hrun, hnew]
    refine ⟨⟨fun h => absurd h (Registry.resultOf_ne_alreadyRegistered _ _), nofun⟩, nofun,
      ⟨fun h => ?_, fun ⟨_, error, herror⟩ => ?_⟩, fun _ error herror => ?_,
      fun _ batch' hrun' => ?_⟩
    · rw [Registry.isFailed_resultOf] at h
      cases h
    · rw [hrun] at herror
      cases herror
    · rw [hrun] at herror
      cases herror
    · obtain rfl : batch = batch' := Except.ok.inj (hrun.symm.trans hrun')
      exact ⟨rfl, rfl⟩

/-! ### Sources that may be left out -/

/-- A source that fails and declares nothing leaves the engine as it is. -/
theorem value_load_of_failed (hfailed : (e.load source).value.1.isFailed = true)
    (htypes : (source.extraction.run e.types).2 = e.types) : (e.load source).value.2 = e := by
  rcases e.load_cases source with hold | ⟨hnew, error, hrun⟩ | ⟨hnew, batch, hrun⟩
  · rw [load_of_registered hold]
    rfl
  · rw [value_load_of_error hnew hrun, htypes]
  · rw [value_load_of_ok hnew hrun, Registry.isFailed_resultOf] at hfailed
    cases hfailed

/-- **Sources without effect may be left out.** -/
theorem loadMany_keptPlaces (e : Engine) (sources : List Source) (keep : ℕ → Bool)
    (hleft : ∀ i source, sources[i]? = some source → keep i = false →
      ((e.atTurn sources i).load source).value.1.isFailed = true ∧
        (source.extraction.run (e.atTurn sources i).types).2 = (e.atTurn sources i).types) :
    (e.loadMany (keptPlaces keep sources)).value =
      (⟨keptPlaces keep (e.loadMany sources).value.1.results⟩, (e.loadMany sources).value.2) := by
  induction sources generalizing e keep with
  | nil =>
    rw [value_loadMany]
    rfl
  | cons source rest ih =>
    have hrest := ih (e.load source).value.2 (fun i => keep (i + 1)) fun i later hlater hkeep => by
      rw [← atTurn_cons]
      exact hleft (i + 1) later (by simpa using hlater) hkeep
    rw [value_loadMany_cons, keptPlaces_cons, keptPlaces_cons]
    cases hkeep : keep 0 with
    | true =>
      rw [if_pos rfl, if_pos rfl, value_loadMany_cons, hrest]
    | false =>
      have hfirst := hleft 0 source rfl hkeep
      rw [atTurn_zero] at hfirst
      rw [value_load_of_failed hfirst.1 hfirst.2] at hrest ⊢
      exact hrest

/-- **Loading tolerates failures.** Each source gets a result, in order. It is passed over if and
only if its module was registered before or an earlier source for it was read, and it fails if and
only if it is not passed over and its extraction fails; otherwise its batch is registered. The index
grows by what is accepted, in the order of the sources. Sources that fail and declare no type may be
left out: the others get the same results, and the engine ends the same. -/
theorem partial_loading (e : Engine) (sources : List Source) :
    let report := (e.loadMany sources).value.1
    let final := (e.loadMany sources).value.2
    report.results.map Prod.fst = sources.map Source.module ∧
    (∀ i source, sources[i]? = some source → ∃ result,
      report.results[i]? = some (source.module, result) ∧
      Turn (e.Seen sources i source.module) (e.atTurn sources i) (e.atTurn sources (i + 1))
        final source result) ∧
    (∀ operation arity, final.registry.index.bucket operation arity =
      e.registry.index.bucket operation arity ++
        (number e.registry.issued (e.acceptedOf sources)).filter
          (Candidate.belongs operation arity)) ∧
    (final.registry.index.size = e.registry.index.size + report.accepted ∧
      report.accepted = (e.acceptedOf sources).length) ∧
    (∀ module, final.registry.isRegistered module = true ↔
      e.Seen sources sources.length module) ∧
    ∀ keep : ℕ → Bool,
      (∀ i source, sources[i]? = some source → keep i = false →
        ((e.atTurn sources i).load source).value.1.isFailed = true ∧
          (source.extraction.run (e.atTurn sources i).types).2 = (e.atTurn sources i).types) →
      (e.loadMany (keptPlaces keep sources)).value = (⟨keptPlaces keep report.results⟩, final) := by
  intro report final
  have hextends : e.registry.Extends (e.acceptedOf sources) final.registry :=
    e.extends_loadMany sources
  have hsize : final.registry.index.size = e.registry.index.size + report.accepted :=
    (e.takes_loadMany sources).size
  have haccepted : report.accepted = (e.acceptedOf sources).length :=
    Nat.add_left_cancel (hsize.symm.trans hextends.size)
  refine ⟨e.map_module_results sources, fun i source hsource => ⟨_, results_loadMany hsource, ?_⟩,
    hextends.buckets, ⟨hsize, haccepted⟩, fun module => ?_, e.loadMany_keptPlaces sources⟩
  · have hi : i < sources.length := (List.getElem?_eq_some_iff.1 hsource).1
    rw [atTurn_succ hsource]
    refine turn_load (isRegistered_atTurn hi.le) ?_
    rw [← atTurn_succ hsource]
    exact e.grown_atTurn sources (i + 1)
  · have hturn : (e.atTurn sources sources.length).registry.isRegistered module = true ↔
        e.Seen sources sources.length module := isRegistered_atTurn le_rfl
    rwa [atTurn, List.take_length] at hturn

/-- A module that cannot be read at first, then can, and then is not read any more. -/
example :
    let error : RegistrationError := .extraction ⟨[1]⟩ "no such file"
    let sources : List Source := [⟨⟨[1]⟩, .done (.error error)⟩, ⟨⟨[1]⟩, .done (.ok [Host.hit])⟩,
      ⟨⟨[1]⟩, .done (.error error)⟩]
    ((create {} 0).loadMany sources).value.1.results.map Prod.snd =
      [.failed error, .registered 1, .alreadyRegistered] := by
  decide

end Engine

end MultiDispatch
