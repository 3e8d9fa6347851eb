import MultiDispatch.Proofs.CandidateEntries
import MultiDispatch.Proofs.Holdings
import MultiDispatch.Proofs.PartialLoading
import MultiDispatch.Proofs.ProbeReports

/-!
# What a built probe contains

A manifest may declare a module several times. Of the declarations of one name only one counts: the
first that is well-typed, that is, whose names are all known. Those before it fail and leave nothing
behind but what is said of them, and those after it are passed over, well-typed or not. So one
invariant describes an engine that is being filled: its modules are the first well-typed
declarations so far, and each has what is kept of its entries.

An engine knows a module by the digest of its name only. The invariant speaks of names, so it needs
that the names of the manifest have different digests.

## Main definitions

* `Manifest.WellTyped`, `Manifest.Provides`, `Manifest.firsts`: the declarations that count
* `Manifest.resultAfter`: what a declaration comes to
* `Manifest.Filled`: an engine with the modules of some declarations
* `Manifest.Fate`: what becomes of one declaration

## Main results

* `Manifest.Filled.load`: one more declaration
* `Manifest.filled_loadMany`: declarations one after the other
* `Probe.contents_by_manifest`: what a built probe contains
-/

namespace MultiDispatch

namespace Manifest

variable {m : Manifest} {ds earlier : List ModuleEntry} {d : ModuleEntry} {name : String}
variable {t : TypeTable} {label : Ty} {e : Engine}

/-! ### Declarations by their names -/

/-- All names that a module refers to are known. -/
def WellTyped (m : Manifest) (d : ModuleEntry) : Prop :=
  ∀ n ∈ d.refersTo, m.Declares n

instance (m : Manifest) (d : ModuleEntry) : Decidable (m.WellTyped d) :=
  inferInstanceAs (Decidable (∀ n ∈ d.refersTo, m.Declares n))

/-- Some declaration of the name is well-typed. -/
def Provides (m : Manifest) (ds : List ModuleEntry) (name : String) : Prop :=
  ∃ d ∈ ds, d.name = name ∧ m.WellTyped d

instance (m : Manifest) (ds : List ModuleEntry) (name : String) : Decidable (m.Provides ds name) :=
  inferInstanceAs (Decidable (∃ d ∈ ds, d.name = name ∧ m.WellTyped d))

/-- The declarations that are the first well-typed ones of their names, in order. -/
def firsts (m : Manifest) (ds : List ModuleEntry) : List ModuleEntry :=
  ((withEarlier ds).filter fun x => m.WellTyped x.2 ∧ ¬ m.Provides x.1 x.2.name).map Prod.snd

/-- The names with a well-typed declaration, in the order of their first ones. -/
def provided (m : Manifest) (ds : List ModuleEntry) : List String :=
  ((ds.filter fun d => m.WellTyped d).map ModuleEntry.name).eraseDups

/-- The first name of a module that is not known. -/
def firstUndeclared? (m : Manifest) (d : ModuleEntry) : Option String :=
  d.refersTo.find? fun n => ¬ m.Declares n

/-- What a declaration comes to after others. -/
def resultAfter (m : Manifest) (earlier : List ModuleEntry) (d : ModuleEntry) : Registration :=
  if m.Provides earlier d.name then .alreadyRegistered
  else (m.firstUndeclared? d).elim (Registry.resultOf d.kept.length d.rejections) fun missing =>
    .failed (d.undeclared missing)

theorem firstUndeclared?_eq_none_iff : m.firstUndeclared? d = none ↔ m.WellTyped d := by
  simp [firstUndeclared?, WellTyped]

theorem firsts_concat (m : Manifest) (ds : List ModuleEntry) (d : ModuleEntry) :
    m.firsts (ds ++ [d]) =
      m.firsts ds ++ if m.WellTyped d ∧ ¬ m.Provides ds d.name then [d] else [] := by
  rw [firsts, withEarlier_concat, List.filter_append, List.map_append, firsts]
  by_cases h : m.WellTyped d ∧ ¬ m.Provides ds d.name
  · simp [h]
  · simp [h]

theorem firsts_concat_of_first (htyped : m.WellTyped d) (hnew : ¬ m.Provides ds d.name) :
    m.firsts (ds ++ [d]) = m.firsts ds ++ [d] := by
  rw [firsts_concat, if_pos ⟨htyped, hnew⟩]

theorem firsts_concat_of_not (h : m.WellTyped d → m.Provides ds d.name) :
    m.firsts (ds ++ [d]) = m.firsts ds := by
  rw [firsts_concat, if_neg fun hfirst => hfirst.2 (h hfirst.1), List.append_nil]

theorem provides_iff_mem : m.Provides ds name ↔ name ∈ m.provided ds := by
  rw [provided, List.mem_eraseDups]
  simp only [Provides, List.mem_map, List.mem_filter, decide_eq_true_eq, and_assoc]
  exact exists_congr fun d => and_congr_right fun _ => and_comm

/-- The first declarations of a list have the names that it provides. -/
theorem map_name_firsts (m : Manifest) (ds : List ModuleEntry) :
    (m.firsts ds).map ModuleEntry.name = m.provided ds := by
  induction ds using List.reverseRecOn with
  | nil => rfl
  | append_singleton ds d ih =>
    rw [provided, List.filter_append, List.map_append]
    by_cases htyped : m.WellTyped d
    · have hname : ([d].filter fun d => m.WellTyped d).map ModuleEntry.name = [d.name] := by
        simp [htyped]
      rw [hname]
      by_cases hold : m.Provides ds d.name
      · rw [firsts_concat_of_not fun _ => hold, ih,
          eraseDups_concat_of_mem (List.mem_eraseDups.1 (provides_iff_mem.1 hold)), provided]
      · have hnew : d.name ∉ (ds.filter fun d => m.WellTyped d).map ModuleEntry.name := fun hmem =>
          hold (provides_iff_mem.2 (List.mem_eraseDups.2 hmem))
        rw [firsts_concat_of_first htyped hold, List.map_append, ih,
          eraseDups_concat_of_notMem hnew, provided, List.map_singleton]
    · have hname : ([d].filter fun d => m.WellTyped d).map ModuleEntry.name = [] := by
        simp [htyped]
      rw [hname, List.append_nil, firsts_concat_of_not fun h => absurd h htyped, ih, provided]

theorem provides_iff : m.Provides ds name ↔ ∃ f ∈ m.firsts ds, f.name = name := by
  rw [provides_iff_mem, ← map_name_firsts, List.mem_map]

theorem mem_of_mem_firsts (h : d ∈ m.firsts ds) : d ∈ ds := by
  obtain ⟨x, hx, rfl⟩ := List.mem_map.1 h
  exact (mem_of_mem_withEarlier (List.mem_of_mem_filter hx)).1

/-! ### Filling an engine -/

/-- The names of the modules have different digests. -/
def DistinctIds (m : Manifest) : Prop :=
  ∀ a ∈ m.modules, ∀ b ∈ m.modules, ModuleId.ofName a.name = ModuleId.ofName b.name →
    a.name = b.name

/-- It is enough to compare the digests of different names. -/
theorem distinctIds_of_nodup
    (h : ((m.modules.map ModuleEntry.name).eraseDups.map ModuleId.ofName).Nodup) :
    m.DistinctIds := by
  intro a ha b hb hid
  exact List.inj_on_of_nodup_map h (List.mem_eraseDups.2 (List.mem_map_of_mem ha))
    (List.mem_eraseDups.2 (List.mem_map_of_mem hb)) hid

/-- A table with the names that the manifest declares. -/
structure Underlies (m : Manifest) (t : TypeTable) : Prop where
  indexed : t.Indexed
  names : ∀ n, n ∈ t.names ↔ m.Declares n

theorem underlies_universe (h : m.universe (.create 0) = .ok (label, t)) : m.Underlies t :=
  ⟨(later_universe h).indexed (TypeTable.indexed_create 0), fun _ => mem_names_universe h⟩

/-- The modules of the engine are the first well-typed declarations, and each has what is kept of
its entries. -/
structure Filled (m : Manifest) (label : Ty) (t : TypeTable) (ds : List ModuleEntry) (e : Engine) :
    Prop where
  types : e.types = t
  modules : e.registry.modules.map (fun x => (x.1, x.2.map Candidate.implementation)) =
    (m.firsts ds).map fun d => (.ofName d.name, d.kept.map (·.implementationIn label t))

theorem filled_ofTypes (m : Manifest) (label : Ty) (settings : Settings) (t : TypeTable) :
    m.Filled label t [] (.ofTypes settings t) :=
  ⟨rfl, rfl⟩

theorem Filled.map_fst (h : m.Filled label t ds e) :
    e.registry.modules.map Prod.fst = (m.firsts ds).map fun d => .ofName d.name := by
  have hfst := congrArg (List.map Prod.fst) h.modules
  rwa [List.map_map, List.map_map] at hfst

/-- Which modules are registered, by their names. -/
theorem Filled.isRegistered_iff (h : m.Filled label t earlier e) (hids : m.DistinctIds)
    (hearlier : ∀ a ∈ earlier, a ∈ m.modules) (hd : d ∈ m.modules) :
    e.registry.isRegistered (.ofName d.name) = true ↔ m.Provides earlier d.name := by
  rw [← not_iff_not, Bool.not_eq_true, Registry.isRegistered_eq_false_iff, not_iff_not, h.map_fst,
    List.mem_map, provides_iff]
  constructor
  · rintro ⟨f, hf, hid⟩
    exact ⟨f, hf, hids f (hearlier f (mem_of_mem_firsts hf)) d hd hid⟩
  · rintro ⟨f, hf, hname⟩
    exact ⟨f, hf, congrArg ModuleId.ofName hname⟩

/-- Reading a module, by the names of the manifest. -/
theorem Underlies.run_source (hunder : m.Underlies t) (d : ModuleEntry) (label : Ty) :
    (d.source label).extraction.run t =
      ((m.firstUndeclared? d).elim (.ok (d.batch label t)) fun missing =>
        .error (d.undeclared missing), t) := by
  have hfirst : t.firstUnknown? d.refersTo = m.firstUndeclared? d := by
    rw [TypeTable.firstUnknown?, firstUndeclared?]
    simp only [hunder.names]
  rw [ModuleEntry.run_source, hfirst]

/-- **One more declaration** comes to what its place among the others says, and keeps the engine
filled. -/
theorem Filled.load (h : m.Filled label t earlier e) (hunder : m.Underlies t)
    (hids : m.DistinctIds) (hearlier : ∀ a ∈ earlier, a ∈ m.modules) (hd : d ∈ m.modules) :
    (e.load (d.source label)).value.1 = m.resultAfter earlier d ∧
      m.Filled label t (earlier ++ [d]) (e.load (d.source label)).value.2 := by
  have hregistered := h.isRegistered_iff hids hearlier hd
  obtain rfl := h.types
  have hrun := hunder.run_source d label
  by_cases hold : m.Provides earlier d.name
  · have hload : e.load (d.source label) = pure (.alreadyRegistered, e) :=
      Engine.load_of_registered (hregistered.2 hold)
    rw [hload, resultAfter, if_pos hold]
    refine ⟨rfl, rfl, ?_⟩
    rw [firsts_concat_of_not fun _ => hold]
    exact h.modules
  · have hnew : e.registry.isRegistered (d.source label).module = false :=
      Bool.eq_false_iff.2 fun hreg => hold (hregistered.1 hreg)
    rw [resultAfter, if_neg hold]
    cases hmissing : m.firstUndeclared? d with
    | some missing =>
      have hwrong : ¬ m.WellTyped d := fun htyped => by
        rw [firstUndeclared?_eq_none_iff.2 htyped] at hmissing
        cases hmissing
      rw [hmissing] at hrun
      rw [Engine.value_load_of_error hnew (congrArg Prod.fst hrun), hrun]
      refine ⟨rfl, rfl, ?_⟩
      rw [firsts_concat_of_not fun htyped => absurd htyped hwrong]
      exact h.modules
    | none =>
      have htyped := firstUndeclared?_eq_none_iff.1 hmissing
      have hscreen : screen (d.batch label e.types) = _ :=
        d.screen_batch hunder.indexed fun n hn => (hunder.names n).2 (htyped n hn)
      rw [hmissing] at hrun
      rw [Engine.value_load_of_ok hnew (congrArg Prod.fst hrun), Engine.afterReading, hrun,
        hscreen, List.length_map]
      refine ⟨rfl, rfl, ?_⟩
      rw [firsts_concat_of_first htyped hold, List.map_append, ← h.modules, Registry.publish,
        List.map_append, List.map_singleton, map_implementation_number]
      rfl

/-- **Declarations one after the other.** -/
theorem filled_loadMany (hunder : m.Underlies t) (hids : m.DistinctIds) (label : Ty)
    (settings : Settings) (hds : ∀ a ∈ ds, a ∈ m.modules) :
    let r := ((Engine.ofTypes settings t).loadMany (ds.map (·.source label))).value
    r.1.results = (withEarlier ds).map (fun x => (.ofName x.2.name, m.resultAfter x.1 x.2)) ∧
      m.Filled label t ds r.2 := by
  induction ds using List.reverseRecOn with
  | nil =>
    rw [List.map_nil, Engine.value_loadMany]
    exact ⟨rfl, filled_ofTypes m label settings t⟩
  | append_singleton ds d ih =>
    obtain ⟨hresults, hfilled⟩ := ih fun a ha => hds a (List.mem_append_left _ ha)
    obtain ⟨hresult, hnext⟩ := hfilled.load hunder hids
      (fun a ha => hds a (List.mem_append_left _ ha))
      (hds d (List.mem_append_right _ (List.mem_singleton_self d)))
    rw [List.map_append, List.map_singleton, Engine.value_loadMany_concat, hresults, hresult,
      withEarlier_concat, List.map_append]
    exact ⟨rfl, hnext⟩

/-! ### All declarations -/

/-- The entries of all modules that are kept, in the order of their modules. -/
def contributed (m : Manifest) : List CandidateEntry :=
  (m.firsts m.modules).flatMap ModuleEntry.kept

/-- What is said of a declaration after others: nothing if it is passed over, one thing if it fails,
and one for each entry that is not kept if it is read. -/
def diagnosticsAfter (m : Manifest) (earlier : List ModuleEntry) (d : ModuleEntry) :
    List RegistrationError :=
  if m.Provides earlier d.name then []
  else (m.firstUndeclared? d).elim d.rejections fun missing => [d.undeclared missing]

/-- What is said of all declarations, in order. -/
def diagnostics (m : Manifest) : List RegistrationError :=
  (withEarlier m.modules).flatMap fun x => m.diagnosticsAfter x.1 x.2

/-- What becomes of a declaration after `earlier` ones, by its result and the engine in the end. -/
structure Fate (m : Manifest) (e : Engine) (earlier : List ModuleEntry) (d : ModuleEntry)
    (result : Registration) : Prop where
  of_late : m.Provides earlier d.name → result = .alreadyRegistered
  of_untyped : ¬ m.Provides earlier d.name → ¬ m.WellTyped d →
    ∃ missing, m.firstUndeclared? d = some missing ∧ result = .failed (d.undeclared missing)
  of_first : ¬ m.Provides earlier d.name → m.WellTyped d →
    result = Registry.resultOf d.kept.length d.rejections ∧
      ∃ cs, e.registry.candidatesOf? (.ofName d.name) = some cs ∧
        cs.map Candidate.signature = d.kept.map (·.signatureIn e.types)

theorem diagnostics_resultAfter (m : Manifest) (earlier : List ModuleEntry) (d : ModuleEntry) :
    (m.resultAfter earlier d).diagnostics = m.diagnosticsAfter earlier d := by
  rw [resultAfter, diagnosticsAfter]
  split
  · rfl
  · cases m.firstUndeclared? d with
    | some missing => rfl
    | none => exact Registry.diagnostics_resultOf _ _

theorem mem_firsts {before after : List ModuleEntry} (hnew : ¬ m.Provides before d.name)
    (htyped : m.WellTyped d) : d ∈ m.firsts (before ++ d :: after) := by
  refine List.mem_map.2 ⟨(before, d), List.mem_filter.2 ⟨?_, ?_⟩, rfl⟩
  · exact List.mem_of_getElem? (getElem?_withEarlier before d after)
  · exact decide_eq_true ⟨htyped, hnew⟩

/-- What a filled engine has for a first declaration. -/
theorem Filled.candidatesOf?_eq (h : m.Filled label t ds e) (hconsistent : e.registry.Consistent)
    (hd : d ∈ m.firsts ds) : ∃ cs, e.registry.candidatesOf? (.ofName d.name) = some cs ∧
      cs.map Candidate.signature = d.kept.map (·.signatureIn t) := by
  obtain ⟨⟨module, cs⟩, hmem, heq⟩ := List.mem_map.1 (h.modules ▸ List.mem_map_of_mem hd)
  obtain ⟨rfl, hcs⟩ := Prod.mk.inj heq
  refine ⟨cs, hconsistent.candidatesOf?_eq hmem, ?_⟩
  have hsignatures := congrArg (List.map Implementation.signature) hcs
  rw [List.map_map, List.map_map] at hsignatures
  exact hsignatures

theorem Filled.fate {before after : List ModuleEntry} (hconsistent : e.registry.Consistent)
    (h : m.Filled label t (before ++ d :: after) e) :
    m.Fate e before d (m.resultAfter before d) := by
  refine ⟨fun hold => ?_, fun hnew hwrong => ?_, fun hnew htyped => ⟨?_, ?_⟩⟩
  · rw [resultAfter, if_pos hold]
  · cases hmissing : m.firstUndeclared? d with
    | none => exact absurd (firstUndeclared?_eq_none_iff.1 hmissing) hwrong
    | some missing =>
      rw [resultAfter, if_neg hnew, hmissing]
      exact ⟨missing, rfl, rfl⟩
  · rw [resultAfter, if_neg hnew, firstUndeclared?_eq_none_iff.2 htyped]
    rfl
  · rw [h.types]
    exact h.candidatesOf?_eq hconsistent (mem_firsts hnew htyped)

/-- What a filled engine has in all. -/
theorem Filled.map_implementation_contributed (h : m.Filled label t ds e) :
    e.registry.contributed.map Candidate.implementation =
      ((m.firsts ds).flatMap ModuleEntry.kept).map (·.implementationIn label t) := by
  have hflat := congrArg (List.flatMap Prod.snd) h.modules
  rw [List.flatMap_map, List.flatMap_map] at hflat
  rw [Registry.contributed, List.map_flatMap, List.map_flatMap]
  exact hflat

/-- A bucket of a filled engine has the signatures of the entries that belong in it. -/
theorem Filled.map_signature_bucket (h : m.Filled label t ds e)
    (hconsistent : e.registry.Consistent) (operation : String) (arity : ℕ) :
    (e.registry.index.bucket operation arity).map Candidate.signature =
      (((m.firsts ds).flatMap ModuleEntry.kept).map (·.signatureIn t)).filter fun s =>
        s.operation = operation ∧ s.arity = arity := by
  have hsignatures := congrArg (List.map Implementation.signature) h.map_implementation_contributed
  rw [List.map_map, List.map_map] at hsignatures
  have hall : e.registry.contributed.map Candidate.signature =
      ((m.firsts ds).flatMap ModuleEntry.kept).map (·.signatureIn t) := hsignatures
  rw [hconsistent.buckets, ← hall, List.filter_map]
  rfl

end Manifest

namespace Probe

variable {m : Manifest} {settings : Option Settings} {p p' : Probe}

/-- **What a built probe contains.** Let the names of a manifest's modules have different digests.
The names that are known are those that the manifest declares. Of each name of a module, the
declarations before the first well-typed one fail, each with one diagnostic about the first name
that is not known. The first well-typed one is registered with those of its entries that are kept,
with one diagnostic for each of the others. Those after it are passed over.

Nothing else is in the probe: its modules are the names with a well-typed declaration, and its
candidates and diagnostics are those just said, all in the order of the manifest. This is also what
every report says, whatever was asked before. -/
theorem contents_by_manifest (hbuilt : ofManifest m settings = .ok p) (hids : m.DistinctIds) :
    (∀ n, (p.engine.types.get? n).isSome = true ↔ m.Declares n) ∧
    (∀ before d after, m.modules = before ++ d :: after → ∃ result,
      p.loading.results[before.length]? = some (.ofName d.name, result) ∧
        m.Fate p.engine before d result) ∧
    p.engine.registry.modules.map Prod.fst = (m.provided m.modules).map .ofName ∧
    (∀ operation arity,
      (p.engine.registry.index.bucket operation arity).map Candidate.signature =
        (m.contributed.map (·.signatureIn p.engine.types)).filter fun s =>
          s.operation = operation ∧ s.arity = arity) ∧
    p.engine.counts.modules = (m.provided m.modules).length ∧
    p.engine.counts.candidates = m.contributed.length ∧
    p.loading.accepted = p.engine.counts.candidates ∧
    p.loading.diagnostics = m.diagnostics ∧
    ∀ before qs r, ((p.after before).report qs).1 = .ok r →
      r.modules = (m.provided m.modules).length ∧ r.candidates = m.contributed.length ∧
        r.diagnostics = m.diagnostics.map RegistrationError.message := by
  obtain ⟨label, t, huniverse, rfl⟩ := exists_loaded_of_ofManifest hbuilt
  have hunder := Manifest.underlies_universe huniverse
  let start := Engine.ofTypes (settings.getD m.engine) t
  let sources := m.modules.map (·.source label)
  obtain ⟨hresults, hfilled⟩ :=
    Manifest.filled_loadMany hunder hids label (settings.getD m.engine) fun _ ha => ha
  let p := loaded (settings.getD m.engine) t sources
  replace hresults : p.loading.results = _ := hresults
  replace hfilled : m.Filled label t m.modules p.engine := hfilled
  have hconsistent : p.engine.registry.Consistent :=
    (start.grown_loadMany sources).registry.consistent Registry.consistent_of_modules_eq_nil
  have hmodules : p.engine.registry.modules.map Prod.fst = (m.provided m.modules).map .ofName := by
    rw [hfilled.map_fst, ← Manifest.map_name_firsts, List.map_map]
    rfl
  have hnumber : p.engine.counts.modules = (m.provided m.modules).length := by
    have hlength := congrArg List.length hmodules
    rwa [List.length_map, List.length_map] at hlength
  have htakes := start.takes_loadMany sources
  have hcandidates : p.engine.counts.candidates = m.contributed.length := by
    have hinstep : p.engine.registry.InStep := by
      show (start.loadMany sources).value.2.registry.InStep
      rw [htakes.considered]
      exact Registry.considerEach_induction Registry.inStep_of_nothing fun _ o h => h.consider o
    have hlength := congrArg List.length hfilled.map_implementation_contributed
    rw [List.length_map, List.length_map] at hlength
    exact hinstep.size.trans hlength
  have haccepted : p.loading.accepted = p.engine.counts.candidates :=
    (htakes.size.trans (Nat.zero_add _)).symm
  have hdiagnostics : p.loading.diagnostics = m.diagnostics := by
    rw [LoadSummary.diagnostics, hresults, List.flatMap_map, Manifest.diagnostics]
    exact List.flatMap_congr fun x _ => m.diagnostics_resultAfter x.1 x.2
  refine ⟨fun n => ?_, fun before d after hm => ?_, hmodules, fun operation arity => ?_, hnumber,
    hcandidates, haccepted, hdiagnostics, fun before qs r hr => ?_⟩
  · rw [TypeTable.isSome_get?_iff, hfilled.types]
    exact hunder.names n
  · refine ⟨m.resultAfter before d, ?_, ?_⟩
    · rw [hresults, List.getElem?_map, hm, getElem?_withEarlier]
      rfl
    · rw [hm] at hfilled
      exact hfilled.fate hconsistent
  · have hsignatures := hfilled.map_signature_bucket hconsistent operation arity
    rwa [← hfilled.types] at hsignatures
  · have halike : p.Alike p :=
      alike_loaded (settings.getD m.engine) (settings.getD m.engine) hunder.indexed sources
    obtain ⟨hmodules', hcandidates', hdiagnostics'⟩ := (halike.after before).report_fields hr
    exact ⟨hmodules'.trans hnumber, hcandidates'.trans (haccepted.trans hcandidates),
      hdiagnostics'.trans (congrArg _ hdiagnostics)⟩

/-- A module that uses an unknown name, one that is declared three times, and one without a
candidate. -/
def strewnManifest : Manifest where
  engine := {}
  types := [⟨"Beam", .reference, none, []⟩]
  modules := [
    ⟨"lost", [⟨"area", "Beam", ["Slab"]⟩]⟩,
    ⟨"steel", [⟨"area", "Slab", []⟩, ⟨"area", "Beam", []⟩]⟩,
    ⟨"steel", [⟨"area", "Beam", []⟩, ⟨" ", "Beam", []⟩, ⟨"area", "Beam", []⟩,
      ⟨"area", "Beam", ["object"]⟩]⟩,
    ⟨"steel", [⟨"mass", "Slab", []⟩]⟩,
    ⟨"empty", []⟩]
  queries := []

/-- Two modules are there, and two candidates. Four things are said. -/
theorem contents_by_manifest_strewn : ∃ p, ofManifest strewnManifest none = .ok p ∧
    strewnManifest.DistinctIds ∧
    p.engine.registry.modules.map Prod.fst = [.ofName "steel", .ofName "empty"] ∧
    p.engine.counts.candidates = 2 ∧ p.loading.diagnostics.length = 4 := by
  have hids : strewnManifest.DistinctIds := Manifest.distinctIds_of_nodup (by decide +kernel)
  obtain ⟨p, hp⟩ : ∃ p, ofManifest strewnManifest none = .ok p :=
    exists_ofManifest (by decide +kernel)
  obtain ⟨-, -, hmodules, -, -, hcandidates, -, hdiagnostics, -⟩ := contents_by_manifest hp hids
  have hlength : strewnManifest.diagnostics.length = 4 := by decide +kernel
  exact ⟨p, hp, hids, hmodules, hcandidates, hdiagnostics ▸ hlength⟩

end Probe

end MultiDispatch
