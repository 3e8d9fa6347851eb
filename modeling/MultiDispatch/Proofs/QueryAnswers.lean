import MultiDispatch.Proofs.ByteOrder
import MultiDispatch.Proofs.ManifestModules

/-!
# What a query is answered with

A query names an operation and types, and is answered with texts: those of the candidates that it
comes to, and the one that the chosen candidate returns. The latter is put together from the words
of the manifest when the probe is built, the former from the types when the query is answered. They
agree because all candidates of a probe come from the manifest, and a type has the name by which the
manifest knows it.

That candidates of a manifest return texts also means that none of them fails. So a query fails for
one reason only, a name that is not known.

## Main definitions

* `Answer.Shows`: an answer shows an outcome
* `CandidateIndex.Labelled`: the candidates of an index return their own texts

## Main results

* `Engine.exists_entry_of_mem_bucket`: candidates come from the manifest
* `Probe.exists_answerOf`: an outcome can be answered with
* `Probe.answers_by_manifest`: what queries are answered with
-/

namespace MultiDispatch

/-! ### What an answer shows -/

namespace Answer

/-- An answer shows an outcome. If a candidate is chosen, its text is what the candidate returned;
the texts of several ones are in the order of their bytes. -/
structure Shows (a : Answer) (o : Outcome) : Prop where
  of_matched : ∀ c, o = .matched c → a.outcome = "matched" ∧ a.candidates = [c.text] ∧
    a.reason? = none ∧ a.value? = some c.text
  of_unmatched : ∀ reason, o = .unmatched reason → a.outcome = "unmatched" ∧ a.candidates = [] ∧
    a.reason? = some reason.message ∧ a.value? = none
  of_ambiguous : ∀ cs, o = .ambiguous cs → a.outcome = "ambiguous" ∧
    a.candidates = cs.map Candidate.text ∧ 2 ≤ a.candidates.length ∧
    a.candidates.Pairwise Text.ByteLE ∧ a.reason? = none ∧ a.value? = none

end Answer

/-! ### Candidates of a manifest -/

/-- Every candidate returns its own text, whatever it is called with. -/
def CandidateIndex.Labelled (index : CandidateIndex) : Prop :=
  ∀ operation arity, ∀ c ∈ index.bucket operation arity, ∀ subject args,
    ∃ v, c.run subject args = .ok v ∧ v.text? = some c.text

/-- A candidate that stands for an entry reads as the entry does, and returns what it reads. -/
theorem CandidateEntry.reads_and_returns {entry : CandidateEntry} {t : TypeTable} {label : Ty}
    {c : Candidate} (hknown : ∀ n ∈ entry.refersTo, n ∈ t.names)
    (himplementation : c.implementation = entry.implementationIn label t) :
    c.signature = entry.signatureIn t ∧ c.text = entry.text ∧
      ∀ subject args, ∃ v, c.run subject args = .ok v ∧ v.text? = some entry.text := by
  have hsignature : c.signature = entry.signatureIn t :=
    congrArg Implementation.signature himplementation
  refine ⟨hsignature, ?_, fun subject args => ⟨⟨label, .text entry.text⟩, ?_, rfl⟩⟩
  · rw [Candidate.text, hsignature, text_signatureIn hknown]
  · rw [Candidate.run, himplementation]
    rfl

namespace Engine

variable {e : Engine} {t : TypeTable} {label : Ty} {ds : List ModuleEntry} {o : Offer}

theorem types_load_source (e : Engine) (d : ModuleEntry) (label : Ty) :
    (e.load (d.source label)).value.2.types = e.types := by
  have hrun := congrArg Prod.snd (d.run_source label e.types)
  rcases e.load_cases (d.source label) with hold | ⟨hnew, error, hfailed⟩ | ⟨hnew, batch, hread⟩
  · rw [load_of_registered hold]
    rfl
  · rw [value_load_of_error hnew hfailed]
    exact hrun
  · rw [value_load_of_ok hnew hread]
    exact hrun

theorem types_loadMany_source (e : Engine) (ds : List ModuleEntry) (label : Ty) :
    (e.loadMany (ds.map (·.source label))).value.2.types = e.types := by
  induction ds generalizing e with
  | nil =>
    rw [List.map_nil, value_loadMany]
    rfl
  | cons d ds ih => rw [List.map_cons, value_loadMany_cons, ih, types_load_source]

/-- What the modules of a manifest offer: the implementations of those whose names are known. -/
theorem exists_batch_of_mem_offersOfEach (ho : o ∈ e.offersOfEach (ds.map (·.source label))) :
    ∃ d ∈ ds, (∀ n ∈ d.refersTo, n ∈ e.types.names) ∧ o.batch = d.batch label e.types := by
  induction ds generalizing e with
  | nil => cases ho
  | cons d ds ih =>
    rw [List.map_cons, offersOfEach, List.mem_append] at ho
    rcases ho with ho | ho
    · rw [offersOf, ModuleEntry.run_source] at ho
      split at ho
      · cases ho
      · cases hmissing : e.types.firstUnknown? d.refersTo with
        | some missing =>
          rw [hmissing] at ho
          cases ho
        | none =>
          rw [hmissing] at ho
          obtain rfl := List.mem_singleton.1 ho
          exact ⟨d, List.mem_cons_self, TypeTable.firstUnknown?_eq_none_iff.1 hmissing, rfl⟩
    · obtain ⟨d', hd', hoffer⟩ := ih ho
      rw [types_load_source] at hoffer
      exact ⟨d', List.mem_cons_of_mem d hd', hoffer⟩

/-- **The candidates of an engine that was filled from a manifest stand for its entries.** -/
theorem exists_entry_of_mem_bucket {settings : Settings} {operation : String} {arity : ℕ}
    {c : Candidate} (hc : c ∈ ((ofTypes settings t).loadMany
      (ds.map (·.source label))).value.2.registry.index.bucket operation arity) :
    ∃ d ∈ ds, ∃ entry ∈ d.candidates, (∀ n ∈ entry.refersTo, n ∈ t.names) ∧
      c.implementation = entry.implementationIn label t := by
  have hextends := (ofTypes settings t).extends_loadMany (ds.map (·.source label))
  rw [hextends.buckets] at hc
  have hmem : c.implementation ∈ (ofTypes settings t).acceptedOf (ds.map (·.source label)) := by
    rw [← map_implementation_number (ofTypes settings t).registry.issued
      ((ofTypes settings t).acceptedOf _)]
    exact List.mem_map_of_mem (List.mem_of_mem_filter hc)
  obtain ⟨o, ho, haccepted⟩ := List.mem_flatMap.1 hmem
  obtain ⟨d, hd, hknown, hbatch⟩ := exists_batch_of_mem_offersOfEach ho
  have hentry : c.implementation ∈ d.batch label t :=
    hbatch ▸ (sublist_screen o.batch).subset haccepted
  obtain ⟨entry, hentry, himplementation⟩ := List.mem_map.1 hentry
  exact ⟨d, hd, entry, hentry, fun n hn => hknown n (List.mem_flatMap.2 ⟨entry, hentry, hn⟩),
    himplementation.symm⟩

end Engine

namespace Probe

variable {m : Manifest} {settings : Option Settings} {p : Probe} {q : Query}

/-! ### Answers -/

/-- **Every outcome of a labelled index can be answered with**, and the answer shows it. -/
theorem exists_answerOf {index : CandidateIndex} (hlabelled : index.Labelled) (q : Query)
    (subject : Option Value) (args : List (Option Value)) :
    let o := (index.resolve (.ofValues q.operation subject args)).value
    ∃ a, answerOf q subject args o = .ok a ∧
      a.call = Signature.callText q.operation q.subject q.args ∧ a.Shows o := by
  intro o
  cases ho : o with
  | matched c =>
    obtain ⟨hsubject, hfront⟩ := resolve_eq_matched_iff.1 ho
    have hc : c ∈ index.applicable (.ofValues q.operation subject args) :=
      front_subset_applicable _ _ c (hfront ▸ List.mem_singleton_self c)
    obtain ⟨s, rfl⟩ : ∃ s, subject = some s := by
      cases subject with
      | none => cases hsubject
      | some s => exact ⟨s, rfl⟩
    obtain ⟨v, hrun, htext⟩ := hlabelled _ _ c (List.mem_of_mem_filter hc) s args
    have hvalue : Engine.valueOf (.matched c) (some s) args = .ok (some v) :=
      congrArg (Except.map some) hrun
    rw [answerOf, hvalue]
    refine ⟨_, rfl, rfl, fun c' hc' => ?_, fun _ h => ?_, fun _ h => ?_⟩
    · cases hc'
      exact ⟨rfl, rfl, rfl, htext⟩
    · cases h
    · cases h
  | unmatched reason =>
    refine ⟨⟨_, .unmatched reason⟩, rfl, rfl, fun _ h => ?_, fun reason' hreason => ?_,
      fun _ h => ?_⟩
    · cases h
    · cases hreason
      exact ⟨rfl, rfl, rfl, rfl⟩
    · cases h
  | ambiguous cs =>
    obtain ⟨-, htwo, hsorted⟩ := resolve_eq_ambiguous_iff.1 ho
    refine ⟨⟨_, .ambiguous (cs.map Candidate.text)⟩, rfl, rfl, fun _ h => ?_, fun _ h => ?_,
      fun cs' hcs' => ?_⟩
    · cases h
    · cases h
    · cases hcs'
      refine ⟨rfl, rfl, ?_, hsorted.pairwise_byteLE, rfl, rfl⟩
      rw [Answer.candidates, List.length_map, hsorted.perm.length_eq]
      exact htwo

/-- A query with a name that is not known fails. -/
theorem answer_of_unknown {missing : String}
    (h : p.engine.types.firstUnknown? q.refersTo = some missing) :
    (p.answer q).1 = .error (.undeclared missing) := by
  have hvalues : p.valuesOf q = .error (.undeclared missing) := by
    rw [valuesOf_eq, h]
    rfl
  rw [answer_of_error hvalues]

/-- A query whose names are all known is answered with what its call comes to. -/
theorem exists_answer_of_known (hfaithful : p.engine.Faithful)
    (hlabelled : p.engine.registry.index.Labelled)
    (h : p.engine.types.firstUnknown? q.refersTo = none) :
    let o := (p.engine.resolve (q.callIn p.engine.types)).value.1
    o = (p.engine.registry.index.resolve (q.callIn p.engine.types)).value ∧
      ∃ a, (p.answer q).1 = .ok a ∧
        a.call = Signature.callText q.operation q.subject q.args ∧ a.Shows o := by
  intro o
  have hvalues : p.valuesOf q = .ok (Query.valueIn p.engine.types q.subject,
      q.args.map (Query.valueIn p.engine.types)) := by
    rw [valuesOf_eq, h]
    rfl
  have hcall := q.ofValues_valueIn p.engine.types
  have hresolve : o = (p.engine.registry.index.resolve (q.callIn p.engine.types)).value :=
    (hfaithful.resolve (hcall ▸ names_of_valuesOf hvalues)).1
  obtain ⟨a, ha, hanswer⟩ := exists_answerOf hlabelled q (Query.valueIn p.engine.types q.subject)
    (q.args.map (Query.valueIn p.engine.types))
  rw [hcall, ← hresolve] at ha hanswer
  refine ⟨hresolve, a, ?_, hanswer⟩
  rw [answer_of_valuesOf hvalues]
  dsimp only
  rw [hcall]
  exact ha

/-- **Answers are faithful.** In every probe of a manifest each candidate stands for an entry of the
manifest, has its text, and returns this text whatever it is called with.

A query fails if and only if one of its words is neither that for a null nor a name that the
manifest declares. Otherwise it is answered with what the engine makes of the call that it stands
for, which is what a fresh resolution comes to, and the answer shows this outcome. It makes no
difference what was asked before. -/
theorem answers_by_manifest (hbuilt : ofManifest m settings = .ok p) :
    (∀ operation arity, ∀ c ∈ p.engine.registry.index.bucket operation arity,
      ∃ d ∈ m.modules, ∃ entry ∈ d.candidates, c.signature = entry.signatureIn p.engine.types ∧
        c.text = entry.text ∧
        ∀ subject args, ∃ v, c.run subject args = .ok v ∧ v.text? = some entry.text) ∧
    ∀ before q,
      let asked := p.after before
      let call := q.callIn p.engine.types
      ((∃ error, (asked.answer q).1 = .error error) ↔
        ∃ n ∈ q.subject :: q.args, n ≠ nullWord ∧ ¬ m.Declares n) ∧
      (∀ missing, (asked.answer q).1 = .error (.undeclared missing) ↔
        (q.refersTo.find? fun n => ¬ m.Declares n) = some missing) ∧
      ∀ a, (asked.answer q).1 = .ok a →
        a.call = Signature.callText q.operation q.subject q.args ∧
        a.Shows (asked.engine.resolve call).value.1 ∧
        (asked.engine.resolve call).value.1 = (p.engine.registry.index.resolve call).value := by
  obtain ⟨label, t, huniverse, rfl⟩ := exists_loaded_of_ofManifest hbuilt
  have hunder := Manifest.underlies_universe huniverse
  let p := loaded (settings.getD m.engine) t (m.modules.map (·.source label))
  have htypes : p.engine.types = t := Engine.types_loadMany_source _ _ label
  have hentries : ∀ operation arity, ∀ c ∈ p.engine.registry.index.bucket operation arity,
      ∃ d ∈ m.modules, ∃ entry ∈ d.candidates, c.signature = entry.signatureIn p.engine.types ∧
        c.text = entry.text ∧
        ∀ subject args, ∃ v, c.run subject args = .ok v ∧ v.text? = some entry.text := by
    intro operation arity c hc
    obtain ⟨d, hd, entry, hentry, hknown, himplementation⟩ := Engine.exists_entry_of_mem_bucket hc
    rw [htypes]
    exact ⟨d, hd, entry, hentry, CandidateEntry.reads_and_returns hknown himplementation⟩
  have hlabelled : p.engine.registry.index.Labelled := by
    intro operation arity c hc subject args
    obtain ⟨-, -, entry, -, -, htext, hreturns⟩ := hentries operation arity c hc
    rw [htext]
    exact hreturns subject args
  refine ⟨hentries, fun before q => ?_⟩
  intro asked call
  have halike : asked.Alike p :=
    (alike_loaded (settings.getD m.engine) (settings.getD m.engine) hunder.indexed _).after before
  have hsame : asked.engine.types = p.engine.types := halike.types.symm
  have hindex : asked.engine.registry.index = p.engine.registry.index :=
    congrArg Registry.index halike.registry.symm
  have hfirst : asked.engine.types.firstUnknown? q.refersTo =
      q.refersTo.find? fun n => ¬ m.Declares n := by
    rw [hsame, htypes, TypeTable.firstUnknown?]
    simp only [hunder.names]
  cases hmissing : q.refersTo.find? fun n => ¬ m.Declares n with
  | some missing =>
    have hanswer := answer_of_unknown (hfirst.trans hmissing)
    have hundeclared : ∃ n ∈ q.refersTo, ¬ m.Declares n :=
      ⟨missing, List.mem_of_find?_eq_some hmissing, by simpa using List.find?_some hmissing⟩
    rw [hanswer]
    refine ⟨⟨fun _ => Query.exists_mem_refersTo_iff.1 hundeclared, fun _ => ⟨_, rfl⟩⟩,
      fun missing' => ?_, fun _ h => ?_⟩
    · simp
    · cases h
  | none =>
    have hdeclared : ¬ ∃ n ∈ q.refersTo, ¬ m.Declares n := by
      simpa using List.find?_eq_none.1 hmissing
    obtain ⟨hresolve, a, hanswer, hcall, hshows⟩ :=
      exists_answer_of_known halike.left (hindex ▸ hlabelled) (hfirst.trans hmissing)
    rw [hsame] at hresolve hshows
    rw [hindex] at hresolve
    rw [hanswer]
    refine ⟨⟨?_, fun hmem => ?_⟩, fun missing => ?_, fun a' ha' => ?_⟩
    · rintro ⟨_, h⟩
      cases h
    · exact absurd (Query.exists_mem_refersTo_iff.2 hmem) hdeclared
    · simp
    · cases ha'
      exact ⟨hcall, hshows, hresolve⟩

/-- A type that is called like a null. -/
def nullManifest : Manifest where
  engine := {}
  types := [⟨"Beam", .reference, none, []⟩, ⟨"null", .reference, none, []⟩]
  modules := [⟨"steel", [⟨"area", "null", []⟩, ⟨"area", "Beam", ["null"]⟩]⟩]
  queries := []

/-- A word that is not known, and a null where there is a type of that name. -/
theorem answers_by_manifest_null : ∃ p, ofManifest nullManifest none = .ok p ∧
    (∃ error, (p.answer ⟨"area", "Slab", []⟩).1 = .error error) ∧
    ∃ a, (p.answer ⟨"area", "null", []⟩).1 = .ok a ∧ a.reason? = some "subject is null" := by
  obtain ⟨p, hp⟩ : ∃ p, ofManifest nullManifest none = .ok p :=
    exists_ofManifest (by decide +kernel)
  obtain ⟨-, hanswers⟩ := answers_by_manifest hp
  obtain ⟨hfails, -, -⟩ := hanswers [] ⟨"area", "Slab", []⟩
  obtain ⟨hnull, -, hshown⟩ := hanswers [] ⟨"area", "null", []⟩
  refine ⟨p, hp, hfails.2 (by decide), ?_⟩
  cases ha : (p.answer ⟨"area", "null", []⟩).1 with
  | error error => exact absurd (hnull.1 ⟨error, ha⟩) (by decide)
  | ok a =>
    obtain ⟨-, hshows, hresolve⟩ := hshown a ha
    exact ⟨a, rfl, (hshows.of_unmatched .nullSubject hresolve).2.2.1⟩

end Probe

end MultiDispatch
