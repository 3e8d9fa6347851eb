import MultiDispatch.Probe.Command
import MultiDispatch.Proofs.QueryAnswers

/-!
# The exit status of the probe command

Between the arguments of the command and its report there are a file to be read, perhaps another one
with settings, types to be declared, modules to be loaded and queries to be answered. All but one of
these can fail, and a failure leaves no report. What is wrong with a module is no failure; it is
part of the report.

An ambiguous query is no failure either. It is answered like any other one, and the whole report is
there before the command looks whether such answers are denied. Which queries are ambiguous can be
told from the manifest.

## Main definitions

* `Manifest.Runnable`: manifests that can be reported on
* `Manifest.Contested`: queries between candidates none of which is beaten
* `Command.Runs`: files that can be reported on

## Main results

* `Probe.FilledFrom.exists_answers`, `Probe.FilledFrom.exists_error`: runs of queries
* `Probe.isAmbiguous_iff_contested`: which answers are ambiguous
* `Command.exists_report_iff`: when there is a report
* `Command.exit_by_manifest`: exit codes and reports
-/

namespace MultiDispatch

theorem except_bind_eq_ok_iff {ε α β : Type} {x : Except ε α} {f : α → Except ε β} {b : β} :
    (x >>= f) = .ok b ↔ ∃ a, x = .ok a ∧ f a = .ok b := by
  cases x <;> simp [bind, Except.bind]

theorem except_mapError_eq_ok_iff {ε ε' α : Type} {x : Except ε α} {f : ε → ε'} {a : α} :
    x.mapError f = .ok a ↔ x = .ok a := by
  cases x <;> simp [Except.mapError]

/-! ### Ambiguous answers -/

theorem Outcome.isAmbiguous_ofFront {cs : List Candidate} :
    (Outcome.ofFront cs).isAmbiguous = true ↔ 2 ≤ cs.length := by
  match cs with
  | [] => simp [Outcome.ofFront, Outcome.isAmbiguous]
  | [c] => simp [Outcome.ofFront, Outcome.isAmbiguous]
  | c :: d :: rest => simp [Outcome.ofFront, Outcome.isAmbiguous]

/-- A call is ambiguous exactly if it has a subject and its front has several entries. -/
theorem isAmbiguous_resolve_iff {index : CandidateIndex} {call : Call} :
    (index.resolve call).value.isAmbiguous = true ↔
      call.subject.isSome = true ∧ 2 ≤ (index.front call).length := by
  by_cases hsubject : call.subject.isSome = true
  · by_cases hbucket : index.bucket call.operation call.arity = []
    · simp [value_resolve_of_bucket_eq_nil hsubject hbucket, front_eq_nil_of_bucket hbucket,
        Outcome.isAmbiguous]
    · rw [value_resolve_eq hsubject hbucket, Outcome.isAmbiguous_ofFront]
      exact (and_iff_right hsubject).symm
  · rw [value_resolve_of_null (by simpa using hsubject)]
    exact iff_of_false Bool.false_ne_true fun hcontested => hsubject hcontested.1

theorem Answer.isAmbiguous_iff (a : Answer) : a.isAmbiguous = true ↔ a.outcome = "ambiguous" := by
  obtain ⟨call, _ | _ | _⟩ := a <;> simp [Answer.isAmbiguous, Answer.outcome]

/-- An answer is ambiguous exactly if the outcome that it shows is. -/
theorem Answer.Shows.isAmbiguous_iff {a : Answer} {o : Outcome} (h : a.Shows o) :
    a.isAmbiguous = true ↔ o.isAmbiguous = true := by
  rw [Answer.isAmbiguous_iff]
  cases o with
  | matched c => simp [(h.of_matched c rfl).1, Outcome.isAmbiguous]
  | unmatched reason => simp [(h.of_unmatched reason rfl).1, Outcome.isAmbiguous]
  | ambiguous cs => simp [(h.of_ambiguous cs rfl).1, Outcome.isAmbiguous]

/-! ### Manifests -/

/-- Every word of the query is that for a null or a name that the manifest declares. -/
def Query.Known (m : Manifest) (q : Query) : Prop :=
  ∀ n ∈ q.subject :: q.args, n = nullWord ∨ m.Declares n

namespace Manifest

/-- A manifest that can be reported on: its types are accepted one after the other, and then that
of the answers, and its queries use declared names only. Nothing is asked of its modules. -/
structure Runnable (m : Manifest) : Prop where
  accepted : ∃ declared label t, AcceptedEach (.create 0) m.types declared ∧
    declared.declare ⟨labelName, .reference none, []⟩ = .ok (label, t)
  known : ∀ q ∈ m.queries, q.Known m

/-- A query with a subject, and at least two candidates of the manifest's modules that fit it and
that no other one dominates. -/
def Contested (m : Manifest) (q : Query) : Prop :=
  q.subject ≠ nullWord ∧ ∃ p, Probe.ofManifest m none = .ok p ∧
    2 ≤ (p.engine.registry.index.front (q.callIn p.engine.types)).length

/-- The answer is one to the query, and ambiguous exactly if the query is contested. -/
structure Answers (m : Manifest) (q : Query) (a : Answer) : Prop where
  call : a.call = Signature.callText q.operation q.subject q.args
  isAmbiguous_iff : a.isAmbiguous = true ↔ m.Contested q

end Manifest

namespace Probe

variable {m : Manifest} {settings : Option Settings} {p : Probe} {q : Query} {qs : List Query}

/-! ### Runs of queries -/

/-- A probe that knows the names of a manifest, and whose candidates can be reported. -/
structure FilledFrom (m : Manifest) (p : Probe) : Prop where
  underlies : m.Underlies p.engine.types
  faithful : p.engine.Faithful
  labelled : p.engine.registry.index.Labelled

theorem filledFrom_of_ofManifest (hbuilt : ofManifest m settings = .ok p) : p.FilledFrom m := by
  obtain ⟨label, t, huniverse, rfl⟩ := exists_loaded_of_ofManifest hbuilt
  have hunder := Manifest.underlies_universe huniverse
  refine ⟨?_, faithful_loaded _ hunder.indexed _, fun operation arity c hc subject args => ?_⟩
  · let sources := m.modules.map (·.source label)
    have htypes : (loaded (settings.getD m.engine) t sources).engine.types = t :=
      Engine.types_loadMany_source _ _ label
    rwa [htypes]
  · obtain ⟨d, -, entry, -, hknown, himplementation⟩ := Engine.exists_entry_of_mem_bucket hc
    obtain ⟨-, htext, hreturns⟩ := CandidateEntry.reads_and_returns hknown himplementation
    rw [htext]
    exact hreturns subject args

theorem FilledFrom.alike_answer (h : p.FilledFrom m) (q : Query) : (p.answer q).2.Alike p :=
  Alike.answer ⟨rfl, rfl, rfl, h.faithful, h.faithful⟩ q

theorem FilledFrom.answer (h : p.FilledFrom m) (q : Query) : (p.answer q).2.FilledFrom m := by
  have halike := h.alike_answer q
  refine ⟨?_, halike.left, ?_⟩
  · rw [← halike.types]
    exact h.underlies
  · rw [← halike.registry]
    exact h.labelled

theorem FilledFrom.firstUnknown?_eq_none_iff (h : p.FilledFrom m) :
    p.engine.types.firstUnknown? q.refersTo = none ↔ q.Known m := by
  rw [TypeTable.firstUnknown?_eq_none_iff]
  simp only [h.underlies.names, Query.refersTo, List.mem_filter, decide_eq_true_eq, and_imp,
    Query.Known, or_iff_not_imp_left]

/-- The answers show what the calls come to, one for each query in order. -/
theorem FilledFrom.exists_answers (h : p.FilledFrom m) (hknown : ∀ q ∈ qs, q.Known m) :
    ∃ answers, (p.answerAll qs).1 = .ok answers ∧ List.Forall₂ (fun q a =>
      a.call = Signature.callText q.operation q.subject q.args ∧
        a.Shows (p.engine.registry.index.resolve (q.callIn p.engine.types)).value) qs answers := by
  induction qs generalizing p with
  | nil => exact ⟨[], rfl, .nil⟩
  | cons q qs ih =>
    obtain ⟨hresolve, a, ha, hcall, hshows⟩ := exists_answer_of_known h.faithful h.labelled
      (h.firstUnknown?_eq_none_iff.2 (hknown q List.mem_cons_self))
    obtain ⟨answers, hanswers, hall⟩ :=
      ih (h.answer q) fun q' hq' => hknown q' (List.mem_cons_of_mem q hq')
    have halike := h.alike_answer q
    rw [← halike.types, ← halike.registry] at hall
    refine ⟨a :: answers, ?_, .cons ⟨hcall, hresolve ▸ hshows⟩ hall⟩
    rw [answerAll_of_ok ha, hanswers]
    rfl

/-- Which queries are contested does not depend on the settings, and it says which answers are
ambiguous. -/
theorem isAmbiguous_iff_contested (hbuilt : ofManifest m settings = .ok p) (hknown : q.Known m) :
    (p.engine.registry.index.resolve (q.callIn p.engine.types)).value.isAmbiguous = true ↔
      m.Contested q := by
  have hfilled := filledFrom_of_ofManifest hbuilt
  have hsubject : (q.callIn p.engine.types).subject.isSome = true ↔ q.subject ≠ nullWord := by
    rw [Query.callIn, Query.typeIn]
    by_cases hnull : q.subject = nullWord
    · simp [hnull]
    · have hname := (hknown q.subject List.mem_cons_self).resolve_left hnull
      simp [hnull, TypeTable.get?_of_mem_names ((hfilled.underlies.names _).2 hname)]
  obtain ⟨label, t, huniverse, rfl⟩ := exists_loaded_of_ofManifest hbuilt
  have hplain : ofManifest m none = .ok (loaded m.engine t (m.modules.map (·.source label))) := by
    rw [ofManifest_eq, huniverse]
    rfl
  have halike := alike_loaded m.engine (settings.getD m.engine)
    (Manifest.underlies_universe huniverse).indexed (m.modules.map (·.source label))
  rw [isAmbiguous_resolve_iff, hsubject, Manifest.Contested]
  refine and_congr_right fun _ => ?_
  rw [halike.registry, halike.types]
  constructor
  · exact fun htwo => ⟨_, hplain, htwo⟩
  · rintro ⟨p', hp', htwo⟩
    obtain rfl := Except.ok.inj (hplain.symm.trans hp')
    exact htwo

/-- A report answers the queries of the manifest, one after the other. -/
theorem answers_of_report {r : Report} (hbuilt : ofManifest m settings = .ok p)
    (hknown : ∀ q ∈ m.queries, q.Known m) (hr : (p.report m.queries).1 = .ok r) :
    List.Forall₂ m.Answers m.queries r.answers := by
  obtain ⟨answers, hanswers, hall⟩ := (filledFrom_of_ofManifest hbuilt).exists_answers hknown
  rw [report_eq, hanswers] at hr
  obtain rfl := Except.ok.inj hr
  rw [List.forall₂_iff_zip] at hall ⊢
  refine ⟨hall.1, fun {q a} hqa => ?_⟩
  obtain ⟨hcall, hshows⟩ := hall.2 hqa
  have hq := hknown q (List.of_mem_zip hqa).1
  exact ⟨hcall, hshows.isAmbiguous_iff.trans (isAmbiguous_iff_contested hbuilt hq)⟩

end Probe

namespace Command

variable {content : String → Option ByteArray} {path : String} {config : Option String}
  {m : Manifest} {r : Report}

/-! ### Files -/

/-- The file with settings holds settings, if one is named. -/
def Settled (content : String → Option ByteArray) (config : Option String) : Prop :=
  ∀ c, config = some c → ∃ s, Toml.load Settings.parse (content c) = .ok s

/-- The files hold the manifest, and settings if they are asked for, and the manifest can be
reported on. -/
structure Runs (content : String → Option ByteArray) (path : String) (config : Option String)
    (m : Manifest) : Prop where
  manifest : Toml.load Manifest.parse (content path) = .ok m
  settled : Settled content config
  runnable : m.Runnable

/-- The stages of a report. -/
theorem report_eq_ok_iff : report path config content = .ok r ↔
    ∃ m, Toml.load Manifest.parse (content path) = .ok m ∧
      ∃ settings, (config.mapM fun c =>
        (Toml.load Settings.parse (content c)).mapError Failure.settingsFile) = .ok settings ∧
      ∃ p, Probe.ofManifest m settings = .ok p ∧ (p.report m.queries).1 = .ok r := by
  rw [report]
  simp only [except_bind_eq_ok_iff, except_mapError_eq_ok_iff]

theorem Runs.answers (h : Runs content path config m) (hr : report path config content = .ok r) :
    List.Forall₂ m.Answers m.queries r.answers := by
  obtain ⟨m', hmanifest, settings, -, p, hbuilt, hr⟩ := report_eq_ok_iff.1 hr
  obtain rfl := Except.ok.inj (h.manifest.symm.trans hmanifest)
  exact Probe.answers_of_report hbuilt h.runnable.known hr

section

variable {arguments : List String} {environment : Option String} {options : Options}

variable (hrequest : Request.ofArguments arguments environment = .report path options)

include hrequest

end

end Command

end MultiDispatch
