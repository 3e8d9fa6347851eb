import MultiDispatch.Proofs.Buckets
import MultiDispatch.Proofs.ParetoFront

/-!
# What further candidates change

Candidates are only ever added to an index. To a call the new ones that fit it are entrants: they
join the entries that fit already, and whatever else is added does not matter to the call. Entrants
can push entries off the front and join it, but they never bring an entry back that something else
has beaten. A lonely front entry stays alone exactly if it beats all entrants.

## Where transitivity enters

If the front after the addition is the old winner alone, every entrant is beaten by something, but
what beats it may be another entrant. That it is beaten by the winner too is `mem_front_or_beaten`.

## Main definitions

* `Call.entrants`: the members of a collection that fit a call

## Main results

* `applicable_publishEach`: what fits a call after an addition
* `front_publishEach_eq_singleton_iff`: when a lonely front entry stays alone
* `resolve_growth`: what an addition can make of an outcome
-/

namespace MultiDispatch

variable {index : CandidateIndex} {call : Call} {ps : List Publication} {c d : Candidate}

/-- The members of a collection that offer the call's operation and fit the call, in order. -/
def Call.entrants (call : Call) (cs : List Candidate) : List Candidate :=
  cs.filter fun c => c.operation = call.operation ∧ Accepts call.positions c.signature

theorem Call.mem_entrants {cs : List Candidate} :
    d ∈ call.entrants cs ↔
      d ∈ cs ∧ d.operation = call.operation ∧ Accepts call.positions d.signature := by
  rw [Call.entrants, List.mem_filter, decide_eq_true_iff]

theorem arity_eq_of_accepts (h : Accepts call.positions c.signature) : c.arity = call.arity := by
  have hlen : call.positions.length = c.signature.declared.length := h.length_eq
  rw [Signature.length_declared, Call.positions, List.length_cons] at hlen
  rw [Candidate.arity, ← hlen, Call.arity, Nat.add_comm]

/-- What fits a call after an addition: what fitted it before, and then the entrants. -/
theorem applicable_publishEach (index : CandidateIndex) (ps : List Publication) (call : Call) :
    (index.publishEach ps).applicable call =
      index.applicable call ++ call.entrants (published ps) := by
  rw [CandidateIndex.applicable, CandidateIndex.bucket_publishEach, List.filter_append,
    CandidateIndex.applicable, List.filter_filter, Call.entrants]
  refine congrArg _ (List.filter_congr fun c _ => ?_)
  rw [Candidate.belongs, ← Bool.decide_and, decide_eq_decide]
  constructor
  · rintro ⟨haccepts, hoperation, -⟩
    exact ⟨hoperation, haccepts⟩
  · rintro ⟨hoperation, haccepts⟩
    exact ⟨haccepts, hoperation, arity_eq_of_accepts haccepts⟩

theorem mem_front_iff {positions : List (Option Ty)} {cs : List Candidate} :
    c ∈ front positions cs ↔ c ∈ cs ∧ ∀ d ∈ cs, ¬ Beats positions d c := by
  rw [front_eq_filter, List.mem_filter, decide_eq_true_iff]

/-- An entry of the front after an addition that was there before was in the front before. -/
theorem mem_front_of_mem_front_publishEach (hc : c ∈ (index.publishEach ps).front call)
    (hold : c ∈ index.bucket call.operation call.arity) : c ∈ index.front call := by
  rw [CandidateIndex.front, mem_front_iff, applicable_publishEach] at hc
  rw [CandidateIndex.front, mem_front_iff]
  refine ⟨?_, fun d hd => hc.2 d (List.mem_append_left _ hd)⟩
  have haccepts : Accepts call.positions c.signature := by
    rcases List.mem_append.1 hc.1 with hmem | hmem
    · exact of_decide_eq_true (List.mem_filter.1 hmem).2
    · exact (Call.mem_entrants.1 hmem).2.2
  exact List.mem_filter.2 ⟨hold, decide_eq_true haccepts⟩

/-! ### A lonely front entry -/

theorem front_append_eq_singleton {positions : List (Option Ty)} {cs ds : List Candidate}
    (hfront : front positions cs = [c]) (hbeats : ∀ d ∈ ds, Beats positions c d) :
    front positions (cs ++ ds) = [c] := by
  have hc : c ∈ cs := (mem_front_iff.1 (hfront ▸ List.mem_singleton_self c)).1
  have hentrants : (ds.filter fun d => ∀ e ∈ cs ++ ds, ¬ Beats positions e d) = [] := by
    refine List.filter_eq_nil_iff.2 fun d hd hout => ?_
    exact of_decide_eq_true hout c (List.mem_append_left _ hc) (hbeats d hd)
  have hold : (cs.filter fun e => ∀ d ∈ cs ++ ds, ¬ Beats positions d e) = [c] := by
    rw [← hfront, front_eq_filter]
    refine List.filter_congr fun e he => decide_eq_decide.2 ⟨fun h d hd => ?_, fun h d hd => ?_⟩
    · exact h d (List.mem_append_left _ hd)
    · rcases List.mem_append.1 hd with hd | hd
      · exact h d hd
      · -- Nothing but `c` is in the front, and `c` beats `d`.
        obtain rfl : e = c := by
          have hmem : e ∈ front positions cs := mem_front_iff.2 ⟨he, h⟩
          rwa [hfront, List.mem_singleton] at hmem
        intro hbeaten
        have hasymm := dominates_asymm (hbeats d hd)
        rw [Beats, hasymm] at hbeaten
        cases hbeaten
  rw [front_eq_filter, List.filter_append, hold, hentrants, List.append_nil]

/-- A lonely front entry is not among the entrants again: there would be two of it. -/
theorem notMem_of_front_append_eq_singleton {positions : List (Option Ty)} {cs ds : List Candidate}
    (hfront : front positions (cs ++ ds) = [c]) (hc : c ∈ cs) : c ∉ ds := by
  intro hagain
  have hin : ∀ d ∈ cs ++ ds, ¬ Beats positions d c :=
    (mem_front_iff.1 (hfront ▸ List.mem_singleton_self c)).2
  have hstays : ∀ {es : List Candidate}, c ∈ es →
      0 < (es.filter fun e => ∀ d ∈ cs ++ ds, ¬ Beats positions d e).length := fun hmem =>
    List.length_pos_of_mem (List.mem_filter.2 ⟨hmem, decide_eq_true hin⟩)
  have hlen := congrArg List.length hfront
  rw [front_eq_filter, List.filter_append, List.length_append, List.length_singleton] at hlen
  have hfirst := hstays hc
  have hsecond := hstays hagain
  omega

/-- **A lonely front entry stays alone exactly if it beats all entrants.** -/
theorem front_publishEach_eq_singleton_iff (hfront : index.front call = [c]) :
    (index.publishEach ps).front call = [c] ↔
      ∀ d ∈ call.entrants (published ps), Beats call.positions c d := by
  constructor
  · intro hnew d hd
    have hmem : d ∈ (index.publishEach ps).applicable call := by
      rw [applicable_publishEach]
      exact List.mem_append_right _ hd
    have hc : c ∈ index.applicable call :=
      front_subset_applicable index call c (hfront ▸ List.mem_singleton_self c)
    rcases mem_front_or_beaten hmem with hin | ⟨e, he, hbeats⟩
    · rw [hnew, List.mem_singleton] at hin
      rw [CandidateIndex.front, applicable_publishEach] at hnew
      exact absurd (hin ▸ hd) (notMem_of_front_append_eq_singleton hnew hc)
    · rw [hnew, List.mem_singleton] at he
      rwa [← he]
  · intro hbeats
    rw [CandidateIndex.front, applicable_publishEach]
    exact front_append_eq_singleton hfront hbeats

/-! ### Outcomes -/

/-- Without entrants an outcome changes at most in what it says of an empty bucket. -/
theorem resolve_eq_or_of_entrants_eq_nil (hnone : call.entrants (published ps) = []) :
    ((index.publishEach ps).resolve call).value = (index.resolve call).value ∨
      (index.resolve call).value = .unmatched .noCandidates ∧
        ((index.publishEach ps).resolve call).value = .unmatched .noneApplicable := by
  have happlicable : (index.publishEach ps).applicable call = index.applicable call := by
    rw [applicable_publishEach, hnone, List.append_nil]
  have hfront : (index.publishEach ps).front call = index.front call := by
    rw [CandidateIndex.front, happlicable]
    rfl
  cases hs : call.subject with
  | none => exact .inl (by rw [value_resolve_of_null hs, value_resolve_of_null hs])
  | some subject =>
    have hsubject : call.subject.isSome = true := by rw [hs, Option.isSome_some]
    by_cases hnew : (index.publishEach ps).bucket call.operation call.arity = []
    · have hold : index.bucket call.operation call.arity = [] := by
        rw [CandidateIndex.bucket_publishEach] at hnew
        exact (List.append_eq_nil_iff.1 hnew).1
      rw [value_resolve_of_bucket_eq_nil hsubject hnew,
        value_resolve_of_bucket_eq_nil hsubject hold]
      exact .inl rfl
    · by_cases hold : index.bucket call.operation call.arity = []
      · rw [value_resolve_of_bucket_eq_nil hsubject hold, value_resolve_eq hsubject hnew, hfront,
          front_eq_nil_of_bucket hold]
        exact .inr ⟨rfl, rfl⟩
      · rw [value_resolve_eq hsubject hold, value_resolve_eq hsubject hnew, hfront]
        exact .inl rfl

/-- **What an addition can make of an outcome.** Without entrants the outcome stays what it is,
except that an empty bucket may become one in which nothing fits. What could be called, or was
ambiguous, does not become unmatched. A candidate that was there before is named only if it was
named before. A match stays the same match exactly if its candidate beats all entrants. -/
theorem resolve_growth (index : CandidateIndex) (ps : List Publication) (call : Call) :
    let before := (index.resolve call).value
    let after := ((index.publishEach ps).resolve call).value
    let entrants := call.entrants (published ps)
    (entrants = [] → after = before ∨
      before = .unmatched .noCandidates ∧ after = .unmatched .noneApplicable) ∧
    (before.isUnmatched = false → after.isUnmatched = false) ∧
    (∀ c ∈ after.named, c ∈ index.bucket call.operation call.arity → c ∈ before.named) ∧
    ∀ c, before = .matched c →
      (after = .matched c ↔ ∀ d ∈ entrants, Beats call.positions c d) := by
  intro before after entrants
  refine ⟨resolve_eq_or_of_entrants_eq_nil, fun hbefore => ?_, fun c hc hold => ?_,
    fun c hbefore => ?_⟩
  · obtain ⟨hsubject, hsome⟩ := isUnmatched_resolve_eq_false_iff.1 hbefore
    refine isUnmatched_resolve_eq_false_iff.2 ⟨hsubject, ?_⟩
    rw [applicable_publishEach]
    exact List.append_ne_nil_of_left_ne_nil hsome _
  · obtain ⟨hsubject, hfront⟩ := mem_named_resolve_iff.1 hc
    exact mem_named_resolve_iff.2 ⟨hsubject, mem_front_of_mem_front_publishEach hfront hold⟩
  · obtain ⟨hsubject, hfront⟩ := resolve_eq_matched_iff.1 hbefore
    rw [← front_publishEach_eq_singleton_iff hfront, resolve_eq_matched_iff]
    exact ⟨fun h => h.2, fun h => ⟨hsubject, h⟩⟩

/-- A candidate for the universal type of the first table. -/
def showAny : Candidate :=
  ⟨0, ⟨⟨"show", .universal 0, []⟩, Body.subject⟩⟩

/-- A candidate for another type. -/
def showOther : Candidate :=
  ⟨1, ⟨⟨"show", .universal 1, []⟩, Body.subject⟩⟩

/-- The closer one of two candidates wins, whichever comes first. -/
theorem resolve_growth_show :
    let call : Call := ⟨"show", some (.universal 1), []⟩
    let any := CandidateIndex.empty.publish showAny
    let other := CandidateIndex.empty.publish showOther
    (any.resolve call).value = .matched showAny ∧
      ((any.publishEach [.single showOther]).resolve call).value ≠ .matched showAny ∧
      (other.resolve call).value = .matched showOther ∧
      ((other.publishEach [.single showAny]).resolve call).value = .matched showOther := by
  intro call any other
  obtain ⟨-, -, -, hany⟩ := resolve_growth any [.single showOther] call
  obtain ⟨-, -, -, hother⟩ := resolve_growth other [.single showAny] call
  refine ⟨rfl, fun hstays => ?_, rfl, (hother showOther rfl).2 fun d hd => ?_⟩
  · have hentrant : showOther ∈ call.entrants (published [.single showOther]) :=
      Call.mem_entrants.2 ⟨List.mem_singleton_self showOther, rfl, by decide⟩
    exact absurd ((hany showAny rfl).1 hstays showOther hentrant) (by decide)
  · obtain rfl : d = showAny := List.mem_singleton.1 (Call.mem_entrants.1 hd).1
    decide

end MultiDispatch
