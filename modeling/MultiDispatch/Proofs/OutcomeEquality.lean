import Mathlib.Data.List.Perm.Subperm
import MultiDispatch.Proofs.Holdings
import MultiDispatch.Proofs.OrderIndependence

/-!
# Equality of outcomes

Outcomes are to be equal when they name the same candidates. For ambiguous outcomes the comparison
looks at the lengths of their lists, and whether each candidate of the first list occurs in the
second one. What it does not do is to look for the candidates of the second list in the first.

If no candidate is listed twice this makes no difference: a list without repetitions fills any list
of the same length in which it is contained. But a list that has a candidate twice leaves a place
for another one, and then the first outcome equals the second, and the second not the first.

An index may be given a candidate twice, and names it twice when it reports. An engine numbers what
it publishes and publishes it once, so no outcome of an engine names a candidate twice, and
comparing it with others is the same in both directions.

## Main definitions

* `Outcome.form`, `Outcome.identities`: what the comparison looks at

## Main results

* `Outcome.same_iff`: the comparison, without cases
* `Outcome.same_flip_of_nodup`: outcomes without repetitions may be compared either way
* `named_resolve_subperm`: an outcome names no candidate more often than the index holds it
* `same_up_to_repetition`: how far the comparison is an equality
-/

namespace MultiDispatch

/-- What an outcome says, apart from the candidates that it names. -/
inductive Form where
  | matched
  | unmatched (reason : Unmatched)
  | ambiguous

namespace Outcome

variable {o p q : Outcome}

def form : Outcome → Form
  | .matched _ => .matched
  | .unmatched reason => .unmatched reason
  | .ambiguous _ => .ambiguous

/-- The identities of the candidates that an outcome names. -/
def identities (o : Outcome) : List ℕ :=
  o.named.map Candidate.id

/-! ### What the comparison looks at -/

theorem same_iff : o.same p = true ↔ o.form = p.form ∧
    o.identities.length = p.identities.length ∧ o.identities ⊆ p.identities := by
  have hoccurs (x : Candidate) (ds : List Candidate) :
      (∃ y ∈ ds, x.id = y.id) ↔ ∃ y ∈ ds, y.id = x.id := by simp only [eq_comm]
  cases o <;> cases p <;> simp [same, form, identities, named, List.subset_def, hoccurs]

theorem same_refl (o : Outcome) : o.same o = true :=
  same_iff.2 ⟨rfl, rfl, List.Subset.refl _⟩

theorem same_trans (h : o.same p = true) (h' : p.same q = true) : o.same q = true := by
  obtain ⟨hform, hlength, hsubset⟩ := same_iff.1 h
  obtain ⟨hform', hlength', hsubset'⟩ := same_iff.1 h'
  exact same_iff.2 ⟨hform.trans hform', hlength.trans hlength', List.Subset.trans hsubset hsubset'⟩

/-- Compared the other way round, only inclusion is in question. -/
theorem same_flip_iff (h : o.same p = true) :
    p.same o = true ↔ p.identities ⊆ o.identities := by
  obtain ⟨hform, hlength, -⟩ := same_iff.1 h
  rw [same_iff, hform, hlength]
  exact ⟨fun h => h.2.2, fun h => ⟨rfl, rfl, h⟩⟩

/-- A list without repetitions fills any list of the same length in which it is contained. -/
theorem same_flip_of_nodup (h : o.same p = true) (hnodup : o.identities.Nodup) :
    p.same o = true := by
  obtain ⟨-, hlength, hsubset⟩ := same_iff.1 h
  have hperm := (hnodup.subperm hsubset).perm_of_length_le hlength.ge
  exact (same_flip_iff h).2 hperm.symm.subset

end Outcome

/-! ### What is named twice -/

/-- An outcome names no candidate more often than the index holds it. -/
theorem named_resolve_subperm (index : CandidateIndex) (call : Call) :
    (index.resolve call).value.named.Subperm (index.bucket call.operation call.arity) := by
  cases hs : call.subject with
  | none =>
    rw [value_resolve_of_null hs]
    exact List.nil_subperm
  | some subject =>
    have hsubject : call.subject.isSome = true := by rw [hs, Option.isSome_some]
    by_cases hbucket : index.bucket call.operation call.arity = []
    · rw [value_resolve_of_bucket_eq_nil hsubject hbucket]
      exact List.nil_subperm
    · rw [value_resolve_eq hsubject hbucket]
      have hfront : (index.front call).Sublist (index.bucket call.operation call.arity) :=
        (front_sublist call.positions (index.applicable call)).trans List.filter_sublist
      exact (named_ofFront_perm _).subperm.trans hfront.subperm

/-- No outcome of an engine names a candidate twice, whatever happened before. -/
theorem nodup_identities_resolve (settings : Settings) (tables : ℕ) (ops : List Op) (call : Call) :
    let engine := ((Host.create settings tables).after ops).engine
    (engine.registry.index.resolve call).value.identities.Nodup := by
  intro engine
  have haccounted := Host.accounted_after (h := .create settings tables)
    Host.accounted_of_nothing ops
  have hbucket := haccounted.inStep.nodup_bucket haccounted.consistent call.operation call.arity
  obtain ⟨named, hperm, hsublist⟩ := named_resolve_subperm engine.registry.index call
  exact (hperm.map Candidate.id).nodup_iff.1 (hbucket.sublist (hsublist.map Candidate.id))

/-! ### How far the comparison is an equality -/

/-- **Outcomes are compared up to repetition.** The comparison is reflexive and transitive. An
outcome equals one that it is equal to if and only if it names all that the other names. That is so
if the first one names no candidate twice, and in particular if it is an outcome of an engine. -/
theorem same_up_to_repetition (o p q : Outcome) :
    o.same o = true ∧ (o.same p = true → p.same q = true → o.same q = true) ∧
    (o.same p = true → (p.same o = true ↔ ∀ d ∈ p.named, ∃ c ∈ o.named, c.id = d.id)) ∧
    (o.same p = true → (o.named.map Candidate.id).Nodup → p.same o = true) ∧
    ∀ settings tables ops call,
      let engine := ((Host.create settings tables).after ops).engine
      (engine.registry.index.resolve call).value.same p = true →
        p.same (engine.registry.index.resolve call).value = true := by
  refine ⟨o.same_refl, Outcome.same_trans, fun h => ?_, Outcome.same_flip_of_nodup,
    fun settings tables ops call h => ?_⟩
  · rw [Outcome.same_flip_iff h]
    simp [Outcome.identities, List.subset_def]
  · exact Outcome.same_flip_of_nodup h (nodup_identities_resolve settings tables ops call)

/-- A candidate that was published twice ties with itself. That outcome equals the tie of the
candidate with another one, which does not equal it. -/
theorem same_not_symmetric :
    let a : Candidate := ⟨0, linkTo⟩
    let b : Candidate := ⟨1, linkFrom⟩
    let twice := (CandidateIndex.empty.publishAll [a, a]).resolve linkCall
    let both := (CandidateIndex.empty.publishAll [a, b]).resolve linkCall
    twice.value.same both.value = true ∧ both.value.same twice.value = false := by
  intro a b twice both
  have htwice : twice.value.identities.Perm [0, 0] := (named_ofFront_perm [a, a]).map Candidate.id
  have hboth : both.value.identities.Perm [0, 1] := (named_ofFront_perm [a, b]).map Candidate.id
  constructor
  · have hsubset : ([0, 0] : List ℕ) ⊆ [0, 1] := by decide
    exact Outcome.same_iff.2 ⟨rfl, htwice.length_eq.trans hboth.length_eq.symm, fun id hid =>
      hboth.mem_iff.2 (hsubset (htwice.mem_iff.1 hid))⟩
  · refine Bool.eq_false_iff.2 fun hsame => ?_
    have hone : 1 ∈ twice.value.identities :=
      (Outcome.same_iff.1 hsame).2.2 (hboth.mem_iff.2 (by decide))
    exact absurd (htwice.mem_iff.1 hone) (by decide)

end MultiDispatch
