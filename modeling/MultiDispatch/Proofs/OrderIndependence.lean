import MultiDispatch.Proofs.Offers
import MultiDispatch.Proofs.ParetoFront
import MultiDispatch.Universe.Declaration

/-!
# The order of publication is without influence

The outcome of a call depends on which candidates there are and on nothing else: not on the order in
which they were published, and not on the batches in which this was done. The resolver looks for the
first candidate that dominates all others and sorts what it reports stably, so it works by position
throughout; but the front is defined without positions, and it settles the outcome.

## What corresponds

Two indexes with the same candidates name the same candidates. Two registries that were offered
modules in different orders gave different numbers to candidates that are otherwise the same, so
there it is the implementations that agree. Both are the same statement about a `view` of candidates
that shows at least their signatures.

## Main definitions

* `Outcome.Corresponds`: two outcomes agree on what is seen of their candidates

## Main results

* `perm_front`: the front of a rearranged list is the front rearranged
* `corresponds_of_perm`: rearranged buckets lead to corresponding outcomes
* `order_without_influence`: for publications of candidates and for registrations of modules
-/

namespace MultiDispatch

/-- Two outcomes are of one kind, give the same reason, and name candidates that look the same,
equally often, and are reported by the same texts in the same order. -/
def Outcome.Corresponds {α : Type} (view : Candidate → α) : Outcome → Outcome → Prop
  | .matched c, .matched d => view c = view d
  | .unmatched reason, .unmatched reason' => reason = reason'
  | .ambiguous cs, .ambiguous ds =>
    (cs.map view).Perm (ds.map view) ∧ cs.map Candidate.text = ds.map Candidate.text
  | _, _ => False

section

variable {α : Type} {view : Candidate → α} {seen : α → Signature} {positions : List (Option Ty)}
  {cs ds : List Candidate} {index index' : CandidateIndex} {call : Call}

variable (hview : ∀ c, seen (view c) = c.signature)

include hview

/-! ### Rearranged lists -/

theorem map_view_accepting (positions : List (Option Ty)) (cs : List Candidate) :
    (cs.filter fun c => Accepts positions c.signature).map view =
      (cs.map view).filter fun a => Accepts positions (seen a) := by
  rw [List.filter_map]
  refine congrArg _ (List.filter_congr fun c _ => ?_)
  rw [Function.comp_apply, hview]

/-- The front is settled by what is seen of the candidates. -/
theorem map_view_front (positions : List (Option Ty)) (cs : List Candidate) :
    (front positions cs).map view = (cs.map view).filter fun a => ∀ b ∈ cs.map view,
      ¬ dominates (verdictsOn positions (seen b)) (verdictsOn positions (seen a)) = true := by
  rw [front_eq_filter, List.filter_map]
  refine congrArg _ (List.filter_congr fun c _ => decide_eq_decide.2 ?_)
  rw [List.forall_mem_map]
  simp only [hview, Beats]

theorem perm_front (h : (cs.map view).Perm (ds.map view)) :
    ((front positions cs).map view).Perm ((front positions ds).map view) := by
  rw [map_view_front hview, map_view_front hview]
  have hbeaten : ((ds.map view).filter fun a => ∀ b ∈ ds.map view,
        ¬ dominates (verdictsOn positions (seen b)) (verdictsOn positions (seen a)) = true) =
      (ds.map view).filter fun a => ∀ b ∈ cs.map view,
        ¬ dominates (verdictsOn positions (seen b)) (verdictsOn positions (seen a)) = true :=
    List.filter_congr fun a _ => decide_eq_decide.2 <| forall_congr' fun b =>
      imp_congr_left h.mem_iff.symm
  rw [hbeaten]
  exact h.filter _

/-- Sorting by text leaves nothing of the old order in the texts. -/
theorem map_text_sortByText (h : (cs.map view).Perm (ds.map view)) :
    (sortByText cs).map Candidate.text = (sortByText ds).map Candidate.text := by
  have htext : ∀ cs : List Candidate,
      cs.map Candidate.text = (cs.map view).map fun a => (seen a).text := by
    intro cs
    rw [List.map_map]
    exact List.map_congr_left fun c _ => (congrArg Signature.text (hview c)).symm
  have hordered : ∀ cs : List Candidate,
      ((sortByText cs).map Candidate.text).Pairwise fun a b => a ≤ b := fun cs =>
    List.pairwise_map.2 (stablySorted_sortByText cs).ordered
  have hperm : ((sortByText cs).map Candidate.text).Perm ((sortByText ds).map Candidate.text) := by
    refine ((stablySorted_sortByText cs).perm.map _).trans (.trans ?_
      ((stablySorted_sortByText ds).perm.map _).symm)
    rw [htext, htext]
    exact h.map _
  exact hperm.eq_of_pairwise (fun _ _ _ _ hab hba => le_antisymm hab hba) (hordered cs)
    (hordered ds)

theorem corresponds_ofFront (h : (cs.map view).Perm (ds.map view)) :
    (Outcome.ofFront cs).Corresponds view (Outcome.ofFront ds) := by
  have hlen : cs.length = ds.length := by simpa using h.length_eq
  match cs, ds with
  | [], [] => rfl
  | [c], [d] => exact List.cons.inj (List.perm_singleton.1 h) |>.1
  | c :: c' :: rest, d :: d' :: rest' =>
    refine ⟨?_, map_text_sortByText hview h⟩
    exact ((stablySorted_sortByText _).perm.map view).trans
      (h.trans ((stablySorted_sortByText _).perm.map view).symm)
  | [], d :: rest => cases hlen
  | c :: rest, [] => cases hlen
  | [c], d :: d' :: rest => simp at hlen
  | c :: c' :: rest, [d] => simp at hlen

/-! ### Outcomes -/

/-- **Rearranged buckets lead to corresponding outcomes.** -/
theorem corresponds_of_perm (h : ((index.bucket call.operation call.arity).map view).Perm
      ((index'.bucket call.operation call.arity).map view)) :
    (index.resolve call).value.Corresponds view (index'.resolve call).value := by
  cases hs : call.subject with
  | none =>
    rw [value_resolve_of_null hs, value_resolve_of_null hs]
    rfl
  | some subject =>
    have hsubject : call.subject.isSome = true := by rw [hs, Option.isSome_some]
    have hnil : index.bucket call.operation call.arity = [] ↔
        index'.bucket call.operation call.arity = [] := by
      have hlen := h.length_eq
      rw [List.length_map, List.length_map] at hlen
      rw [← List.length_eq_zero_iff, ← List.length_eq_zero_iff, hlen]
    by_cases hbucket : index.bucket call.operation call.arity = []
    · rw [value_resolve_of_bucket_eq_nil hsubject hbucket,
        value_resolve_of_bucket_eq_nil hsubject (hnil.1 hbucket)]
      rfl
    · rw [value_resolve_eq hsubject hbucket, value_resolve_eq hsubject (mt hnil.2 hbucket)]
      refine corresponds_ofFront hview (perm_front hview ?_)
      rw [CandidateIndex.applicable, CandidateIndex.applicable, map_view_accepting hview,
        map_view_accepting hview]
      exact h.filter _

end

/-- The buckets of a registry that was offered different modules. -/
theorem map_implementation_bucket_considerEach {os : List Offer}
    (hnodup : (os.map Offer.module).Nodup) (operation : String) (arity : ℕ) :
    ((Registry.empty.considerEach os).index.bucket operation arity).map Candidate.implementation =
      (os.flatMap Offer.accepted).filter fun x =>
        x.signature.operation = operation ∧ x.signature.arity = arity := by
  have hconsistent : (Registry.empty.considerEach os).Consistent :=
    (Registry.later_considerEach _ os).consistent Registry.consistent_of_modules_eq_nil
  have hcontributed : (Registry.empty.considerEach os).contributed.map Candidate.implementation =
      os.flatMap Offer.accepted :=
    Registry.map_implementation_contributed hnodup fun _ _ => rfl
  rw [hconsistent.buckets, ← hcontributed, List.filter_map]
  rfl

/-- **Order is without influence.** Publications of the same candidates, in whatever order and
batches, lead to corresponding outcomes of every call. So do offers for different modules of which
the same implementations are accepted, in whatever order the modules, and the implementations within
a module, are offered. -/
theorem order_without_influence (call : Call) :
    (∀ ps qs : List Publication, (published ps).Perm (published qs) →
      Outcome.Corresponds id ((CandidateIndex.empty.publishEach ps).resolve call).value
        ((CandidateIndex.empty.publishEach qs).resolve call).value) ∧
    ∀ os os' : List Offer, (os.map Offer.module).Nodup → (os'.map Offer.module).Nodup →
      (os.flatMap Offer.accepted).Perm (os'.flatMap Offer.accepted) →
      Outcome.Corresponds Candidate.implementation
        ((Registry.empty.considerEach os).index.resolve call).value
        ((Registry.empty.considerEach os').index.resolve call).value := by
  constructor
  · intro ps qs hperm
    have hseen : ∀ c, Candidate.signature (id c) = c.signature := fun _ => rfl
    refine corresponds_of_perm hseen ?_
    rw [CandidateIndex.bucket_publishEach, CandidateIndex.bucket_publishEach]
    exact ((hperm.filter _).append_left _).map id
  · intro os os' hnodup hnodup' hperm
    have hseen : ∀ c, Implementation.signature (Candidate.implementation c) = c.signature :=
      fun _ => rfl
    refine corresponds_of_perm hseen ?_
    rw [map_implementation_bucket_considerEach hnodup,
      map_implementation_bucket_considerEach hnodup']
    exact hperm.filter _

/-! ### Two candidates that cross -/

/-- A class of the first table. -/
def node : Ty :=
  Declaration.toTy ⟨"Node", .reference none, []⟩ ⟨0, 1⟩

/-- An implementation that is specific in its parameter. -/
def linkTo : Implementation :=
  ⟨⟨"link", .universal 0, [node]⟩, Body.subject⟩

/-- An implementation that is specific in its subject. -/
def linkFrom : Implementation :=
  ⟨⟨"link", node, [.universal 0]⟩, Body.subject⟩

/-- A call that both implementations fit. -/
def linkCall : Call :=
  ⟨"link", some node, [some node]⟩

/-- A candidate that is published twice is named twice, whenever that was, and modules may come in
either order. -/
theorem order_without_influence_link :
    let a : Candidate := ⟨0, linkTo⟩
    let b : Candidate := ⟨1, linkFrom⟩
    let together := (CandidateIndex.empty.publishEach [.batch [a, a], .single b]).resolve linkCall
    let apart := (CandidateIndex.empty.publishEach [.single a, .batch [b, a]]).resolve linkCall
    let offers : List Offer := [⟨⟨[1]⟩, [linkTo]⟩, ⟨⟨[2]⟩, [linkFrom]⟩]
    together.value.isAmbiguous = true ∧ together.value.named.Perm [a, a, b] ∧
      together.value.Corresponds id apart.value ∧
      Outcome.Corresponds Candidate.implementation
        ((Registry.empty.considerEach offers).index.resolve linkCall).value
        ((Registry.empty.considerEach offers.reverse).index.resolve linkCall).value := by
  intro a b together apart offers
  obtain ⟨hpublications, hoffers⟩ := order_without_influence linkCall
  have htogether : together.value = .ambiguous (sortByText [a, a, b]) := rfl
  refine ⟨rfl, ?_, hpublications _ _ (.cons a (.swap b a [])), ?_⟩
  · rw [htogether]
    exact (stablySorted_sortByText [a, a, b]).perm
  · exact hoffers offers offers.reverse (by decide) (by decide) (.swap linkFrom linkTo [])

end MultiDispatch
