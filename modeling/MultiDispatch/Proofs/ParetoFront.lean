import Mathlib.Data.List.Forall2
import Mathlib.Data.String.Basic
import MultiDispatch.Proofs.Dominance
import MultiDispatch.Proofs.StableSort
import MultiDispatch.Resolution.Resolve

/-!
# Resolution is the Pareto front

A call is resolved by looking for one candidate that dominates every other one, and only if there is
none by collecting those that nothing dominates. The two searches are about the same set: the front,
the candidates that fit and that no other fitting one dominates. A call is matched exactly when its
front is a single entry, and ambiguous between the front otherwise.

## Where transitivity enters

That a lonely front entry dominates everything is the one step that is not a matter of unfolding.
Each entry off the front is dominated by another one, which may itself be off the front; following
the dominators ends because the list is finite and dominance is a strict order, and it ends in the
front. The order needs aligned verdicts (`Dominance`), and the verdicts on the candidates that fit
one call are aligned.

## Entries and candidates

A bucket may hold a candidate twice. Fronts are therefore taken of places in a list, not of sets of
candidates. Two places of one candidate never dominate each other, so both are in the front or
neither is.

## Main definitions

* `Accepts`, `CandidateIndex.applicable`: the entries of a bucket that a call fits
* `Beats`, `front`: dominance for a call, and the entries that no other one beats
* `Outcome.ofFront`: the outcome that a front stands for

## Main results

* `exists_undominated`: whatever is dominated is dominated from the front
* `select_applicable`: the choice among the fitting entries, read off their front
* `resolve_eq_front`: the outcome of a call, by its front
* `mem_named_resolve_iff`, `resolve_eq_matched_iff`: what an outcome says, read off the front
-/

namespace MultiDispatch

variable {positions : List (Option Ty)} {s t : Signature} {c d e : Candidate}

/-! ### Fitting a call -/

/-- Every position of a call is compatible with the type that a signature declares there, and both
have the same number of positions. -/
def Accepts (positions : List (Option Ty)) (s : Signature) : Prop :=
  List.Forall₂ (fun runtime declared => (judge runtime declared).isCompatible = true)
    positions s.declared

instance (positions : List (Option Ty)) (s : Signature) : Decidable (Accepts positions s) :=
  inferInstanceAs (Decidable (List.Forall₂ _ _ _))

/-- The verdicts of a call on the types that a signature declares. -/
def verdictsOn (positions : List (Option Ty)) (s : Signature) : List Verdict :=
  List.zipWith judge positions s.declared

theorem except_map_eq_ok_iff {ε α β : Type} {f : α → β} {x : Except ε α} {b : β} :
    x.map f = .ok b ↔ ∃ a, x = .ok a ∧ f a = b := by
  cases x <;> simp [Except.map]

theorem assessFrom_eq_ok_iff {start : ℕ} {rs : List (Option Ty)} {ds : List Ty}
    {verdicts : List Verdict} :
    assessFrom start rs ds = .ok verdicts ↔
      (∀ p ∈ rs.zip ds, (judge p.1 p.2).isCompatible = true) ∧
        List.zipWith judge rs ds = verdicts := by
  induction rs generalizing start ds verdicts with
  | nil => simp only [assessFrom]; simp
  | cons r rs ih =>
    cases ds with
    | nil => simp only [assessFrom]; simp
    | cons d ds =>
      rw [assessFrom, List.zip_cons_cons, List.forall_mem_cons, List.zipWith_cons_cons]
      by_cases h : (judge r d).isCompatible = true
      · rw [if_pos h, except_map_eq_ok_iff]
        constructor
        · rintro ⟨vs, hvs, rfl⟩
          obtain ⟨hall, rfl⟩ := ih.1 hvs
          exact ⟨⟨h, hall⟩, rfl⟩
        · rintro ⟨⟨-, hall⟩, rfl⟩
          exact ⟨_, ih.2 ⟨hall, rfl⟩, rfl⟩
      · rw [if_neg h]
        exact ⟨nofun, fun hall => absurd hall.1.1 h⟩

theorem assess_eq_ok_iff {verdicts : List Verdict} :
    assess s positions = .ok verdicts ↔
      Accepts positions s ∧ verdictsOn positions s = verdicts := by
  have hmap : ∀ x : Except ℕ (List Verdict), x.mapError Refusal.position = .ok verdicts ↔
      x = .ok verdicts := by
    rintro (i | v) <;> simp [Except.mapError]
  rw [Accepts, List.forall₂_iff_zip, assess, Signature.length_declared]
  by_cases hlen : positions.length = s.arity
  · rw [if_pos hlen, hmap, assessFrom_eq_ok_iff]
    exact ⟨fun h => ⟨⟨hlen, fun hm => h.1 _ hm⟩, h.2⟩, fun h => ⟨fun _ hm => h.1.2 hm, h.2⟩⟩
  · rw [if_neg hlen]
    exact ⟨nofun, fun h => absurd h.1.1 hlen⟩

/-! ### Aligned verdicts -/

theorem isSome_tier?_judge {r : Option Ty} {d : Ty} (h : (judge r d).isCompatible = true) :
    (judge r d).tier?.isSome = r.isSome := by
  cases r with
  | none => by_cases hv : d.isValue = true <;> simp_all [judge, Verdict.isCompatible, Verdict.tier?]
  | some r =>
    cases hj : judge (some r) d with
    | incompatible => simp [hj, Verdict.isCompatible] at h
    | tier t => rfl
    | wildcard =>
      rw [judge] at hj
      split_ifs at hj

/-- The tiers of fitting verdicts stand where the call has no null. -/
theorem isSome_tierAt?_verdictsOn (h : Accepts positions s) (i : ℕ) :
    (tierAt? (verdictsOn positions s) i).isSome = (positions[i]?.join).isSome := by
  rw [verdictsOn]
  rw [Accepts] at h
  generalize s.declared = ds at h
  induction h generalizing i with
  | nil => simp
  | cons hrd _ ih =>
    cases i with
    | zero => simpa using isSome_tier?_judge hrd
    | succ i => simpa using ih i

theorem aligned_verdictsOn (hs : Accepts positions s) (ht : Accepts positions t) :
    Aligned (verdictsOn positions s) (verdictsOn positions t) := fun i => by
  rw [isSome_tierAt?_verdictsOn hs, isSome_tierAt?_verdictsOn ht]

/-! ### The front of a list of fits -/

/-- Fits with verdicts on one call, of which any two are aligned. -/
def AllAligned (found : List Fit) : Prop :=
  ∀ a ∈ found, ∀ b ∈ found, Aligned a.verdicts b.verdicts

theorem mem_undominated_iff {found : List Fit} {a : Fit} :
    a ∈ undominated found ↔ a ∈ found ∧ ∀ b ∈ found, dominates b.verdicts a.verdicts = false := by
  simp [undominated]

/-- **Whatever is dominated is dominated from the front.** By induction on the number of
dominators: a dominator of `a` has fewer of them than `a`, since all of them dominate `a` too and it
is not one of its own. -/
theorem exists_undominated {found : List Fit} (h : AllAligned found) {a : Fit} (ha : a ∈ found) :
    ∃ m ∈ undominated found, m = a ∨ dominates m.verdicts a.verdicts = true := by
  let dominators (x : Fit) := found.filter fun y => dominates y.verdicts x.verdicts
  induction hn : (dominators a).length using Nat.strongRecOn generalizing a with
  | _ n ih =>
    by_cases hfront : a ∈ undominated found
    · exact ⟨a, hfront, .inl rfl⟩
    · obtain ⟨b, hb, hba⟩ : ∃ b ∈ found, dominates b.verdicts a.verdicts = true := by
        simpa [mem_undominated_iff, ha] using hfront
      have hsub : dominators b =
          (dominators a).filter fun y => dominates y.verdicts b.verdicts := by
        rw [List.filter_filter]
        refine List.filter_congr fun y hy => ?_
        cases hyb : dominates y.verdicts b.verdicts with
        | false => rfl
        | true => simp [dominates_trans (h y hy b hb) (h b hb a ha) hyb hba]
      have hfewer : (dominators b).length < n := by
        rw [← hn, hsub, List.length_filter_lt_length_iff_exists]
        exact ⟨b, List.mem_filter.2 ⟨hb, hba⟩, by simp [dominates_irrefl]⟩
      obtain ⟨m, hm, hmb⟩ := ih _ hfewer hb rfl
      refine ⟨m, hm, .inr ?_⟩
      rcases hmb with rfl | hmb
      · exact hba
      · have hmf := (mem_undominated_iff.1 hm).1
        exact dominates_trans (h m hmf b hb) (h b hb a ha) hmb hba

/-- An entry that dominates every other one is alone in the front. -/
theorem undominated_eq_singleton {before after : List Fit} {w : Fit}
    (hw : ∀ x ∈ before ++ after, dominates w.verdicts x.verdicts = true) :
    undominated (before ++ w :: after) = [w] := by
  have hout : ∀ x ∈ before ++ after, ((before ++ w :: after).any fun other =>
      dominates other.verdicts x.verdicts) = true := fun x hx =>
    List.any_eq_true.2 ⟨w, by simp, hw x hx⟩
  have hin : ((before ++ w :: after).any fun other =>
      dominates other.verdicts w.verdicts) = false := by
    rw [List.any_eq_false]
    intro x hx
    rw [Bool.not_eq_true]
    rcases List.mem_append.1 hx with hx | hx
    · exact dominates_asymm (hw x (List.mem_append_left _ hx))
    · rcases List.mem_cons.1 hx with rfl | hx
      · exact dominates_irrefl _
      · exact dominates_asymm (hw x (List.mem_append_right _ hx))
  rw [undominated, List.filter_append, List.filter_cons_of_pos (by rw [hin]; rfl),
    List.filter_eq_nil_iff.2 fun x hx => by simp [hout x (List.mem_append_left _ hx)],
    List.filter_eq_nil_iff.2 fun x hx => by simp [hout x (List.mem_append_right _ hx)]]
  rfl

theorem winner?_eq_some {found : List Fit} {w : Fit} (hw : winner? found = some w) :
    undominated found = [w] := by
  obtain ⟨⟨w, i⟩, hfind, rfl⟩ := Option.map_eq_some_iff.1 hw
  have hi : found[i]? = some w := List.mem_zipIdx_iff_getElem?.1 (List.mem_of_find?_eq_some hfind)
  have hall : ((found.eraseIdx i).all fun x => dominates w.verdicts x.verdicts) = true :=
    List.find?_some (p := fun p : Fit × ℕ =>
      (found.eraseIdx p.2).all fun x => dominates p.1.verdicts x.verdicts) hfind
  obtain ⟨hlt, rfl⟩ := List.getElem?_eq_some_iff.1 hi
  rw [List.eraseIdx_eq_take_drop_succ, List.all_eq_true] at hall
  have hsplit : found = found.take i ++ found[i] :: found.drop (i + 1) := by
    rw [← List.drop_eq_getElem_cons hlt, List.take_append_drop]
  exact (congrArg undominated hsplit).trans (undominated_eq_singleton hall)

/-- A search that fails leaves the front with more than one entry. -/
theorem winner?_ne_none {found : List Fit} (h : AllAligned found) {w : Fit}
    (hw : undominated found = [w]) : winner? found ≠ none := by
  obtain ⟨before, after, rfl, hbefore, -, hafter⟩ := List.filter_eq_cons_iff.1 hw
  have hbeats : ∀ x ∈ before ++ after, dominates w.verdicts x.verdicts = true := by
    intro x hx
    have hout : x ∉ undominated (before ++ w :: after) := by
      rw [undominated, List.mem_filter]
      rintro ⟨-, hxf⟩
      rcases List.mem_append.1 hx with hx | hx
      · exact hbefore x hx hxf
      · exact List.filter_eq_nil_iff.1 hafter x hx hxf
    have hmem : x ∈ before ++ w :: after := by
      rcases List.mem_append.1 hx with hx | hx <;> simp [hx]
    obtain ⟨m, hm, hmx⟩ := exists_undominated h hmem
    obtain rfl : m = w := by simpa [hw] using hm
    exact hmx.resolve_left fun he => hout (he ▸ hm)
  have hfound : (w, before.length) ∈ (before ++ w :: after).zipIdx :=
    List.mem_zipIdx_iff_getElem?.2 (by simp)
  rw [winner?, Ne, Option.map_eq_none_iff, List.find?_eq_none]
  intro hnone
  refine hnone _ hfound (List.all_eq_true.2 fun x hx => hbeats x ?_)
  simpa [List.eraseIdx_append_of_length_le] using hx

/-! ### The choice among fits -/

theorem select_cons_cons (a b : Fit) (rest : List Fit) :
    select (a :: b :: rest) = match winner? (a :: b :: rest) with
      | some best => .matched best.candidate
      | none => .ambiguous (sortByText ((undominated (a :: b :: rest)).map Fit.candidate)) :=
  rfl

theorem select_eq_matched {found : List Fit} (h : AllAligned found) {m : Fit}
    (hm : undominated found = [m]) : select found = .matched m.candidate := by
  match found, h, hm with
  | [], _, hm => simp [undominated] at hm
  | [only], _, hm =>
    have hmem := (mem_undominated_iff.1 (hm ▸ List.mem_singleton_self m)).1
    rw [List.mem_singleton.1 hmem]
    rfl
  | a :: b :: rest, h, hm =>
    obtain ⟨w, hw⟩ := Option.ne_none_iff_exists'.1 (winner?_ne_none h hm)
    obtain rfl : w = m := by simpa [winner?_eq_some hw] using hm
    rw [select_cons_cons, hw]

theorem select_eq_ambiguous {found : List Fit} (hm : 2 ≤ (undominated found).length) :
    select found = .ambiguous (sortByText ((undominated found).map Fit.candidate)) := by
  have hlen : 2 ≤ found.length := Nat.le_trans hm (List.length_filter_le _ _)
  match found, hm, hlen with
  | a :: b :: rest, hm, _ =>
    rw [select_cons_cons]
    cases hw : winner? (a :: b :: rest) with
    | none => rfl
    | some w =>
      rw [winner?_eq_some hw] at hm
      exact absurd hm (by simp)

/-! ### The front of a call -/

/-- `c` dominates `d` for a call. -/
def Beats (positions : List (Option Ty)) (c d : Candidate) : Prop :=
  dominates (verdictsOn positions c.signature) (verdictsOn positions d.signature) = true

instance (positions : List (Option Ty)) (c d : Candidate) : Decidable (Beats positions c d) :=
  inferInstanceAs (Decidable (_ = true))

/-- The entries of a list that no other entry of it beats. An entry is a place in the list. -/
def front (positions : List (Option Ty)) (cs : List Candidate) : List Candidate :=
  (cs.zipIdx.filter fun p => ∀ q ∈ cs.zipIdx, q.2 ≠ p.2 → ¬ Beats positions q.1 p.1).map Prod.fst

theorem front_sublist (positions : List (Option Ty)) (cs : List Candidate) :
    (front positions cs).Sublist cs := by
  have hplaces := (List.filter_sublist (l := cs.zipIdx)
    (p := fun p => ∀ q ∈ cs.zipIdx, q.2 ≠ p.2 → ¬ Beats positions q.1 p.1)).map Prod.fst
  rwa [List.zipIdx_map_fst] at hplaces

/-- The entries of a call's bucket that fit the call, in order. -/
def CandidateIndex.applicable (index : CandidateIndex) (call : Call) : List Candidate :=
  (index.bucket call.operation call.arity).filter fun c => Accepts call.positions c.signature

/-- The entries that fit a call and that no other fitting entry beats, in order. -/
def CandidateIndex.front (index : CandidateIndex) (call : Call) : List Candidate :=
  MultiDispatch.front call.positions (index.applicable call)

/-- No entry beats its own candidate, so leaving itself out makes no difference. -/
theorem front_eq_filter (positions : List (Option Ty)) (cs : List Candidate) :
    front positions cs = cs.filter fun c => ∀ d ∈ cs, ¬ Beats positions d c := by
  have hpred : ∀ p ∈ cs.zipIdx, (∀ q ∈ cs.zipIdx, q.2 ≠ p.2 → ¬ Beats positions q.1 p.1) ↔
      ∀ d ∈ cs, ¬ Beats positions d p.1 := by
    intro p hp
    have hp' := List.mem_zipIdx_iff_getElem?.1 hp
    constructor
    · intro h d hd
      obtain ⟨j, hj⟩ := List.mem_iff_getElem?.1 hd
      by_cases hjp : j = p.2
      · obtain rfl : d = p.1 := by simpa [hjp, hp'] using hj.symm
        simp [Beats, dominates_irrefl]
      · exact h (d, j) (List.mem_zipIdx_iff_getElem?.2 hj) hjp
    · intro h q hq _
      exact h q.1 (List.mem_of_getElem? (List.mem_zipIdx_iff_getElem?.1 hq))
  calc front positions cs
      = (cs.zipIdx.filter fun p => ∀ d ∈ cs, ¬ Beats positions d p.1).map Prod.fst := by
        rw [front, List.filter_congr fun p hp => decide_eq_decide.2 (hpred p hp)]
    _ = (cs.zipIdx.map Prod.fst).filter fun c => ∀ d ∈ cs, ¬ Beats positions d c := by
        rw [List.filter_map]
        rfl
    _ = cs.filter fun c => ∀ d ∈ cs, ¬ Beats positions d c := by rw [List.zipIdx_map_fst]

/-- A candidate with its verdicts on a call. -/
def fitOn (positions : List (Option Ty)) (c : Candidate) : Fit :=
  ⟨c, verdictsOn positions c.signature⟩

theorem value_fits (positions : List (Option Ty)) (cs : List Candidate) :
    (fits positions cs).value =
      (cs.filter fun c => Accepts positions c.signature).map (fitOn positions) := by
  induction cs with
  | nil => rfl
  | cons c rest ih =>
    cases hc : assess c.signature positions with
    | ok verdicts =>
      obtain ⟨haccepts, rfl⟩ := assess_eq_ok_iff.1 hc
      rw [fits, hc, List.filter_cons_of_pos (by simpa using haccepts), List.map_cons, ← ih]
      rfl
    | error refusal =>
      have hno : ¬ Accepts positions c.signature := fun h => by
        rw [assess_eq_ok_iff.2 ⟨h, rfl⟩] at hc
        cases hc
      rw [fits, hc, List.filter_cons_of_neg (by simpa using hno), ← ih]
      cases refusal <;> rfl

theorem allAligned_applicable (index : CandidateIndex) (call : Call) :
    AllAligned ((index.applicable call).map (fitOn call.positions)) := by
  intro a ha b hb
  obtain ⟨c, hc, rfl⟩ := List.mem_map.1 ha
  obtain ⟨d, hd, rfl⟩ := List.mem_map.1 hb
  exact aligned_verdictsOn (by simpa using (List.mem_filter.1 hc).2)
    (by simpa using (List.mem_filter.1 hd).2)

theorem undominated_map_fitOn (positions : List (Option Ty)) (cs : List Candidate) :
    undominated (cs.map (fitOn positions)) = (front positions cs).map (fitOn positions) := by
  rw [undominated, front_eq_filter, List.filter_map]
  refine congrArg _ (List.filter_congr fun c _ => Bool.eq_iff_iff.2 ?_)
  simp [fitOn, Beats]

/-! ### The outcome of a call -/

theorem stablySorted_sortByText (cs : List Candidate) :
    StablySorted Candidate.text cs (sortByText cs) :=
  stablySorted_mergeSort Candidate.text cs

theorem value_resolve_of_bucket_eq_nil {index : CandidateIndex} {call : Call}
    (hsubject : call.subject.isSome = true)
    (hbucket : index.bucket call.operation call.arity = []) :
    (index.resolve call).value = .unmatched .noCandidates := by
  obtain ⟨subject, hs⟩ := Option.isSome_iff_exists.1 hsubject
  rw [CandidateIndex.resolve, hs, hbucket]
  rfl

/-- A call with a subject chooses among the entries of its bucket that fit it. -/
theorem value_resolve_of_bucket_ne_nil {index : CandidateIndex} {call : Call}
    (hsubject : call.subject.isSome = true)
    (hbucket : index.bucket call.operation call.arity ≠ []) :
    (index.resolve call).value =
      select ((index.applicable call).map (fitOn call.positions)) := by
  obtain ⟨subject, hs⟩ := Option.isSome_iff_exists.1 hsubject
  obtain ⟨c, rest, hb⟩ := List.exists_cons_of_ne_nil hbucket
  rw [CandidateIndex.applicable, ← value_fits, CandidateIndex.resolve, hs, hb]
  rfl

/-- The outcome that a front stands for. -/
def Outcome.ofFront : List Candidate → Outcome
  | [] => .unmatched .noneApplicable
  | [c] => .matched c
  | c :: d :: rest => .ambiguous (sortByText (c :: d :: rest))

theorem front_subset_applicable (index : CandidateIndex) (call : Call) :
    ∀ c ∈ index.front call, c ∈ index.applicable call := by
  intro c hc
  rw [CandidateIndex.front, front_eq_filter] at hc
  exact (List.mem_filter.1 hc).1

/-- An entry that fits is in the front or beaten from it. -/
theorem mem_front_or_beaten {index : CandidateIndex} {call : Call} {c : Candidate}
    (hc : c ∈ index.applicable call) :
    c ∈ index.front call ∨ ∃ d ∈ index.front call, Beats call.positions d c := by
  have hfit : fitOn call.positions c ∈ (index.applicable call).map (fitOn call.positions) :=
    List.mem_map_of_mem hc
  obtain ⟨m, hm, hmc⟩ := exists_undominated (allAligned_applicable index call) hfit
  rw [undominated_map_fitOn] at hm
  obtain ⟨d, hd, rfl⟩ := List.mem_map.1 hm
  rcases hmc with he | hbeats
  · obtain rfl : d = c := congrArg Fit.candidate he
    exact .inl hd
  · exact .inr ⟨d, hd, hbeats⟩

theorem front_eq_nil_iff {index : CandidateIndex} {call : Call} :
    index.front call = [] ↔ index.applicable call = [] := by
  constructor
  · intro h
    refine List.eq_nil_iff_forall_not_mem.2 fun c hc => ?_
    rcases mem_front_or_beaten hc with hf | ⟨d, hf, -⟩ <;> simp [h] at hf
  · intro h
    refine List.eq_nil_iff_forall_not_mem.2 fun c hc => ?_
    simpa [h] using front_subset_applicable index call c hc

/-- **The two searches of the resolver agree**: choosing among the fitting entries is reading the
outcome off their front. -/
theorem select_applicable (index : CandidateIndex) (call : Call) :
    select ((index.applicable call).map (fitOn call.positions)) =
      .ofFront (index.front call) := by
  have hfront := undominated_map_fitOn call.positions (index.applicable call)
  change _ = (index.front call).map (fitOn call.positions) at hfront
  have hcandidates : ∀ cs : List Candidate,
      (cs.map (fitOn call.positions)).map Fit.candidate = cs := fun cs => by
    rw [List.map_map]
    exact List.map_id cs
  match hf : index.front call with
  | [] =>
    rw [front_eq_nil_iff.1 hf]
    rfl
  | [c] =>
    rw [hf] at hfront
    exact select_eq_matched (allAligned_applicable index call) hfront
  | c :: d :: rest =>
    rw [hf] at hfront
    rw [select_eq_ambiguous (by simp [hfront]), hfront, hcandidates]
    rfl

theorem value_resolve_eq {index : CandidateIndex} {call : Call}
    (hsubject : call.subject.isSome = true)
    (hbucket : index.bucket call.operation call.arity ≠ []) :
    (index.resolve call).value = .ofFront (index.front call) := by
  rw [value_resolve_of_bucket_ne_nil hsubject hbucket, select_applicable]

theorem Outcome.ofFront_eq_matched_iff {cs : List Candidate} {c : Candidate} :
    Outcome.ofFront cs = .matched c ↔ cs = [c] := by
  match cs with
  | [] => simp [Outcome.ofFront]
  | [d] => simp [Outcome.ofFront]
  | d :: e :: rest => simp [Outcome.ofFront]

theorem Outcome.ofFront_eq_ambiguous_iff {cs sorted : List Candidate} :
    Outcome.ofFront cs = .ambiguous sorted ↔
      2 ≤ cs.length ∧ StablySorted Candidate.text cs sorted := by
  match cs with
  | [] => simp [Outcome.ofFront]
  | [d] => simp [Outcome.ofFront]
  | d :: e :: rest =>
    simp only [Outcome.ofFront, Outcome.ambiguous.injEq, List.length_cons, Nat.le_add_left,
      true_and]
    constructor
    · rintro rfl
      exact stablySorted_sortByText _
    · exact (stablySorted_sortByText _).unique

theorem named_ofFront_perm (cs : List Candidate) : (Outcome.ofFront cs).named.Perm cs := by
  match cs with
  | [] => exact .refl _
  | [c] => exact .refl _
  | c :: d :: rest => exact (stablySorted_sortByText _).perm

theorem mem_named_ofFront {cs : List Candidate} {d : Candidate} :
    d ∈ (Outcome.ofFront cs).named ↔ d ∈ cs :=
  (named_ofFront_perm cs).mem_iff

theorem Outcome.isUnmatched_ofFront {cs : List Candidate} :
    (Outcome.ofFront cs).isUnmatched = false ↔ cs ≠ [] := by
  match cs with
  | [] => simp [Outcome.ofFront, Outcome.isUnmatched]
  | [c] => simp [Outcome.ofFront, Outcome.isUnmatched]
  | c :: c' :: rest => simp [Outcome.ofFront, Outcome.isUnmatched]

theorem Outcome.ofFront_eq_noneApplicable_iff {cs : List Candidate} :
    Outcome.ofFront cs = .unmatched .noneApplicable ↔ cs = [] := by
  match cs with
  | [] => simp [Outcome.ofFront]
  | [d] => simp [Outcome.ofFront]
  | d :: e :: rest => simp [Outcome.ofFront]

theorem Outcome.ofFront_ne_noCandidates (cs : List Candidate) :
    Outcome.ofFront cs ≠ .unmatched .noCandidates := by
  match cs with
  | [] => simp [Outcome.ofFront]
  | [d] => simp [Outcome.ofFront]
  | d :: e :: rest => simp [Outcome.ofFront]

/-! ### Reading outcomes -/

theorem value_resolve_of_null {index : CandidateIndex} {call : Call} (hnull : call.subject = none) :
    (index.resolve call).value = .unmatched .nullSubject := by
  rw [CandidateIndex.resolve, hnull]
  rfl

theorem applicable_eq_nil_of_bucket {index : CandidateIndex} {call : Call}
    (hbucket : index.bucket call.operation call.arity = []) : index.applicable call = [] := by
  rw [CandidateIndex.applicable, hbucket, List.filter_nil]

theorem front_eq_nil_of_bucket {index : CandidateIndex} {call : Call}
    (hbucket : index.bucket call.operation call.arity = []) : index.front call = [] :=
  front_eq_nil_iff.2 (applicable_eq_nil_of_bucket hbucket)

/-- Something is left for a call exactly if it has a subject and something fits it. -/
theorem isUnmatched_resolve_eq_false_iff {index : CandidateIndex} {call : Call} :
    (index.resolve call).value.isUnmatched = false ↔
      call.subject.isSome = true ∧ index.applicable call ≠ [] := by
  cases hs : call.subject with
  | none => simp [value_resolve_of_null hs, Outcome.isUnmatched]
  | some subject =>
    have hsubject : call.subject.isSome = true := by rw [hs, Option.isSome_some]
    by_cases hbucket : index.bucket call.operation call.arity = []
    · simp [value_resolve_of_bucket_eq_nil hsubject hbucket, applicable_eq_nil_of_bucket hbucket,
        Outcome.isUnmatched]
    · rw [value_resolve_eq hsubject hbucket, Outcome.isUnmatched_ofFront, Ne, front_eq_nil_iff]
      simp

theorem mem_named_resolve_iff {index : CandidateIndex} {call : Call} {c : Candidate} :
    c ∈ (index.resolve call).value.named ↔
      call.subject.isSome = true ∧ c ∈ index.front call := by
  cases hs : call.subject with
  | none => simp [value_resolve_of_null hs, Outcome.named]
  | some subject =>
    have hsubject : call.subject.isSome = true := by rw [hs, Option.isSome_some]
    by_cases hbucket : index.bucket call.operation call.arity = []
    · simp [value_resolve_of_bucket_eq_nil hsubject hbucket, front_eq_nil_of_bucket hbucket,
        Outcome.named]
    · rw [value_resolve_eq hsubject hbucket, mem_named_ofFront]
      simp

theorem resolve_eq_matched_iff {index : CandidateIndex} {call : Call} {c : Candidate} :
    (index.resolve call).value = .matched c ↔
      call.subject.isSome = true ∧ index.front call = [c] := by
  cases hs : call.subject with
  | none => simp [value_resolve_of_null hs]
  | some subject =>
    have hsubject : call.subject.isSome = true := by rw [hs, Option.isSome_some]
    by_cases hbucket : index.bucket call.operation call.arity = []
    · simp [value_resolve_of_bucket_eq_nil hsubject hbucket, front_eq_nil_of_bucket hbucket]
    · rw [value_resolve_eq hsubject hbucket, Outcome.ofFront_eq_matched_iff]
      simp

theorem resolve_eq_ambiguous_iff {index : CandidateIndex} {call : Call} {cs : List Candidate} :
    (index.resolve call).value = .ambiguous cs ↔ call.subject.isSome = true ∧
      2 ≤ (index.front call).length ∧ StablySorted Candidate.text (index.front call) cs := by
  cases hs : call.subject with
  | none => simp [value_resolve_of_null hs]
  | some subject =>
    have hsubject : call.subject.isSome = true := by rw [hs, Option.isSome_some]
    by_cases hbucket : index.bucket call.operation call.arity = []
    · simp [value_resolve_of_bucket_eq_nil hsubject hbucket, front_eq_nil_of_bucket hbucket]
    · rw [value_resolve_eq hsubject hbucket, Outcome.ofFront_eq_ambiguous_iff]
      simp

/-- **Resolution is the Pareto front.** For a call with a subject, the outcome says whether the
bucket is empty, whether nothing in it fits, and otherwise what the front is: a single entry that is
chosen, or several ones that are all named, in the order of their texts. What fits and is not named
by an ambiguous outcome is beaten by something that is. -/
theorem resolve_eq_front (index : CandidateIndex) (operation : String) (subject : Ty)
    (args : List (Option Ty)) :
    let call : Call := ⟨operation, some subject, args⟩
    let bucket := index.bucket operation (1 + args.length)
    let outcome := (index.resolve call).value
    (outcome = .unmatched .noCandidates ↔ bucket = []) ∧
    (outcome = .unmatched .noneApplicable ↔ bucket ≠ [] ∧ index.applicable call = []) ∧
    (∀ c, outcome = .matched c ↔ index.front call = [c]) ∧
    (∀ cs, outcome = .ambiguous cs ↔
      2 ≤ (index.front call).length ∧ StablySorted Candidate.text (index.front call) cs) ∧
    ∀ cs, outcome = .ambiguous cs → 2 ≤ cs.length ∧
      ∀ c ∈ index.applicable call, c ∉ cs → ∃ d ∈ cs, Beats call.positions d c := by
  intro call bucket outcome
  by_cases hbucket : bucket = []
  · have hvalue : outcome = .unmatched .noCandidates := value_resolve_of_bucket_eq_nil rfl hbucket
    have happ : index.applicable call = [] := by
      rw [CandidateIndex.applicable, show index.bucket call.operation call.arity = [] from hbucket]
      rfl
    simp [hvalue, hbucket, front_eq_nil_iff.2 happ]
  · have hvalue : outcome = .ofFront (index.front call) := value_resolve_eq rfl hbucket
    rw [hvalue]
    refine ⟨?_, ?_, fun c => Outcome.ofFront_eq_matched_iff,
      fun cs => Outcome.ofFront_eq_ambiguous_iff, fun cs hcs => ?_⟩
    · simp [hbucket, Outcome.ofFront_ne_noCandidates]
    · rw [Outcome.ofFront_eq_noneApplicable_iff, front_eq_nil_iff]
      exact ⟨fun h => ⟨hbucket, h⟩, fun h => h.2⟩
    · obtain ⟨htwo, hsorted⟩ := Outcome.ofFront_eq_ambiguous_iff.1 hcs
      refine ⟨hsorted.perm.length_eq ▸ htwo, fun c hc hout => ?_⟩
      obtain ⟨d, hd, hdc⟩ := (mem_front_or_beaten hc).resolve_left fun h =>
        hout (hsorted.mem_iff.2 h)
      exact ⟨d, hsorted.mem_iff.2 hd, hdc⟩

end MultiDispatch
