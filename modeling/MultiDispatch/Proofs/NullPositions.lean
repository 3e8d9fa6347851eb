import Mathlib.Data.List.Perm.Subperm
import MultiDispatch.Proofs.Hierarchy
import MultiDispatch.Proofs.ParetoFront

/-!
# Nulls do not decide

A null fits every declared type but a value type, and whatever it fits it fits alike: with a
wildcard, which counts for nothing. So what a candidate declares at the null positions of a call has
no part in the choice, once the candidate fits. Two entries that fit a call and declare the same
types everywhere else have the same verdicts. Any third entry beats both of them or neither, and is
beaten by both or by neither; both stand in the front or neither does, and neither stands there
alone.

## What it is to declare the same types

Types are the same if their identifiers are. Everything else about a type is then the same too, as
long as the types come from tables, which is why the statement is made for types of a history. For
types that are equal in all they have it needs no history.

## Main definitions

* `AgreeOn`: two signatures declare the same types where a call has no null
* `FittingPair`: two entries of a bucket that fit a call
* `Outcome.KeepsTogether`: an outcome that does not tell two entries apart

## Main results

* `verdictsOn_eq_of_agreeOn`: what is declared at the nulls has no part in the verdicts
* `FittingPair.subperm_front_or`: both entries are in the front, or neither is
* `nulls_never_decide`: no outcome tells the two entries apart
-/

namespace MultiDispatch

variable {positions : List (Option Ty)} {s t : Signature} {index : CandidateIndex} {call : Call}
  {a b c : Candidate}

/-- Wherever a call has a type, two signatures declare types that are the same in the given
sense. -/
def AgreeOn (same : Ty → Ty → Prop) (positions : List (Option Ty)) (s t : Signature) : Prop :=
  ∀ (i : ℕ) (R D E : Ty), positions[i]? = some (some R) → s.declared[i]? = some D →
    t.declared[i]? = some E → same D E

/-! ### Verdicts -/

theorem judge_null_eq_wildcard {D : Ty} (h : (judge none D).isCompatible = true) :
    judge none D = .wildcard := by
  rw [judge] at h ⊢
  split_ifs at h ⊢
  · cases h
  · rfl

/-- **What is declared at the nulls has no part in the verdicts** on signatures that fit. -/
theorem verdictsOn_eq_of_agreeOn (hs : Accepts positions s) (ht : Accepts positions t)
    (hagree : AgreeOn Eq positions s t) : verdictsOn positions s = verdictsOn positions t := by
  have hlen : positions.length = s.declared.length := hs.length_eq
  have hlen' : positions.length = t.declared.length := ht.length_eq
  refine List.ext_getElem (by simp [verdictsOn, ← hlen, ← hlen']) fun i hi _ => ?_
  have hplace : i < positions.length := by
    simp only [verdictsOn, List.length_zipWith] at hi
    omega
  have hfits := hs.get hplace (hlen ▸ hplace)
  have hfits' := ht.get hplace (hlen' ▸ hplace)
  simp only [verdictsOn, List.getElem_zipWith, List.get_eq_getElem] at hfits hfits' ⊢
  cases hR : positions[i] with
  | none =>
    rw [hR] at hfits hfits'
    rw [judge_null_eq_wildcard hfits, judge_null_eq_wildcard hfits']
  | some R =>
    rw [hagree i R _ _ (by rw [List.getElem?_eq_getElem hplace, hR])
      (List.getElem?_eq_getElem (hlen ▸ hplace)) (List.getElem?_eq_getElem (hlen' ▸ hplace))]

/-- Among types of a history it is enough that the identifiers agree. -/
theorem AgreeOn.of_ids {h : DeclarationHistory} (hsound : h.Sound)
    (hs : ∀ D ∈ s.declared, D ∈ h.types) (ht : ∀ D ∈ t.declared, D ∈ h.types)
    (hagree : AgreeOn (fun D E => D.id = E.id) positions s t) : AgreeOn Eq positions s t :=
  fun i R D E hR hD hE => hsound.eq_of_id_eq (hs D (List.mem_of_getElem? hD))
    (ht E (List.mem_of_getElem? hE)) (hagree i R D E hR hD hE)

/-! ### Two entries of a front -/

/-- Two places of a list. -/
theorem pair_subperm {α : Type} {xs : List α} {i j : ℕ} {x y : α} (hne : i ≠ j)
    (hx : xs[i]? = some x) (hy : xs[j]? = some y) : [x, y].Subperm xs := by
  have hordered : ∀ {i j : ℕ} {x y : α}, i < j → xs[i]? = some x → xs[j]? = some y →
      [x, y].Sublist xs := by
    intro i j x y hlt hx hy
    obtain ⟨hi, rfl⟩ := List.getElem?_eq_some_iff.1 hx
    have hrest : y ∈ xs.drop (i + 1) := by
      refine List.mem_of_getElem? (i := j - (i + 1)) ?_
      rw [List.getElem?_drop, show i + 1 + (j - (i + 1)) = j by omega, hy]
    have hpair : [xs[i], y].Sublist (xs.drop i) := by
      rw [List.drop_eq_getElem_cons hi]
      exact (List.singleton_sublist.2 hrest).cons_cons _
    exact hpair.trans (List.drop_sublist i xs)
  rcases Nat.lt_or_gt_of_ne hne with hlt | hgt
  · exact (hordered hlt hx hy).subperm
  · exact (List.Perm.swap y x []).subperm.trans (hordered hgt hy hx).subperm

/-- Two entries of a call's bucket, which may be one candidate at two places, that both fit the
call. -/
structure FittingPair (index : CandidateIndex) (call : Call) (a b : Candidate) : Prop where
  places : ∃ i j : ℕ, i ≠ j ∧ (index.bucket call.operation call.arity)[i]? = some a ∧
    (index.bucket call.operation call.arity)[j]? = some b
  left : Accepts call.positions a.signature
  right : Accepts call.positions b.signature

/-- Entries with the same verdicts are beaten by the same. -/
theorem beats_congr (h : verdictsOn positions a.signature = verdictsOn positions b.signature) :
    Beats positions c a ↔ Beats positions c b := by
  rw [Beats, Beats, h]

/-- Of two fitting entries with the same verdicts both are in the front, at a place each, or neither
is. -/
theorem FittingPair.subperm_front_or (hpair : FittingPair index call a b)
    (htie : verdictsOn call.positions a.signature = verdictsOn call.positions b.signature) :
    [a, b].Subperm (index.front call) ∨ (a ∉ index.front call ∧ b ∉ index.front call) := by
  obtain ⟨i, j, hne, ha, hb⟩ := hpair.places
  have happlicable : [a, b].Subperm (index.applicable call) := by
    have hfilter := (pair_subperm hne ha hb).filter fun c => Accepts call.positions c.signature
    rwa [List.filter_eq_self.2 (by simp [hpair.left, hpair.right])] at hfilter
  have hunbeaten : (∀ d ∈ index.applicable call, ¬ Beats call.positions d a) ↔
      ∀ d ∈ index.applicable call, ¬ Beats call.positions d b := by
    simp only [beats_congr htie]
  rw [CandidateIndex.front, front_eq_filter]
  by_cases hfront : ∀ d ∈ index.applicable call, ¬ Beats call.positions d a
  · refine .inl ?_
    have hfilter := happlicable.filter fun c =>
      ∀ d ∈ index.applicable call, ¬ Beats call.positions d c
    rwa [List.filter_eq_self.2 fun c hc => ?_] at hfilter
    rcases List.mem_pair.1 hc with rfl | rfl
    · exact decide_eq_true hfront
    · exact decide_eq_true (hunbeaten.1 hfront)
  · refine .inr ⟨fun ha => ?_, fun hb => ?_⟩
    · exact hfront (of_decide_eq_true (List.mem_filter.1 ha).2)
    · exact hfront (hunbeaten.2 (of_decide_eq_true (List.mem_filter.1 hb).2))

/-! ### Outcomes -/

/-- An outcome does not tell two entries apart: it chooses neither of them, and reports both, at a
place each, or neither. -/
structure Outcome.KeepsTogether (o : Outcome) (a b : Candidate) : Prop where
  not_left : o ≠ .matched a
  not_right : o ≠ .matched b
  both_or_neither : ∀ cs, o = .ambiguous cs → [a, b].Subperm cs ∨ (a ∉ cs ∧ b ∉ cs)

/-- What an outcome names is the front, in some order. -/
theorem named_resolve_perm (hsubject : call.subject.isSome = true) :
    (index.resolve call).value.named.Perm (index.front call) := by
  by_cases hbucket : index.bucket call.operation call.arity = []
  · rw [value_resolve_of_bucket_eq_nil hsubject hbucket, front_eq_nil_of_bucket hbucket]
    exact .refl _
  · rw [value_resolve_eq hsubject hbucket]
    exact named_ofFront_perm _

theorem FittingPair.keepsTogether (hsubject : call.subject.isSome = true)
    (hpair : FittingPair index call a b)
    (htie : verdictsOn call.positions a.signature = verdictsOn call.positions b.signature) :
    (index.resolve call).value.KeepsTogether a b := by
  have hperm : (index.resolve call).value.named.Perm (index.front call) :=
    named_resolve_perm hsubject
  have hfront := hpair.subperm_front_or htie
  -- A match names one place only, and a front with one of the entries has two.
  have hnot : ∀ c, c = a ∨ c = b → (index.resolve call).value ≠ .matched c := by
    rintro c hc hmatched
    rw [hmatched] at hperm
    rcases hfront with hboth | ⟨hleft, hright⟩
    · have hlen : 2 ≤ 1 := hboth.length_le.trans hperm.length_eq.ge
      omega
    · have hmem : c ∈ index.front call := hperm.mem_iff.1 (List.mem_singleton_self c)
      rcases hc with rfl | rfl
      · exact hleft hmem
      · exact hright hmem
  refine ⟨hnot a (.inl rfl), hnot b (.inr rfl), fun cs hcs => ?_⟩
  rw [hcs] at hperm
  rcases hfront with hboth | ⟨hleft, hright⟩
  · exact .inl (hboth.trans hperm.symm.subperm)
  · exact .inr ⟨fun ha => hleft (hperm.mem_iff.1 ha), fun hb => hright (hperm.mem_iff.1 hb)⟩

/-- **Nulls do not decide.** Two entries of the bucket that fit a call with a subject and declare
the same types wherever the call has no null are not told apart by its outcome, whatever else is in
the index. It matches neither of them, and if it is ambiguous it names both or neither. Types of a
history are the same already if their identifiers are. -/
theorem nulls_never_decide (index : CandidateIndex) (call : Call)
    (hsubject : call.subject.isSome = true) (a b : Candidate)
    (hpair : FittingPair index call a b) :
    (AgreeOn Eq call.positions a.signature b.signature →
      (index.resolve call).value.KeepsTogether a b) ∧
    ∀ h : DeclarationHistory, h.Reachable →
      (∀ D ∈ a.signature.declared, D ∈ h.types) → (∀ D ∈ b.signature.declared, D ∈ h.types) →
      AgreeOn (fun D E => D.id = E.id) call.positions a.signature b.signature →
      (index.resolve call).value.KeepsTogether a b := by
  have hkeeps : AgreeOn Eq call.positions a.signature b.signature →
      (index.resolve call).value.KeepsTogether a b := fun hagree =>
    hpair.keepsTogether hsubject (verdictsOn_eq_of_agreeOn hpair.left hpair.right hagree)
  exact ⟨hkeeps, fun h hreach ha hb hagree => hkeeps (hagree.of_ids hreach.sound ha hb)⟩

/-! ### Tossing something nowhere -/

/-- A candidate that tosses a shape at a cube. -/
def tossAtCube : Candidate :=
  ⟨0, ⟨⟨"toss", DeclarationHistory.shape, [DeclarationHistory.cube]⟩, Body.subject⟩⟩

/-- A candidate that tosses a shape at a solid, which a cube is. -/
def tossAtSolid : Candidate :=
  ⟨1, ⟨⟨"toss", DeclarationHistory.shape, [DeclarationHistory.solid]⟩, Body.subject⟩⟩

/-- A candidate that tosses a cube at a shape. -/
def tossCube : Candidate :=
  ⟨2, ⟨⟨"toss", DeclarationHistory.cube, [DeclarationHistory.shape]⟩, Body.subject⟩⟩

/-- Tossing a cube at nothing, the first two candidates tie, though a cube is closer than a solid to
whatever is below it. The third one, which is closer at the subject, is chosen over both. -/
theorem nulls_never_decide_toss :
    let call : Call := ⟨"toss", some DeclarationHistory.cube, [none]⟩
    let two := CandidateIndex.empty.publishAll [tossAtCube, tossAtSolid]
    let three := two.publish tossCube
    (two.resolve call).value.isAmbiguous = true ∧
      (two.resolve call).value.KeepsTogether tossAtCube tossAtSolid ∧
      (three.resolve call).value = .matched tossCube ∧
      (three.resolve call).value.KeepsTogether tossAtCube tossAtSolid := by
  intro call two three
  have hagree : AgreeOn (fun D E => D.id = E.id) call.positions tossAtCube.signature
      tossAtSolid.signature := by
    intro i R D E hR hD hE
    match i with
    | 0 =>
      rw [← Option.some.inj hD, ← Option.some.inj hE]
      rfl
    | 1 => cases hR
    | i + 2 => cases hR
  have htwo : FittingPair two call tossAtCube tossAtSolid :=
    ⟨⟨0, 1, by decide, rfl, rfl⟩, by decide, by decide⟩
  have hthree : FittingPair three call tossAtCube tossAtSolid :=
    ⟨⟨0, 1, by decide, rfl, rfl⟩, by decide, by decide⟩
  refine ⟨rfl, ?_, rfl, ?_⟩
  · exact (nulls_never_decide two call rfl _ _ htwo).2 DeclarationHistory.dice
      DeclarationHistory.reachable_dice (by decide) (by decide) hagree
  · exact (nulls_never_decide three call rfl _ _ hthree).2 DeclarationHistory.dice
      DeclarationHistory.reachable_dice (by decide) (by decide) hagree

end MultiDispatch
