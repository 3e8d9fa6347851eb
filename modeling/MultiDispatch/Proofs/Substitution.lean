import MultiDispatch.Proofs.DispatchSafety
import MultiDispatch.Proofs.Hierarchy

/-!
# Substitution of subtypes

What may be called with a type may be called with its subtypes. A candidate that fits a call still
fits when runtime types are replaced by subtypes, because whatever is above a type or implemented by
it is also above, or implemented by, everything below it. The closeness at a replaced position stays
the same too, unless it was that of equal types, which a proper subtype cannot keep.

Nulls are not replaced: they have no type, and hence no subtypes.

## Main definitions

* `Ty.SubtypeOf`: what may stand for a runtime type
* `Call.Narrows`: a call with runtime types replaced by subtypes

## Main results

* `Sound.suits_of_subtypeOf`: subtypes suit where their supertypes do
* `Sound.exists_tier_eq`: and at the same tier, but for equal types
* `DeclarationHistory.substitution`: what this means for calls
-/

namespace MultiDispatch

/-- `S` is `R`, or anything proper if `R` is universal, or `R` is a class above `S`, or `S`
implements `R`. -/
def Ty.SubtypeOf (S R : Ty) : Prop :=
  S.id = R.id ∨ (R.isUniversal = true ∧ S.isUniversal = false) ∨ S.hasAncestor R.id = true ∨
    S.implements R.id = true

instance (S R : Ty) : Decidable (S.SubtypeOf R) :=
  inferInstanceAs (Decidable (_ ∨ _))

/-- `narrow` is `call` with any of its runtime types replaced by subtypes. -/
structure Call.Narrows (narrow call : Call) : Prop where
  operation : narrow.operation = call.operation
  positions : List.Forall₂ (Option.Rel Ty.SubtypeOf) narrow.positions call.positions

namespace Call.Narrows

variable {narrow call : Call}

theorem arity_eq (hsub : narrow.Narrows call) : narrow.arity = call.arity := by
  have hlen := hsub.positions.length_eq
  rw [Call.positions, Call.positions, List.length_cons, List.length_cons] at hlen
  rw [Call.arity, Call.arity]
  omega

theorem isSome_subject (hsub : narrow.Narrows call) :
    narrow.subject.isSome = call.subject.isSome := by
  obtain ⟨_, subject, _⟩ := narrow
  obtain ⟨_, subject', _⟩ := call
  obtain ⟨hsubject, -⟩ := List.forall₂_cons.1 hsub.positions
  cases hsubject with
  | none => rfl
  | some _ => rfl

/-- A runtime type in the narrower call is a subtype of the one it stands for. -/
theorem subtypeOf (hsub : narrow.Narrows call) {i : ℕ} {S R : Ty}
    (hS : narrow.positions[i]? = some (some S)) (hR : call.positions[i]? = some (some R)) :
    S.SubtypeOf R := by
  obtain ⟨hi, hS⟩ := List.getElem?_eq_some_iff.1 hS
  obtain ⟨hi', hR⟩ := List.getElem?_eq_some_iff.1 hR
  have hrel := hsub.positions.get hi hi'
  simp only [List.get_eq_getElem, hS, hR] at hrel
  cases hrel with
  | some h => exact h

end Call.Narrows

/-- Where a signature accepts the types of a call, each of them suits what is declared for it. -/
theorem Accepts.suits {positions : List (Option Ty)} {s : Signature}
    (haccepts : Accepts positions s) {i : ℕ} {R D : Ty} (hR : positions[i]? = some (some R))
    (hD : s.declared[i]? = some D) : R.Suits D := by
  obtain ⟨hi, hR⟩ := List.getElem?_eq_some_iff.1 hR
  obtain ⟨hi', hD⟩ := List.getElem?_eq_some_iff.1 hD
  have hfits := haccepts.get hi hi'
  simp only [List.get_eq_getElem, hR, hD] at hfits
  exact isCompatible_judge_some_iff.1 hfits

namespace DeclarationHistory

variable {h : DeclarationHistory} {R S D : Ty} {id : TypeId}

/-! ### Subtypes -/

section

variable (hsound : h.Sound) (hS : S ∈ h.types) (hR : R ∈ h.types) (hsub : S.SubtypeOf R)

include hsound hS hsub

/-- A subtype of something else is no universal type. -/
theorem Sound.isUniversal_of_subtypeOf (hne : S.id ≠ R.id) : S.isUniversal = false := by
  rcases hsub with he | ⟨-, hproper⟩ | habove | himplements
  · exact absurd he hne
  · exact hproper
  · exact hsound.isUniversal_of_hasAncestor hS habove
  · exact hsound.isUniversal_of_implements hS himplements

include hR

/-- What is above a type is above its subtypes. An interface has nothing above it, so that a type
which implements `R` does not come into question. -/
theorem Sound.hasAncestor_of_subtypeOf (hid : R.hasAncestor id = true) :
    S.hasAncestor id = true := by
  rcases hsub with he | ⟨huniversal, -⟩ | habove | himplements
  · rwa [hsound.eq_of_id_eq hS hR he]
  · rw [hsound.isUniversal_of_hasAncestor hR hid] at huniversal
    cases huniversal
  · exact hsound.hasAncestor_trans hS hR habove hid
  · have hinterface := (hsound.isInterface_of_implements hS hR himplements).2
    exact absurd hid (hsound.not_hasAncestor_of_isInterface hR hinterface)

/-- What a type implements its subtypes implement. -/
theorem Sound.implements_of_subtypeOf (hid : R.implements id = true) : S.implements id = true := by
  rcases hsub with he | ⟨huniversal, -⟩ | habove | himplements
  · rwa [hsound.eq_of_id_eq hS hR he]
  · rw [hsound.isUniversal_of_implements hR hid] at huniversal
    cases huniversal
  · exact hsound.implements_of_hasAncestor hS hR habove hid
  · exact hsound.implements_trans hS hR himplements hid

/-- A subtype suits where the declared type is that of its supertype. -/
theorem Sound.suits_of_subtypeOf_self : S.Suits R := by
  rcases hsub with he | ⟨huniversal, -⟩ | habove | himplements
  · exact .inl he
  · exact .inr (.inl huniversal)
  · exact .inr (.inr (.inl habove))
  · exact .inr (.inr (.inr
      ⟨(hsound.isInterface_of_implements hS hR himplements).2, himplements⟩))

variable (hD : D ∈ h.types) (hsuits : R.Suits D)

include hD hsuits

/-- **Subtypes suit where their supertypes do.** -/
theorem Sound.suits_of_subtypeOf : S.Suits D := by
  rcases hsuits with he | huniversal | habove | ⟨hinterface, himplements⟩
  · obtain rfl := hsound.eq_of_id_eq hR hD he
    exact hsound.suits_of_subtypeOf_self hS hR hsub
  · exact .inr (.inl huniversal)
  · exact .inr (.inr (.inl (hsound.hasAncestor_of_subtypeOf hS hR hsub habove)))
  · exact .inr (.inr (.inr
      ⟨hinterface, hsound.implements_of_subtypeOf hS hR hsub himplements⟩))

/-- **Subtypes are as close as their supertypes**, unless these are what is declared. -/
theorem Sound.exists_tier_eq (hne : R.id ≠ D.id) :
    ∃ t, judge (some R) D = .tier t ∧ judge (some S) D = .tier t := by
  rcases hsuits with he | huniversal | habove | ⟨-, himplements⟩
  · exact absurd he hne
  · -- Only the universal type itself has the verdict of equal types, and `S` is proper.
    refine ⟨.universal, judge_eq_universal hne huniversal, judge_eq_universal (fun he => ?_)
      huniversal⟩
    have hproper := hsound.isUniversal_of_subtypeOf hS hsub fun he' => hne (he' ▸ he)
    rw [hsound.eq_of_id_eq hS hD he, huniversal] at hproper
    cases hproper
  · exact ⟨.ancestor, hsound.judge_eq_ancestor hR hD habove,
      hsound.judge_eq_ancestor hS hD (hsound.hasAncestor_of_subtypeOf hS hR hsub habove)⟩
  · exact ⟨.interface, hsound.judge_eq_interface hR hD himplements,
      hsound.judge_eq_interface hS hD (hsound.implements_of_subtypeOf hS hR hsub himplements)⟩

end

/-! ### Calls -/

/-- Position by position, what fits a call fits a narrower one. -/
theorem Sound.forall₂_isCompatible (hsound : h.Sound) {narrow wide : List (Option Ty)}
    {declared : List Ty} (hnarrow : ∀ S, some S ∈ narrow → S ∈ h.types)
    (hwide : ∀ R, some R ∈ wide → R ∈ h.types) (hdeclared : ∀ D ∈ declared, D ∈ h.types)
    (hsub : List.Forall₂ (Option.Rel Ty.SubtypeOf) narrow wide)
    (hfits : List.Forall₂ (fun r d => (judge r d).isCompatible = true) wide declared) :
    List.Forall₂ (fun r d => (judge r d).isCompatible = true) narrow declared := by
  induction hsub generalizing declared with
  | nil => exact hfits
  | cons hfirst _ ih =>
    cases hfits with
    | cons hd hfits =>
      refine .cons ?_ (ih (fun S hS => hnarrow S (List.mem_cons_of_mem _ hS))
        (fun R hR => hwide R (List.mem_cons_of_mem _ hR))
        (fun D hD => hdeclared D (List.mem_cons_of_mem _ hD)) hfits)
      cases hfirst with
      | none => exact hd
      | some hsub =>
        rw [isCompatible_judge_some_iff] at hd ⊢
        exact hsound.suits_of_subtypeOf (hnarrow _ List.mem_cons_self)
          (hwide _ List.mem_cons_self) hsub (hdeclared _ List.mem_cons_self) hd

/-- **What may be called with a type may be called with its subtypes.** In any history, and for any
index of candidates that declare types of the history, replacing runtime types of a call by subtypes
keeps fitting what fits. So what was matched or ambiguous does not become unmatched. And at each
position the candidate stays as close as it was, unless the runtime type was the declared one. -/
theorem substitution (h : DeclarationHistory) (hreach : h.Reachable) (index : CandidateIndex)
    (hindex : ∀ operation arity, ∀ c ∈ index.bucket operation arity,
      ∀ D ∈ c.signature.declared, D ∈ h.types)
    (call narrow : Call) (hcall : ∀ R ∈ call.types, R ∈ h.types)
    (hnarrow : ∀ S ∈ narrow.types, S ∈ h.types) (hsub : narrow.Narrows call) :
    (∀ c ∈ index.applicable call, c ∈ index.applicable narrow) ∧
    ((index.resolve call).value.isUnmatched = false →
      (index.resolve narrow).value.isUnmatched = false) ∧
    ∀ c ∈ index.applicable call, ∀ (i : ℕ) (R S D : Ty),
      call.positions[i]? = some (some R) → narrow.positions[i]? = some (some S) →
      c.signature.declared[i]? = some D → R.id ≠ D.id →
      ∃ t, judge (some R) D = .tier t ∧ judge (some S) D = .tier t := by
  have hsound := hreach.sound
  have hwide : ∀ R, some R ∈ call.positions → R ∈ h.types := fun R hR =>
    hcall R (List.reduceOption_mem_iff.2 hR)
  have hnarrow' : ∀ S, some S ∈ narrow.positions → S ∈ h.types := fun S hS =>
    hnarrow S (List.reduceOption_mem_iff.2 hS)
  have happlicable : ∀ c ∈ index.applicable call, c ∈ index.applicable narrow := by
    intro c hc
    obtain ⟨hbucket, haccepts⟩ := mem_applicable_iff.1 hc
    rw [mem_applicable_iff, hsub.operation, hsub.arity_eq]
    exact ⟨hbucket, hsound.forall₂_isCompatible hnarrow' hwide (hindex _ _ c hbucket) hsub.positions
      haccepts⟩
  refine ⟨happlicable, fun hmatched => ?_, fun c hc i R S D hRi hSi hDi hne => ?_⟩
  · obtain ⟨hsubject, hsome⟩ := isUnmatched_resolve_eq_false_iff.1 hmatched
    obtain ⟨c, hc⟩ := List.exists_mem_of_ne_nil _ hsome
    exact isUnmatched_resolve_eq_false_iff.2
      ⟨hsub.isSome_subject ▸ hsubject, List.ne_nil_of_mem (happlicable c hc)⟩
  · obtain ⟨hbucket, haccepts⟩ := mem_applicable_iff.1 hc
    exact hsound.exists_tier_eq (hnarrow' S (List.mem_of_getElem? hSi))
      (hwide R (List.mem_of_getElem? hRi)) (hsub.subtypeOf hSi hRi)
      (hindex _ _ c hbucket D (List.mem_of_getElem? hDi)) (Accepts.suits haccepts hRi hDi) hne

/-- A candidate which rolls a shape with a cube. -/
def roll : Candidate :=
  ⟨0, ⟨⟨"roll", shape, [cube]⟩, Body.subject⟩⟩

/-- Since a cube may be rolled with a cube, a die may be rolled with a die. As a subject the die has
the interface as the cube has; as an argument it is no longer the type that is declared. -/
theorem substitution_roll :
    let index := CandidateIndex.empty.publish roll
    (index.resolve ⟨"roll", some cube, [some cube]⟩).value.isUnmatched = false ∧
      (index.resolve ⟨"roll", some die, [some die]⟩).value.isUnmatched = false ∧
      ∃ t, judge (some cube) shape = .tier t ∧ judge (some die) shape = .tier t := by
  intro index
  have hindex : ∀ operation arity, ∀ c ∈ index.bucket operation arity,
      ∀ D ∈ c.signature.declared, D ∈ dice.types := by
    intro operation arity c hc
    rw [show index = CandidateIndex.empty.publishAll [roll] from rfl,
      CandidateIndex.bucket_publishAll] at hc
    obtain rfl : c = roll := List.mem_singleton.1 (List.mem_of_mem_filter hc)
    decide
  obtain ⟨-, hmatched, htier⟩ := substitution dice reachable_dice index hindex
    ⟨"roll", some cube, [some cube]⟩ ⟨"roll", some die, [some die]⟩ (by decide) (by decide)
    ⟨rfl, .cons (.some (by decide)) (.cons (.some (by decide)) .nil)⟩
  have hroll : roll ∈ index.applicable ⟨"roll", some cube, [some cube]⟩ :=
    mem_applicable_iff.2 ⟨List.mem_singleton_self roll, by decide⟩
  exact ⟨rfl, hmatched rfl, htier roll hroll 0 cube die shape rfl rfl rfl (by decide)⟩

end DeclarationHistory

end MultiDispatch
