import MultiDispatch.Proofs.Hierarchy

/-!
# The tests of a verdict

A verdict on a type asks for one relation after the other, from the closest to the farthest, and
stops at the first that holds. For descriptions at large that order decides. A class could list
itself among its ancestors, or be above itself and an interface at once.

Types that come from declarations are not like that. Above a type are classes, and not the type
itself; what it implements are interfaces, again other than itself; a universal type is neither. So
at most one relation holds, and the tests may be made in any order. Nor does it have to be asked
whether what a type implements is an interface.

Both relations lead upwards only: what is above a class is not below it too, and an interface has
no ancestors. So of two types at most one fits where the other is declared, unless one of them is
universal.

## Main definitions

* `Ty.Related`: the relation that a tier stands for
* `judgeBy`: the verdict with the tests in a given order

## Main results

* `DeclarationHistory.Sound.judge_eq_tier_iff`: the verdict has the tier of the relation that holds
* `DeclarationHistory.Sound.judgeBy_eq`: every order of the tests leads to the same verdict
* `DeclarationHistory.Sound.judge_swap`: of two types at most one fits the other
* `DeclarationHistory.verdict_tests`: the above, for the types of any history
-/

namespace MultiDispatch

variable {R D : Ty}

/-- The relation of a runtime type to a declared type that a tier stands for. -/
def Ty.Related (R D : Ty) : Tier → Prop
  | .exact => R.id = D.id
  | .ancestor => R.hasAncestor D.id = true
  | .interface => R.implements D.id = true
  | .universal => D.isUniversal = true ∧ R.id ≠ D.id

instance (R D : Ty) : DecidablePred (R.Related D) := fun t => by
  cases t <;> unfold Ty.Related <;> infer_instance

/-- The verdict with one test for each tier, in the given order. -/
def judgeBy (order : List Tier) (R D : Ty) : Verdict :=
  match order.find? fun t => R.Related D t with
  | some t => .tier t
  | none => .incompatible

/-- A tier is given only for the relation that it stands for. -/
theorem related_of_judge {t : Tier} (h : judge (some R) D = .tier t) : R.Related D t := by
  rw [judge] at h
  split_ifs at h with hid huniversal hclass hinterface <;> cases h
  · exact hid
  · exact ⟨huniversal, hid⟩
  · exact hclass
  · exact ((Bool.and_eq_true _ _).mp hinterface).2

theorem judge_ne_wildcard : judge (some R) D ≠ .wildcard := by
  intro hwildcard
  rw [judge] at hwildcard
  split_ifs at hwildcard

theorem exists_tier_of_judge (h : (judge (some R) D).isCompatible = true) :
    ∃ t, judge (some R) D = .tier t := by
  cases hverdict : judge (some R) D with
  | incompatible =>
    rw [hverdict] at h
    cases h
  | tier t => exact ⟨t, rfl⟩
  | wildcard => exact absurd hverdict judge_ne_wildcard

namespace DeclarationHistory

variable {h : DeclarationHistory} {t s : Tier}

/-- For types of a history it does not matter which tests come before. -/
theorem Sound.judge_of_related (hsound : h.Sound) (hR : R ∈ h.types) (hD : D ∈ h.types)
    (hrelated : R.Related D t) : judge (some R) D = .tier t := by
  cases t with
  | exact => exact if_pos hrelated
  | ancestor => exact hsound.judge_eq_ancestor hR hD hrelated
  | interface => exact hsound.judge_eq_interface hR hD hrelated
  | universal => exact judge_eq_universal hrelated.2 hrelated.1

/-- **The verdict has the tier of the relation that holds.** -/
theorem Sound.judge_eq_tier_iff (hsound : h.Sound) (hR : R ∈ h.types) (hD : D ∈ h.types) :
    judge (some R) D = .tier t ↔ R.Related D t :=
  ⟨related_of_judge, hsound.judge_of_related hR hD⟩

/-- **At most one relation holds**, for a verdict has at most one tier. -/
theorem Sound.related_unique (hsound : h.Sound) (hR : R ∈ h.types) (hD : D ∈ h.types)
    (ht : R.Related D t) (hs : R.Related D s) : t = s :=
  Verdict.tier.inj <|
    (hsound.judge_of_related hR hD ht).symm.trans (hsound.judge_of_related hR hD hs)

theorem Sound.judge_eq_incompatible_iff (hsound : h.Sound) (hR : R ∈ h.types)
    (hD : D ∈ h.types) : judge (some R) D = .incompatible ↔ ∀ t, ¬ R.Related D t := by
  constructor
  · intro hverdict t hrelated
    rw [hsound.judge_of_related hR hD hrelated] at hverdict
    cases hverdict
  · intro hnone
    cases hverdict : judge (some R) D with
    | incompatible => rfl
    | tier t => exact absurd (related_of_judge hverdict) (hnone t)
    | wildcard => exact absurd hverdict judge_ne_wildcard

/-- **Every order of the tests leads to the same verdict**, if no test is left out. -/
theorem Sound.judgeBy_eq (hsound : h.Sound) (hR : R ∈ h.types) (hD : D ∈ h.types)
    {order : List Tier} (horder : ∀ t, t ∈ order) : judgeBy order R D = judge (some R) D := by
  rw [judgeBy]
  cases hfind : order.find? fun t => R.Related D t with
  | some t =>
    have hrelated : R.Related D t := by simpa using List.find?_some hfind
    exact (hsound.judge_of_related hR hD hrelated).symm
  | none =>
    have hnone := List.find?_eq_none.1 hfind
    exact ((hsound.judge_eq_incompatible_iff hR hD).2 fun t hrelated =>
      hnone t (horder t) (decide_eq_true hrelated)).symm

/-! ### Both ways -/

/-- What is above a class does not fit where the class is declared. -/
theorem Sound.judge_swap_of_hasAncestor (hsound : h.Sound) (hR : R ∈ h.types) (hD : D ∈ h.types)
    (habove : R.hasAncestor D.id = true) : judge (some D) R = .incompatible := by
  refine (hsound.judge_eq_incompatible_iff hD hR).2 fun t hrelated => ?_
  cases t with
  | exact =>
    rw [show D.id = R.id from hrelated] at habove
    exact hsound.not_hasAncestor_self hR habove
  | ancestor =>
    exact hsound.not_hasAncestor_self hR (hsound.hasAncestor_trans hR hD habove hrelated)
  | interface =>
    obtain ⟨-, hinterface⟩ := hsound.isInterface_of_implements hD hR hrelated
    exact hsound.not_hasAncestor_of_isInterface hR hinterface habove
  | universal =>
    exact Bool.false_ne_true ((hsound.isUniversal_of_hasAncestor hR habove).symm.trans hrelated.1)

/-- An interface does not fit where a type is declared that implements it. -/
theorem Sound.judge_swap_of_implements (hsound : h.Sound) (hR : R ∈ h.types) (hD : D ∈ h.types)
    (himplements : R.implements D.id = true) : judge (some D) R = .incompatible := by
  refine (hsound.judge_eq_incompatible_iff hD hR).2 fun t hrelated => ?_
  cases t with
  | exact =>
    rw [show D.id = R.id from hrelated] at himplements
    exact hsound.not_implements_self hR himplements
  | ancestor =>
    obtain ⟨-, hinterface⟩ := hsound.isInterface_of_implements hR hD himplements
    exact hsound.not_hasAncestor_of_isInterface hD hinterface hrelated
  | interface =>
    exact hsound.not_implements_self hR (hsound.implements_trans hR hD himplements hrelated)
  | universal =>
    exact Bool.false_ne_true
      ((hsound.isUniversal_of_implements hR himplements).symm.trans hrelated.1)

/-- **Of two types at most one fits the other**, where the universal types are left out. -/
theorem Sound.judge_swap (hsound : h.Sound) (hR : R ∈ h.types) (hD : D ∈ h.types)
    (hid : R.id ≠ D.id) (huniversal : D.isUniversal = false)
    (hfits : (judge (some R) D).isCompatible = true) : judge (some D) R = .incompatible := by
  obtain ⟨t, hverdict⟩ := exists_tier_of_judge hfits
  have hrelated := related_of_judge hverdict
  cases t with
  | exact => exact absurd hrelated hid
  | ancestor => exact hsound.judge_swap_of_hasAncestor hR hD hrelated
  | interface => exact hsound.judge_swap_of_implements hR hD hrelated
  | universal => exact absurd (huniversal.symm.trans hrelated.1) Bool.false_ne_true

/-- **The tests of a verdict exclude each other.** In any history, a runtime type has at most one of
the four relations to a declared type. The verdict has the tier of that relation, and is
incompatible if there is none; so it is the same for every order of the tests. To implement a type
is to implement an interface. And where a type fits another one that is not universal, that other
one does not fit it. -/
theorem verdict_tests (h : DeclarationHistory) (hreach : h.Reachable) (R D : Ty)
    (hR : R ∈ h.types) (hD : D ∈ h.types) :
    (∀ t s, R.Related D t → R.Related D s → t = s) ∧
    (∀ t, judge (some R) D = .tier t ↔ R.Related D t) ∧
    (judge (some R) D = .incompatible ↔ ∀ t, ¬ R.Related D t) ∧
    (∀ order : List Tier, (∀ t, t ∈ order) → judgeBy order R D = judge (some R) D) ∧
    (D.isInterface && R.implements D.id) = R.implements D.id ∧
    (R.id ≠ D.id → D.isUniversal = false → (judge (some R) D).isCompatible = true →
      judge (some D) R = .incompatible) := by
  have hsound := hreach.sound
  refine ⟨fun t s => hsound.related_unique hR hD, fun t => hsound.judge_eq_tier_iff hR hD,
    hsound.judge_eq_incompatible_iff hR hD, fun order => hsound.judgeBy_eq hR hD, ?_,
    hsound.judge_swap hR hD⟩
  rw [Bool.and_eq_right_iff_imp]
  exact fun himplements => (hsound.isInterface_of_implements hR hD himplements).2

/-- A class of one table and an interface of another: the class fits by the interface, whatever is
tested first, and not the other way round. -/
theorem verdict_tests_dice :
    judgeBy [.universal, .interface, .ancestor, .exact] die solid = .tier .interface ∧
      ¬ die.Related solid .ancestor ∧ judge (some solid) die = .incompatible := by
  have hdie : die ∈ dice.types := by decide
  have hsolid : solid ∈ dice.types := by decide
  obtain ⟨hunique, htier, -, horder, -, hswap⟩ :=
    verdict_tests dice reachable_dice die solid hdie hsolid
  have hverdict : judge (some die) solid = .tier .interface := (htier _).2 (by decide)
  refine ⟨?_, fun habove => ?_, hswap (by decide) rfl ?_⟩
  · rw [horder _ fun t => by cases t <;> decide, hverdict]
  · exact absurd (hunique _ _ habove ((htier _).1 hverdict)) nofun
  · rw [hverdict]
    rfl

end DeclarationHistory

end MultiDispatch
