import MultiDispatch.Proofs.Hierarchy

/-!
# Types of other tables

Identifiers of different tables differ, so types of different tables are never the same, whatever
their names are. One would expect them to have nothing to do with each other, and a type of one
table to fit nothing of another table but the universal type.

But declarations are not bound to a table: the parent and the bases may be types of any other one,
and what a type inherits from there counts as everything else does. So a type fits all that its
declarations go back to, in whatever table that is. It takes a declaration that leads out of the
table; where there is none, the tables have nothing to do with each other indeed.

## Main definitions

* `Link`: one declaration names another type
* `DescendsFrom`: a type is below another one or implements it, going by the declarations
* `foreignVerdict`: the verdict on types that have nothing to do with each other

## Main results

* `Sound.hasAncestor_iff`, `Sound.implements_iff`: what types carry is where they descend from
* `DescendsFrom.exists_leaving`: who descends from outside a table has a declaration leading out
* `DeclarationHistory.foreign_verdict`: when a type of another table fits
-/

namespace MultiDispatch

variable {created : List Creation} {T P D : Ty}

/-! ### Descent -/

/-- The declaration that created `T` names `P`, as the parent or among the bases. -/
def Link (created : List Creation) (T P : Ty) : Prop :=
  ParentLink created T P ∨ BaseLink created T P

/-- `D` is a class above `T`, or an interface that `T` implements, going by the declarations. -/
def DescendsFrom (created : List Creation) (T D : Ty) : Prop :=
  Relation.TransGen (ParentLink created) T D ∨ Reaches created T D

theorem DescendsFrom.links (hdescends : DescendsFrom created T D) :
    Relation.ReflTransGen (Link created) T D := by
  have hparent : ParentLink created ≤ Link created := fun _ _ => Or.inl
  have hbase : BaseLink created ≤ Link created := fun _ _ => Or.inr
  rcases hdescends with habove | ⟨S, B, hS, hB, hD⟩
  · exact Relation.ReflTransGen.mono hparent _ _ habove.to_reflTransGen
  · exact (Relation.ReflTransGen.mono hparent _ _ hS).trans
      (.head (.inr hB) (Relation.ReflTransGen.mono hbase _ _ hD))

/-- Who descends from outside a table does so by a declaration that leads out of it. -/
theorem DescendsFrom.exists_leaving (hdescends : DescendsFrom created T D) {t : TypeTable}
    (hT : T ∈ t.types) (hD : D ∉ t.types) :
    ∃ S ∈ t.types, ∃ P ∉ t.types, Relation.ReflTransGen (Link created) T S ∧ Link created S P ∧
      Relation.ReflTransGen (Link created) P D := by
  have hlinks := hdescends.links
  clear hdescends
  induction hlinks using Relation.ReflTransGen.head_induction_on with
  | refl => exact absurd hT hD
  | @head T P hP hrest ih =>
    by_cases hmem : P ∈ t.types
    · obtain ⟨S, hS, P', hP', hpath, hlink, hend⟩ := ih hmem
      exact ⟨S, hS, P', hP', hpath.head hP, hlink, hend⟩
    · exact ⟨T, hT, P, hmem, .refl, hP, hrest⟩

namespace DeclarationHistory

variable {h : DeclarationHistory} {R : Ty}

/-! ### What types carry -/

theorem Sound.hasAncestor_iff (hsound : h.Sound) (hR : R ∈ h.types) (hD : D ∈ h.types) :
    R.hasAncestor D.id = true ↔ Relation.TransGen (ParentLink h.created) R D := by
  have hiff := hsound.built.mem_ancestors_iff (A := D)
  constructor
  · intro habove
    exact (hiff (hsound.mem_created_of_isAncestor hR hD habove) R
      (hsound.mem_created_of_hasAncestor hR habove)).1 (of_decide_eq_true habove)
  · intro habove
    obtain ⟨hR, hD⟩ := hsound.built.mem_of_transGen habove
    exact decide_eq_true ((hiff hD R hR).2 habove)

theorem Sound.implements_iff (hsound : h.Sound) (hR : R ∈ h.types) (hD : D ∈ h.types) :
    R.implements D.id = true ↔ Reaches h.created R D := by
  constructor
  · intro himplements
    have hcreated := (hsound.isInterface_of_implements hR hD himplements).1
    exact ((hsound.built.implements_iff (hsound.mem_created_of_implements hR himplements)
      hcreated).1 (of_decide_eq_true himplements)).2
  · intro hreaches
    have hcreated := (hsound.built.mem_of_reaches hreaches).1
    exact decide_eq_true (hsound.built.mem_interfaces_of_reaches hcreated hreaches)

/-- No type descends from a universal one. -/
theorem Sound.isUniversal_of_descendsFrom (hsound : h.Sound)
    (hdescends : DescendsFrom h.created R D) : D.isUniversal = false := by
  refine hsound.isUniversal_of_mem_created ?_
  rcases hdescends with habove | hreaches
  · exact (hsound.built.mem_of_transGen habove).2
  · exact (hsound.built.mem_of_reaches hreaches).2

/-! ### Different tables -/

/-- Types of different tables have different identifiers. -/
theorem Sound.id_ne_of_tables_ne (hsound : h.Sound) {t u : TypeTable} (ht : t ∈ h.tables)
    (hu : u ∈ h.tables) (hne : t ≠ u) (hR : R ∈ t.types) (hD : D ∈ u.types) : R.id ≠ D.id := by
  obtain ⟨i, hi⟩ := List.mem_iff_getElem?.1 hR
  obtain ⟨j, hj⟩ := List.mem_iff_getElem?.1 hD
  intro hid
  rw [hsound.distinct.indexed t ht i R hi, hsound.distinct.indexed u hu j D hj,
    TypeId.mk.injEq] at hid
  exact hne (List.inj_on_of_nodup_map hsound.distinct.numbers ht hu hid.1)

theorem Sound.notMem_of_tables_ne (hsound : h.Sound) {t u : TypeTable} (ht : t ∈ h.tables)
    (hu : u ∈ h.tables) (hne : t ≠ u) (hD : D ∈ u.types) : D ∉ t.types := fun hD' =>
  hsound.id_ne_of_tables_ne ht hu hne hD' hD rfl

/-- The verdict on types that have nothing to do with each other. -/
def foreignVerdict (declared : Ty) : Verdict :=
  if declared.isUniversal then .tier .universal else .incompatible

theorem judge_eq_foreignVerdict (hid : R.id ≠ D.id) (hclass : ¬ R.hasAncestor D.id = true)
    (hinterface : ¬ R.implements D.id = true) : judge (some R) D = foreignVerdict D := by
  have hboth : ¬ (D.isInterface && R.implements D.id) = true := fun hboth =>
    hinterface (Bool.and_eq_true_iff.1 hboth).2
  rw [judge, if_neg hid, if_neg hclass, if_neg hboth, foreignVerdict]

/-- **When a type of another table fits.** A runtime type fits a declared type of another table as
if they had nothing to do with each other, unless it descends from it. If it does, it fits as a
class below or as a type that implements an interface, and there is a declaration of its own table
that leads out of the table and on to the declared type. -/
theorem foreign_verdict (h : DeclarationHistory) (hreach : h.Reachable) (t u : TypeTable)
    (ht : t ∈ h.tables) (hu : u ∈ h.tables) (hne : t ≠ u) (R D : Ty) (hR : R ∈ t.types)
    (hD : D ∈ u.types) :
    (judge (some R) D = foreignVerdict D ↔ ¬ DescendsFrom h.created R D) ∧
    (Relation.TransGen (ParentLink h.created) R D → judge (some R) D = .tier .ancestor) ∧
    (Reaches h.created R D → judge (some R) D = .tier .interface) ∧
    (DescendsFrom h.created R D → ∃ S ∈ t.types, ∃ P ∉ t.types,
      Relation.ReflTransGen (Link h.created) R S ∧ Link h.created S P ∧
        Relation.ReflTransGen (Link h.created) P D) := by
  have hsound := hreach.sound
  have hR' : R ∈ h.types := List.mem_flatMap_of_mem ht hR
  have hD' : D ∈ h.types := List.mem_flatMap_of_mem hu hD
  have hclass : Relation.TransGen (ParentLink h.created) R D →
      judge (some R) D = .tier .ancestor := fun habove =>
    hsound.judge_eq_ancestor hR' hD' ((hsound.hasAncestor_iff hR' hD').2 habove)
  have hinterface : Reaches h.created R D → judge (some R) D = .tier .interface := fun hreaches =>
    hsound.judge_eq_interface hR' hD' ((hsound.implements_iff hR' hD').2 hreaches)
  refine ⟨⟨fun hverdict hdescends => ?_, fun hnot => ?_⟩, hclass, hinterface, fun hdescends =>
    hdescends.exists_leaving hR (hsound.notMem_of_tables_ne ht hu hne hD)⟩
  · rw [foreignVerdict, hsound.isUniversal_of_descendsFrom hdescends] at hverdict
    rcases hdescends with habove | hreaches
    · rw [hclass habove] at hverdict
      cases hverdict
    · rw [hinterface hreaches] at hverdict
      cases hverdict
  · exact judge_eq_foreignVerdict (hsound.id_ne_of_tables_ne ht hu hne hR hD)
      (fun habove => hnot (.inl ((hsound.hasAncestor_iff hR' hD').1 habove)))
      fun himplements => hnot (.inr ((hsound.implements_iff hR' hD').1 himplements))

/-! ### A class below one of another table -/

/-- The first table of `dice`. -/
def solids : TypeTable :=
  ⟨0, [shape, solid, cube]⟩

/-- The second table of `dice`. -/
def toys : TypeTable :=
  ⟨1, [die]⟩

theorem toys_ne_solids : toys ≠ solids := fun he =>
  absurd (congrArg TypeTable.number he) (by decide)

/-- A class fits its parent, which is of another table. The parent does not fit the class, since all
declarations of its table stay there. -/
theorem foreign_verdict_dice :
    judge (some die) cube = .tier .ancestor ∧ judge (some cube) die = .incompatible := by
  have hsolids : solids ∈ dice.tables := .head _
  have htoys : toys ∈ dice.tables := .tail _ (.head _)
  obtain ⟨-, hancestor, -⟩ := foreign_verdict dice reachable_dice toys solids htoys hsolids
    toys_ne_solids die cube (by decide) (by decide)
  obtain ⟨hforeign, -, -, hleaving⟩ := foreign_verdict dice reachable_dice solids toys hsolids htoys
    toys_ne_solids.symm cube die (by decide) (by decide)
  have hstays : ∀ c ∈ dice.created, c.type ∈ solids.types →
      ∀ P ∈ c.declaration.parent?.toList ++ c.declaration.bases, P ∈ solids.types := by decide
  refine ⟨hancestor (.single ⟨dieDeclaration, by simp [dice], rfl⟩), hforeign.2 fun hdescends => ?_⟩
  obtain ⟨S, hS, P, hP, -, ⟨d, hd, hlink⟩ | ⟨d, hd, hlink⟩, -⟩ := hleaving hdescends
  · exact hP (hstays _ hd hS P (by simp [hlink]))
  · exact hP (hstays _ hd hS P (by simp [hlink]))

/-- So it is not true that a type of one table fits nothing of another but the universal type. -/
theorem foreign_parent_fits : ¬ ∀ h : DeclarationHistory, h.Reachable →
    ∀ t ∈ h.tables, ∀ u ∈ h.tables, t ≠ u → ∀ R ∈ t.types, ∀ D ∈ u.types,
      judge (some R) D = foreignVerdict D := by
  intro hclaim
  have hverdict := hclaim dice reachable_dice toys (.tail _ (.head _)) solids (.head _)
    toys_ne_solids die (by decide) cube (by decide)
  exact absurd hverdict (by decide)

end DeclarationHistory

end MultiDispatch
