import Mathlib.Data.List.Nodup
import Mathlib.Logic.Relation
import MultiDispatch.Universe.Declaration

/-!
# Inheritance

A type carries the chain of its ancestors and the set of all interfaces it implements. Both are
computed once, at its creation, from what its parent and its bases carry, and never again. Here they
are compared with what the declarations say: a declaration names the parent and the bases of one
type, and everything else is a matter of following these links.

## Why the order of creation matters

That a type never comes to be above itself is not checked anywhere. It holds because a declaration
can only name types that are there already. `Built` keeps the types in the order of their creation,
each with the declaration that created it, and is what all proofs here are by induction on.

## Main definitions

* `Creation`: a type with the declaration that created it
* `ParentLink`, `BaseLink`: what declarations say about their types
* `Chain`, `Reaches`: following the links
* `Built`: types in the order of their creation

## Main results

* `Built.exists_chain`: the ancestors of a type are the chain of its parent links
* `Built.implements_iff`: the interfaces of a type are those that its links reach
* `Built.fresh`: no type is above itself
-/

namespace MultiDispatch

/-! ### Declarations -/

theorem Declaration.mem_interfaces_iff {d : Declaration} {id : TypeId} :
    id ∈ d.interfaces ↔
      id ∈ d.inherited ∨ ∃ b ∈ d.bases, id = b.id ∨ id ∈ b.interfaces := by
  rw [Declaration.interfaces]
  induction d.bases with
  | nil => simp
  | cons b rest ih =>
    rw [List.foldr_cons, TypeSet.mem_insert, TypeSet.mem_union, ih, List.exists_mem_cons_iff]
    simp only [or_assoc, or_left_comm]

theorem Declaration.mem_inherited_iff {d : Declaration} {id : TypeId} :
    id ∈ d.inherited ↔ ∃ P, d.parent? = some P ∧ id ∈ P.interfaces := by
  rw [Declaration.inherited]
  cases d.parent? with
  | none => simp [TypeSet.not_mem_empty]
  | some P => simp

theorem Declaration.badParent?_eq_none_iff {d : Declaration} :
    d.badParent? = none ↔ ∀ P, d.parent? = some P → P.kind = .reference := by
  rw [Declaration.badParent?]
  cases d.parent? <;> simp [Option.filter]

theorem Declaration.badBase?_eq_none_iff {d : Declaration} :
    d.badBase? = none ↔ ∀ B ∈ d.bases, B.isInterface = true := by
  rw [Declaration.badBase?, List.find?_eq_none]
  simp

theorem Declaration.check_eq_ok_iff {d : Declaration} :
    d.check = .ok () ↔ d.name ≠ "" ∧ (∀ p, d.parent? = some p → p.kind = .reference) ∧
      ∀ b ∈ d.bases, b.isInterface = true := by
  rw [Declaration.check, ← Declaration.badParent?_eq_none_iff, ← Declaration.badBase?_eq_none_iff]
  by_cases hname : d.name = ""
  · simp [hname]
  · rw [if_neg hname]
    cases d.badParent? <;> cases d.badBase? <;> simp [hname]

/-- A type with the declaration that created it. -/
structure Creation where
  type : Ty
  declaration : Declaration

variable {created : List Creation} {T P B I : Ty} {d : Declaration}

/-- The declaration that created `T` names `P` as the parent. -/
def ParentLink (created : List Creation) (T P : Ty) : Prop :=
  ∃ d, ⟨T, d⟩ ∈ created ∧ d.parent? = some P

/-- The declaration that created `T` names `B` among the bases. -/
def BaseLink (created : List Creation) (T B : Ty) : Prop :=
  ∃ d, ⟨T, d⟩ ∈ created ∧ B ∈ d.bases

/-- Following parent links from a type, as far as they go, leads through these types. -/
inductive Chain (created : List Creation) : Ty → List Ty → Prop
  | root {T : Ty} : (∀ P, ¬ ParentLink created T P) → Chain created T []
  | above {T P : Ty} {Ps : List Ty} :
    ParentLink created T P → Chain created P Ps → Chain created T (P :: Ps)

/-- `I` is reached from `T` by any number of parent links, one base, and any number of bases of
bases. -/
def Reaches (created : List Creation) (T I : Ty) : Prop :=
  ∃ S B, Relation.ReflTransGen (ParentLink created) T S ∧ BaseLink created S B ∧
    Relation.ReflTransGen (BaseLink created) B I

/-- Types in the order of their creation. Each declaration passes its own check, names types that
were created before, and gives an identifier that none of these has. -/
inductive Built : List Creation → Prop
  | nil : Built []
  | concat {created : List Creation} {d : Declaration} {id : TypeId} :
    Built created → d.check = .ok () →
    (∀ P, d.parent? = some P → P ∈ created.map Creation.type) →
    (∀ B ∈ d.bases, B ∈ created.map Creation.type) →
    (∀ T ∈ created.map Creation.type, T.id ≠ id) →
    Built (created ++ [⟨d.toTy id, d⟩])

theorem not_parentLink_of_notMem (hT : T ∉ created.map Creation.type) :
    ¬ ParentLink created T P := by
  rintro ⟨d, hd, -⟩
  exact hT (List.mem_map_of_mem hd)

/-- Nothing is reached from a type without a declaration. -/
theorem not_reaches_of_notMem (hT : T ∉ created.map Creation.type) : ¬ Reaches created T I := by
  rintro ⟨S, B, hS, ⟨d, hd, -⟩, -⟩
  rcases hS.cases_head with rfl | ⟨P, hP, -⟩
  · exact hT (List.mem_map_of_mem hd)
  · exact not_parentLink_of_notMem hT hP

namespace Built

/-- What a creation says about its type, whenever it was. -/
theorem of_mem (h : Built created) (hT : ⟨T, d⟩ ∈ created) :
    T = d.toTy T.id ∧ d.check = .ok () ∧
      (∀ P, d.parent? = some P → P ∈ created.map Creation.type) ∧
      ∀ B ∈ d.bases, B ∈ created.map Creation.type := by
  induction h with
  | nil => cases hT
  | @concat created d' id hbuilt hcheck hparent hbases _ ih =>
    rw [List.map_append]
    rcases List.mem_append.1 hT with hT | hT
    · obtain ⟨htype, hcheck, hparent, hbases⟩ := ih hT
      exact ⟨htype, hcheck, fun P hP => List.mem_append_left _ (hparent P hP),
        fun B hB => List.mem_append_left _ (hbases B hB)⟩
    · obtain ⟨rfl, rfl⟩ : T = d'.toTy id ∧ d = d' := by simpa using hT
      exact ⟨rfl, hcheck, fun P hP => List.mem_append_left _ (hparent P hP),
        fun B hB => List.mem_append_left _ (hbases B hB)⟩

theorem nodup_ids (h : Built created) : (created.map fun c => c.type.id).Nodup := by
  induction h with
  | nil => exact List.nodup_nil
  | @concat created d id _ _ _ _ hfresh ih =>
    have hnew : id ∉ created.map fun c => c.type.id := by
      intro hid
      obtain ⟨c, hc, hid⟩ := List.mem_map.1 hid
      exact hfresh c.type (List.mem_map_of_mem hc) hid
    simpa [Declaration.toTy] using ih.concat hnew

/-- A type is created once. -/
theorem eq_of_id_eq (h : Built created) {c c' : Creation} (hc : c ∈ created) (hc' : c' ∈ created)
    (hid : c.type.id = c'.type.id) : c = c' :=
  List.inj_on_of_nodup_map h.nodup_ids hc hc' hid

theorem type_eq_of_id_eq (h : Built created) (hT : T ∈ created.map Creation.type)
    (hP : P ∈ created.map Creation.type) (hid : T.id = P.id) : T = P := by
  obtain ⟨c, hc, rfl⟩ := List.mem_map.1 hT
  obtain ⟨c', hc', rfl⟩ := List.mem_map.1 hP
  rw [h.eq_of_id_eq hc hc' hid]

theorem kind_ne_universal (h : Built created) (hT : T ∈ created.map Creation.type) :
    T.kind ≠ .universal := by
  obtain ⟨⟨T, d⟩, hc, rfl⟩ := List.mem_map.1 hT
  change T.kind ≠ .universal
  rw [(h.of_mem hc).1]
  change d.kind ≠ .universal
  rw [Declaration.kind]
  split <;> exact nofun

/-! ### Links -/

theorem parentLink_iff (h : Built created) (hT : ⟨T, d⟩ ∈ created) :
    ParentLink created T P ↔ d.parent? = some P := by
  constructor
  · rintro ⟨d', hT', hP⟩
    obtain rfl : d' = d := congrArg Creation.declaration (h.eq_of_id_eq hT' hT rfl)
    exact hP
  · exact fun hP => ⟨d, hT, hP⟩

theorem baseLink_iff (h : Built created) (hT : ⟨T, d⟩ ∈ created) :
    BaseLink created T B ↔ B ∈ d.bases := by
  constructor
  · rintro ⟨d', hT', hB⟩
    obtain rfl : d' = d := congrArg Creation.declaration (h.eq_of_id_eq hT' hT rfl)
    exact hB
  · exact fun hB => ⟨d, hT, hB⟩

theorem mem_of_parentLink (h : Built created) (hP : ParentLink created T P) :
    P ∈ created.map Creation.type := by
  obtain ⟨d, hT, hP⟩ := hP
  exact (h.of_mem hT).2.2.1 P hP

theorem mem_of_baseLink (h : Built created) (hB : BaseLink created T B) :
    B ∈ created.map Creation.type := by
  obtain ⟨d, hT, hB⟩ := hB
  exact (h.of_mem hT).2.2.2 B hB

/-- What holds of a type if it holds of its parent and of its bases holds of all types. -/
theorem induction {motive : Ty → Prop} (h : Built created)
    (step : ∀ T ∈ created.map Creation.type, (∀ P, ParentLink created T P → motive P) →
      (∀ B, BaseLink created T B → motive B) → motive T) :
    ∀ T ∈ created.map Creation.type, motive T := by
  -- The links are those of all types; the induction is on the types created so far.
  have key : ∀ earlier, Built earlier → earlier ⊆ created →
      ∀ T ∈ earlier.map Creation.type, motive T := by
    intro earlier hearlier
    induction hearlier with
    | nil => exact fun _ => nofun
    | @concat earlier d id _ _ hparent hbases _ ih =>
      intro hsub T hT
      have hold := ih (List.append_subset.1 hsub).1
      rw [List.map_append, List.mem_append] at hT
      rcases hT with hT | hT
      · exact hold T hT
      · have hmem : ⟨d.toTy id, d⟩ ∈ created := hsub (by simp)
        rw [List.mem_singleton.1 hT]
        exact step _ (List.mem_map_of_mem hmem)
          (fun P hP => hold P (hparent P ((h.parentLink_iff hmem).1 hP)))
          (fun B hB => hold B (hbases B ((h.baseLink_iff hmem).1 hB)))
  exact key created h fun _ hc => hc

/-- A parent is a reference class. -/
theorem kind_of_parentLink (h : Built created) (hP : ParentLink created T P) :
    P.kind = .reference := by
  obtain ⟨d, hT, hparent⟩ := hP
  exact (Declaration.check_eq_ok_iff.1 (h.of_mem hT).2.1).2.1 P hparent

/-- A base is an interface. -/
theorem isInterface_of_baseLink (h : Built created) (hB : BaseLink created T B) :
    B.isInterface = true := by
  obtain ⟨d, hT, hbase⟩ := hB
  exact (Declaration.check_eq_ok_iff.1 (h.of_mem hT).2.1).2.2 B hbase

/-- An interface has no parent. -/
theorem not_parentLink_of_isInterface (h : Built created) (hI : I.isInterface = true) :
    ¬ ParentLink created I P := by
  rintro ⟨d, hI', hP⟩
  have hkind : d.kind = .interface := by
    rw [(h.of_mem hI').1] at hI
    exact of_decide_eq_true hI
  rw [Declaration.parent?] at hP
  rw [Declaration.kind] at hkind
  split at hP <;> simp_all

theorem ancestors_of_parentLink (h : Built created) (hP : ParentLink created T P) :
    T.ancestors = P.id :: P.ancestors := by
  obtain ⟨d, hT, hP⟩ := hP
  rw [(h.of_mem hT).1]
  change d.ancestors = _
  rw [Declaration.ancestors, hP]

theorem ancestors_of_root (h : Built created) (hT : T ∈ created.map Creation.type)
    (hroot : ∀ P, ¬ ParentLink created T P) : T.ancestors = [] := by
  obtain ⟨⟨T, d⟩, hc, rfl⟩ := List.mem_map.1 hT
  have hnone : d.parent? = none :=
    Option.eq_none_iff_forall_ne_some.2 fun P hP => hroot P ((h.parentLink_iff hc).2 hP)
  change T.ancestors = []
  rw [(h.of_mem hc).1]
  change d.ancestors = _
  rw [Declaration.ancestors, hnone]

/-- A type is below its parent and what that is below, or has no parent and is below nothing. -/
theorem ancestors_cases (h : Built created) (hT : T ∈ created.map Creation.type) :
    (∃ P, ParentLink created T P ∧ T.ancestors = P.id :: P.ancestors) ∨
      ((∀ P, ¬ ParentLink created T P) ∧ T.ancestors = []) := by
  by_cases hlink : ∃ P, ParentLink created T P
  · obtain ⟨P, hP⟩ := hlink
    exact .inl ⟨P, hP, h.ancestors_of_parentLink hP⟩
  · have hroot : ∀ P, ¬ ParentLink created T P := fun P hP => hlink ⟨P, hP⟩
    exact .inr ⟨hroot, h.ancestors_of_root hT hroot⟩

/-- A type implements what its parent implements, its bases, and what these implement. -/
theorem mem_interfaces_iff (h : Built created) (hT : T ∈ created.map Creation.type) {id : TypeId} :
    id ∈ T.interfaces ↔ (∃ P, ParentLink created T P ∧ id ∈ P.interfaces) ∨
      ∃ B, BaseLink created T B ∧ (id = B.id ∨ id ∈ B.interfaces) := by
  obtain ⟨⟨T, d⟩, hc, rfl⟩ := List.mem_map.1 hT
  simp only [h.parentLink_iff hc, h.baseLink_iff hc]
  rw [← Declaration.mem_inherited_iff, ← Declaration.mem_interfaces_iff, (h.of_mem hc).1]
  rfl

/-! ### Ancestors -/

/-- Following the parent links of a type comes to an end. -/
theorem exists_chain (h : Built created) :
    ∀ T ∈ created.map Creation.type, ∃ Ps, Chain created T Ps := by
  refine h.induction fun T hT hparents _ => ?_
  rcases h.ancestors_cases hT with ⟨P, hP, -⟩ | ⟨hroot, -⟩
  · obtain ⟨Ps, hchain⟩ := hparents P hP
    exact ⟨P :: Ps, .above hP hchain⟩
  · exact ⟨[], .root hroot⟩

/-- **The ancestors of a type are the chain of its parent links**, nearest first. -/
theorem ancestors_eq_of_chain (h : Built created) {Ps : List Ty} (hchain : Chain created T Ps)
    (hT : T ∈ created.map Creation.type) : T.ancestors = Ps.map Ty.id := by
  induction hchain with
  | root hroot => exact h.ancestors_of_root hT hroot
  | above hP _ ih => rw [h.ancestors_of_parentLink hP, ih (h.mem_of_parentLink hP), List.map_cons]

theorem of_mem_chain (h : Built created) {Ps : List Ty} (hchain : Chain created T Ps) :
    ∀ P ∈ Ps, P ∈ created.map Creation.type ∧ P.kind = .reference := by
  induction hchain with
  | root _ => exact nofun
  | above hP _ ih =>
    intro A hA
    rcases List.mem_cons.1 hA with rfl | hA
    · exact ⟨h.mem_of_parentLink hP, h.kind_of_parentLink hP⟩
    · exact ih A hA

theorem exists_of_mem_ancestors (h : Built created) (hT : T ∈ created.map Creation.type)
    {id : TypeId} (hid : id ∈ T.ancestors) : ∃ A ∈ created.map Creation.type, A.id = id := by
  obtain ⟨Ps, hchain⟩ := h.exists_chain T hT
  rw [h.ancestors_eq_of_chain hchain hT] at hid
  obtain ⟨A, hA, rfl⟩ := List.mem_map.1 hid
  exact ⟨A, (h.of_mem_chain hchain A hA).1, rfl⟩

theorem mem_of_transGen (h : Built created) {A : Ty}
    (habove : Relation.TransGen (ParentLink created) T A) :
    T ∈ created.map Creation.type ∧ A ∈ created.map Creation.type := by
  obtain ⟨P, ⟨d, hT, -⟩, -⟩ := Relation.TransGen.head'_iff.1 habove
  obtain ⟨S, -, hA⟩ := Relation.TransGen.tail'_iff.1 habove
  exact ⟨List.mem_map_of_mem hT, h.mem_of_parentLink hA⟩

/-- The ancestors of a type are the classes above it. -/
theorem mem_ancestors_iff (h : Built created) {A : Ty} (hA : A ∈ created.map Creation.type) :
    ∀ T ∈ created.map Creation.type,
      A.id ∈ T.ancestors ↔ Relation.TransGen (ParentLink created) T A := by
  refine h.induction fun T hT hparents _ => ?_
  constructor
  · intro hid
    rcases h.ancestors_cases hT with ⟨P, hP, hancestors⟩ | ⟨-, hancestors⟩
    · rw [hancestors, List.mem_cons] at hid
      rcases hid with hid | hid
      · obtain rfl := h.type_eq_of_id_eq hA (h.mem_of_parentLink hP) hid
        exact .single hP
      · exact .head hP ((hparents P hP).1 hid)
    · rw [hancestors] at hid
      cases hid
  · intro habove
    obtain ⟨P, hP, hrest⟩ := Relation.TransGen.head'_iff.1 habove
    rw [h.ancestors_of_parentLink hP, List.mem_cons]
    rcases Relation.reflTransGen_iff_eq_or_transGen.1 hrest with rfl | hrest
    · exact .inl rfl
    · exact .inr ((hparents P hP).2 hrest)

/-! ### Interfaces -/

theorem interfaces_subset_of_parentLink (h : Built created) (hT : T ∈ created.map Creation.type)
    (hP : ParentLink created T P) : ∀ id ∈ P.interfaces, id ∈ T.interfaces := fun _ hid =>
  (h.mem_interfaces_iff hT).2 (.inl ⟨P, hP, hid⟩)

theorem interfaces_subset_of_baseLink (h : Built created) (hT : T ∈ created.map Creation.type)
    (hB : BaseLink created T B) : ∀ id ∈ B.interfaces, id ∈ T.interfaces := fun _ hid =>
  (h.mem_interfaces_iff hT).2 (.inr ⟨B, hB, .inr hid⟩)

/-- Every identifier in a set of interfaces is that of an interface which the links reach. -/
theorem exists_reaches (h : Built created) : ∀ T ∈ created.map Creation.type,
    ∀ id ∈ T.interfaces, ∃ I ∈ created.map Creation.type, I.id = id ∧ I.isInterface = true ∧
      Reaches created T I := by
  refine h.induction fun T hT hparents hbases id hid => ?_
  rcases (h.mem_interfaces_iff hT).1 hid with ⟨P, hP, hid⟩ | ⟨B, hB, rfl | hid⟩
  · obtain ⟨I, hI, rfl, hinterface, S, B, hS, hB, hreach⟩ := hparents P hP id hid
    exact ⟨I, hI, rfl, hinterface, S, B, hS.head hP, hB, hreach⟩
  · exact ⟨B, h.mem_of_baseLink hB, rfl, h.isInterface_of_baseLink hB, T, B, .refl, hB, .refl⟩
  · obtain ⟨I, hI, rfl, hinterface, S, B', hS, hB', hreach⟩ := hbases B hB id hid
    -- A base has no parent, so what it reaches it reaches through bases only.
    obtain rfl : B = S := by
      rcases hS.cases_head with he | ⟨P, hP, -⟩
      · exact he
      · exact absurd hP (h.not_parentLink_of_isInterface (h.isInterface_of_baseLink hB))
    exact ⟨I, hI, rfl, hinterface, T, B, .refl, hB, hreach.head hB'⟩

theorem id_eq_or_mem_of_baseLinks (h : Built created) (hB : B ∈ created.map Creation.type)
    (hreach : Relation.ReflTransGen (BaseLink created) B I) :
    I.id = B.id ∨ I.id ∈ B.interfaces := by
  induction hreach using Relation.ReflTransGen.head_induction_on with
  | refl => exact .inl rfl
  | head hB' _ ih =>
    rcases ih (h.mem_of_baseLink hB') with he | hid
    · exact .inr ((h.mem_interfaces_iff hB).2 (.inr ⟨_, hB', .inl he⟩))
    · exact .inr (h.interfaces_subset_of_baseLink hB hB' _ hid)

theorem mem_interfaces_of_reaches (h : Built created) (hT : T ∈ created.map Creation.type)
    (hreach : Reaches created T I) : I.id ∈ T.interfaces := by
  obtain ⟨S, B, hS, hB, hreach⟩ := hreach
  induction hS using Relation.ReflTransGen.head_induction_on with
  | refl =>
    have hid := h.id_eq_or_mem_of_baseLinks (h.mem_of_baseLink hB) hreach
    exact (h.mem_interfaces_iff hT).2 (.inr ⟨B, hB, hid⟩)
  | head hP _ ih =>
    exact h.interfaces_subset_of_parentLink hT hP _ (ih (h.mem_of_parentLink hP))

/-- **The interfaces of a type are those that its links reach.** -/
theorem implements_iff (h : Built created) (hT : T ∈ created.map Creation.type)
    (hI : I ∈ created.map Creation.type) :
    I.id ∈ T.interfaces ↔ I.isInterface = true ∧ Reaches created T I := by
  constructor
  · intro hid
    obtain ⟨I', hI', hid', hinterface, hreach⟩ := h.exists_reaches T hT _ hid
    obtain rfl := h.type_eq_of_id_eq hI' hI hid'
    exact ⟨hinterface, hreach⟩
  · exact fun hreach => h.mem_interfaces_of_reaches hT hreach.2

theorem mem_of_reaches (h : Built created) (hreaches : Reaches created T I) :
    T ∈ created.map Creation.type ∧ I ∈ created.map Creation.type := by
  have hT : T ∈ created.map Creation.type := by
    by_contra hnone
    exact not_reaches_of_notMem hnone hreaches
  obtain ⟨S, B, -, hB, hI⟩ := hreaches
  rcases Relation.ReflTransGen.cases_tail hI with rfl | ⟨B', -, hI⟩
  · exact ⟨hT, h.mem_of_baseLink hB⟩
  · exact ⟨hT, h.mem_of_baseLink hI⟩

/-! ### No type is above itself -/

theorem exists_of_mem_declared_ancestors (h : Built created)
    (hparent : ∀ P, d.parent? = some P → P ∈ created.map Creation.type) {id : TypeId}
    (hid : id ∈ d.ancestors) : ∃ A ∈ created.map Creation.type, A.id = id := by
  rw [Declaration.ancestors] at hid
  cases hp : d.parent? with
  | none => simp [hp] at hid
  | some P =>
    rw [hp] at hid
    rcases List.mem_cons.1 hid with rfl | hid
    · exact ⟨P, hparent P hp, rfl⟩
    · exact h.exists_of_mem_ancestors (hparent P hp) hid

theorem exists_of_mem_declared_interfaces (h : Built created)
    (hparent : ∀ P, d.parent? = some P → P ∈ created.map Creation.type)
    (hbases : ∀ B ∈ d.bases, B ∈ created.map Creation.type) {id : TypeId}
    (hid : id ∈ d.interfaces) : ∃ A ∈ created.map Creation.type, A.id = id := by
  have hcarried : ∀ S ∈ created.map Creation.type, id ∈ S.interfaces →
      ∃ A ∈ created.map Creation.type, A.id = id := fun S hS hid => by
    obtain ⟨I, hI, hid, -⟩ := h.exists_reaches S hS id hid
    exact ⟨I, hI, hid⟩
  rcases Declaration.mem_interfaces_iff.1 hid with hid | ⟨B, hB, rfl | hid⟩
  · rw [Declaration.inherited] at hid
    cases hp : d.parent? with
    | none =>
      rw [hp] at hid
      exact absurd hid (TypeSet.not_mem_empty id)
    | some P =>
      rw [hp] at hid
      exact hcarried P (hparent P hp) hid
  · exact ⟨B, hbases B hB, rfl⟩
  · exact hcarried B (hbases B hB) hid

/-- No type is above itself: whatever it carries was there before, and its identifier was not. -/
theorem fresh (h : Built created) : ∀ T ∈ created.map Creation.type,
    T.id ∉ T.ancestors ∧ T.id ∉ T.interfaces := by
  induction h with
  | nil => exact fun _ => nofun
  | @concat created d id hbuilt _ hparent hbases hfresh ih =>
    intro T hT
    rw [List.map_append, List.mem_append] at hT
    rcases hT with hT | hT
    · exact ih T hT
    rw [List.mem_singleton.1 hT]
    -- The parent and the bases belong to the types before, to which `hfresh` refers.
    constructor
    · intro hid
      obtain ⟨A, hA, he⟩ := hbuilt.exists_of_mem_declared_ancestors hparent hid
      exact hfresh A hA he
    · intro hid
      obtain ⟨A, hA, he⟩ := hbuilt.exists_of_mem_declared_interfaces hparent hbases hid
      exact hfresh A hA he

theorem nodup_ancestors (h : Built created) :
    ∀ T ∈ created.map Creation.type, T.ancestors.Nodup := by
  refine h.induction fun T hT hparents _ => ?_
  rcases h.ancestors_cases hT with ⟨P, hP, hancestors⟩ | ⟨-, hancestors⟩
  · rw [hancestors]
    exact List.nodup_cons.2 ⟨(h.fresh P (h.mem_of_parentLink hP)).1, hparents P hP⟩
  · rw [hancestors]
    exact List.nodup_nil

/-! ### What is above stays above -/

/-- A type has the ancestors and the interfaces of its ancestors. -/
theorem inherits (h : Built created) {A : Ty} (hA : A ∈ created.map Creation.type) :
    ∀ T ∈ created.map Creation.type, A.id ∈ T.ancestors →
      (∀ id ∈ A.ancestors, id ∈ T.ancestors) ∧ ∀ id ∈ A.interfaces, id ∈ T.interfaces := by
  refine h.induction fun T hT hparents _ habove => ?_
  rcases h.ancestors_cases hT with ⟨P, hP, hancestors⟩ | ⟨-, hancestors⟩
  · have hinterfaces := h.interfaces_subset_of_parentLink hT hP
    rw [hancestors] at habove ⊢
    rcases List.mem_cons.1 habove with he | habove
    · obtain rfl := h.type_eq_of_id_eq hA (h.mem_of_parentLink hP) he
      exact ⟨fun id hid => List.mem_cons_of_mem _ hid, hinterfaces⟩
    · obtain ⟨hfurther, hinherited⟩ := hparents P hP habove
      exact ⟨fun id hid => List.mem_cons_of_mem _ (hfurther id hid),
        fun id hid => hinterfaces id (hinherited id hid)⟩
  · rw [hancestors] at habove
    cases habove

/-- A type has the interfaces of its interfaces. -/
theorem implements_trans (h : Built created) (hI : I ∈ created.map Creation.type) :
    ∀ T ∈ created.map Creation.type, I.id ∈ T.interfaces →
      ∀ id ∈ I.interfaces, id ∈ T.interfaces := by
  refine h.induction fun T hT hparents hbases hid id hid' => ?_
  rcases (h.mem_interfaces_iff hT).1 hid with ⟨P, hP, hid⟩ | ⟨B, hB, he | hid⟩
  · exact h.interfaces_subset_of_parentLink hT hP id (hparents P hP hid id hid')
  · obtain rfl := h.type_eq_of_id_eq hI (h.mem_of_baseLink hB) he
    exact h.interfaces_subset_of_baseLink hT hB id hid'
  · exact h.interfaces_subset_of_baseLink hT hB id (hbases B hB hid id hid')

end Built

end MultiDispatch
