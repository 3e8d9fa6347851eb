import MultiDispatch.Proofs.Inheritance
import MultiDispatch.Proofs.TypeIdentity

/-!
# Histories of declarations

Any number of tables, in which types are declared in any order. What a declaration builds on has to
be a type by then, of whichever table. A declaration of a known name may be accepted too, though it
lists other bases, as long as it comes to the same; it leaves no trace, and the links of the type
stay those of the declaration that created it.

## Main definitions

* `DeclarationHistory`: tables with the types created in them, in order
* `DeclarationHistory.Reachable`: what tables and accepted declarations lead to

## Main results

* `DeclarationHistory.Reachable.sound`: the types are those created and the universal ones, and each
  was built on earlier ones
* `DeclarationHistory.relations_are_closures`: what a type carries is what the links say
-/

namespace MultiDispatch

/-- Tables, and the types created in them with their declarations, in the order of creation. -/
structure DeclarationHistory where
  tables : List TypeTable
  created : List Creation

namespace DeclarationHistory

variable {h : DeclarationHistory} {T : Ty}

/-- The types of all tables. -/
def types (h : DeclarationHistory) : List Ty :=
  h.tables.flatMap TypeTable.types

/-- The history with one more table, whose number is that of the tables before it. A counter of 32
bits gives it the same number as long as there are fewer than `2 ^ 32` tables. -/
def openTable (h : DeclarationHistory) : DeclarationHistory :=
  { h with tables := h.tables ++ [.create h.tables.length] }

/-- The history after the table at `place` accepted `d` and answered `ty`. Only a name that it did
not know makes a type. -/
def accept (h : DeclarationHistory) (place : ℕ) (t : TypeTable) (d : Declaration) (ty : Ty)
    (t' : TypeTable) : DeclarationHistory where
  tables := h.tables.set place t'
  created := if (t.get? d.name).isSome then h.created else h.created ++ [⟨ty, d⟩]

/-- What can come of opening tables and of declarations that are accepted. A declaration builds on
types of the history. -/
inductive Reachable : DeclarationHistory → Prop
  | empty : Reachable ⟨[], []⟩
  | openTable {h : DeclarationHistory} : Reachable h → Reachable h.openTable
  | declare {h : DeclarationHistory} {place : ℕ} {t t' : TypeTable} {d : Declaration} {ty : Ty} :
    Reachable h → h.tables[place]? = some t →
    (∀ P, d.parent? = some P → P ∈ h.types) → (∀ B ∈ d.bases, B ∈ h.types) →
    t.declare d = .ok (ty, t') → Reachable (h.accept place t d ty t')

/-- Tables are told apart by their numbers and types by their identifiers, and the types are those
created and the universal ones. -/
structure Sound (h : DeclarationHistory) : Prop where
  distinct : DistinctTables h.tables
  below : ∀ t ∈ h.tables, t.number < h.tables.length
  built : Built h.created
  mem_types_iff : ∀ T, T ∈ h.types ↔
    T ∈ h.created.map Creation.type ∨ T ∈ h.tables.map TypeTable.universal

/-- What is not universal was created by a declaration. -/
theorem Sound.mem_created (hsound : h.Sound) (hT : T ∈ h.types) (hkind : T.kind ≠ .universal) :
    T ∈ h.created.map Creation.type := by
  rcases (hsound.mem_types_iff T).1 hT with hT | hT
  · exact hT
  · obtain ⟨t, -, rfl⟩ := List.mem_map.1 hT
    exact absurd rfl hkind

theorem Sound.mem_types (hsound : h.Sound) (hT : T ∈ h.created.map Creation.type) :
    T ∈ h.types :=
  (hsound.mem_types_iff T).2 (.inl hT)

/-- A type of the history with the identifier of a created one is that one. -/
theorem Sound.mem_created_of_id_eq (hsound : h.Sound) {A : Ty} (hT : T ∈ h.types)
    (hA : A ∈ h.created.map Creation.type) (hid : A.id = T.id) :
    T ∈ h.created.map Creation.type := by
  rwa [← hsound.distinct.eq_of_id_eq (hsound.mem_types hA) hT hid]

theorem sound_empty : Sound ⟨[], []⟩ :=
  ⟨⟨List.nodup_nil, nofun⟩, nofun, .nil, fun _ => by simp [types]⟩

theorem Sound.openTable (hsound : h.Sound) : h.openTable.Sound := by
  obtain ⟨hdistinct, hbelow⟩ := hsound.distinct.concat_of_lt hsound.below
  refine ⟨hdistinct, fun t ht => ?_, hsound.built, fun T => ?_⟩
  · rw [DeclarationHistory.openTable, List.length_append, List.length_singleton]
    exact hbelow t ht
  · have hold := hsound.mem_types_iff T
    rw [types] at hold
    rw [types, DeclarationHistory.openTable, List.flatMap_append, List.mem_append, hold,
      List.map_append, List.mem_append, or_assoc]
    refine or_congr_right (or_congr_right ?_)
    simp [TypeTable.create, TypeTable.types, TypeTable.universal]

/-- A declaration of a known name leaves the history as it is. -/
theorem accept_of_known {place : ℕ} {t : TypeTable} {d : Declaration} {ty known : Ty}
    (ht : h.tables[place]? = some t) (hknown : t.get? d.name = some known) :
    h.accept place t d ty t = h := by
  obtain ⟨hlt, rfl⟩ := List.getElem?_eq_some_iff.1 ht
  rw [accept, hknown, List.set_getElem_self, Option.isSome_some, if_pos rfl]

theorem Sound.push (hsound : h.Sound) {place : ℕ} {t : TypeTable} {d : Declaration}
    (ht : h.tables[place]? = some t) (hparent : ∀ P, d.parent? = some P → P ∈ h.types)
    (hbases : ∀ B ∈ d.bases, B ∈ h.types) (hcheck : d.check = .ok ())
    (hlater : t.Later (t.push (d.toTy t.nextId))) :
    Sound ⟨h.tables.set place (t.push (d.toTy t.nextId)), h.created ++ [⟨d.toTy t.nextId, d⟩]⟩ := by
  have htables := later_set ht hlater
  obtain ⟨-, hreference, hinterface⟩ := Declaration.check_eq_ok_iff.1 hcheck
  refine ⟨hsound.distinct.later htables, fun u hu => ?_,
    hsound.built.concat hcheck (fun P hP => ?_) (fun B hB => ?_) fun T hT => ?_, fun T => ?_⟩
  · rw [List.length_set]
    exact number_lt_of_later htables hsound.below u hu
  · refine hsound.mem_created (hparent P hP) ?_
    rw [hreference P hP]
    exact nofun
  · refine hsound.mem_created (hbases B hB) ?_
    rw [of_decide_eq_true (hinterface B hB)]
    exact nofun
  · exact hsound.distinct.id_ne_nextId (List.mem_of_getElem? ht)
      (hsound.mem_types hT)
  · have huniversal : (h.tables.set place (t.push (d.toTy t.nextId))).map TypeTable.universal =
        h.tables.map TypeTable.universal := by
      have hnumbers := congrArg (List.map Ty.universal) (map_number_eq_of_later htables)
      rwa [List.map_map, List.map_map] at hnumbers
    have hold := hsound.mem_types_iff T
    rw [types] at hold
    rw [types, mem_types_set_push ht, hold, huniversal, List.map_append, List.mem_append,
      List.map_singleton, List.mem_singleton, or_right_comm]

theorem Sound.declare (hsound : h.Sound) {place : ℕ} {t t' : TypeTable} {d : Declaration} {ty : Ty}
    (ht : h.tables[place]? = some t) (hparent : ∀ P, d.parent? = some P → P ∈ h.types)
    (hbases : ∀ B ∈ d.bases, B ∈ h.types) (hd : t.declare d = .ok (ty, t')) :
    (h.accept place t d ty t').Sound := by
  have hlater : t.Later t' := TypeTable.Later.refl.declare hd
  obtain ⟨hcheck, ⟨hknown, -, -, rfl⟩ | ⟨hnew, rfl, rfl⟩⟩ := TypeTable.declare_cases hd
  · rwa [accept_of_known ht hknown]
  · rw [accept, hnew]
    exact hsound.push ht hparent hbases hcheck hlater

theorem Reachable.sound (hreach : h.Reachable) : h.Sound := by
  induction hreach with
  | empty => exact sound_empty
  | openTable _ ih => exact ih.openTable
  | declare _ ht hparent hbases hd ih => exact ih.declare ht hparent hbases hd

/-! ### Relations -/

/-- **What a type carries is what the links say.** In any history, the ancestors of a type are the
chain of its parent links, nearest first, and its interfaces are those that its links reach. So no
type is above itself, and what is above a type has nothing above that the type has not. -/
theorem relations_are_closures (h : DeclarationHistory) (hreach : h.Reachable) (T : Ty)
    (hT : T ∈ h.types) :
    (∃ Ps, Chain h.created T Ps) ∧
    (∀ Ps, Chain h.created T Ps → T.ancestors = Ps.map Ty.id ∧
      ∀ P ∈ Ps, P ∈ h.types ∧ P.kind = .reference) ∧
    T.ancestors.Nodup ∧ T.hasAncestor T.id = false ∧ T.implements T.id = false ∧
    (∀ I ∈ h.types, T.implements I.id = true ↔
      I.isInterface = true ∧ Reaches h.created T I) ∧
    (∀ id ∈ T.interfaces, ∃ I ∈ h.types, I.id = id ∧ I.isInterface = true) ∧
    (∀ A ∈ h.types, T.hasAncestor A.id = true →
      (∀ id, A.hasAncestor id = true → T.hasAncestor id = true) ∧
        ∀ id, A.implements id = true → T.implements id = true) ∧
    ∀ I ∈ h.types, T.implements I.id = true →
      ∀ id, I.implements id = true → T.implements id = true := by
  have hsound := hreach.sound
  have hbuilt := hsound.built
  simp only [Ty.hasAncestor, Ty.implements, decide_eq_true_eq, decide_eq_false_iff_not]
  rcases (hsound.mem_types_iff T).1 hT with hcreated | huniversal
  · obtain ⟨hancestor, hinterface⟩ := hbuilt.fresh T hcreated
    refine ⟨hbuilt.exists_chain T hcreated,
      fun Ps hchain => ⟨hbuilt.ancestors_eq_of_chain hchain hcreated, fun P hP => ?_⟩,
      hbuilt.nodup_ancestors T hcreated, hancestor, hinterface, fun I hI => ⟨fun hid => ?_, ?_⟩,
      fun id hid => ?_, fun A hA hid => ?_, fun I hI hid => ?_⟩
    · obtain ⟨hP, hkind⟩ := hbuilt.of_mem_chain hchain P hP
      exact ⟨hsound.mem_types hP, hkind⟩
    · obtain ⟨J, hJ, he, -⟩ := hbuilt.exists_reaches T hcreated _ hid
      exact (hbuilt.implements_iff hcreated (hsound.mem_created_of_id_eq hI hJ he)).1 hid
    · exact fun hreaches => hbuilt.mem_interfaces_of_reaches hcreated hreaches.2
    · obtain ⟨I, hI, he, hkind, -⟩ := hbuilt.exists_reaches T hcreated id hid
      exact ⟨I, hsound.mem_types hI, he, hkind⟩
    · obtain ⟨A', hA', he⟩ := hbuilt.exists_of_mem_ancestors hcreated hid
      exact hbuilt.inherits (hsound.mem_created_of_id_eq hA hA' he) T hcreated hid
    · obtain ⟨J, hJ, he, -⟩ := hbuilt.exists_reaches T hcreated _ hid
      exact hbuilt.implements_trans (hsound.mem_created_of_id_eq hI hJ he) T hcreated hid
  · obtain ⟨t, -, rfl⟩ := List.mem_map.1 huniversal
    have hnone : t.universal ∉ h.created.map Creation.type := fun hmem =>
      hbuilt.kind_ne_universal hmem rfl
    have hempty : ∀ id, id ∉ t.universal.interfaces := TypeSet.not_mem_empty
    refine ⟨⟨[], .root fun P => not_parentLink_of_notMem hnone⟩, fun Ps hchain => ?_,
      List.nodup_nil, nofun, hempty _,
      fun I _ => ⟨fun hid => absurd hid (hempty _), fun hreaches => ?_⟩,
      fun id hid => absurd hid (hempty id), nofun, fun I _ hid => absurd hid (hempty _)⟩
    · cases hchain with
      | root _ => exact ⟨rfl, nofun⟩
      | above hP _ => exact absurd hP (not_parentLink_of_notMem hnone)
    · exact absurd hreaches.2 (not_reaches_of_notMem hnone)

/-! ### A history with two tables -/

def shapeDeclaration : Declaration :=
  ⟨"Shape", .interface, []⟩

def shape : Ty :=
  shapeDeclaration.toTy ⟨0, 1⟩

def solidDeclaration : Declaration :=
  ⟨"Solid", .interface, [shape]⟩

def solid : Ty :=
  solidDeclaration.toTy ⟨0, 2⟩

def cubeDeclaration : Declaration :=
  ⟨"Cube", .reference none, [solid]⟩

def cube : Ty :=
  cubeDeclaration.toTy ⟨0, 3⟩

def dieDeclaration : Declaration :=
  ⟨"Die", .reference (some cube), []⟩

def die : Ty :=
  dieDeclaration.toTy ⟨1, 1⟩

/-- Two interfaces and a class in one table, and a class below it in another. -/
def dice : DeclarationHistory where
  tables := [⟨0, [shape, solid, cube]⟩, ⟨1, [die]⟩]
  created := [⟨shape, shapeDeclaration⟩, ⟨solid, solidDeclaration⟩, ⟨cube, cubeDeclaration⟩,
    ⟨die, dieDeclaration⟩]

/-- The class is declared twice, with a redundant base the second time. -/
theorem reachable_dice : dice.Reachable := by
  have h₀ := Reachable.empty.openTable.openTable
  have h₁ := @Reachable.declare _ 0 _ _ shapeDeclaration _ h₀ rfl nofun nofun rfl
  have h₂ := @Reachable.declare _ 0 _ _ solidDeclaration _ h₁ rfl nofun (by decide) rfl
  have h₃ := @Reachable.declare _ 0 _ _ cubeDeclaration _ h₂ rfl nofun (by decide) rfl
  have h₄ := @Reachable.declare _ 0 _ _ ⟨"Cube", .reference none, [shape, solid]⟩ _ h₃ rfl nofun
    (by decide) rfl
  exact @Reachable.declare _ 1 _ _ dieDeclaration _ h₄ rfl (by decide) nofun rfl

/-- A class implements what an interface of its parent extends. -/
theorem relations_are_closures_dice :
    die.ancestors = [cube.id] ∧ Reaches dice.created die shape := by
  have hcreated : die ∈ dice.types := by decide
  obtain ⟨-, -, -, -, -, hiff, -⟩ := relations_are_closures dice reachable_dice die hcreated
  exact ⟨rfl, ((hiff shape (by decide)).1 (by decide)).2⟩

end DeclarationHistory

end MultiDispatch
