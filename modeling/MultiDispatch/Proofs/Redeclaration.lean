import MultiDispatch.Proofs.Hierarchy
import MultiDispatch.Proofs.TypeAddresses

/-!
# Declaring a name again

A declaration of a known name is compared with the type that has the name, not with the declaration
that created it, of which only what the type carries is left. The type carries closed sets, and the
new declaration lists a parent and bases. So the list is closed first, and what is compared is what
the two come to.

What a declaration comes to depends on its list of bases only through what these bring. The order of
the list, bases that are given twice, and bases that come with another one anyway make no
difference, neither to a known name nor to a new one.

## Main definitions

* `Declaration.Valid`: a name, a parent that is a reference class, and bases that are interfaces
* `Declaration.Brings`: the interfaces that come with the parent and the bases
* `Matches`: a type is what a declaration comes to
* `Answers`: how a declaration is answered, one rule for each way
* `SameBases`: two lists of bases, each of which brings the other

## Main results

* `Sound.shape_eq_iff`: comparing shapes is comparing with the links and closures
* `Answers.declare_eq`, `exists_answers`: the rules say how a declaration is answered
* `TypeTable.declare_congr`: bases that bring the same come to the same
* `Sound.brings_iff_of_sameBases`: order, repetitions and redundant bases make no difference
* `redeclaration`: how a declaration is answered, and what it leaves behind
-/

namespace MultiDispatch

/-! ### Declarations -/

namespace Declaration

variable {d : Declaration} {bases : List Ty} {id : TypeId}

/-- What a declaration has to satisfy whatever its table holds. -/
structure Valid (d : Declaration) : Prop where
  named : d.name ≠ ""
  parent : ∀ P, d.parent? = some P → P.kind = .reference
  bases : ∀ B ∈ d.bases, B.isInterface = true

/-- The interface `id` comes with the parent, or with one of the bases, or is one of these. -/
def Brings (d : Declaration) (id : TypeId) : Prop :=
  (∃ P, d.parent? = some P ∧ P.implements id = true) ∨
    ∃ B ∈ d.bases, id = B.id ∨ B.implements id = true

theorem mem_interfaces_iff_brings : id ∈ d.interfaces ↔ d.Brings id := by
  rw [mem_interfaces_iff, mem_inherited_iff, Brings]
  simp only [Ty.implements, decide_eq_true_eq]

instance : Decidable (d.Brings id) :=
  decidable_of_iff _ mem_interfaces_iff_brings

theorem Valid.check_eq (hd : d.Valid) : d.check = .ok () :=
  check_eq_ok_iff.2 ⟨hd.named, hd.parent, hd.bases⟩

theorem check_of_badParent {P : Ty} (hname : d.name ≠ "") (hP : d.parent? = some P)
    (hkind : P.kind ≠ .reference) :
    d.check = .error (.invalidBase d.name P.name .notReference) := by
  have hbad : d.badParent? = some P := by simp [badParent?, hP, Option.filter, hkind]
  rw [check, if_neg hname, hbad]

theorem check_of_badBase {before after : List Ty} {B : Ty} (hname : d.name ≠ "")
    (hparent : ∀ P, d.parent? = some P → P.kind = .reference)
    (hsplit : d.bases = before ++ B :: after) (hbefore : ∀ b ∈ before, b.isInterface = true)
    (hB : B.isInterface = false) :
    d.check = .error (.invalidBase d.name B.name .notInterface) := by
  have hbad : d.badBase? = some B := by
    rw [badBase?, List.find?_eq_some_iff_append]
    exact ⟨by simp [hB], before, after, hsplit, fun b hb => by simp [hbefore b hb]⟩
  rw [check, if_neg hname, badParent?_eq_none_iff.2 hparent, hbad]

/-- Lists of bases that bring the same, together with the parent, close to the same set. -/
theorem interfaces_congr (hbrings : ∀ id, { d with bases := bases }.Brings id ↔ d.Brings id) :
    { d with bases := bases }.interfaces = d.interfaces :=
  TypeSet.ext fun id => by
    rw [mem_interfaces_iff_brings, mem_interfaces_iff_brings, hbrings id]

/-- With interfaces only, the check does not depend on the bases. -/
theorem check_congr (hold : ∀ B ∈ d.bases, B.isInterface = true)
    (hnew : ∀ B ∈ bases, B.isInterface = true) :
    { d with bases := bases }.check = d.check := by
  have hnone : d.badBase? = none := badBase?_eq_none_iff.2 hold
  have hnone' : { d with bases := bases }.badBase? = none := badBase?_eq_none_iff.2 hnew
  rw [check, check, hnone, hnone']
  rfl

end Declaration

namespace TypeTable

variable {t : TypeTable} {d : Declaration} {T : Ty}

theorem declare_of_error {e : DeclareError} (hcheck : d.check = .error e) :
    t.declare d = .error e := by
  rw [declare, hcheck]
  rfl

theorem declare_of_known (hd : d.Valid) (hget : t.get? d.name = some T) :
    t.declare d = if T.isUniversal || T.shape ≠ d.shape then .error (.conflict d.name)
      else .ok (T, t) := by
  rw [declare, hd.check_eq, hget]
  rfl

theorem declare_of_new (hd : d.Valid) (hget : t.get? d.name = none) :
    t.declare d = .ok (d.toTy t.nextId, t.push (d.toTy t.nextId)) := by
  rw [declare, hd.check_eq, hget]
  rfl

/-- **What a declaration comes to depends on its bases through what they bring only.** -/
theorem declare_congr (t : TypeTable) {bases : List Ty}
    (hold : ∀ B ∈ d.bases, B.isInterface = true) (hnew : ∀ B ∈ bases, B.isInterface = true)
    (hbrings : ∀ id, { d with bases := bases }.Brings id ↔ d.Brings id) :
    t.declare { d with bases := bases } = t.declare d := by
  have hinterfaces := Declaration.interfaces_congr hbrings
  have hshape : { d with bases := bases }.shape = d.shape := by
    rw [Declaration.shape, hinterfaces]
    rfl
  have hty : { d with bases := bases }.toTy t.nextId = d.toTy t.nextId := by
    rw [Declaration.toTy, hinterfaces]
    rfl
  rw [declare, declare, Declaration.check_congr hold hnew, hshape, hty]

end TypeTable

/-! ### Answers -/

namespace DeclarationHistory

variable {h : DeclarationHistory} {place : ℕ} {t : TypeTable} {d : Declaration} {T : Ty}

theorem Reachable.orderly (hreach : h.Reachable) : Orderly h.tables := by
  induction hreach with
  | empty => exact .nil
  | openTable _ ih => exact ih.openTable
  | declare _ ht _ _ hd ih => exact ih.later (later_set ht (TypeTable.Later.refl.declare hd))

/-- The type is what the declaration comes to: of its kind, directly below its parent, and with the
interfaces that it brings. -/
structure Matches (h : DeclarationHistory) (T : Ty) (d : Declaration) : Prop where
  kind : T.kind = d.kind
  parent : ∀ id, (∃ P, ParentLink h.created T P ∧ P.id = id) ↔ ∃ P, d.parent? = some P ∧ P.id = id
  interfaces : ∀ id, T.implements id = true ↔ d.Brings id

theorem Sound.head?_ancestors_eq_some_iff (hsound : h.Sound)
    (hT : T ∈ h.created.map Creation.type) {id : TypeId} :
    T.ancestors.head? = some id ↔ ∃ P, ParentLink h.created T P ∧ P.id = id := by
  rcases hsound.built.ancestors_cases hT with ⟨P, hP, hancestors⟩ | ⟨hroot, hancestors⟩
  · rw [hancestors, List.head?_cons, Option.some.injEq]
    constructor
    · exact fun hid => ⟨P, hP, hid⟩
    · rintro ⟨P', hP', rfl⟩
      rw [hsound.built.ancestors_of_parentLink hP'] at hancestors
      exact (List.cons.inj hancestors).1.symm
  · rw [hancestors]
    simp [hroot]

/-- The shape of a type is stored, that of a declaration computed; they are equal if and only if the
type is what the declaration comes to. -/
theorem Sound.shape_eq_iff (hsound : h.Sound) (hT : T ∈ h.created.map Creation.type) :
    T.shape = d.shape ↔ h.Matches T d := by
  have hparent : T.ancestors.head? = d.parent?.map Ty.id ↔ ∀ id,
      (∃ P, ParentLink h.created T P ∧ P.id = id) ↔ ∃ P, d.parent? = some P ∧ P.id = id := by
    rw [Option.ext_iff]
    simp only [hsound.head?_ancestors_eq_some_iff hT, Option.map_eq_some_iff]
  have hinterfaces : T.interfaces = d.interfaces ↔
      ∀ id, T.implements id = true ↔ d.Brings id := by
    simp only [← Declaration.mem_interfaces_iff_brings, Ty.implements, decide_eq_true_eq]
    exact ⟨fun heq id => by rw [heq], TypeSet.ext⟩
  rw [Ty.shape, Declaration.shape, Ty.Shape.mk.injEq, hparent, hinterfaces]
  constructor
  · rintro ⟨hkind, hsame, hbrought⟩
    exact ⟨hkind, hsame, hbrought⟩
  · intro hm
    exact ⟨hm.kind, hm.parent, hm.interfaces⟩

/-- How a table answers a declaration. The first thing that is wrong with the declaration itself is
reported; then a known name is answered with its type if this is what the declaration comes to, and
a new name with a new type. -/
inductive Answers (h : DeclarationHistory) (t : TypeTable) (d : Declaration) :
    Except DeclareError (Ty × TypeTable) → Prop
  | emptyName : d.name = "" → Answers h t d (.error .emptyName)
  | badParent {P : Ty} : d.name ≠ "" → d.parent? = some P → P.kind ≠ .reference →
    Answers h t d (.error (.invalidBase d.name P.name .notReference))
  /-- The bases before the bad one are interfaces. -/
  | badBase {before after : List Ty} {B : Ty} : d.name ≠ "" →
    (∀ P, d.parent? = some P → P.kind = .reference) → d.bases = before ++ B :: after →
    (∀ b ∈ before, b.isInterface = true) → B.isInterface = false →
    Answers h t d (.error (.invalidBase d.name B.name .notInterface))
  | conflict {T : Ty} : d.Valid → T ∈ t.types → T.name = d.name →
    T.isUniversal = true ∨ ¬ h.Matches T d → Answers h t d (.error (.conflict d.name))
  | known {T : Ty} : d.Valid → T ∈ t.types → T.name = d.name → T.isUniversal = false →
    h.Matches T d → Answers h t d (.ok (T, t))
  | new : d.Valid → (∀ T ∈ t.types, T.name ≠ d.name) →
    Answers h t d (.ok (d.toTy t.nextId, t.push (d.toTy t.nextId)))

/-- A type of a table of the history that is not universal was created by a declaration. -/
theorem Sound.mem_created_of_mem_types (hsound : h.Sound) (ht : h.tables[place]? = some t)
    (hT : T ∈ t.types) (huniversal : T.isUniversal = false) :
    T ∈ h.created.map Creation.type :=
  hsound.mem_created (List.mem_flatMap.2 ⟨t, List.mem_of_getElem? ht, hT⟩)
    (of_decide_eq_false huniversal)

/-- The rules are right. -/
theorem Answers.declare_eq (hreach : h.Reachable) (ht : h.tables[place]? = some t)
    {r : Except DeclareError (Ty × TypeTable)} (hr : h.Answers t d r) : t.declare d = r := by
  have hnames := hreach.orderly.names t (List.mem_of_getElem? ht)
  cases hr with
  | emptyName hname =>
    refine TypeTable.declare_of_error ?_
    rw [Declaration.check, if_pos hname]
  | badParent hname hP hkind =>
    exact TypeTable.declare_of_error (Declaration.check_of_badParent hname hP hkind)
  | badBase hname hparent hsplit hbefore hB =>
    exact TypeTable.declare_of_error
      (Declaration.check_of_badBase hname hparent hsplit hbefore hB)
  | @conflict T hd hT hname hdiffers =>
    rw [TypeTable.declare_of_known hd ((TypeTable.get?_eq_some_iff hnames).2 ⟨hT, hname⟩)]
    refine if_pos ?_
    cases huniversal : T.isUniversal with
    | true => rfl
    | false =>
      have hcreated := hreach.sound.mem_created_of_mem_types ht hT huniversal
      rw [huniversal, ← hreach.sound.shape_eq_iff hcreated] at hdiffers
      simpa using hdiffers
  | known hd hT hname huniversal hmatches =>
    have hcreated := hreach.sound.mem_created_of_mem_types ht hT huniversal
    rw [TypeTable.declare_of_known hd ((TypeTable.get?_eq_some_iff hnames).2 ⟨hT, hname⟩)]
    refine if_neg ?_
    simp [huniversal, (hreach.sound.shape_eq_iff hcreated).2 hmatches]
  | new hd hnew =>
    refine TypeTable.declare_of_new hd (TypeTable.get?_eq_none_iff.2 fun hmem => ?_)
    obtain ⟨T, hT, hname⟩ := List.mem_map.1 hmem
    exact hnew T hT hname

/-- There is a rule for every declaration. -/
theorem exists_answers (h : DeclarationHistory) (t : TypeTable) (d : Declaration) :
    ∃ r, h.Answers t d r := by
  by_cases hname : d.name = ""
  · exact ⟨_, .emptyName hname⟩
  by_cases hparent : ∀ P, d.parent? = some P → P.kind = .reference
  swap
  · push Not at hparent
    obtain ⟨P, hP, hkind⟩ := hparent
    exact ⟨_, .badParent hname hP hkind⟩
  cases hbad : d.badBase? with
  | some B =>
    obtain ⟨hB, before, after, hsplit, hbefore⟩ := List.find?_eq_some_iff_append.1 hbad
    exact ⟨_, .badBase hname hparent hsplit (by simpa using hbefore) (by simpa using hB)⟩
  | none =>
    have hd : d.Valid := ⟨hname, hparent, Declaration.badBase?_eq_none_iff.1 hbad⟩
    by_cases hnew : ∀ T ∈ t.types, T.name ≠ d.name
    · exact ⟨_, .new hd hnew⟩
    · push Not at hnew
      obtain ⟨T, hT, hTname⟩ := hnew
      by_cases hmatches : T.isUniversal = false ∧ h.Matches T d
      · exact ⟨_, .known hd hT hTname hmatches.1 hmatches.2⟩
      · refine ⟨_, .conflict hd hT hTname ?_⟩
        rwa [not_and_or, Bool.not_eq_false] at hmatches

/-! ### Other lists of bases -/

/-- What brings an interface brings all that this extends. -/
theorem Sound.brings_trans (hsound : h.Sound) (hparent : ∀ P, d.parent? = some P → P ∈ h.types)
    (hbases : ∀ B ∈ d.bases, B ∈ h.types) {I : Ty} (hI : I ∈ h.types) (hbrings : d.Brings I.id)
    {id : TypeId} (hid : I.implements id = true) : d.Brings id := by
  rcases hbrings with ⟨P, hP, hPI⟩ | ⟨B, hB, he | hBI⟩
  · exact .inl ⟨P, hP, hsound.implements_trans (hparent P hP) hI hPI hid⟩
  · obtain rfl := hsound.eq_of_id_eq hI (hbases B hB) he
    exact .inr ⟨I, hB, .inr hid⟩
  · exact .inr ⟨B, hB, .inr (hsound.implements_trans (hbases B hB) hI hBI hid)⟩

/-- Bases that all come with a declaration bring nothing that does not. -/
theorem Sound.brings_of_bases (hsound : h.Sound)
    (hparent : ∀ P, d.parent? = some P → P ∈ h.types) (hbases : ∀ B ∈ d.bases, B ∈ h.types)
    {bases : List Ty} (hother : ∀ B ∈ bases, B ∈ h.types) (hbrought : ∀ B ∈ bases, d.Brings B.id)
    {id : TypeId} (hid : { d with bases := bases }.Brings id) : d.Brings id := by
  rcases hid with hinherited | ⟨B, hB, rfl | hid⟩
  · exact .inl hinherited
  · exact hbrought B hB
  · exact hsound.brings_trans hparent hbases (hother B hB) (hbrought B hB) hid

/-- Each list brings the bases of the other: it is in another order, or repeats bases, or has or
omits some that come with the rest anyway. -/
structure SameBases (h : DeclarationHistory) (d : Declaration) (bases : List Ty) : Prop where
  parent : ∀ P, d.parent? = some P → P ∈ h.types
  old : ∀ B ∈ d.bases, B ∈ h.types ∧ { d with bases := bases }.Brings B.id
  new : ∀ B ∈ bases, B ∈ h.types ∧ d.Brings B.id

theorem Sound.brings_iff_of_sameBases (hsound : h.Sound) {bases : List Ty}
    (hsame : h.SameBases d bases) (id : TypeId) :
    { d with bases := bases }.Brings id ↔ d.Brings id := by
  have hold : ∀ B ∈ d.bases, B ∈ h.types := fun B hB => (hsame.old B hB).1
  have hnew : ∀ B ∈ bases, B ∈ h.types := fun B hB => (hsame.new B hB).1
  exact ⟨hsound.brings_of_bases hsame.parent hold hnew fun B hB => (hsame.new B hB).2,
    hsound.brings_of_bases (d := { d with bases := bases }) hsame.parent hnew hold
      fun B hB => (hsame.old B hB).2⟩

/-! ### What is left behind -/

variable {tables : List TypeTable}

theorem perform_declare_of_error (ht : tables[place]? = some t) {e : DeclareError}
    (hd : t.declare d = .error e) :
    TableOp.perform tables (.declare place d) = (none, tables) := by
  rw [TableOp.perform, TableOp.declareIn, ht]
  simp only [hd]

theorem perform_declare_of_ok (ht : tables[place]? = some t) {ty : Ty} {t' : TypeTable}
    (hd : t.declare d = .ok (ty, t')) :
    TableOp.perform tables (.declare place d) = (some ty, tables.set place t') := by
  rw [TableOp.perform, TableOp.declareIn, ht]
  simp only [hd]

theorem perform_declare_congr (ht : tables[place]? = some t) {d' : Declaration}
    (hd : t.declare d' = t.declare d) :
    TableOp.perform tables (.declare place d') = TableOp.perform tables (.declare place d) := by
  rw [TableOp.perform, TableOp.perform, TableOp.declareIn, TableOp.declareIn, ht]
  simp only [hd]

/-- A known name leads to its type and leaves everything as it is. -/
theorem Reachable.eq_of_known (hreach : h.Reachable) (ht : h.tables[place]? = some t) {ty : Ty}
    {t' : TypeTable} (hd : t.declare d = .ok (ty, t')) (hT : T ∈ t.types)
    (hname : T.name = d.name) : ty = T ∧ h.tables.set place t' = h.tables := by
  have hnames := hreach.orderly.names t (List.mem_of_getElem? ht)
  have hget := (TypeTable.get?_eq_some_iff hnames).2 ⟨hT, hname⟩
  obtain ⟨-, ⟨hknown, -, -, rfl⟩ | ⟨hnew, -, -⟩⟩ := TypeTable.declare_cases hd
  · rw [hget] at hknown
    obtain ⟨hplace, rfl⟩ := List.getElem?_eq_some_iff.1 ht
    exact ⟨(Option.some.inj hknown).symm, List.set_getElem_self hplace⟩
  · rw [hget] at hnew
    cases hnew

/-- A new name adds a type, which is the last one of its table and was in none before. -/
theorem Sound.types_of_new (hsound : h.Sound) (ht : h.tables[place]? = some t) {ty : Ty}
    {t' : TypeTable} (hd : t.declare d = .ok (ty, t')) (hnew : ∀ T ∈ t.types, T.name ≠ d.name) :
    ty.name = d.name ∧ ty ∉ h.types ∧ t'.types = t.types ++ [ty] := by
  obtain ⟨-, ⟨hknown, -, -, -⟩ | ⟨-, rfl, rfl⟩⟩ := TypeTable.declare_cases hd
  · have hname : ty.name = d.name := by simpa using List.find?_some hknown
    exact absurd hname (hnew ty (List.mem_of_find?_eq_some hknown))
  · exact ⟨rfl, fun hmem => hsound.distinct.id_ne_nextId (List.mem_of_getElem? ht) hmem rfl, rfl⟩

/-- **A declaration changes a table as a whole or not at all, and a known name is judged by what the
declaration comes to.** In any tables that declarations lead to, the rules of `Answers` say how a
declaration is answered. If it is refused, nothing changes; if its name is known, its type is handed
out and nothing changes; otherwise one type is added. Any other list of interfaces that bring the
same has the same answer and the same effect, in particular one whose members come with the old
list, if those of the old list come with it. -/
theorem redeclaration (h : DeclarationHistory) (hreach : h.Reachable) (place : ℕ) (t : TypeTable)
    (ht : h.tables[place]? = some t) (d : Declaration) :
    (∀ r, t.declare d = r ↔ h.Answers t d r) ∧
    (∀ e, t.declare d = .error e →
      TableOp.perform h.tables (.declare place d) = (none, h.tables)) ∧
    (∀ ty t', t.declare d = .ok (ty, t') →
      TableOp.perform h.tables (.declare place d) = (some ty, h.tables.set place t') ∧
      (∀ T ∈ t.types, T.name = d.name → ty = T ∧ h.tables.set place t' = h.tables) ∧
      ((∀ T ∈ t.types, T.name ≠ d.name) →
        ty.name = d.name ∧ ty ∉ h.types ∧ t'.types = t.types ++ [ty])) ∧
    ∀ bases, (∀ B ∈ d.bases, B.isInterface = true) → (∀ B ∈ bases, B.isInterface = true) →
      (∀ id, { d with bases := bases }.Brings id ↔ d.Brings id) ∨ h.SameBases d bases →
      t.declare { d with bases := bases } = t.declare d ∧
        TableOp.perform h.tables (.declare place { d with bases := bases }) =
          TableOp.perform h.tables (.declare place d) := by
  refine ⟨fun r => ⟨?_, fun hr => hr.declare_eq hreach ht⟩,
    fun e hd => perform_declare_of_error ht hd,
    fun ty t' hd => ⟨perform_declare_of_ok ht hd,
      fun T hT hname => hreach.eq_of_known ht hd hT hname, hreach.sound.types_of_new ht hd⟩,
    fun bases hold hnew hcomes => ?_⟩
  · rintro rfl
    obtain ⟨r, hr⟩ := h.exists_answers t d
    rwa [hr.declare_eq hreach ht]
  · have hbrings : ∀ id, { d with bases := bases }.Brings id ↔ d.Brings id :=
      hcomes.elim id hreach.sound.brings_iff_of_sameBases
    have hsame := t.declare_congr hold hnew hbrings
    exact ⟨hsame, perform_declare_congr ht hsame⟩

/-- A class may be declared again with what its base extends as well, but not as a value type. -/
theorem redeclaration_dice :
    let t : TypeTable := ⟨0, [shape, solid, cube]⟩
    dice.tables[0]? = some t ∧
    t.declare ⟨"Cube", .reference none, [solid, shape, solid]⟩ = .ok (cube, t) ∧
    t.declare ⟨"Cube", .value, [solid]⟩ = .error (.conflict "Cube") ∧
    TableOp.perform dice.tables (.declare 0 ⟨"Cube", .value, [solid]⟩) = (none, dice.tables) := by
  intro t
  have hcube : t.declare cubeDeclaration = .ok (cube, t) := rfl
  obtain ⟨-, -, -, hbases⟩ := redeclaration dice reachable_dice 0 t rfl cubeDeclaration
  have hsame : dice.SameBases cubeDeclaration [solid, shape, solid] :=
    ⟨nofun, by decide, by decide⟩
  obtain ⟨hanswers, hrefused, -, -⟩ :=
    redeclaration dice reachable_dice 0 t rfl ⟨"Cube", .value, [solid]⟩
  have hconflict := (hanswers _).2 (.conflict (T := cube)
    ⟨by decide, nofun, by decide⟩ (by decide) rfl (.inr fun hmatches => by cases hmatches.kind))
  exact ⟨rfl, (hbases _ (by decide) (by decide) (.inr hsame)).1.trans hcube, hconflict,
    hrefused _ hconflict⟩

end DeclarationHistory

end MultiDispatch
