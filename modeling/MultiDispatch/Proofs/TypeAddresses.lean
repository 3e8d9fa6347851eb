import MultiDispatch.Proofs.TypeIdentity

/-!
# Identifiers are addresses

Types are handed out by looking up a name, by declaring a type and as the universal type of a table.
Whoever was handed one may keep it for good, and it is compared with others by its identifier only,
however much was declared in between. So what an identifier says has to be the same at all times.

It is an address: the number of a table, and a place in it. Tables are numbered by the order of
their creation, and what stands at a place of a table never changes. A name leads to the same place
for good as well, since a type is added for a new name only.

What a declaration builds on plays no part in this. It may be a type of any table, or of none.

## Main definitions

* `TableOp`: what is done with tables
* `TableOp.after`, `TableOp.handedOut`: the tables after operations, and the types handed out
* `Orderly`: tables by number, types by place, and no name twice
* `StandsIn`: a type stands where its identifier says

## Main results

* `TypeTable.get?_eq_some_iff`: a name is found if and only if a type has it
* `Orderly.perform`, `Orderly.after`: operations keep tables orderly
* `identifiers_are_addresses`: what types handed out at any times have to do with each other
-/

namespace MultiDispatch

/-! ### Names -/

namespace TypeTable

variable {t t' : TypeTable} {name : String} {ty : Ty}

theorem get?_eq_none_iff : t.get? name = none ↔ name ∉ t.types.map Ty.name := by
  rw [get?, List.find?_eq_none, List.mem_map]
  simp

/-- A name leads to the type that has it. -/
theorem get?_eq_some_iff (hnames : (t.types.map Ty.name).Nodup) :
    t.get? name = some ty ↔ ty ∈ t.types ∧ ty.name = name := by
  constructor
  · intro hget
    exact ⟨List.mem_of_find?_eq_some hget, by simpa using List.find?_some hget⟩
  · rintro ⟨hty, rfl⟩
    obtain ⟨found, hget⟩ : ∃ found, t.get? ty.name = some found := by
      rw [← Option.ne_none_iff_exists', ne_eq, get?_eq_none_iff, not_not]
      exact List.mem_map_of_mem hty
    have hname : found.name = ty.name := by simpa using List.find?_some hget
    rw [hget, List.inj_on_of_nodup_map hnames (List.mem_of_find?_eq_some hget) hty hname]

theorem nodup_names_create (number : ℕ) : ((create number).types.map Ty.name).Nodup :=
  List.nodup_singleton _

/-- A type is added for a new name only. -/
theorem nodup_names_declare {d : Declaration} (hnames : (t.types.map Ty.name).Nodup)
    (hd : t.declare d = .ok (ty, t')) : (t'.types.map Ty.name).Nodup := by
  obtain ⟨-, ⟨-, -, -, rfl⟩ | ⟨hnew, rfl, rfl⟩⟩ := declare_cases hd
  · exact hnames
  · rw [types_push, List.map_append, List.map_singleton, ← List.concat_eq_append]
    exact hnames.concat (get?_eq_none_iff.1 hnew)

theorem Later.nodup_names (hnames : (t.types.map Ty.name).Nodup) (hlater : t.Later t') :
    (t'.types.map Ty.name).Nodup := by
  induction hlater with
  | refl => exact hnames
  | declare _ hd ih => exact nodup_names_declare ih hd

/-- A name that was found leads to the same type for good. -/
theorem Later.get?_eq (hlater : t.Later t') (hget : t.get? name = some ty) :
    t'.get? name = some ty :=
  hlater.types_grow.find?_eq_some hget

/-- What an accepted declaration hands out stands in the table afterwards. -/
theorem mem_types_of_declare {d : Declaration} (hd : t.declare d = .ok (ty, t')) :
    ty ∈ t'.types := by
  obtain ⟨-, ⟨hknown, -, -, rfl⟩ | ⟨-, rfl, rfl⟩⟩ := declare_cases hd
  · exact List.mem_of_find?_eq_some hknown
  · rw [types_push]
    exact List.mem_append_right _ (List.mem_singleton_self _)

/-- The identifiers of a table are its number with all places, in order. -/
theorem Indexed.map_id (hindexed : t.Indexed) :
    t.types.map Ty.id = (List.range t.size).map (TypeId.mk t.number) := by
  refine List.ext_getElem (by simp [size]) fun i hi _ => ?_
  rw [List.getElem_map, List.getElem_map, List.getElem_range]
  rw [List.length_map] at hi
  exact hindexed i _ (List.getElem?_eq_getElem hi)

end TypeTable

/-! ### Operations -/

/-- What is done with tables, which are called by the order of their creation. -/
inductive TableOp where
  /-- Create a table. Its number is the number of tables before it, as a counter of 32 bits has it
  while there are fewer than `2 ^ 32`. -/
  | openTable
  | declare (place : ℕ) (d : Declaration)
  /-- Look a name up. -/
  | find (place : ℕ) (name : String)
  /-- Ask for the universal type. -/
  | universal (place : ℕ)

namespace TableOp

/-- The type that a name leads to in a table. -/
def find? (tables : List TypeTable) (place : ℕ) (name : String) : Option Ty :=
  tables[place]?.bind fun t => t.get? name

/-- The type that a declaration in a table is answered with, and the tables afterwards. A
declaration that is refused changes nothing. -/
def declareIn (tables : List TypeTable) (place : ℕ) (d : Declaration) :
    Option Ty × List TypeTable :=
  match tables[place]? with
  | none => (none, tables)
  | some t =>
    match t.declare d with
    | .ok (ty, t) => (some ty, tables.set place t)
    | .error _ => (none, tables)

/-- The type that an operation hands out, if it does, and the tables afterwards. -/
def perform (tables : List TypeTable) : TableOp → Option Ty × List TypeTable
  | .openTable => (none, tables ++ [.create tables.length])
  | .declare place d => declareIn tables place d
  | .find place name => (find? tables place name, tables)
  | .universal place => (tables[place]?.map TypeTable.universal, tables)

/-- The tables after operations. -/
def after (tables : List TypeTable) : List TableOp → List TypeTable
  | [] => tables
  | op :: ops => after (perform tables op).2 ops

/-- The types that operations hand out, one after the other. -/
def handedOut (tables : List TypeTable) : List TableOp → List Ty
  | [] => []
  | op :: ops => (perform tables op).1.toList ++ handedOut (perform tables op).2 ops

theorem after_append (tables : List TypeTable) (ops later : List TableOp) :
    after tables (ops ++ later) = after (after tables ops) later := by
  induction ops generalizing tables with
  | nil => rfl
  | cons op ops ih => exact ih (perform tables op).2

variable {tables : List TypeTable} {op : TableOp}

/-- An operation creates a table, or declares in those that there are. -/
theorem perform_cases (tables : List TypeTable) (op : TableOp) :
    (perform tables op).2 = tables ++ [.create tables.length] ∨
      List.Forall₂ TypeTable.Later tables (perform tables op).2 := by
  have hsame : List.Forall₂ TypeTable.Later tables tables := List.forall₂_same.2 fun _ _ => .refl
  cases op with
  | openTable => exact .inl rfl
  | find place name => exact .inr hsame
  | universal place => exact .inr hsame
  | declare place d =>
    refine .inr ?_
    rw [perform, declareIn]
    split
    · exact hsame
    · rename_i t ht
      split
      · rename_i ty t' hd
        exact later_set ht (TypeTable.Later.refl.declare hd)
      · exact hsame

/-- A table goes on as it is, or as a later one. -/
theorem exists_later_perform {place : ℕ} {t : TypeTable} (ht : tables[place]? = some t)
    (op : TableOp) : ∃ t', (perform tables op).2[place]? = some t' ∧ t.Later t' := by
  obtain ⟨hplace, rfl⟩ := List.getElem?_eq_some_iff.1 ht
  rcases perform_cases tables op with hopen | hlater
  · exact ⟨_, by rw [hopen, List.getElem?_append_left hplace, ht], .refl⟩
  · have hplace' : place < (perform tables op).2.length := hlater.length_eq ▸ hplace
    exact ⟨_, List.getElem?_eq_getElem hplace', hlater.get hplace hplace'⟩

theorem exists_later_after {place : ℕ} {t : TypeTable} (ht : tables[place]? = some t)
    (ops : List TableOp) : ∃ t', (after tables ops)[place]? = some t' ∧ t.Later t' := by
  induction ops generalizing tables t with
  | nil => exact ⟨t, ht, .refl⟩
  | cons op ops ih =>
    obtain ⟨t₁, ht₁, hfirst⟩ := exists_later_perform ht op
    obtain ⟨t₂, ht₂, hrest⟩ := ih ht₁
    exact ⟨t₂, ht₂, hfirst.trans hrest⟩

/-- What a name leads to it leads to for good. -/
theorem find?_after {place : ℕ} {name : String} {ty : Ty}
    (hfind : find? tables place name = some ty) (ops : List TableOp) :
    find? (after tables ops) place name = some ty := by
  obtain ⟨t, ht, hget⟩ := Option.bind_eq_some_iff.1 hfind
  obtain ⟨t', ht', hlater⟩ := exists_later_after ht ops
  exact Option.bind_eq_some_iff.2 ⟨t', ht', hlater.get?_eq hget⟩

end TableOp

/-! ### Addresses -/

/-- Tables are numbered by the order of their creation, types by their places, and names are not
given twice in a table. -/
structure Orderly (tables : List TypeTable) : Prop where
  numbers : ∀ (place : ℕ) (t : TypeTable), tables[place]? = some t → t.number = place
  indexed : ∀ t ∈ tables, t.Indexed
  names : ∀ t ∈ tables, (t.types.map Ty.name).Nodup

/-- The type stands where its identifier says. -/
def StandsIn (tables : List TypeTable) (ty : Ty) : Prop :=
  ∃ t, tables[ty.id.table]? = some t ∧ t.types[ty.id.index]? = some ty

/-- An address is that of one type. -/
theorem StandsIn.eq_of_id_eq {tables : List TypeTable} {a b : Ty} (ha : StandsIn tables a)
    (hb : StandsIn tables b) (hid : a.id = b.id) : a = b := by
  obtain ⟨t, ht, hat⟩ := ha
  obtain ⟨u, hu, hbu⟩ := hb
  rw [hid, hu] at ht
  obtain rfl := Option.some.inj ht
  rw [hid, hbu] at hat
  exact (Option.some.inj hat).symm

theorem StandsIn.after {tables : List TypeTable} {ty : Ty} (h : StandsIn tables ty)
    (ops : List TableOp) : StandsIn (TableOp.after tables ops) ty := by
  obtain ⟨t, ht, hty⟩ := h
  obtain ⟨t', ht', hlater⟩ := TableOp.exists_later_after ht ops
  obtain ⟨hplace, he⟩ := List.getElem?_eq_some_iff.1 hty
  refine ⟨t', ht', ?_⟩
  rw [List.prefix_iff_getElem?.1 hlater.types_grow _ hplace, he]

namespace Orderly

variable {tables : List TypeTable} {place : ℕ} {t : TypeTable} {ty : Ty}

theorem nil : Orderly [] := ⟨nofun, nofun, nofun⟩

/-- A type of a table stands in it. -/
theorem standsIn (h : Orderly tables) (ht : tables[place]? = some t) (hty : ty ∈ t.types) :
    StandsIn tables ty := by
  obtain ⟨i, hi⟩ := List.mem_iff_getElem?.1 hty
  have hid := h.indexed t (List.mem_of_getElem? ht) i ty hi
  rw [h.numbers place t ht] at hid
  exact ⟨t, by rw [hid, ht], by rw [hid, hi]⟩

theorem openTable (h : Orderly tables) : Orderly (tables ++ [.create tables.length]) := by
  refine ⟨fun place t ht => ?_, fun t ht => ?_, fun t ht => ?_⟩
  · rcases Nat.lt_or_ge place tables.length with hlt | hge
    · rw [List.getElem?_append_left hlt] at ht
      exact h.numbers place t ht
    · rw [List.getElem?_append_right hge, List.getElem?_singleton] at ht
      obtain ⟨hplace, he⟩ := Option.ite_none_right_eq_some.1 ht
      obtain rfl := Option.some.inj he
      change tables.length = place
      omega
  · rcases List.mem_append.1 ht with ht | ht
    · exact h.indexed t ht
    · rw [List.mem_singleton.1 ht]
      exact TypeTable.indexed_create _
  · rcases List.mem_append.1 ht with ht | ht
    · exact h.names t ht
    · rw [List.mem_singleton.1 ht]
      exact TypeTable.nodup_names_create _

theorem later {tables' : List TypeTable} (h : Orderly tables)
    (hlater : List.Forall₂ TypeTable.Later tables tables') : Orderly tables' := by
  refine ⟨fun place t' ht' => ?_, fun t' ht' => ?_, fun t' ht' => ?_⟩
  · obtain ⟨hplace', rfl⟩ := List.getElem?_eq_some_iff.1 ht'
    have hplace : place < tables.length := hlater.length_eq ▸ hplace'
    have htt' : (tables[place]).Later tables'[place] := hlater.get hplace hplace'
    rw [htt'.number_eq]
    exact h.numbers place _ (List.getElem?_eq_getElem hplace)
  · obtain ⟨t, ht, htt'⟩ := exists_earlier_of_mem hlater ht'
    exact htt'.indexed (h.indexed t ht)
  · obtain ⟨t, ht, htt'⟩ := exists_earlier_of_mem hlater ht'
    exact htt'.nodup_names (h.names t ht)

theorem perform (h : Orderly tables) (op : TableOp) : Orderly (op.perform tables).2 := by
  rcases TableOp.perform_cases tables op with hopen | hlater
  · rw [hopen]
    exact h.openTable
  · exact h.later hlater

theorem after (h : Orderly tables) (ops : List TableOp) : Orderly (TableOp.after tables ops) := by
  induction ops generalizing tables with
  | nil => exact h
  | cons op ops ih => exact ih (h.perform op)

/-- What an operation hands out stands in the tables afterwards. -/
theorem standsIn_of_perform (h : Orderly tables) {op : TableOp}
    (hty : (op.perform tables).1 = some ty) : StandsIn (op.perform tables).2 ty := by
  cases op with
  | openTable => cases hty
  | find place name =>
    obtain ⟨t, ht, hget⟩ := Option.bind_eq_some_iff.1 hty
    exact h.standsIn ht (List.mem_of_find?_eq_some hget)
  | universal place =>
    obtain ⟨t, ht, rfl⟩ := Option.map_eq_some_iff.1 hty
    exact h.standsIn ht List.mem_cons_self
  | declare place d =>
    have hafter := h.perform (.declare place d)
    rw [TableOp.perform, TableOp.declareIn] at hty hafter ⊢
    split at hty
    · cases hty
    · rename_i t ht
      split at hty
      · rename_i answer t' hd
        obtain rfl : answer = ty := Option.some.inj hty
        have hplace : place < tables.length := (List.getElem?_eq_some_iff.1 ht).1
        simp only [ht, hd] at hafter ⊢
        exact hafter.standsIn (List.getElem?_set_self hplace) (TypeTable.mem_types_of_declare hd)
      · cases hty

/-- Whatever was handed out at any time stands where its identifier says. -/
theorem standsIn_of_handedOut (h : Orderly tables) {ops : List TableOp}
    (hty : ty ∈ TableOp.handedOut tables ops) : StandsIn (TableOp.after tables ops) ty := by
  induction ops generalizing tables with
  | nil => cases hty
  | cons op ops ih =>
    rcases List.mem_append.1 hty with hty | hty
    · exact (h.standsIn_of_perform (Option.mem_toList.1 hty)).after ops
    · exact ih (h.perform op) hty

end Orderly

/-- **Identifiers are addresses.** Create tables and declare types in them in any order, with
declarations that are accepted and refused. Whatever type was handed out at any time stands where
its identifier says, so that those with equal identifiers are equal in all they have. The
identifiers of a table are its number with all places, the universal type at the first one, and a
name is found if and only if a type of the table has it. What it leads to it leads to for good,
whatever is done later. -/
theorem identifiers_are_addresses (ops : List TableOp) :
    let tables := TableOp.after [] ops
    (∀ a ∈ TableOp.handedOut [] ops, StandsIn tables a) ∧
    (∀ a ∈ TableOp.handedOut [] ops, ∀ b ∈ TableOp.handedOut [] ops, a.id = b.id → a = b) ∧
    (∀ (place : ℕ) (t : TypeTable), tables[place]? = some t →
      t.types.map Ty.id = (List.range t.size).map (TypeId.mk place) ∧
      t.types[0]? = some (.universal place) ∧
      ∀ name ty, t.get? name = some ty ↔ ty ∈ t.types ∧ ty.name = name) ∧
    ∀ (later : List TableOp) (place : ℕ) (name : String) (ty : Ty),
      TableOp.find? tables place name = some ty →
      TableOp.find? (TableOp.after [] (ops ++ later)) place name = some ty := by
  intro tables
  have horderly : Orderly tables := Orderly.nil.after ops
  have hstands : ∀ a ∈ TableOp.handedOut [] ops, StandsIn tables a := fun a ha =>
    Orderly.nil.standsIn_of_handedOut ha
  refine ⟨hstands, fun a ha b hb hid => (hstands a ha).eq_of_id_eq (hstands b hb) hid,
    fun place t ht => ?_, fun later place name ty hfind => ?_⟩
  · have hmem : t ∈ tables := List.mem_of_getElem? ht
    obtain rfl : t.number = place := horderly.numbers place t ht
    exact ⟨(horderly.indexed t hmem).map_id, rfl,
      fun name ty => TypeTable.get?_eq_some_iff (horderly.names t hmem)⟩
  · rw [TableOp.after_append]
    exact TableOp.find?_after hfind later

/-- A name in two tables, declared once more in the first, where another shape is refused. -/
example :
    let node : Declaration := ⟨"Node", .reference none, []⟩
    let ops : List TableOp := [.openTable, .openTable, .declare 0 node, .declare 1 node,
      .declare 0 ⟨"Node", .value, []⟩, .declare 0 node, .find 1 "Node"]
    (TableOp.handedOut [] ops).map Ty.id = [⟨0, 1⟩, ⟨1, 1⟩, ⟨0, 1⟩, ⟨1, 1⟩] :=
  rfl

end MultiDispatch
