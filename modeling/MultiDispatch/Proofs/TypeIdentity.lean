import Mathlib.Data.List.Forall2
import Mathlib.Data.List.Nodup
import MultiDispatch.Module.Source

/-!
# Types and their identifiers

Types are compared by identifier only, while everything that judges a type reads the rest of its
description. Nothing goes wrong because a table gives out identifiers by place and never changes
what stands at a place, and because tables are told apart by their numbers.

## Main definitions

* `TypeTable.Later`: a table after further declarations
* `TypeTable.Indexed`: the identifiers of a table are its places

## Main results

* `Extraction.later_run`: an extraction only declares
* `TypeTable.Later.indexed`, `TypeTable.Later.types_grow`: declarations keep identifiers and types
* `eq_of_id_eq`: types of differently numbered tables are equal when their identifiers are
-/

namespace MultiDispatch

namespace TypeTable

variable {t t' : TypeTable}

/-- `t'` is `t` after any number of declarations that were accepted. -/
inductive Later (t : TypeTable) : TypeTable → Prop
  | refl : Later t t
  | declare {t' t'' : TypeTable} {d : Declaration} {ty : Ty} :
    Later t t' → t'.declare d = .ok (ty, t'') → Later t t''

theorem Later.trans {t'' : TypeTable} (h : t.Later t') (h' : t'.Later t'') : t.Later t'' := by
  induction h' with
  | refl => exact h
  | declare _ hd ih => exact ih.declare hd

/-- An accepted declaration either repeats one of a type that the table has or adds a type at the
end of the table. -/
theorem declare_cases {d : Declaration} {ty : Ty} (h : t.declare d = .ok (ty, t')) :
    d.check = .ok () ∧
      ((t.get? d.name = some ty ∧ ty.isUniversal = false ∧ ty.shape = d.shape ∧ t' = t) ∨
        (t.get? d.name = none ∧ ty = d.toTy t.nextId ∧ t' = t.push ty)) := by
  cases hcheck : d.check with
  | error e => simp [declare, hcheck, bind, Except.bind] at h
  | ok u =>
    refine ⟨rfl, ?_⟩
    simp only [declare, hcheck, bind, Except.bind] at h
    cases hget : t.get? d.name with
    | none =>
      simp only [hget, Except.ok.injEq, Prod.mk.injEq] at h
      obtain ⟨rfl, rfl⟩ := h
      exact .inr ⟨rfl, rfl, rfl⟩
    | some known =>
      simp only [hget] at h
      split at h
      · cases h
      · rename_i hshape
        simp only [Except.ok.injEq, Prod.mk.injEq] at h
        obtain ⟨rfl, rfl⟩ := h
        simp only [Bool.or_eq_true, decide_eq_true_eq, not_or, ne_eq, not_not,
          Bool.not_eq_true] at hshape
        exact .inl ⟨rfl, hshape.1, hshape.2, rfl⟩

/-! ### Places -/

/-- Every type of the table has the table's number and its own place as its identifier. -/
def Indexed (t : TypeTable) : Prop :=
  ∀ (i : ℕ) (ty : Ty), t.types[i]? = some ty → ty.id = ⟨t.number, i⟩

@[simp] theorem types_push (t : TypeTable) (ty : Ty) : (t.push ty).types = t.types ++ [ty] := rfl

theorem indexed_create (number : ℕ) : (create number).Indexed := by
  intro i ty h
  cases i with
  | zero =>
    obtain rfl : universal _ = ty := by simpa [types] using h
    rfl
  | succ i => simp [types, create] at h

theorem Indexed.push (h : t.Indexed) (d : Declaration) : (t.push (d.toTy t.nextId)).Indexed := by
  intro i ty hty
  rw [types_push, List.getElem?_append] at hty
  split_ifs at hty with hi
  · exact h i ty hty
  · obtain ⟨hlt, rfl⟩ := List.getElem?_eq_some_iff.1 hty
    have hplace : i = t.types.length := by
      rw [List.length_singleton] at hlt
      omega
    simp [Declaration.toTy, nextId, size, TypeTable.push, hplace]

theorem Later.indexed (h : t.Indexed) (hlater : t.Later t') : t'.Indexed := by
  induction hlater with
  | refl => exact h
  | declare _ hd ih =>
    obtain ⟨-, ⟨-, -, -, rfl⟩ | ⟨-, rfl, rfl⟩⟩ := declare_cases hd
    · exact ih
    · exact ih.push _

theorem Later.number_eq (hlater : t.Later t') : t'.number = t.number := by
  induction hlater with
  | refl => rfl
  | declare _ hd ih =>
    obtain ⟨-, ⟨-, -, -, rfl⟩ | ⟨-, rfl, rfl⟩⟩ := declare_cases hd
    · exact ih
    · exact ih

/-- What stands at a place stays there. -/
theorem Later.types_grow (hlater : t.Later t') : t.types <+: t'.types := by
  induction hlater with
  | refl => exact List.prefix_rfl
  | declare _ hd ih =>
    obtain ⟨-, ⟨-, -, -, rfl⟩ | ⟨-, rfl, rfl⟩⟩ := declare_cases hd
    · exact ih
    · exact ih.trans (List.prefix_append _ _)

end TypeTable

theorem Extraction.later_run (x : Extraction) (t : TypeTable) : t.Later (x.run t).2 := by
  induction x generalizing t with
  | done result => exact .refl
  | inspect next ih => exact ih t t
  | declare d next ih =>
    rw [run]
    split
    · rename_i ty t' hd
      exact (TypeTable.Later.refl.declare hd).trans (ih _ t')
    · exact ih _ t

/-! ### Several tables -/

/-- Lists with the same images are equal if the images tell their entries apart. -/
theorem eq_of_map_eq {α β : Type} {f : α → β} {xs ys : List α}
    (hinj : ∀ a ∈ xs, ∀ b ∈ ys, f a = f b → a = b) (heq : xs.map f = ys.map f) : xs = ys := by
  induction xs generalizing ys with
  | nil => exact (List.map_eq_nil_iff.1 heq.symm).symm
  | cons x xs ih =>
    cases ys with
    | nil => cases heq
    | cons y ys =>
      rw [List.map_cons, List.map_cons, List.cons.injEq] at heq
      rw [hinj x List.mem_cons_self y List.mem_cons_self heq.1, ih (fun a ha b hb =>
        hinj a (List.mem_cons_of_mem x ha) b (List.mem_cons_of_mem y hb)) heq.2]

/-- Tables with numbers of their own, each with its places as identifiers. -/
structure DistinctTables (tables : List TypeTable) : Prop where
  numbers : (tables.map TypeTable.number).Nodup
  indexed : ∀ t ∈ tables, t.Indexed

/-- **Equal identifiers, equal types.** The number leads to the table and the place to the type. -/
theorem DistinctTables.eq_of_id_eq {tables : List TypeTable} (h : DistinctTables tables) {a b : Ty}
    (ha : a ∈ tables.flatMap TypeTable.types) (hb : b ∈ tables.flatMap TypeTable.types)
    (hid : a.id = b.id) : a = b := by
  obtain ⟨t, ht, hat⟩ := List.mem_flatMap.1 ha
  obtain ⟨u, hu, hbu⟩ := List.mem_flatMap.1 hb
  obtain ⟨i, hi⟩ := List.mem_iff_getElem?.1 hat
  obtain ⟨j, hj⟩ := List.mem_iff_getElem?.1 hbu
  rw [h.indexed t ht i a hi, h.indexed u hu j b hj, TypeId.mk.injEq] at hid
  obtain rfl := List.inj_on_of_nodup_map h.numbers ht hu hid.1
  rw [hid.2, hj] at hi
  exact (Option.some.inj hi).symm

/-- The identifier that a table gives next is that of no type yet. -/
theorem DistinctTables.id_ne_nextId {tables : List TypeTable} (h : DistinctTables tables)
    {t : TypeTable} (ht : t ∈ tables) {ty : Ty} (hty : ty ∈ tables.flatMap TypeTable.types) :
    ty.id ≠ t.nextId := by
  obtain ⟨u, hu, htyu⟩ := List.mem_flatMap.1 hty
  obtain ⟨i, hi⟩ := List.mem_iff_getElem?.1 htyu
  intro hid
  rw [h.indexed u hu i ty hi, TypeTable.nextId, TypeId.mk.injEq] at hid
  obtain rfl := List.inj_on_of_nodup_map h.numbers hu ht hid.1
  have hlt : i < u.types.length := (List.getElem?_eq_some_iff.1 hi).1
  rw [TypeTable.size] at hid
  omega

/-- Equal identifiers, equal types, in a table on its own. -/
theorem TypeTable.Indexed.eq_of_id_eq {t : TypeTable} (h : t.Indexed) {a b : Ty}
    (ha : a ∈ t.types) (hb : b ∈ t.types) (hid : a.id = b.id) : a = b := by
  have hone : DistinctTables [t] :=
    ⟨List.nodup_singleton _, fun u hu => List.mem_singleton.1 hu ▸ h⟩
  rw [← List.flatMap_singleton TypeTable.types t] at ha hb
  exact hone.eq_of_id_eq ha hb hid

theorem map_number_eq_of_later {tables tables' : List TypeTable}
    (hlater : List.Forall₂ TypeTable.Later tables tables') :
    tables'.map TypeTable.number = tables.map TypeTable.number := by
  induction hlater with
  | nil => rfl
  | cons hl _ ih => rw [List.map_cons, List.map_cons, hl.number_eq, ih]

/-- Tables that went on declaring stay apart. -/
theorem DistinctTables.later {tables tables' : List TypeTable} (h : DistinctTables tables)
    (hlater : List.Forall₂ TypeTable.Later tables tables') : DistinctTables tables' := by
  obtain ⟨hnumbers, hindexed⟩ := h
  refine ⟨map_number_eq_of_later hlater ▸ hnumbers, ?_⟩
  clear hnumbers
  induction hlater with
  | nil => exact hindexed
  | cons hl _ ih =>
    rw [List.forall_mem_cons] at hindexed ⊢
    exact ⟨hl.indexed hindexed.1, ih hindexed.2⟩

theorem DistinctTables.concat {tables : List TypeTable} (h : DistinctTables tables) {number : ℕ}
    (hnew : number ∉ tables.map TypeTable.number) :
    DistinctTables (tables ++ [.create number]) := by
  refine ⟨?_, fun t ht => ?_⟩
  · rw [List.map_append]
    simpa [TypeTable.create] using h.numbers.concat hnew
  · rcases List.mem_append.1 ht with ht | ht
    · exact h.indexed t ht
    · rw [List.mem_singleton.1 ht]
      exact TypeTable.indexed_create number

theorem exists_earlier_of_mem {tables tables' : List TypeTable}
    (hlater : List.Forall₂ TypeTable.Later tables tables') {t' : TypeTable} (ht : t' ∈ tables') :
    ∃ t ∈ tables, t.Later t' := by
  induction hlater with
  | nil => cases ht
  | cons hl _ ih =>
    rcases List.mem_cons.1 ht with rfl | ht
    · exact ⟨_, List.mem_cons_self, hl⟩
    · obtain ⟨t, htables, hlater⟩ := ih ht
      exact ⟨t, List.mem_cons_of_mem _ htables, hlater⟩

theorem number_lt_of_later {tables tables' : List TypeTable} {n : ℕ}
    (hlater : List.Forall₂ TypeTable.Later tables tables') (hbelow : ∀ t ∈ tables, t.number < n) :
    ∀ t ∈ tables', t.number < n := by
  intro t ht
  obtain ⟨u, hu, hut⟩ := exists_earlier_of_mem hlater ht
  rw [hut.number_eq]
  exact hbelow u hu

/-- A new table with the first number above all others. -/
theorem DistinctTables.concat_of_lt {tables : List TypeTable} (h : DistinctTables tables) {n : ℕ}
    (hbelow : ∀ t ∈ tables, t.number < n) :
    DistinctTables (tables ++ [.create n]) ∧ ∀ t ∈ tables ++ [.create n], t.number < n + 1 := by
  have hnew : n ∉ tables.map TypeTable.number := by
    intro hmem
    obtain ⟨t, ht, hn⟩ := List.mem_map.1 hmem
    exact absurd (hbelow t ht) (by omega)
  refine ⟨h.concat hnew, fun t ht => ?_⟩
  rcases List.mem_append.1 ht with ht | ht
  · exact Nat.lt_succ_of_lt (hbelow t ht)
  · rw [List.mem_singleton.1 ht]
    exact Nat.lt_succ_self n

/-- Replacing one table by a later one. -/
theorem later_set {tables : List TypeTable} {place : ℕ} {t t' : TypeTable}
    (ht : tables[place]? = some t) (hlater : t.Later t') :
    List.Forall₂ TypeTable.Later tables (tables.set place t') := by
  induction tables generalizing place with
  | nil => cases ht
  | cons u rest ih =>
    cases place with
    | zero =>
      obtain rfl : u = t := by simpa using ht
      exact .cons hlater (List.forall₂_same.2 fun _ _ => .refl)
    | succ place => exact .cons .refl (ih ht)

theorem mem_types_set_push {tables : List TypeTable} {place : ℕ} {t : TypeTable}
    (ht : tables[place]? = some t) {new ty : Ty} :
    ty ∈ (tables.set place (t.push new)).flatMap TypeTable.types ↔
      ty ∈ tables.flatMap TypeTable.types ∨ ty = new := by
  induction tables generalizing place with
  | nil => cases ht
  | cons u rest ih =>
    cases place with
    | zero =>
      obtain rfl : u = t := by simpa using ht
      rw [List.set_cons_zero, List.flatMap_cons, List.mem_append, TypeTable.types_push,
        List.mem_append, List.mem_singleton, List.flatMap_cons, List.mem_append, or_right_comm]
    | succ place =>
      rw [List.set_cons_succ, List.flatMap_cons, List.mem_append, ih ht, List.flatMap_cons,
        List.mem_append, or_assoc]

theorem types_subset_of_later {tables tables' : List TypeTable}
    (hlater : List.Forall₂ TypeTable.Later tables tables') :
    ∀ ty ∈ tables.flatMap TypeTable.types, ty ∈ tables'.flatMap TypeTable.types := by
  induction hlater with
  | nil => exact fun _ h => h
  | cons hl _ ih =>
    intro ty hty
    rw [List.flatMap_cons, List.mem_append] at hty ⊢
    exact hty.imp (fun h => hl.types_grow.subset h) (ih ty)

end MultiDispatch
