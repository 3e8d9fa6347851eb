import MultiDispatch.Universe.TypeId

/-!
# Sets of types

A finite set of type identifiers, kept as a strictly ascending list. The order makes the list of a
set unique, so that two sets with the same members are equal and equality of sets is decided by
comparing lists.

## Main definitions

* `TypeSet`: a set.
* `TypeSet.insert`, `TypeSet.union`: sets with more members.

## Main results

* `TypeSet.mem_insert`, `TypeSet.mem_union`: the members of those sets.
* `TypeSet.ext`: sets with the same members are equal.
-/

namespace MultiDispatch

/-- A finite set of type identifiers. -/
structure TypeSet where
  /-- The members in ascending order. -/
  ids : List TypeId
  ascending : ids.Pairwise (· < ·)
deriving DecidableEq

namespace TypeSet

/-- The set without members. -/
def empty : TypeSet :=
  ⟨[], .nil⟩

instance : Membership TypeId TypeSet where
  mem s a := a ∈ s.ids

instance (a : TypeId) (s : TypeSet) : Decidable (a ∈ s) :=
  inferInstanceAs (Decidable (a ∈ s.ids))

theorem not_mem_empty (a : TypeId) : a ∉ empty :=
  List.not_mem_nil

/-! ### Insertion -/

/-- Put an identifier in its place of an ascending list, unless it is there. -/
def insertId (a : TypeId) : List TypeId → List TypeId
  | [] => [a]
  | b :: rest => if a < b then a :: b :: rest else if a = b then b :: rest else b :: insertId a rest

theorem mem_insertId {a x : TypeId} {ids : List TypeId} :
    x ∈ insertId a ids ↔ x = a ∨ x ∈ ids := by
  induction ids with
  | nil => simp [insertId]
  | cons b rest ih =>
    rw [insertId]
    split
    · simp
    · split
      · rename_i h
        simp [h]
      · simp only [List.mem_cons, ih]
        exact ⟨fun h => h.elim (.inr ∘ .inl) (·.imp_right .inr),
          fun h => h.elim (.inr ∘ .inl) (·.imp_right .inr)⟩

theorem ascending_insertId {a : TypeId} {ids : List TypeId} (h : ids.Pairwise (· < ·)) :
    (insertId a ids).Pairwise (· < ·) := by
  induction ids with
  | nil => simp [insertId]
  | cons b rest ih =>
    rw [insertId]
    split
    · rename_i hab
      refine .cons (fun x hx => ?_) h
      rcases List.mem_cons.1 hx with rfl | hx
      · exact hab
      · exact TypeId.lt_trans hab (List.rel_of_pairwise_cons h hx)
    · split
      · exact h
      · rename_i hab hne
        refine .cons (fun x hx => ?_) (ih h.of_cons)
        rcases mem_insertId.1 hx with rfl | hx
        · exact ((TypeId.lt_trichotomy x b).resolve_left hab).resolve_left hne
        · exact List.rel_of_pairwise_cons h hx

/-- The set with one more member. -/
def insert (a : TypeId) (s : TypeSet) : TypeSet :=
  ⟨insertId a s.ids, ascending_insertId s.ascending⟩

@[simp]
theorem mem_insert {a x : TypeId} {s : TypeSet} : x ∈ insert a s ↔ x = a ∨ x ∈ s :=
  mem_insertId

/-- The members of both sets. -/
def union (s t : TypeSet) : TypeSet :=
  s.ids.foldr insert t

theorem mem_foldr_insert {x : TypeId} {ids : List TypeId} {t : TypeSet} :
    x ∈ ids.foldr insert t ↔ x ∈ ids ∨ x ∈ t := by
  induction ids with
  | nil => simp
  | cons a rest ih => simp [ih, or_assoc]

@[simp]
theorem mem_union {x : TypeId} {s t : TypeSet} : x ∈ union s t ↔ x ∈ s ∨ x ∈ t :=
  mem_foldr_insert

/-! ### Equality -/

/-- Ascending lists with the same members are equal. -/
theorem eq_of_ascending {a b : List TypeId} (ha : a.Pairwise (· < ·)) (hb : b.Pairwise (· < ·))
    (h : ∀ x, x ∈ a ↔ x ∈ b) : a = b := by
  induction a generalizing b with
  | nil =>
    cases b with
    | nil => rfl
    | cons y ys => exact absurd ((h y).2 List.mem_cons_self) List.not_mem_nil
  | cons x xs ih =>
    cases b with
    | nil => exact absurd ((h x).1 List.mem_cons_self) List.not_mem_nil
    | cons y ys =>
      have hxy : x = y := by
        rcases List.mem_cons.1 ((h x).1 List.mem_cons_self) with e | hx
        · exact e
        · rcases List.mem_cons.1 ((h y).2 List.mem_cons_self) with e | hy
          · exact e.symm
          · exact absurd (TypeId.lt_trans (List.rel_of_pairwise_cons ha hy)
              (List.rel_of_pairwise_cons hb hx)) (TypeId.lt_irrefl x)
      subst hxy
      refine congrArg (x :: ·) (ih ha.of_cons hb.of_cons fun z => ?_)
      constructor
      · intro hz
        rcases List.mem_cons.1 ((h z).1 (List.mem_cons_of_mem _ hz)) with e | h'
        · exact absurd (e ▸ List.rel_of_pairwise_cons ha hz) (TypeId.lt_irrefl x)
        · exact h'
      · intro hz
        rcases List.mem_cons.1 ((h z).2 (List.mem_cons_of_mem _ hz)) with e | h'
        · exact absurd (e ▸ List.rel_of_pairwise_cons hb hz) (TypeId.lt_irrefl x)
        · exact h'

theorem ext {s t : TypeSet} (h : ∀ x, x ∈ s ↔ x ∈ t) : s = t := by
  obtain ⟨a, ha⟩ := s
  obtain ⟨b, hb⟩ := t
  obtain rfl : a = b := eq_of_ascending ha hb h
  rfl

end TypeSet

end MultiDispatch
