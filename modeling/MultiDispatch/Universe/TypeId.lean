/-!
# Type identifiers

A type is identified by the number of the table it was declared in and its place in that table.
Identifiers are ordered by table first, so that the types of one table stand together.

## How far numbers go

Both numbers are natural numbers, and counting never comes to an end. A counter of 32 bits agrees
with this until it starts over, that is for fewer than `2 ^ 32` tables and fewer than `2 ^ 32` types
of one table. Beyond that it would give an identifier twice, and no statement that tells types apart
by their identifiers is about it.

## Main definitions

* `TypeId`: an identifier.
* `TypeId.lt_trichotomy`, `TypeId.lt_trans`, `TypeId.lt_irrefl`: the order is a strict total order.
-/

namespace MultiDispatch

/-- The identity of a declared type. -/
structure TypeId where
  /-- The number of the table, below `2 ^ 32` where there are fewer tables. -/
  table : Nat
  /-- The place in the table, below `2 ^ 32` where the table has fewer types. -/
  index : Nat
deriving DecidableEq, Repr

namespace TypeId

instance : LT TypeId where
  lt a b := a.table < b.table ∨ (a.table = b.table ∧ a.index < b.index)

theorem lt_def (a b : TypeId) :
    a < b ↔ a.table < b.table ∨ (a.table = b.table ∧ a.index < b.index) :=
  Iff.rfl

instance (a b : TypeId) : Decidable (a < b) :=
  decidable_of_iff _ (lt_def a b).symm

theorem lt_irrefl (a : TypeId) : ¬ a < a := by
  rw [lt_def]
  omega

theorem lt_trans {a b c : TypeId} (hab : a < b) (hbc : b < c) : a < c := by
  rw [lt_def] at *
  omega

theorem lt_trichotomy (a b : TypeId) : a < b ∨ a = b ∨ b < a := by
  rw [lt_def, lt_def, TypeId.mk.injEq]
  omega

/-- The order of two identifiers. -/
def order (a b : TypeId) : Ordering :=
  if a < b then .lt else if a = b then .eq else .gt

end TypeId

end MultiDispatch
