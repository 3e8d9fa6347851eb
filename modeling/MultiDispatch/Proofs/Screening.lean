import Mathlib.Data.Nat.Notation
import MultiDispatch.Module.Registry

/-!
# Screening a batch

Before anything of a batch is published, each implementation is judged by its own name and by the
implementations accepted before it. What comes out is part of the batch in the order of the batch,
and sound as a whole.

## Main definitions

* `Screened`: implementations with visible names, of which no two have the same signature

## Main results

* `screened_screen`: what is accepted is sound
* `sublist_screen`: what is accepted stands in the order of the batch
* `exists_same_screenAfter`: nothing is rejected without a reason
-/

namespace MultiDispatch

variable {accepted batch : List Implementation} {x : Implementation}

theorem rejection?_eq_none_iff :
    rejection? accepted x = none ↔ Text.isBlank x.signature.operation = false ∧
      ∀ a ∈ accepted, a.signature.same x.signature = false := by
  rw [rejection?]
  cases hblank : Text.isBlank x.signature.operation with
  | true => simp
  | false => simp

/-- Implementations with visible names, of which no two have the same signature. -/
structure Screened (xs : List Implementation) : Prop where
  named : ∀ x ∈ xs, Text.isBlank x.signature.operation = false
  distinct : xs.Pairwise fun a b => a.signature.same b.signature = false

theorem screened_nil : Screened [] := ⟨nofun, .nil⟩

theorem Screened.concat (h : Screened accepted) (hx : rejection? accepted x = none) :
    Screened (accepted ++ [x]) := by
  obtain ⟨hnamed, hdistinct⟩ := rejection?_eq_none_iff.1 hx
  refine ⟨fun y hy => ?_, ?_⟩
  · rcases List.mem_append.1 hy with hy | hy
    · exact h.named y hy
    · rw [List.mem_singleton.1 hy]
      exact hnamed
  · refine List.pairwise_append.2 ⟨h.distinct, List.pairwise_singleton _ _, fun a ha b hb => ?_⟩
    rw [List.mem_singleton.1 hb]
    exact hdistinct a ha

theorem screenAfter_cons_of_accepted (hx : rejection? accepted x = none) :
    screenAfter accepted (x :: batch) = screenAfter (accepted ++ [x]) batch := by
  rw [screenAfter, hx]

theorem screenAfter_cons_of_rejected {error : RegistrationError}
    (hx : rejection? accepted x = some error) :
    screenAfter accepted (x :: batch) =
      ((screenAfter accepted batch).1, error :: (screenAfter accepted batch).2) := by
  rw [screenAfter, hx]

/-- What is accepted is sound, given that what was accepted before is. -/
theorem Screened.screenAfter (h : Screened accepted) (batch : List Implementation) :
    Screened (screenAfter accepted batch).1 := by
  induction batch generalizing accepted with
  | nil => exact h
  | cons x rest ih =>
    cases hx : rejection? accepted x with
    | none =>
      rw [screenAfter_cons_of_accepted hx]
      exact ih (h.concat hx)
    | some error =>
      rw [screenAfter_cons_of_rejected hx]
      exact ih h

/-- Screening adds part of the batch to what was accepted before. -/
theorem exists_sublist_screenAfter (accepted batch : List Implementation) :
    ∃ added, added.Sublist batch ∧ (screenAfter accepted batch).1 = accepted ++ added := by
  induction batch generalizing accepted with
  | nil => exact ⟨[], .slnil, (List.append_nil accepted).symm⟩
  | cons x rest ih =>
    cases hx : rejection? accepted x with
    | none =>
      obtain ⟨added, hsub, heq⟩ := ih (accepted ++ [x])
      refine ⟨x :: added, hsub.cons_cons x, ?_⟩
      rw [screenAfter_cons_of_accepted hx, heq, List.append_assoc, List.singleton_append]
    | some error =>
      obtain ⟨added, hsub, heq⟩ := ih accepted
      refine ⟨added, hsub.cons x, ?_⟩
      rw [screenAfter_cons_of_rejected hx, heq]

theorem mem_screenAfter_of_mem {a : Implementation} (ha : a ∈ accepted)
    (batch : List Implementation) : a ∈ (screenAfter accepted batch).1 := by
  obtain ⟨added, -, heq⟩ := exists_sublist_screenAfter accepted batch
  rw [heq]
  exact List.mem_append_left _ ha

/-- What has a visible name and is rejected has the signature of something accepted. -/
theorem exists_same_of_rejected (hnamed : Text.isBlank x.signature.operation = false)
    {error : RegistrationError} (hx : rejection? accepted x = some error) :
    ∃ a ∈ accepted, a.signature.same x.signature = true := by
  cases hany : accepted.any fun a => a.signature.same x.signature with
  | true => exact List.any_eq_true.1 hany
  | false => simp [rejection?, hnamed, hany] at hx

/-- Nothing is rejected without a reason: whatever has a visible name has its signature among what
is accepted. -/
theorem exists_same_screenAfter (hx : x ∈ batch)
    (hnamed : Text.isBlank x.signature.operation = false) :
    ∃ a ∈ (screenAfter accepted batch).1, a.signature.same x.signature = true := by
  induction batch generalizing accepted with
  | nil => cases hx
  | cons y rest ih =>
    cases hy : rejection? accepted y with
    | none =>
      rw [screenAfter_cons_of_accepted hy]
      rcases List.mem_cons.1 hx with rfl | hx
      · have hlast : x ∈ accepted ++ [x] := List.mem_append_right _ (List.mem_singleton_self x)
        exact ⟨x, mem_screenAfter_of_mem hlast rest, decide_eq_true rfl⟩
      · exact ih hx
    | some error =>
      rw [screenAfter_cons_of_rejected hy]
      rcases List.mem_cons.1 hx with rfl | hx
      · obtain ⟨a, ha, hsame⟩ := exists_same_of_rejected hnamed hy
        exact ⟨a, mem_screenAfter_of_mem ha rest, hsame⟩
      · exact ih hx

theorem screened_screen (batch : List Implementation) : Screened (screen batch).1 :=
  screened_nil.screenAfter batch

theorem sublist_screen (batch : List Implementation) : (screen batch).1.Sublist batch := by
  obtain ⟨added, hsub, heq⟩ := exists_sublist_screenAfter [] batch
  rw [screen, heq]
  exact hsub

end MultiDispatch
