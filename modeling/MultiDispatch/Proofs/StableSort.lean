import Mathlib.Data.List.Basic
import Mathlib.Order.Lattice

/-!
# Stable sorting by a key

What it means that one list is another one sorted by a key, with entries of equal keys in their old
order. The meaning is given without an algorithm: the same entries, in the order of the keys, and
for each key the same entries in the same order. There is at most one such list, and merge sort
yields it.

## Main definitions

* `StablySorted`: a list is another one sorted stably by a key

## Main results

* `stablySorted_mergeSort`: merge sort sorts stably
* `StablySorted.unique`: there is one result only
* `StablySorted.of_filter_eq`: only the order within each key matters
-/

namespace MultiDispatch

variable {α κ : Type} [LinearOrder κ] {key : α → κ} {xs as bs : List α}

/-- `sorted` holds the entries of `xs` in the order of their keys, and those of one key in the order
in which they stand in `xs`. -/
structure StablySorted (key : α → κ) (xs sorted : List α) : Prop where
  perm : sorted.Perm xs
  ordered : sorted.Pairwise fun a b => key a ≤ key b
  stable : ∀ k, (sorted.filter fun a => key a = k) = xs.filter fun a => key a = k

/-- Entries of one key are an ordered sublist of the list, and merge sort keeps such sublists. That
no entry of the key is added follows by counting. -/
theorem stablySorted_mergeSort (key : α → κ) (xs : List α) :
    StablySorted key xs (xs.mergeSort fun a b => decide (key a ≤ key b)) := by
  have htrans : ∀ a b c : α, decide (key a ≤ key b) = true → decide (key b ≤ key c) = true →
      decide (key a ≤ key c) = true := by
    intro a b c hab hbc
    rw [decide_eq_true_eq] at *
    exact le_trans hab hbc
  have htotal : ∀ a b : α, (decide (key a ≤ key b) || decide (key b ≤ key a)) = true := by
    intro a b
    rw [Bool.or_eq_true, decide_eq_true_eq, decide_eq_true_eq]
    exact le_total _ _
  have hperm := List.mergeSort_perm xs fun a b => decide (key a ≤ key b)
  refine ⟨hperm, (List.pairwise_mergeSort htrans htotal xs).imp fun h => of_decide_eq_true h,
    fun k => ?_⟩
  have hordered : (xs.filter fun a => key a = k).Pairwise fun a b =>
      decide (key a ≤ key b) = true := by
    refine List.pairwise_of_forall_mem_list fun a ha b hb => ?_
    have hak := of_decide_eq_true (List.mem_filter.1 ha).2
    have hbk := of_decide_eq_true (List.mem_filter.1 hb).2
    exact decide_eq_true (le_of_eq (hak.trans hbk.symm))
  have hsub := (List.sublist_mergeSort htrans htotal hordered List.filter_sublist).filter
    fun a => key a = k
  rw [List.filter_filter] at hsub
  simp only [Bool.and_self] at hsub
  exact (hsub.eq_of_length (hperm.filter _).length_eq.symm).symm

theorem StablySorted.mem_iff (h : StablySorted key xs as) {a : α} : a ∈ as ↔ a ∈ xs :=
  h.perm.mem_iff

/-- Two ordered lists that hold the same entries of each key are equal. -/
theorem eq_of_ordered (ha : as.Pairwise fun a b => key a ≤ key b)
    (hb : bs.Pairwise fun a b => key a ≤ key b)
    (h : ∀ k, (as.filter fun a => key a = k) = bs.filter fun a => key a = k) : as = bs := by
  induction as generalizing bs with
  | nil =>
    cases bs with
    | nil => rfl
    | cons b bs => simpa using h (key b)
  | cons a as ih =>
    cases bs with
    | nil => simpa using h (key a)
    | cons b bs =>
      -- each head occurs in the other list, so neither key is below the other
      have hmem : ∀ x, x ∈ a :: as ↔ x ∈ b :: bs := fun x => by
        simpa using congrArg (x ∈ ·) (h (key x))
      have hle : ∀ {x : α} {l : List α}, (x :: l).Pairwise (fun a b => key a ≤ key b) →
          ∀ y ∈ x :: l, key x ≤ key y := fun hp y hy =>
        (List.mem_cons.1 hy).elim (fun e => e ▸ le_rfl) (List.rel_of_pairwise_cons hp)
      have hkey : key a = key b := le_antisymm
        (hle ha b ((hmem b).2 List.mem_cons_self)) (hle hb a ((hmem a).1 List.mem_cons_self))
      have hhead := h (key a)
      rw [List.filter_cons_of_pos (by simp), List.filter_cons_of_pos (by simp [hkey])] at hhead
      obtain ⟨rfl, -⟩ := List.cons.inj hhead
      refine congrArg _ (ih ha.of_cons hb.of_cons fun k => ?_)
      have hk := h k
      rw [List.filter_cons, List.filter_cons] at hk
      split_ifs at hk with hak
      · exact (List.cons.inj hk).2
      · exact hk

/-- Two lists that hold the same entries of each key hold the same entries. -/
theorem perm_of_filter_eq {ι : Type} [DecidableEq ι] {key : α → ι}
    (h : ∀ k, (as.filter fun a => key a = k) = bs.filter fun a => key a = k) : as.Perm bs := by
  classical
  refine List.perm_iff_count.2 fun a => ?_
  have hcount := congrArg (List.count a) (h (key a))
  rwa [List.count_filter (by simp), List.count_filter (by simp)] at hcount

/-- What is sorted of a list is sorted of any other list that holds the same entries of each key in
the same order. -/
theorem StablySorted.of_filter_eq (h : StablySorted key xs as)
    (hkeys : ∀ k, (xs.filter fun a => key a = k) = bs.filter fun a => key a = k) :
    StablySorted key bs as :=
  ⟨h.perm.trans (perm_of_filter_eq hkeys), h.ordered, fun k => (h.stable k).trans (hkeys k)⟩

theorem StablySorted.unique (ha : StablySorted key xs as) (hb : StablySorted key xs bs) : as = bs :=
  eq_of_ordered ha.ordered hb.ordered fun k => (ha.stable k).trans (hb.stable k).symm

end MultiDispatch
