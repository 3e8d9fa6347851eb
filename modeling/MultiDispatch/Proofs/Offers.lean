import Mathlib.Data.List.Nodup
import Mathlib.Data.List.Range
import MultiDispatch.Proofs.RegistryConsistency
import MultiDispatch.Proofs.Screening

/-!
# What a registry holds

A registry is offered batches for modules, one after the other. It holds what it accepted of the
first batch that it was offered for each module, and nothing of any later one. This settles its
contents and their order, whatever else happened to it; the numbers of its candidates are the only
thing that also depends on what it held before it was cleared.

## Main definitions

* `Offer`: a batch for a module
* `Registry.consider`, `Registry.considerEach`: registering what is offered
* `Registry.Holds`: the contents of a registry, by the offers
* `Registry.InStep`: numbers are given once, and nothing is lost on the way to the index

## Main results

* `Registry.Holds.consider`, `Registry.InStep.consider`: one offer keeps both
* `Registry.map_implementation_contributed`: what comes of offers for different modules
-/

namespace MultiDispatch

/-! ### Numbers -/

theorem map_implementation_number (first : ℕ) (xs : List Implementation) :
    (number first xs).map Candidate.implementation = xs := by
  rw [number, List.map_map]
  exact List.zipIdx_map_fst 0 xs

theorem map_id_number (first : ℕ) (xs : List Implementation) :
    (number first xs).map Candidate.id = List.range' first xs.length := by
  rw [number, List.map_map]
  calc xs.zipIdx.map (Candidate.id ∘ fun p => ⟨first + p.2, p.1⟩)
      = (xs.zipIdx.map Prod.snd).map (first + ·) := by rw [List.map_map]; rfl
    _ = List.range' first xs.length := by
        rw [List.zipIdx_map_snd, List.map_add_range', Nat.add_zero]

theorem length_number (first : ℕ) (xs : List Implementation) :
    (number first xs).length = xs.length := by
  rw [number, List.length_map, List.length_zipIdx]

theorem number_append (first : ℕ) (xs ys : List Implementation) :
    number first (xs ++ ys) = number first xs ++ number (first + xs.length) ys := by
  have hrest : ys.zipIdx xs.length = ys.zipIdx.map fun p => (p.1, xs.length + p.2) :=
    List.zipIdx_eq_map_add
  rw [number, List.zipIdx_append, Nat.zero_add, List.map_append, hrest, List.map_map]
  simp only [number, Function.comp_def, Nat.add_assoc]

/-! ### First occurrences -/

section

variable {α : Type} [BEq α] [LawfulBEq α] {x : α} {xs : List α}

theorem eraseDups_concat_of_mem (h : x ∈ xs) : (xs ++ [x]).eraseDups = xs.eraseDups := by
  rw [List.eraseDups_append]
  simp [List.removeAll, h]

theorem eraseDups_concat_of_notMem (h : x ∉ xs) :
    (xs ++ [x]).eraseDups = xs.eraseDups ++ [x] := by
  rw [List.eraseDups_append]
  simp [List.removeAll, h, List.eraseDups_cons]

end

/-! ### Offers -/

/-- A batch of implementations for a module. -/
structure Offer where
  module : ModuleId
  batch : List Implementation

/-- What is accepted of an offer for a new module. -/
def Offer.accepted (o : Offer) : List Implementation :=
  (screen o.batch).1

namespace Registry

variable {r : Registry} {o : Offer} {os : List Offer}

/-- The registry after an offer. -/
def consider (r : Registry) (o : Offer) : Registry :=
  (r.register o.module o.batch).value.2

/-- The registry after offers, one after the other. -/
def considerEach (r : Registry) (os : List Offer) : Registry :=
  os.foldl consider r

theorem considerEach_append (r : Registry) (os os' : List Offer) :
    r.considerEach (os ++ os') = (r.considerEach os).considerEach os' :=
  List.foldl_append

theorem consider_of_registered (h : r.isRegistered o.module = true) : r.consider o = r := by
  rw [consider, value_register_of_registered h]

theorem consider_of_new (h : r.isRegistered o.module = false) :
    r.consider o = r.publish o.module (number r.issued o.accepted) := by
  rw [consider, value_register_of_new h, Offer.accepted]

theorem later_considerEach (r : Registry) (os : List Offer) : r.Later (r.considerEach os) := by
  induction os generalizing r with
  | nil => exact .refl
  | cons o os ih => exact (Later.refl.register o.module o.batch).trans (ih (r.consider o))

/-- What every offer keeps is kept by offers one after the other. -/
theorem considerEach_induction {P : Registry → Prop} (hr : P r)
    (hstep : ∀ r o, P r → P (consider r o)) : P (r.considerEach os) := by
  induction os generalizing r with
  | nil => exact hr
  | cons o os ih => exact ih (hstep r o hr)

/-! ### Holdings -/

/-- Of the first offer for each module, and in the order of these, the registry holds what is
accepted. -/
structure Holds (r : Registry) (os : List Offer) : Prop where
  order : r.modules.map Prod.fst = (os.map Offer.module).eraseDups
  contents : ∀ m ∈ r.modules, ∃ o, os.find? (fun o => o.module = m.1) = some o ∧
    m.2.map Candidate.implementation = o.accepted

theorem holds_nil (h : r.modules = []) : r.Holds [] := by
  refine ⟨?_, fun m hm => ?_⟩
  · rw [h]
    rfl
  · rw [h] at hm
    cases hm

theorem Holds.isRegistered_eq_false_iff (h : r.Holds os) {module : ModuleId} :
    r.isRegistered module = false ↔ module ∉ os.map Offer.module := by
  rw [Registry.isRegistered_eq_false_iff, h.order, List.mem_eraseDups]

theorem Holds.isRegistered_iff_mem (h : r.Holds os) {module : ModuleId} :
    r.isRegistered module = true ↔ module ∈ (os.map Offer.module).eraseDups := by
  rw [List.mem_eraseDups, ← not_iff_not, Bool.not_eq_true, h.isRegistered_eq_false_iff]

/-- What is found among the offers so far is found at the same place with one more offer. -/
theorem Holds.contents_concat (h : r.Holds os) (o : Offer) :
    ∀ m ∈ r.modules, ∃ o', (os ++ [o]).find? (fun o => o.module = m.1) = some o' ∧
      m.2.map Candidate.implementation = o'.accepted := by
  intro m hm
  obtain ⟨o', hfind, hcontents⟩ := h.contents m hm
  exact ⟨o', by rw [List.find?_append, hfind, Option.some_or], hcontents⟩

/-- One more offer for a module that is registered makes no difference. -/
theorem Holds.concat_of_registered (h : r.Holds os) (hold : r.isRegistered o.module = true) :
    r.Holds (os ++ [o]) := by
  refine ⟨?_, h.contents_concat o⟩
  have hmem : o.module ∈ os.map Offer.module :=
    List.mem_eraseDups.1 (h.isRegistered_iff_mem.1 hold)
  rw [h.order, List.map_append]
  exact (eraseDups_concat_of_mem hmem).symm

/-- The first offer for a module adds to the registry what is accepted of it. -/
theorem Holds.publish (h : r.Holds os) (hnew : r.isRegistered o.module = false) :
    (r.publish o.module (number r.issued o.accepted)).Holds (os ++ [o]) := by
  have hnew : o.module ∉ os.map Offer.module := h.isRegistered_eq_false_iff.1 hnew
  refine ⟨?_, fun m hm => ?_⟩
  · rw [Registry.publish, List.map_append, h.order, List.map_append]
    exact (eraseDups_concat_of_notMem hnew).symm
  · rcases List.mem_append.1 hm with hm | hm
    · exact h.contents_concat o m hm
    · rw [List.mem_singleton.1 hm]
      -- The module was offered for the first time, so its first offer is the last one.
      refine ⟨o, ?_, map_implementation_number _ _⟩
      have hnone : os.find? (fun o' => o'.module = o.module) = none := by
        refine List.find?_eq_none.2 fun o' ho' he => hnew ?_
        rw [← of_decide_eq_true he]
        exact List.mem_map_of_mem ho'
      rw [List.find?_append, hnone, Option.none_or]
      simp

theorem Holds.consider (h : r.Holds os) (o : Offer) : (r.consider o).Holds (os ++ [o]) := by
  cases hreg : r.isRegistered o.module with
  | true =>
    rw [consider_of_registered hreg]
    exact h.concat_of_registered hreg
  | false =>
    rw [consider_of_new hreg]
    exact h.publish hreg

theorem Holds.considerEach (h : r.Holds os) (os' : List Offer) :
    (r.considerEach os').Holds (os ++ os') := by
  induction os' generalizing r os with
  | nil =>
    rw [List.append_nil]
    exact h
  | cons o os' ih =>
    rw [List.append_cons]
    exact ih (h.consider o)

/-- What comes of offers for different modules that are new to the registry. -/
theorem map_implementation_contributed (hnodup : (os.map Offer.module).Nodup)
    (hnew : ∀ o ∈ os, r.isRegistered o.module = false) :
    (r.considerEach os).contributed.map Candidate.implementation =
      r.contributed.map Candidate.implementation ++ os.flatMap Offer.accepted := by
  induction os generalizing r with
  | nil => exact (List.append_nil _).symm
  | cons o os ih =>
    rw [List.map_cons, List.nodup_cons] at hnodup
    have hfirst : r.consider o = r.publish o.module (number r.issued o.accepted) :=
      consider_of_new (hnew o List.mem_cons_self)
    -- The other modules are as new as before: the first offer was not for one of them.
    have hrest : ∀ o' ∈ os, (r.consider o).isRegistered o'.module = false := by
      intro o' ho'
      have hold := Registry.isRegistered_eq_false_iff.1 (hnew o' (List.mem_cons_of_mem _ ho'))
      have hne : o'.module ≠ o.module := fun he =>
        hnodup.1 (he ▸ List.mem_map_of_mem ho')
      rw [Registry.isRegistered_eq_false_iff, hfirst, publish, List.map_append, List.mem_append]
      simpa [hne] using hold
    have hstep : (r.consider o).contributed.map Candidate.implementation =
        r.contributed.map Candidate.implementation ++ o.accepted := by
      rw [hfirst, contributed_publish, List.map_append, map_implementation_number]
    calc (r.considerEach (o :: os)).contributed.map Candidate.implementation
        = (r.consider o).contributed.map Candidate.implementation ++ os.flatMap Offer.accepted :=
          ih hnodup.2 hrest
      _ = _ := by rw [hstep, List.append_assoc, List.flatMap_cons]

/-! ### In step -/

/-- The index is as large as all contributions together, no two candidates have the same number,
which is below the next one, and what a module contributed is sound. -/
structure InStep (r : Registry) : Prop where
  size : r.index.size = r.contributed.length
  nodup : (r.contributed.map Candidate.id).Nodup
  below : ∀ id ∈ r.contributed.map Candidate.id, id < r.issued
  screened : ∀ m ∈ r.modules, Screened (m.2.map Candidate.implementation)

theorem inStep_of_nothing {issued : ℕ} : (⟨[], .empty, issued⟩ : Registry).InStep :=
  ⟨rfl, List.nodup_nil, nofun, nofun⟩

theorem InStep.consider (h : r.InStep) (o : Offer) : (r.consider o).InStep := by
  cases hreg : r.isRegistered o.module with
  | true => rwa [consider_of_registered hreg]
  | false =>
    have hcontributed : (r.consider o).contributed =
        r.contributed ++ number r.issued o.accepted := by
      rw [consider_of_new hreg, contributed_publish]
    have hids : (r.consider o).contributed.map Candidate.id =
        r.contributed.map Candidate.id ++ List.range' r.issued o.accepted.length := by
      rw [hcontributed, List.map_append, map_id_number]
    have hissued : (r.consider o).issued = r.issued + o.accepted.length := by
      rw [consider_of_new hreg, publish, length_number]
    refine ⟨?_, ?_, fun id hid => ?_, fun m hm => ?_⟩
    · rw [hcontributed, List.length_append, ← h.size, consider_of_new hreg]
      exact CandidateIndex.size_publishAll _ _
    · rw [hids]
      refine h.nodup.append List.nodup_range' fun id hold hnew => ?_
      have hlow := h.below id hold
      have hhigh := (List.mem_range'_1.1 hnew).1
      omega
    · rw [hids, List.mem_append, List.mem_range'_1] at hid
      rw [hissued]
      rcases hid with hid | hid
      · have hlow := h.below id hid
        omega
      · exact hid.2
    · rw [consider_of_new hreg, publish] at hm
      rcases List.mem_append.1 hm with hm | hm
      · exact h.screened m hm
      · rw [List.mem_singleton.1 hm, map_implementation_number]
        exact screened_screen o.batch

/-- No candidate is in a bucket twice. -/
theorem InStep.nodup_bucket (h : r.InStep) (hconsistent : r.Consistent) (operation : String)
    (arity : ℕ) : ((r.index.bucket operation arity).map Candidate.id).Nodup := by
  rw [hconsistent.buckets]
  exact h.nodup.sublist (List.filter_sublist.map Candidate.id)

end Registry

end MultiDispatch
