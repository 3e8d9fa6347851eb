import MultiDispatch.Module.Registry
import MultiDispatch.Proofs.Buckets

/-!
# The registry and its index

A registry keeps what each module contributed, and an index of all contributions. The two are
separate structures that no check ever compares; they agree because every registration changes both
in the same way.

## Main definitions

* `Registry.Later`: a registry after further registrations
* `Registry.Consistent`: the index holds exactly the contributions, in order
* `Registry.held`: the contribution of one module

## Main results

* `Registry.register_cases`: what one registration can do
* `Registry.Later.bucket_grows`: registrations extend buckets at their ends
* `Registry.Later.candidatesOf?_eq`: what a module contributed stays what it is
* `Registry.Later.consistent`: registrations keep the index consistent
* `Registry.Consistent.exists_module`: what is in a bucket was contributed by a registered module
-/

namespace MultiDispatch

theorem number_nil (first : ℕ) : number first [] = [] := rfl

@[simp] theorem accepted_resultOf (n : ℕ) (errors : List RegistrationError) :
    (Registry.resultOf n errors).accepted = n := by
  rw [Registry.resultOf]
  split <;> rfl

theorem CandidateIndex.publishAll_nil (index : CandidateIndex) : index.publishAll [] = index := rfl

namespace Registry

variable {r r' : Registry} {operation : String} {arity : ℕ}

theorem value_register_of_registered {module : ModuleId} {batch : List Implementation}
    (h : r.isRegistered module = true) :
    (r.register module batch).value = (.alreadyRegistered, r) := by
  rw [register, if_pos h]
  rfl

theorem value_register_of_new {module : ModuleId} (h : r.isRegistered module = false)
    (batch : List Implementation) :
    (r.register module batch).value =
      (resultOf (screen batch).1.length (screen batch).2,
        r.publish module (number r.issued (screen batch).1)) := by
  rw [register, if_neg (Bool.eq_false_iff.1 h)]
  rfl

/-- A registration finds its module registered and does nothing, or publishes what it accepts. -/
theorem register_cases (r : Registry) (module : ModuleId) (batch : List Implementation) :
    (r.isRegistered module = true ∧
        (r.register module batch).value = (.alreadyRegistered, r)) ∨
      (r.isRegistered module = false ∧
        (r.register module batch).value =
          (resultOf (screen batch).1.length (screen batch).2,
            r.publish module (number r.issued (screen batch).1))) := by
  cases h : r.isRegistered module with
  | true => exact .inl ⟨rfl, value_register_of_registered h⟩
  | false => exact .inr ⟨rfl, value_register_of_new h batch⟩

/-- `r'` is `r` after any number of registrations. -/
inductive Later (r : Registry) : Registry → Prop
  | refl : Later r r
  | register {r' : Registry} (module : ModuleId) (batch : List Implementation) :
    Later r r' → Later r (r'.register module batch).value.2

theorem Later.trans {r'' : Registry} (h : r.Later r') (h' : r'.Later r'') : r.Later r'' := by
  induction h' with
  | refl => exact h
  | register module batch _ ih => exact ih.register module batch

theorem later_registerResult (r : Registry) (module : ModuleId)
    (extracted : Except RegistrationError (List Implementation)) :
    r.Later (r.registerResult module extracted).value.2 := by
  cases extracted with
  | ok batch => exact Later.refl.register module batch
  | error _ => exact .refl

theorem Later.issued_le (h : r.Later r') : r.issued ≤ r'.issued := by
  induction h with
  | refl => exact Nat.le_refl _
  | @register r' module batch _ ih =>
    rcases r'.register_cases module batch with ⟨-, hr⟩ | ⟨-, hr⟩
    · rwa [hr]
    · rw [hr]
      exact Nat.le_add_right_of_le ih

/-- What is in a bucket stays in it, at its place. -/
theorem Later.bucket_grows (h : r.Later r') :
    r.index.bucket operation arity <+: r'.index.bucket operation arity := by
  induction h with
  | refl => exact List.prefix_rfl
  | @register r' module batch _ ih =>
    rcases r'.register_cases module batch with ⟨-, hr⟩ | ⟨-, hr⟩
    · rwa [hr]
    · rw [hr, publish, CandidateIndex.bucket_publishAll]
      exact ih.trans (List.prefix_append _ _)

/-- A registration that accepts nothing leaves the index as it is. -/
theorem index_register_of_accepted_eq_zero {module : ModuleId} {batch : List Implementation}
    (h : (r.register module batch).value.1.accepted = 0) :
    (r.register module batch).value.2.index = r.index := by
  rcases r.register_cases module batch with ⟨-, hr⟩ | ⟨-, hr⟩
  · rw [hr]
  · rw [hr] at h ⊢
    rw [accepted_resultOf] at h
    rw [publish, List.eq_nil_of_length_eq_zero h, number_nil]
    exact CandidateIndex.publishAll_nil r.index

theorem index_registerResult_of_accepted_eq_zero {module : ModuleId}
    {extracted : Except RegistrationError (List Implementation)}
    (h : (r.registerResult module extracted).value.1.accepted = 0) :
    (r.registerResult module extracted).value.2.index = r.index := by
  cases extracted with
  | ok batch => exact index_register_of_accepted_eq_zero h
  | error _ => rfl

/-! ### Consistency -/

/-- The candidates of all registered modules, in the order of registration. -/
def contributed (r : Registry) : List Candidate :=
  r.modules.flatMap Prod.snd

theorem contributed_publish (r : Registry) (module : ModuleId) (candidates : List Candidate) :
    (r.publish module candidates).contributed = r.contributed ++ candidates := by
  rw [contributed, publish, List.flatMap_append, List.flatMap_singleton, contributed]

/-- No module is registered twice, and each bucket of the index holds what belongs in it of all
contributions, in their order. -/
structure Consistent (r : Registry) : Prop where
  distinct : (r.modules.map Prod.fst).Nodup
  buckets : ∀ operation arity, r.index.bucket operation arity =
    r.contributed.filter (Candidate.belongs operation arity)

theorem consistent_of_modules_eq_nil {issued : ℕ} : (⟨[], .empty, issued⟩ : Registry).Consistent :=
  ⟨List.nodup_nil, fun _ _ => rfl⟩

theorem isRegistered_iff {module : ModuleId} :
    r.isRegistered module = true ↔ ∃ cs, r.candidatesOf? module = some cs := by
  rw [isRegistered, Option.isSome_iff_exists]

theorem isRegistered_eq_false_iff {module : ModuleId} :
    r.isRegistered module = false ↔ module ∉ r.modules.map Prod.fst := by
  rw [isRegistered, candidatesOf?, Option.isSome_map, ← Bool.not_eq_true, List.find?_isSome,
    List.mem_map, not_iff_not]
  constructor
  · rintro ⟨m, hm, hmodule⟩
    exact ⟨m, hm, of_decide_eq_true hmodule⟩
  · rintro ⟨m, hm, hmodule⟩
    exact ⟨m, hm, decide_eq_true hmodule⟩

theorem isRegistered_publish {module m : ModuleId} {candidates : List Candidate} :
    (r.publish module candidates).isRegistered m = true ↔
      r.isRegistered m = true ∨ module = m := by
  rw [← not_iff_not, Bool.not_eq_true, isRegistered_eq_false_iff, not_or, Bool.not_eq_true,
    isRegistered_eq_false_iff]
  simp [publish, eq_comm]

theorem Consistent.publish (h : r.Consistent) {module : ModuleId}
    (hnew : r.isRegistered module = false) (candidates : List Candidate) :
    (r.publish module candidates).Consistent := by
  refine ⟨?_, fun operation arity => ?_⟩
  · have := h.distinct.concat (isRegistered_eq_false_iff.1 hnew)
    simpa [Registry.publish] using this
  · rw [contributed_publish, List.filter_append, ← h.buckets]
    exact CandidateIndex.bucket_publishAll _ _

theorem Later.consistent (h : r.Consistent) (hlater : r.Later r') : r'.Consistent := by
  induction hlater with
  | refl => exact h
  | @register r' module batch _ ih =>
    rcases r'.register_cases module batch with ⟨-, hr⟩ | ⟨hnew, hr⟩
    · rwa [hr]
    · rw [hr]
      exact ih.publish hnew _

/-- What is found for a module is found in the same place when more modules are registered. -/
theorem Later.candidatesOf?_eq (hlater : r.Later r') {module : ModuleId} {cs : List Candidate}
    (h : r.candidatesOf? module = some cs) : r'.candidatesOf? module = some cs := by
  induction hlater with
  | refl => exact h
  | @register r' added batch _ ih =>
    rcases r'.register_cases added batch with ⟨-, hr⟩ | ⟨-, hr⟩
    · rwa [hr]
    · obtain ⟨m, hfind, hm⟩ := Option.map_eq_some_iff.1 ih
      rw [hr, publish, candidatesOf?, List.find?_append, hfind, Option.some_or, Option.map_some, hm]

theorem Consistent.candidatesOf?_eq (h : r.Consistent) {module : ModuleId} {cs : List Candidate}
    (hmem : (module, cs) ∈ r.modules) : r.candidatesOf? module = some cs := by
  obtain ⟨m, hfind⟩ : ∃ m, (r.modules.find? fun m => m.1 = module) = some m :=
    Option.isSome_iff_exists.1 (List.find?_isSome.2 ⟨_, hmem, by simp⟩)
  have hm : m.1 = module := by simpa using List.find?_some hfind
  have heq : m = (module, cs) :=
    List.inj_on_of_nodup_map h.distinct (List.mem_of_find?_eq_some hfind) hmem hm
  rw [candidatesOf?, hfind, heq]
  rfl

theorem Consistent.candidatesOf?_eq_some_iff (h : r.Consistent) {module : ModuleId}
    {cs : List Candidate} : r.candidatesOf? module = some cs ↔ (module, cs) ∈ r.modules := by
  refine ⟨fun hcs => ?_, h.candidatesOf?_eq⟩
  obtain ⟨m, hfind, rfl⟩ := Option.map_eq_some_iff.1 hcs
  obtain rfl : m.1 = module := by simpa using List.find?_some hfind
  exact List.mem_of_find?_eq_some hfind

/-- The candidates that a module holds, none if it is not registered. -/
def held (r : Registry) (module : ModuleId) : List Candidate :=
  (r.candidatesOf? module).getD []

theorem Consistent.contributed_eq (h : r.Consistent) :
    r.contributed = (r.modules.map Prod.fst).flatMap r.held := by
  rw [contributed, List.flatMap_map]
  refine List.flatMap_congr fun m hm => ?_
  rw [held, h.candidatesOf?_eq hm, Option.getD_some]

/-- What is in a bucket belongs in it, and is held by a registered module. -/
theorem Consistent.exists_module (h : r.Consistent) {c : Candidate}
    (hc : c ∈ r.index.bucket operation arity) :
    c.operation = operation ∧ c.arity = arity ∧
      ∃ module cs, r.candidatesOf? module = some cs ∧ c ∈ cs := by
  rw [h.buckets, List.mem_filter] at hc
  obtain ⟨⟨module, cs⟩, hmodule, hcs⟩ := List.mem_flatMap.1 hc.1
  have hbelongs : c.operation = operation ∧ c.arity = arity := of_decide_eq_true hc.2
  exact ⟨hbelongs.1, hbelongs.2, module, cs, h.candidatesOf?_eq hmodule, hcs⟩

end Registry

end MultiDispatch
