import MultiDispatch.Proofs.ParetoFront
import MultiDispatch.Proofs.RegistryConsistency

/-!
# Which eliminations are reported

The candidates of a bucket are gone through in order, and the positions of each in order. A
candidate is out at the first position that does not fit, and this is reported. Nothing is reported
of a candidate that fits. A candidate with another number of positions would be out without a
report, but the bucket of a call has none.

## Main definitions

* `FirstMisfit`: the first position at which types do not fit
* `Eliminates`: what is reported of a list of candidates

## Main results

* `assess_eq_position_iff`: where a candidate is out
* `eliminates_fits`: the reports on a list of candidates
* `eliminates_resolve`: the reports on the bucket of a call
-/

namespace MultiDispatch

variable {positions rs : List (Option Ty)} {ds : List Ty} {r : Option Ty} {d : Ty} {i : ℕ}

/-! ### First misfits -/

/-- Runtime types, or nulls, fit the declared types before position `i`, and not at it. -/
structure FirstMisfit (rs : List (Option Ty)) (ds : List Ty) (i : ℕ) : Prop where
  misfits : ∃ r d, rs[i]? = some r ∧ ds[i]? = some d ∧ judge r d = .incompatible
  fits : ∀ j < i, ∀ r d, rs[j]? = some r → ds[j]? = some d → (judge r d).isCompatible = true

theorem Verdict.isCompatible_eq_false_iff {v : Verdict} :
    v.isCompatible = false ↔ v = .incompatible := by
  cases v <;> simp [Verdict.isCompatible]

theorem firstMisfit_zero_iff :
    FirstMisfit (r :: rs) (d :: ds) 0 ↔ judge r d = .incompatible := by
  constructor
  · rintro ⟨⟨r', d', hr, hd, hout⟩, -⟩
    obtain rfl : r = r' := Option.some.inj hr
    obtain rfl : d = d' := Option.some.inj hd
    exact hout
  · intro hout
    exact ⟨⟨r, d, rfl, rfl, hout⟩, fun j hj => absurd hj (Nat.not_lt_zero j)⟩

theorem firstMisfit_succ_iff :
    FirstMisfit (r :: rs) (d :: ds) (i + 1) ↔
      (judge r d).isCompatible = true ∧ FirstMisfit rs ds i := by
  constructor
  · rintro ⟨hout, hfits⟩
    exact ⟨hfits 0 (Nat.succ_pos i) r d rfl rfl, hout,
      fun j hj r' d' => hfits (j + 1) (Nat.succ_lt_succ hj) r' d'⟩
  · rintro ⟨hfirst, hout, hfits⟩
    refine ⟨hout, fun j hj r' d' hr hd => ?_⟩
    cases j with
    | zero =>
      obtain rfl : r = r' := Option.some.inj hr
      obtain rfl : d = d' := Option.some.inj hd
      exact hfirst
    | succ j => exact hfits j (Nat.lt_of_succ_lt_succ hj) r' d' hr hd

theorem FirstMisfit.lt (h : FirstMisfit rs ds i) : i < rs.length ∧ i < ds.length := by
  obtain ⟨r, d, hr, hd, -⟩ := h.misfits
  exact ⟨(List.getElem?_eq_some_iff.1 hr).1, (List.getElem?_eq_some_iff.1 hd).1⟩

/-- Positions are counted from `start`. -/
theorem assessFrom_eq_error_iff {start n : ℕ} :
    assessFrom start rs ds = .error n ↔ ∃ i, start + i = n ∧ FirstMisfit rs ds i := by
  induction rs generalizing start ds with
  | nil =>
    have hnone : ¬ ∃ i, start + i = n ∧ FirstMisfit [] ds i := by
      rintro ⟨i, -, hmisfit⟩
      exact Nat.not_lt_zero i hmisfit.lt.1
    simp only [assessFrom, reduceCtorEq, hnone]
  | cons r rs ih =>
    cases ds with
    | nil =>
      have hnone : ¬ ∃ i, start + i = n ∧ FirstMisfit (r :: rs) [] i := by
        rintro ⟨i, -, hmisfit⟩
        exact Nat.not_lt_zero i hmisfit.lt.2
      simp only [assessFrom, reduceCtorEq, hnone]
    | cons d ds =>
      have hmap : ∀ x : Except ℕ (List Verdict),
          x.map (judge r d :: ·) = .error n ↔ x = .error n := by
        rintro (i | v) <;> simp [Except.map]
      rw [assessFrom]
      by_cases hfits : (judge r d).isCompatible = true
      · rw [if_pos hfits, hmap, ih]
        constructor
        · rintro ⟨i, rfl, hmisfit⟩
          exact ⟨i + 1, by omega, firstMisfit_succ_iff.2 ⟨hfits, hmisfit⟩⟩
        · rintro ⟨i, rfl, hmisfit⟩
          cases i with
          | zero => simp [firstMisfit_zero_iff.1 hmisfit, Verdict.isCompatible] at hfits
          | succ i => exact ⟨i, by omega, (firstMisfit_succ_iff.1 hmisfit).2⟩
      · rw [if_neg hfits]
        constructor
        · intro hstart
          obtain rfl : start = n := Except.error.inj hstart
          exact ⟨0, rfl, firstMisfit_zero_iff.2 <|
            Verdict.isCompatible_eq_false_iff.1 (Bool.eq_false_iff.2 hfits)⟩
        · rintro ⟨i, rfl, hmisfit⟩
          cases i with
          | zero => rfl
          | succ i => exact absurd (firstMisfit_succ_iff.1 hmisfit).1 hfits

/-- **A candidate is out at its first misfit**, if it has as many positions as the call. -/
theorem assess_eq_position_iff {s : Signature} (hlen : positions.length = s.arity) :
    assess s positions = .error (.position i) ↔ FirstMisfit positions s.declared i := by
  have hmap : ∀ x : Except ℕ (List Verdict),
      x.mapError Refusal.position = .error (.position i) ↔ x = .error i := by
    rintro (i | v) <;> simp [Except.mapError]
  rw [assess, if_pos hlen, hmap, assessFrom_eq_error_iff]
  simp

theorem assess_ne_arity {s : Signature} (hlen : positions.length = s.arity) :
    assess s positions ≠ .error .arity := by
  rw [assess, if_pos hlen]
  cases assessFrom 0 positions s.declared <;> simp [Except.mapError]

/-! ### Reports -/

/-- The events report in order, for each of the candidates that a call does not fit, the first
position at which it does not. -/
def Eliminates (positions : List (Option Ty)) (cs : List Candidate) (events : List Event) : Prop :=
  List.Forall₂
    (fun c event => ∃ i, FirstMisfit positions c.signature.declared i ∧ event = .eliminated c i)
    (cs.filter fun c => ¬ Accepts positions c.signature) events

/-- **The reports on a list of candidates**, all of which have as many positions as the call. -/
theorem eliminates_fits {cs : List Candidate}
    (hlen : ∀ c ∈ cs, positions.length = c.signature.arity) :
    Eliminates positions cs (fits positions cs).events := by
  induction cs with
  | nil => exact .nil
  | cons c cs ih =>
    have hrest := ih fun d hd => hlen d (List.mem_cons_of_mem c hd)
    have hc := hlen c List.mem_cons_self
    rw [Eliminates] at hrest ⊢
    rw [fits]
    cases hassess : assess c.signature positions with
    | ok verdicts =>
      have haccepts : Accepts positions c.signature := (assess_eq_ok_iff.1 hassess).1
      rw [List.filter_cons_of_neg (by simpa using haccepts)]
      simpa only [Traced.events_bind, Traced.events_pure, List.append_nil] using hrest
    | error refusal =>
      cases refusal with
      | arity => exact absurd hassess (assess_ne_arity hc)
      | position i =>
        have hrejects : ¬ Accepts positions c.signature := fun haccepts => by
          rw [assess_eq_ok_iff.2 ⟨haccepts, rfl⟩] at hassess
          cases hassess
        rw [List.filter_cons_of_pos (by simpa using hrejects)]
        exact .cons ⟨i, (assess_eq_position_iff hc).1 hassess, rfl⟩ hrest

/-- **The reports on the bucket of a call.** In the index of a registry all members of a bucket have
its number of positions. -/
theorem eliminates_resolve {registry : Registry} (hconsistent : registry.Consistent) {call : Call}
    (hsubject : call.subject.isSome = true) :
    Eliminates call.positions (registry.index.bucket call.operation call.arity)
      (registry.index.resolve call).events := by
  obtain ⟨subject, hs⟩ := Option.isSome_iff_exists.1 hsubject
  have hlen : ∀ c ∈ registry.index.bucket call.operation call.arity,
      call.positions.length = c.signature.arity := by
    intro c hc
    obtain ⟨-, harity, -⟩ := hconsistent.exists_module hc
    rw [Call.positions, List.length_cons, Nat.add_comm]
    exact harity.symm
  have hfits := eliminates_fits hlen
  rw [CandidateIndex.resolve, hs]
  cases hbucket : registry.index.bucket call.operation call.arity with
  | nil => exact .nil
  | cons c cs =>
    rw [hbucket] at hfits
    simpa only [Traced.events_bind, Traced.events_pure, List.append_nil] using hfits

end MultiDispatch
