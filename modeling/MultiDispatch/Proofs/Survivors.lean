import Mathlib.Order.Defs.Unbundled
import MultiDispatch.Proofs.NullPositions

/-!
# The order among survivors

The candidates that fit a call are its survivors. The choice among them rests on dominance, and
dominance is what one expects of it there: a strict order, with ties that mean having the same
verdicts throughout.

None of this holds of lists of verdicts at large. These can have their wildcards anywhere, and a
position with a wildcard is not compared; so three lists may tie in pairs and be far apart, or
dominate each other in a circle. What is left for all lists is that a comparison made the other way
round comes out the other way round, and that no list dominates itself.

For survivors, where the wildcards stand is no matter of what they declare. A null fits with a
wildcard or not at all, and a type never fits with one. So the wildcards stand at the nulls of the
call, for all survivors alike.

## Main definitions

* `Survivor`: a candidate that fits a call, with its verdicts
* `Survivor.Dominates`, `Survivor.Tied`: the comparison of two survivors

## Main results

* `specificity_swap`: comparing the other way round
* `Survivor.mem_fits_iff`: survivors are what the filter of a call finds
* `Survivor.getElem?_eq_wildcard_iff`: wildcards stand at the nulls of the call
* `Survivor.tied_iff`: ties mean equal verdicts
* `survivors_ordered`: dominance among survivors is a strict order that respects ties
-/

namespace MultiDispatch

/-! ### Lists of verdicts at large -/

section

variable {a b : List Verdict}

/-- **A comparison made the other way round comes out the other way round.** -/
theorem specificity_swap (a b : List Verdict) :
    specificity b a = (specificity a b).map Ordering.swap := by
  rw [specificity, specificity]
  cases closerSomewhere a b <;> cases closerSomewhere b a <;> rfl

/-- Two lists tie if neither is farther than the other at any position that counts. -/
theorem specificity_eq_iff : specificity a b = some .eq ↔ AsClose a b ∧ AsClose b a := by
  rw [← not_exists_closerAt_iff, ← not_exists_closerAt_iff, ← closerSomewhere_iff,
    ← closerSomewhere_iff, specificity]
  cases closerSomewhere a b <;> cases closerSomewhere b a <;> simp

/-- Where both lists have a tier, lists that tie have the same tier. -/
theorem tier_eq_of_specificity_eq (h : specificity a b = some .eq) {i : ℕ} {s t : Tier}
    (hs : tierAt? a i = some s) (ht : tierAt? b i = some t) : s = t := by
  obtain ⟨hab, hba⟩ := specificity_eq_iff.1 h
  have hrank : s.rank = t.rank := Nat.le_antisymm (hab i s t hs ht) (hba i t s ht hs)
  cases s <;> cases t <;> first | rfl | cases hrank

/-- Lists with tiers at the same positions, if they tie, have the same tiers there. -/
theorem tierAt?_eq_of_specificity_eq (haligned : Aligned a b) (h : specificity a b = some .eq)
    (i : ℕ) : tierAt? a i = tierAt? b i := by
  have hsome := haligned i
  cases hs : tierAt? a i with
  | none =>
    rw [hs, Option.isSome_none] at hsome
    exact (Option.isNone_iff_eq_none.1 (Option.isSome_eq_false_iff.1 hsome.symm)).symm
  | some s =>
    rw [hs, Option.isSome_some] at hsome
    obtain ⟨t, ht⟩ := Option.isSome_iff_exists.1 hsome.symm
    rw [ht, tier_eq_of_specificity_eq h hs ht]

end

/-- A verdict that keeps a candidate in the running is known by its tier, or by having none. -/
theorem Verdict.eq_of_tier?_eq {v w : Verdict} (hv : v.isCompatible = true)
    (hw : w.isCompatible = true) (htier : v.tier? = w.tier?) : v = w := by
  cases v <;> cases w <;> simp_all [Verdict.isCompatible, Verdict.tier?]

/-- What fits with a wildcard is a null. -/
theorem judge_eq_wildcard_iff {r : Option Ty} {d : Ty} (h : (judge r d).isCompatible = true) :
    judge r d = .wildcard ↔ r = none := by
  constructor
  · intro hwildcard
    have hsome := isSome_tier?_judge h
    rw [hwildcard] at hsome
    exact Option.isNone_iff_eq_none.1 (Option.isSome_eq_false_iff.1 hsome.symm)
  · rintro rfl
    exact judge_null_eq_wildcard h

/-! ### Survivors -/

/-- A candidate that fits a call, with its verdicts. -/
structure Survivor (call : Call) extends Fit where
  assessed : assess candidate.signature call.positions = .ok verdicts

namespace Survivor

variable {call : Call} {a b c : Survivor call} {i : ℕ}

/-- The first survivor is more specific than the second. -/
def Dominates (a b : Survivor call) : Prop :=
  dominates a.verdicts b.verdicts = true

/-- The survivors are equally specific. -/
def Tied (a b : Survivor call) : Prop :=
  specificity a.verdicts b.verdicts = some .eq

theorem accepts (a : Survivor call) : Accepts call.positions a.candidate.signature :=
  (assess_eq_ok_iff.1 a.assessed).1

theorem verdicts_eq (a : Survivor call) :
    a.verdicts = verdictsOn call.positions a.candidate.signature :=
  (assess_eq_ok_iff.1 a.assessed).2.symm

/-- **What is found to fit are the survivors** among the candidates that are gone through. -/
theorem mem_fits_iff {cs : List Candidate} {f : Fit} :
    f ∈ (fits call.positions cs).value ↔
      f.candidate ∈ cs ∧ ∃ a : Survivor call, a.toFit = f := by
  rw [value_fits]
  constructor
  · intro hf
    obtain ⟨c, hc, rfl⟩ := List.mem_map.1 hf
    obtain ⟨hmem, haccepts⟩ := List.mem_filter.1 hc
    have hassessed := assess_eq_ok_iff.2 ⟨of_decide_eq_true haccepts, rfl⟩
    exact ⟨hmem, ⟨fitOn call.positions c, hassessed⟩, rfl⟩
  · rintro ⟨hmem, a, rfl⟩
    refine List.mem_map.2 ⟨a.candidate, List.mem_filter.2 ⟨hmem, decide_eq_true a.accepts⟩, ?_⟩
    rw [fitOn, ← a.verdicts_eq]

theorem aligned (a b : Survivor call) : Aligned a.verdicts b.verdicts := by
  rw [a.verdicts_eq, b.verdicts_eq]
  exact aligned_verdictsOn a.accepts b.accepts

/-- There is a verdict for each position of the call. -/
theorem length_verdicts (a : Survivor call) : a.verdicts.length = call.positions.length := by
  rw [a.verdicts_eq, verdictsOn, List.length_zipWith, ← a.accepts.length_eq, Nat.min_self]

/-- The verdict at a position is on what the call has there, and a fitting one. -/
theorem exists_judge_of_getElem? (a : Survivor call) {v : Verdict}
    (hv : a.verdicts[i]? = some v) :
    ∃ r d, call.positions[i]? = some r ∧ judge r d = v ∧ v.isCompatible = true := by
  rw [a.verdicts_eq, verdictsOn, List.getElem?_zipWith_eq_some] at hv
  obtain ⟨r, d, hr, hd, rfl⟩ := hv
  have hfits := List.forall₂_iff_zip.1 a.accepts
  refine ⟨r, d, hr, rfl, hfits.2 (List.mem_iff_getElem?.2 ⟨i, ?_⟩)⟩
  rw [List.getElem?_zip_eq_some]
  exact ⟨hr, hd⟩

/-- **Wildcards stand at the nulls of the call**, and nowhere else. -/
theorem getElem?_eq_wildcard_iff (a : Survivor call) :
    a.verdicts[i]? = some .wildcard ↔ call.positions[i]? = some none := by
  constructor
  · intro hwildcard
    obtain ⟨r, d, hr, hjudge, hfits⟩ := a.exists_judge_of_getElem? hwildcard
    rw [hr, (judge_eq_wildcard_iff (hjudge ▸ hfits)).1 hjudge]
  · intro hnull
    have hi : i < a.verdicts.length := by
      rw [a.length_verdicts]
      exact (List.getElem?_eq_some_iff.1 hnull).1
    obtain ⟨r, d, hr, hjudge, hfits⟩ := a.exists_judge_of_getElem? (List.getElem?_eq_getElem hi)
    obtain rfl : none = r := Option.some.inj (hnull.symm.trans hr)
    rw [List.getElem?_eq_getElem hi, ← hjudge, judge_null_eq_wildcard (hjudge ▸ hfits)]

/-- **Ties mean equal verdicts.** Survivors have their tiers at the same positions, so a tie
compares all of them; and a fitting verdict without a tier is a wildcard. -/
theorem tied_iff : a.Tied b ↔ a.verdicts = b.verdicts := by
  constructor
  · intro htied
    have hlen : a.verdicts.length = b.verdicts.length := by
      rw [a.length_verdicts, b.length_verdicts]
    refine List.ext_getElem hlen fun i hi hi' => ?_
    have ha := List.getElem?_eq_getElem hi
    have hb := List.getElem?_eq_getElem hi'
    obtain ⟨-, -, -, -, hfits⟩ := a.exists_judge_of_getElem? ha
    obtain ⟨-, -, -, -, hfits'⟩ := b.exists_judge_of_getElem? hb
    have htier := tierAt?_eq_of_specificity_eq (a.aligned b) htied i
    rw [tierAt?, tierAt?, ha, hb, Option.bind_some, Option.bind_some] at htier
    exact Verdict.eq_of_tier?_eq hfits hfits' htier
  · intro heq
    rw [Tied, heq, specificity_eq_iff]
    exact ⟨fun i s t hs ht => (Option.some.inj (hs.symm.trans ht)) ▸ Nat.le_refl _,
      fun i s t hs ht => (Option.some.inj (hs.symm.trans ht)) ▸ Nat.le_refl _⟩

theorem equivalence_tied (call : Call) : Equivalence (@Tied call) where
  refl _ := tied_iff.2 rfl
  symm h := tied_iff.2 (tied_iff.1 h).symm
  trans h h' := tied_iff.2 ((tied_iff.1 h).trans (tied_iff.1 h'))

theorem isStrictOrder_dominates (call : Call) : IsStrictOrder (Survivor call) Dominates where
  irrefl a := by
    rw [Dominates, dominates_irrefl]
    exact Bool.false_ne_true
  trans a b c := dominates_trans (a.aligned b) (b.aligned c)

/-- Survivors that tie dominate the same survivors, and are dominated by the same. -/
theorem Tied.dominates_iff (h : a.Tied b) (c : Survivor call) :
    (a.Dominates c ↔ b.Dominates c) ∧ (c.Dominates a ↔ c.Dominates b) := by
  rw [Dominates, Dominates, Dominates, Dominates, tied_iff.1 h]
  exact ⟨Iff.rfl, Iff.rfl⟩

end Survivor

/-- **Dominance among survivors is a strict order that respects ties.** For any two lists of
verdicts the comparison made the other way round is the reverse, and no list dominates itself. For
the candidates that fit a call more is true. Each has a verdict for every position of the call, a
wildcard exactly at the nulls. Dominance is a strict order. To tie is an equivalence, means having
the same verdict at every position, and makes no difference to what dominates and is dominated. -/
theorem survivors_ordered :
    (∀ a b : Fit,
      specificity b.verdicts a.verdicts = (specificity a.verdicts b.verdicts).map Ordering.swap ∧
        dominates a.verdicts a.verdicts = false) ∧
    ∀ call : Call,
      (∀ a : Survivor call, a.verdicts.length = 1 + call.args.length ∧
        ∀ i : ℕ, a.verdicts[i]? = some .wildcard ↔ call.positions[i]? = some none) ∧
      IsStrictOrder (Survivor call) Survivor.Dominates ∧
      Equivalence (@Survivor.Tied call) ∧
      (∀ a b : Survivor call, a.Tied b ↔ ∀ i : ℕ, a.verdicts[i]? = b.verdicts[i]?) ∧
      ∀ a b : Survivor call, a.Tied b →
        ∀ c, (a.Dominates c ↔ b.Dominates c) ∧ (c.Dominates a ↔ c.Dominates b) := by
  refine ⟨fun a b => ⟨specificity_swap _ _, dominates_irrefl _⟩, fun call => ?_⟩
  refine ⟨fun a => ⟨?_, fun i => a.getElem?_eq_wildcard_iff⟩,
    Survivor.isStrictOrder_dominates call, Survivor.equivalence_tied call, fun a b => ?_,
    fun a b htied => htied.dominates_iff⟩
  · rw [a.length_verdicts, Call.positions, List.length_cons, Nat.add_comm]
  · rw [Survivor.tied_iff]
    exact ⟨fun heq i => by rw [heq], List.ext_getElem?⟩

/-- Three survivors of a call with a null. What the first two declare at the null is no matter, so
they tie; the third one is closer at the subject and dominates both. -/
example :
    let toss (subject arg : Ty) : Candidate := ⟨0, ⟨⟨"toss", subject, [arg]⟩, Body.subject⟩⟩
    let call : Call := ⟨"toss", some DeclarationHistory.cube, [none]⟩
    let shapeAtCube : Survivor call :=
      ⟨⟨toss DeclarationHistory.shape DeclarationHistory.cube, [.tier .interface, .wildcard]⟩, rfl⟩
    let shapeAtSolid : Survivor call :=
      ⟨⟨toss DeclarationHistory.shape DeclarationHistory.solid, [.tier .interface, .wildcard]⟩, rfl⟩
    let cubeAtShape : Survivor call :=
      ⟨⟨toss DeclarationHistory.cube DeclarationHistory.shape, [.tier .exact, .wildcard]⟩, rfl⟩
    shapeAtCube.Tied shapeAtSolid ∧
      cubeAtShape.Dominates shapeAtCube ∧ cubeAtShape.Dominates shapeAtSolid :=
  ⟨rfl, rfl, rfl⟩

/-- Three lists with a wildcard each, at different positions, that dominate each other in a circle.
They cannot be those of survivors. -/
example :
    let a : List Verdict := [.tier .exact, .tier .universal, .wildcard]
    let b : List Verdict := [.tier .universal, .wildcard, .tier .exact]
    let c : List Verdict := [.wildcard, .tier .exact, .tier .universal]
    dominates a b = true ∧ dominates b c = true ∧ dominates c a = true := by
  decide

end MultiDispatch
