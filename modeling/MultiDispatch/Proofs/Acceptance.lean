import Mathlib.Data.List.Infix
import MultiDispatch.Proofs.Offers

/-!
# What is accepted of a batch

Screening compares an implementation with those accepted before it and forgets what it rejects. What
comes out can be said without following it: an implementation is accepted if its operation has a
visible name and nothing that stands before it in the batch, accepted or not, has its signature.

The two agree because what is rejected with a visible name has the signature of something that was
accepted, and what is rejected for a blank name shares it with nothing that could be accepted. The
first uses that having the same signature is transitive, the second that it settles the name.

## Main definitions

* `Signature.Repeats`: the same operation and the same types
* `Acceptable`: a visible name, and a signature that is new
* `acceptable`, `complaints`: a batch divided by its own order
* `StandsFor`: the accepted implementations have the signatures of all

## Main results

* `StandsFor.screenAfter_eq`: how the rest of a batch is screened
* `screen_eq`: screening divides a batch by its own order
* `batch_validation`: what a registration of a new module answers and changes
-/

namespace MultiDispatch

/-! ### Equal signatures -/

namespace Signature

variable {s t u : Signature}

/-- The operation, the type of the subject and the types of the parameters are the same, whatever
these are called. -/
structure Repeats (s t : Signature) : Prop where
  operation : s.operation = t.operation
  subject : s.subject.id = t.subject.id
  params : s.params.map Ty.id = t.params.map Ty.id

theorem same_iff : s.same t = true ↔ s.Repeats t := by
  rw [same, decide_eq_true_eq, key, key, declared, declared, Prod.mk.injEq, List.map_cons,
    List.map_cons, List.cons.injEq]
  constructor
  · rintro ⟨hoperation, hsubject, hparams⟩
    exact ⟨hoperation, hsubject, hparams⟩
  · intro h
    exact ⟨h.operation, h.subject, h.params⟩

instance : Decidable (s.Repeats t) :=
  decidable_of_iff _ same_iff

theorem Repeats.trans (h : s.Repeats t) (h' : t.Repeats u) : s.Repeats u :=
  ⟨h.operation.trans h'.operation, h.subject.trans h'.subject, h.params.trans h'.params⟩

end Signature

/-! ### The rule -/

variable {accepted earlier batch : List Implementation} {x : Implementation}

/-- The operation of `x` has a visible name, and nothing before it has its signature. -/
structure Acceptable (earlier : List Implementation) (x : Implementation) : Prop where
  named : Text.isBlank x.signature.operation = false
  first : ∀ e ∈ earlier, ¬ e.signature.Repeats x.signature

theorem acceptable_iff : Acceptable earlier x ↔ Text.isBlank x.signature.operation = false ∧
    ∀ e ∈ earlier, ¬ e.signature.Repeats x.signature :=
  ⟨fun h => ⟨h.named, h.first⟩, fun h => ⟨h.1, h.2⟩⟩

instance : Decidable (Acceptable earlier x) :=
  decidable_of_iff _ acceptable_iff.symm

/-- What is said of an implementation that is not acceptable: a blank name comes before a signature
that is taken. -/
def complaint (x : Implementation) : RegistrationError :=
  .rejected x.signature.text
    (if Text.isBlank x.signature.operation then .blankOperation else .duplicateSignature)

/-- The implementations of a batch, each after all that stand before it. -/
def placed (batch : List Implementation) : List (List Implementation × Implementation) :=
  batch.inits.zip batch

/-- The acceptable implementations of a batch, in its order. -/
def acceptable (batch : List Implementation) : List Implementation :=
  ((placed batch).filter fun p => Acceptable p.1 p.2).map Prod.snd

/-- What is said of the others, in the order of the batch. -/
def complaints (batch : List Implementation) : List RegistrationError :=
  ((placed batch).filter fun p => ¬ Acceptable p.1 p.2).map fun p => complaint p.2

theorem map_snd_placed (batch : List Implementation) : (placed batch).map Prod.snd = batch := by
  rw [placed, List.map_snd_zip]
  simp

theorem length_acceptable_add_length_complaints (batch : List Implementation) :
    (acceptable batch).length + (complaints batch).length = batch.length := by
  have hlength : (placed batch).length = batch.length := by
    rw [← List.length_map Prod.snd, map_snd_placed]
  have hsplit := List.length_eq_length_filter_add (l := placed batch)
    fun p => decide (Acceptable p.1 p.2)
  rw [acceptable, complaints, List.length_map, List.length_map, ← hlength, hsplit]
  simp

/-! ### Screening by the rule -/

/-- What was accepted has the visible signatures of all that came before. -/
def StandsFor (accepted earlier : List Implementation) : Prop :=
  ∀ s : Signature, Text.isBlank s.operation = false →
    ((∃ a ∈ accepted, a.signature.Repeats s) ↔ ∃ e ∈ earlier, e.signature.Repeats s)

theorem exists_mem_concat_repeats {xs : List Implementation} {s : Signature} :
    (∃ y ∈ xs ++ [x], y.signature.Repeats s) ↔
      (∃ y ∈ xs, y.signature.Repeats s) ∨ x.signature.Repeats s := by
  simp [or_and_right, exists_or]

namespace StandsFor

/-- Screening judges by the rule, as far as what it has accepted stands for all before. -/
theorem rejection?_eq (h : StandsFor accepted earlier) (x : Implementation) :
    rejection? accepted x = if Acceptable earlier x then none else some (complaint x) := by
  cases hblank : Text.isBlank x.signature.operation with
  | true =>
    have hnot : ¬ Acceptable earlier x := fun hx => by
      rw [hx.named] at hblank
      cases hblank
    rw [rejection?, if_pos hblank, if_neg hnot, complaint, if_pos hblank]
  | false =>
    have hsame : (accepted.any fun a => a.signature.same x.signature) = true ↔
        ¬ Acceptable earlier x := by
      rw [acceptable_iff, List.any_eq_true]
      simp only [Signature.same_iff, h x.signature hblank, hblank, true_and, not_forall, not_not,
        exists_prop]
    have hvisible : ¬ Text.isBlank x.signature.operation = true := by simp [hblank]
    rw [rejection?, if_neg hvisible, complaint, if_neg hvisible]
    by_cases hx : Acceptable earlier x
    · rw [if_neg fun hany => hsame.1 hany hx, if_pos hx]
    · rw [if_pos (hsame.2 hx), if_neg hx]

/-- Accepting the next one keeps the signatures together. -/
theorem concat (h : StandsFor accepted earlier) (x : Implementation) :
    StandsFor (accepted ++ [x]) (earlier ++ [x]) := by
  intro s hs
  rw [exists_mem_concat_repeats, exists_mem_concat_repeats, h s hs]

/-- Rejecting the next one loses no visible signature: it is that of something before. -/
theorem skip (h : StandsFor accepted earlier) (hx : ¬ Acceptable earlier x) :
    StandsFor accepted (earlier ++ [x]) := by
  intro s hs
  rw [exists_mem_concat_repeats, h s hs]
  refine ⟨Or.inl, fun hbefore => hbefore.elim id fun hrepeats => ?_⟩
  rw [acceptable_iff, hrepeats.operation] at hx
  simp only [hs, true_and, not_forall, not_not, exists_prop] at hx
  obtain ⟨e, he, hex⟩ := hx
  exact ⟨e, he, hex.trans hrepeats⟩

/-- The rest of a batch is screened by the rule, given that what was accepted stands for all
before. -/
theorem screenAfter_eq (h : StandsFor accepted earlier) (rest : List Implementation) :
    let judged := (rest.inits.map (earlier ++ ·)).zip rest
    screenAfter accepted rest =
      (accepted ++ (judged.filter fun p => Acceptable p.1 p.2).map Prod.snd,
        (judged.filter fun p => ¬ Acceptable p.1 p.2).map fun p => complaint p.2) := by
  induction rest generalizing accepted earlier with
  | nil => simp [screenAfter]
  | cons x rest ih =>
    -- Everything after `x` has `x` before it, whether `x` is accepted or not.
    have hjudged : ((x :: rest).inits.map (earlier ++ ·)).zip (x :: rest) =
        (earlier, x) :: (rest.inits.map (earlier ++ [x] ++ ·)).zip rest := by
      simp [Function.comp_def]
    by_cases hx : Acceptable earlier x
    · have hnone : rejection? accepted x = none := by rw [h.rejection?_eq, if_pos hx]
      rw [screenAfter_cons_of_accepted hnone, ih (h.concat x), hjudged]
      simp [hx]
    · have hsome : rejection? accepted x = some (complaint x) := by
        rw [h.rejection?_eq, if_neg hx]
      rw [screenAfter_cons_of_rejected hsome, ih (h.skip hx), hjudged]
      simp [hx]

end StandsFor

/-- **Screening divides a batch by its own order.** -/
theorem screen_eq (batch : List Implementation) :
    screen batch = (acceptable batch, complaints batch) := by
  have hnothing : StandsFor [] [] := fun _ _ => Iff.rfl
  rw [screen, hnothing.screenAfter_eq, acceptable, complaints, placed]
  simp

/-! ### Registration -/

namespace Registry

variable {r : Registry} {module : ModuleId}

theorem candidatesOf?_publish_self (hnew : r.isRegistered module = false)
    (candidates : List Candidate) :
    (r.publish module candidates).candidatesOf? module = some candidates := by
  have hnone : r.candidatesOf? module = none := by
    rwa [isRegistered, Option.isSome_eq_false_iff, Option.isNone_iff_eq_none] at hnew
  rw [candidatesOf?, Option.map_eq_none_iff] at hnone
  rw [candidatesOf?, publish, List.find?_append, hnone]
  simp

/-- A new module contributes what is acceptable, numbered in its order. -/
theorem value_register_of_acceptable (hnew : r.isRegistered module = false)
    (batch : List Implementation) :
    (r.register module batch).value =
      (resultOf (acceptable batch).length (complaints batch),
        r.publish module (number r.issued (acceptable batch))) := by
  rw [value_register_of_new hnew, screen_eq]

theorem diagnostics_resultOf (n : ℕ) (errors : List RegistrationError) :
    (resultOf n errors).diagnostics = errors := by
  cases errors <;> rfl

end Registry

/-- **A batch is divided by its own order.** Whatever is registered so far, a new module becomes
registered, and contributes what its batch has of acceptable implementations: those with a visible
name whose signature nothing before them has, in the order of the batch. All others are complained
about, one by one and in the order of the batch, by their signature and for the blank name if it is
blank. The registration is a full one if and only if there is no complaint. -/
theorem batch_validation (r : Registry) (module : ModuleId)
    (hnew : r.isRegistered module = false) (batch : List Implementation) :
    let result := (r.register module batch).value.1
    let after := (r.register module batch).value.2
    (∃ cs, after.candidatesOf? module = some cs ∧
      cs.map Candidate.implementation = acceptable batch ∧
      ∀ operation arity, after.index.bucket operation arity =
        r.index.bucket operation arity ++ cs.filter (Candidate.belongs operation arity)) ∧
    result.accepted = (acceptable batch).length ∧
    result.diagnostics = complaints batch ∧
    result.accepted + result.diagnostics.length = batch.length ∧
    (result = if complaints batch = [] then .registered (acceptable batch).length
      else .partially (acceptable batch).length (complaints batch)) ∧
    after.isRegistered module = true := by
  intro result after
  have hvalue := Registry.value_register_of_acceptable hnew batch
  have hresult : result = Registry.resultOf (acceptable batch).length (complaints batch) :=
    congrArg Prod.fst hvalue
  have hafter : after = r.publish module (number r.issued (acceptable batch)) :=
    congrArg Prod.snd hvalue
  rw [hresult, hafter, accepted_resultOf, Registry.diagnostics_resultOf]
  refine ⟨⟨_, Registry.candidatesOf?_publish_self hnew _, map_implementation_number _ _,
    fun operation arity => CandidateIndex.bucket_publishAll _ _⟩, rfl, rfl,
    length_acceptable_add_length_complaints batch, ?_, Registry.isRegistered_publish.2 (.inr rfl)⟩
  rw [Registry.resultOf]
  simp only [List.isEmpty_iff]

/-- Blank names, types of two tables with one name, and signatures given twice. -/
def strewn : List Implementation :=
  let object := Ty.universal 0
  let other := Ty.universal 1
  [⟨⟨" ", object, []⟩, Body.subject⟩, ⟨⟨"area", object, []⟩, Body.subject⟩,
    ⟨⟨"area", other, []⟩, Body.subject⟩, ⟨⟨"area", object, []⟩, Body.failing "no area"⟩,
    ⟨⟨" ", object, []⟩, Body.subject⟩, ⟨⟨"area", object, [other]⟩, Body.argument 0⟩,
    ⟨⟨"area", object, []⟩, Body.subject⟩]

/-- Of two types with the same name each has its own implementation. -/
theorem batch_validation_strewn :
    (Registry.empty.register ⟨[1]⟩ strewn).value.1 = .partially 3
      [.rejected " (object)" .blankOperation, .rejected "area(object)" .duplicateSignature,
        .rejected " (object)" .blankOperation, .rejected "area(object)" .duplicateSignature] ∧
    ∃ cs, (Registry.empty.register ⟨[1]⟩ strewn).value.2.candidatesOf? ⟨[1]⟩ = some cs ∧
      cs.map Candidate.signature = [⟨"area", .universal 0, []⟩, ⟨"area", .universal 1, []⟩,
        ⟨"area", .universal 0, [.universal 1]⟩] := by
  obtain ⟨⟨cs, hcs, hcontents, -⟩, -, -, -, hresult, -⟩ :=
    batch_validation .empty ⟨[1]⟩ rfl strewn
  have hsignatures : (acceptable strewn).map Implementation.signature =
      [⟨"area", .universal 0, []⟩, ⟨"area", .universal 1, []⟩,
        ⟨"area", .universal 0, [.universal 1]⟩] := by decide
  refine ⟨hresult.trans (by decide), cs, hcs, ?_⟩
  rw [← hsignatures, ← hcontents, List.map_map]
  rfl

end MultiDispatch
