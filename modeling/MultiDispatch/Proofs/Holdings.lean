import Mathlib.Algebra.GroupWithZero.Nat
import Mathlib.Data.List.DropRight
import MultiDispatch.Proofs.Histories
import MultiDispatch.Proofs.Offers

/-!
# What an engine holds

The modules of an engine and its index are kept apart, and there are four ways to register modules
and one to forget them. Whichever are used, and in whatever order, the state of both follows from
the offers that were made since the last reset: of the first offer for each module what was
accepted is held by the module, and the index holds that in the same order.

Only what can be read is offered. A source whose module is registered is not even read, and one that
cannot be read offers nothing, so that its module may still be registered by a later offer.

## Main definitions

* `Op.offers`: what an operation offers to an engine
* `Registry.Takes`: a registry after offers, with so many candidates accepted
* `Host.sinceReset`: the operations since the last reset, with the hosts that performed them
* `Host.Accounted`: a registry that follows from offers

## Main results

* `Host.takes_next`: what an operation does to the registry, and that its answer says so
* `Host.accounted_after`: the registry follows from the offers since the last reset
* `Host.registry_matches_index`: what the modules and the index hold in every state
-/

namespace MultiDispatch

/-! ### What is offered -/

/-- What the result of an extraction offers. -/
def offersOfResult (module : ModuleId) :
    Except RegistrationError (List Implementation) → List Offer
  | .ok batch => [⟨module, batch⟩]
  | .error _ => []

namespace Engine

/-- What a source offers. It is not read if its module is registered. -/
def offersOf (e : Engine) (source : Source) : List Offer :=
  if e.registry.isRegistered source.module then []
  else offersOfResult source.module (source.extraction.run e.types).1

/-- What sources offer that are loaded one after the other. -/
def offersOfEach (e : Engine) : List Source → List Offer
  | [] => []
  | source :: rest => e.offersOf source ++ (e.load source).value.2.offersOfEach rest

end Engine

/-- What an operation offers to an engine. -/
def Op.offers (e : Engine) : Op → List Offer
  | .register module batch => [⟨module, batch⟩]
  | .registerResult module extracted => offersOfResult module extracted
  | .load source => e.offersOf source
  | .loadMany sources => e.offersOfEach sources
  | _ => []

theorem Op.offers_eq_nil {op : Op} (h : op.registers = false) (e : Engine) : op.offers e = [] := by
  cases op <;> first | rfl | cases h

/-! ### What is taken -/

namespace Registry

variable {r r' r'' : Registry} {os os' : List Offer} {n n' : ℕ}

/-- `r'` is `r` after offers, with `n` candidates accepted. -/
structure Takes (r : Registry) (os : List Offer) (n : ℕ) (r' : Registry) : Prop where
  considered : r' = r.considerEach os
  size : r'.index.size = r.index.size + n

theorem Takes.refl (r : Registry) : r.Takes [] 0 r := ⟨rfl, rfl⟩

theorem Takes.trans (h : r.Takes os n r') (h' : r'.Takes os' n' r'') :
    r.Takes (os ++ os') (n + n') r'' := by
  refine ⟨?_, ?_⟩
  · rw [h'.considered, h.considered, considerEach_append]
  · rw [h'.size, h.size, Nat.add_assoc]

theorem takes_register (r : Registry) (module : ModuleId) (batch : List Implementation) :
    r.Takes [⟨module, batch⟩] (r.register module batch).value.1.accepted
      (r.register module batch).value.2 := by
  refine ⟨rfl, ?_⟩
  rcases r.register_cases module batch with ⟨-, hr⟩ | ⟨-, hr⟩
  · rw [hr]
    rfl
  · rw [hr, accepted_resultOf, publish, CandidateIndex.size_publishAll, length_number]

theorem takes_registerResult (r : Registry) (module : ModuleId)
    (extracted : Except RegistrationError (List Implementation)) :
    r.Takes (offersOfResult module extracted) (r.registerResult module extracted).value.1.accepted
      (r.registerResult module extracted).value.2 := by
  cases extracted with
  | ok batch => exact r.takes_register module batch
  | error _ => exact .refl r

end Registry

namespace Engine

theorem takes_load (e : Engine) (source : Source) :
    e.registry.Takes (e.offersOf source) (e.load source).value.1.accepted
      (e.load source).value.2.registry := by
  cases h : e.registry.isRegistered source.module with
  | true =>
    rw [load_of_registered h, offersOf, if_pos h]
    exact .refl e.registry
  | false =>
    rw [load_of_unregistered h, offersOf, h]
    exact e.registry.takes_registerResult source.module (source.extraction.run e.types).1

theorem takes_loadEach (e : Engine) (sources : List Source) :
    e.registry.Takes (e.offersOfEach sources)
      (LoadSummary.mk (e.loadEach sources).value.1).accepted
      (e.loadEach sources).value.2.registry := by
  induction sources generalizing e with
  | nil => exact .refl e.registry
  | cons source rest ih => exact (takes_load e source).trans (ih _)

theorem takes_loadMany (e : Engine) (sources : List Source) :
    e.registry.Takes (e.offersOfEach sources) (e.loadMany sources).value.1.accepted
      (e.loadMany sources).value.2.registry := by
  rw [value_loadMany]
  exact e.takes_loadEach sources

end Engine

namespace Host

variable {h : Host} {op : Op} {ops : List Op} {os : List Offer} {n : ℕ}

/-- **What an operation does to the registry is what it offers**, and its answer says how many
candidates were accepted. -/
theorem takes_next (hreset : op.isReset = false) :
    h.engine.registry.Takes (op.offers h.engine) (h.answer op).accepted
      (h.next op).engine.registry := by
  cases hregisters : op.registers with
  | false =>
    obtain ⟨hregistry, haccepted⟩ := registry_next_of_not_registers (h := h) hregisters hreset
    rw [hregistry, haccepted, Op.offers_eq_nil hregisters]
    exact .refl h.engine.registry
  | true =>
    cases op with
    | register module batch => exact h.engine.registry.takes_register module batch
    | registerResult module extracted =>
      exact h.engine.registry.takes_registerResult module extracted
    | load source => exact h.engine.takes_load source
    | loadMany sources => exact h.engine.takes_loadMany sources
    | _ => cases hregisters

/-! ### Since the last reset -/

/-- Operations, each with the host that performs it. -/
def performed (h : Host) : List Op → List (Host × Op)
  | [] => []
  | op :: ops => (h, op) :: (h.next op).performed ops

theorem performed_concat (h : Host) (ops : List Op) (op : Op) :
    h.performed (ops ++ [op]) = h.performed ops ++ [(h.after ops, op)] := by
  induction ops generalizing h with
  | nil => rfl
  | cons first rest ih => exact congrArg (List.cons (h, first)) (ih (h.next first))

/-- The operations after the last reset, each with the host that performs it. -/
def sinceReset (h : Host) (ops : List Op) : List (Host × Op) :=
  (h.performed ops).rtakeWhile fun p => !p.2.isReset

/-- What was offered since the last reset. -/
def offers (h : Host) (ops : List Op) : List Offer :=
  (h.sinceReset ops).flatMap fun p => p.2.offers p.1.engine

/-- How many candidates were accepted since the last reset, according to the answers. -/
def accepted (h : Host) (ops : List Op) : ℕ :=
  ((h.sinceReset ops).map fun p => (p.1.answer p.2).accepted).sum

theorem sinceReset_concat (h : Host) (ops : List Op) (op : Op) :
    h.sinceReset (ops ++ [op]) =
      if op.isReset then [] else h.sinceReset ops ++ [(h.after ops, op)] := by
  rw [sinceReset, performed_concat, List.rtakeWhile_concat]
  cases op.isReset <;> rfl

/-- The registry follows from offers: modules, index and numbers are in step, and there are as many
candidates as were accepted. -/
structure Accounted (r : Registry) (os : List Offer) (n : ℕ) : Prop where
  consistent : r.Consistent
  inStep : r.InStep
  holds : r.Holds os
  size : r.index.size = n

theorem accounted_of_nothing {issued : ℕ} : Accounted ⟨[], .empty, issued⟩ [] 0 :=
  ⟨Registry.consistent_of_modules_eq_nil, Registry.inStep_of_nothing, Registry.holds_nil rfl, rfl⟩

theorem Accounted.takes {r r' : Registry} {os' : List Offer} {n' : ℕ} (ha : Accounted r os n)
    (htakes : r.Takes os' n' r') : Accounted r' (os ++ os') (n + n') := by
  have hsize : r'.index.size = n + n' := by rw [htakes.size, ha.size]
  rw [htakes.considered] at hsize ⊢
  exact ⟨(r.later_considerEach os').consistent ha.consistent,
    Registry.considerEach_induction ha.inStep fun _ o hr => hr.consider o,
    ha.holds.considerEach os', hsize⟩

/-- **The registry follows from the offers since the last reset.** -/
theorem accounted_after (hstart : Accounted h.engine.registry [] 0) (ops : List Op) :
    Accounted (h.after ops).engine.registry (h.offers ops) (h.accepted ops) := by
  induction ops using List.reverseRecOn with
  | nil => exact hstart
  | append_singleton ops op ih =>
    -- A reset starts over; whatever else comes last adds what it offers.
    rw [after_concat, offers, accepted, sinceReset_concat]
    cases hreset : op.isReset with
    | true =>
      obtain rfl := Op.eq_reset hreset
      exact accounted_of_nothing
    | false =>
      have htaken := ih.takes (takes_next (h := h.after ops) hreset)
      simpa [offers, accepted] using htaken

theorem later_registry_after (hkept : ∀ op ∈ ops, op.isReset = false) :
    h.engine.registry.Later (h.after ops).engine.registry := by
  induction ops generalizing h with
  | nil => exact .refl
  | cons op ops ih =>
    exact (later_registry_next (hkept op List.mem_cons_self)).trans
      (ih fun op' hop' => hkept op' (List.mem_cons_of_mem _ hop'))

/-- **The modules and the index hold the same, in every state.** A module is registered if and only
if it was offered since the last reset. Each bucket has what belongs in it of the modules' lists, in
the order in which they were first offered, and nothing twice; the index is as large as these lists
together, and as the answers said. What a module holds is part of the batch it was first offered
with, in the order of the batch and with all its visible signatures; it has visible names and
different signatures, and stays what it is until the next reset. -/
theorem registry_matches_index (settings : Settings) (tables : ℕ) (ops : List Op) :
    let start := create settings tables
    let r := (start.after ops).engine.registry
    let modules := ((start.offers ops).map Offer.module).eraseDups
    (∀ operation arity,
      r.index.bucket operation arity =
          (modules.flatMap r.held).filter (Candidate.belongs operation arity) ∧
        ((r.index.bucket operation arity).map Candidate.id).Nodup) ∧
    (r.index.size = (modules.map fun m => (r.held m).length).sum ∧
      r.index.size = start.accepted ops) ∧
    (∀ m, (r.isRegistered m = true ↔ m ∈ modules) ∧
      (r.isRegistered m = true ↔ ∃ cs, r.candidatesOf? m = some cs)) ∧
    ∀ m cs, r.candidatesOf? m = some cs →
      (∃ o, (start.offers ops).find? (fun o => o.module = m) = some o ∧
        (cs.map Candidate.implementation).Sublist o.batch ∧
        ∀ x ∈ o.batch, Text.isBlank x.signature.operation = false →
          ∃ c ∈ cs, c.signature.same x.signature = true) ∧
      (∀ c ∈ cs, Text.isBlank c.operation = false) ∧
      cs.Pairwise (fun c d => c.signature.same d.signature = false) ∧
      ∀ later, (∀ op ∈ later, op.isReset = false) →
        (start.after (ops ++ later)).engine.registry.candidatesOf? m = some cs := by
  intro start r modules
  have ha : Accounted r (start.offers ops) (start.accepted ops) := accounted_after
    (h := start) accounted_of_nothing ops
  have hcontributed : r.contributed = modules.flatMap r.held := by
    rw [ha.consistent.contributed_eq, ha.holds.order]
  refine ⟨fun operation arity => ⟨?_, ha.inStep.nodup_bucket ha.consistent operation arity⟩,
    ⟨?_, ha.size⟩, fun m => ⟨ha.holds.isRegistered_iff_mem, Registry.isRegistered_iff⟩,
    fun m cs hcs => ?_⟩
  · rw [ha.consistent.buckets, hcontributed]
  · rw [ha.inStep.size, hcontributed, List.length_flatMap]
  · have hmem : (m, cs) ∈ r.modules := ha.consistent.candidatesOf?_eq_some_iff.1 hcs
    obtain ⟨o, hfirst, hcontents⟩ := ha.holds.contents (m, cs) hmem
    have hscreened := ha.inStep.screened (m, cs) hmem
    refine ⟨⟨o, hfirst, ?_, fun x hx hnamed => ?_⟩, fun c hc => ?_, ?_, fun later hlater => ?_⟩
    · rw [hcontents]
      exact sublist_screen o.batch
    · obtain ⟨a, ha, hsame⟩ : ∃ a ∈ cs.map Candidate.implementation,
          a.signature.same x.signature = true := by
        rw [hcontents]
        exact exists_same_screenAfter hx hnamed
      obtain ⟨c, hc, rfl⟩ := List.mem_map.1 ha
      exact ⟨c, hc, hsame⟩
    · exact hscreened.named c.implementation (List.mem_map_of_mem hc)
    · exact List.pairwise_map.1 hscreened.distinct
    · rw [after, List.foldl_append]
      exact (later_registry_after hlater).candidatesOf?_eq hcs

/-- An implementation with a visible name. -/
def hit : Implementation :=
  ⟨⟨"hit", .universal 0, []⟩, Body.subject⟩

/-- A reset, a batch that is accepted in part and offered once more, and a module that can be read
only at the second attempt. -/
def mixedHistory : List Op :=
  [.register ⟨[1]⟩ [hit], .reset,
    .register ⟨[2]⟩ [⟨⟨" ", .universal 0, []⟩, Body.subject⟩, hit, hit],
    .load ⟨⟨[3]⟩, .done (.error (.extraction ⟨[3]⟩ "no such file"))⟩,
    .register ⟨[2]⟩ [hit], .registerResult ⟨[3]⟩ (.ok [hit])]

/-- Numbers go on after the reset. -/
example :
    let start := create {} 0
    (start.offers mixedHistory).map Offer.module = [⟨[2]⟩, ⟨[2]⟩, ⟨[3]⟩] ∧
      start.accepted mixedHistory = 2 ∧
      ((start.after mixedHistory).engine.registry.index.bucket "hit" 1).map Candidate.id =
        [1, 2] := by
  decide

end Host

end MultiDispatch
