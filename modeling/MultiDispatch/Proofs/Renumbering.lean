import Mathlib.Data.List.InsertIdx
import MultiDispatch.Proofs.Loading
import MultiDispatch.Proofs.ParetoFront
import MultiDispatch.Proofs.ReadThrough

/-!
# Numbers of candidates have no meaning

The number of a candidate tells it apart from others and does nothing else: no decision depends on
it. So whatever is done with candidates whose numbers are all raised by the same amount comes out
the same, with the numbers in the result raised by that amount.

The cache's number of clearings has no meaning either, except that readings compare it with what it
was before. Engines are therefore compared up to both.

## Main definitions

* `Candidate.renumber`, `Outcome.renumber`, `Event.renumber`: numbers raised by some amount
* `Traced.renumber`: a result and the events on the way, renumbered
* `Engine.renumber`: an engine with its candidates renumbered and its clearings raised

## Main results

* `CandidateIndex.resolve_renumber`: resolution does not look at numbers
* `Registry.register_renumber`: nor does registration
* `Engine.resolve_renumber`, `Engine.loadMany_renumber`: nor does the engine
-/

namespace MultiDispatch

variable {n k : ℕ}

/-! ### Candidates, outcomes and events -/

/-- The candidate with its number raised by `n`. -/
def Candidate.renumber (n : ℕ) (c : Candidate) : Candidate :=
  { c with id := n + c.id }

/-- The outcome with the numbers of its candidates raised by `n`. -/
def Outcome.renumber (n : ℕ) : Outcome → Outcome
  | .matched c => .matched (c.renumber n)
  | .unmatched reason => .unmatched reason
  | .ambiguous cs => .ambiguous (cs.map (Candidate.renumber n))

/-- The event with the numbers of the candidates that it is about raised by `n`. -/
def Event.renumber (n : ℕ) : Event → Event
  | .eliminated candidate position => .eliminated (candidate.renumber n) position
  | .resolved operation outcome => .resolved operation (outcome.renumber n)
  | .ambiguity operation outcome => .ambiguity operation (outcome.renumber n)
  | e => e

@[simp] theorem Candidate.signature_renumber (c : Candidate) :
    (c.renumber n).signature = c.signature := rfl

@[simp] theorem Candidate.arity_renumber (c : Candidate) : (c.renumber n).arity = c.arity := rfl

@[simp] theorem Candidate.text_renumber (c : Candidate) : (c.renumber n).text = c.text := rfl

@[simp] theorem Outcome.isAmbiguous_renumber (o : Outcome) :
    (o.renumber n).isAmbiguous = o.isAmbiguous := by
  cases o <;> rfl

@[simp] theorem Outcome.isMatched_renumber (o : Outcome) :
    (o.renumber n).isMatched = o.isMatched := by
  cases o <;> rfl

theorem Engine.valueOf_renumber (o : Outcome) (subject : Option Value)
    (args : List (Option Value)) :
    Engine.valueOf (o.renumber n) subject args = Engine.valueOf o subject args := by
  cases o <;> cases subject <;> rfl

/-! ### Traced results -/

namespace Traced

variable {α α' β β' : Type}

/-- A result changed by `f`, with the numbers in the events raised by `n`. -/
def renumber (n : ℕ) (f : α → α') (x : Traced α) : Traced α' :=
  ⟨f x.value, x.events.map (Event.renumber n)⟩

/-- What goes on alike from corresponding results goes on alike. -/
theorem renumber_bind {g : β → β'} {next : α → Traced β} {next' : α' → Traced β'} (x : Traced α)
    (f : α → α') (h : ∀ a, (next a).renumber n g = next' (f a)) :
    (x >>= next).renumber n g = x.renumber n f >>= next' := by
  have hvalue : next' (f x.value) = (next x.value).renumber n g := (h x.value).symm
  change Traced.mk _ _ = Traced.mk _ _
  rw [events_bind, List.map_append, value_bind]
  change _ = Traced.mk (next' (f x.value)).value
    (x.events.map (Event.renumber n) ++ (next' (f x.value)).events)
  rw [hvalue]
  rfl

theorem renumber_emit_bind {g : β → β'} (events : List Event) (next : Traced β) :
    (emit events >>= fun _ => next).renumber n g =
      emit (events.map (Event.renumber n)) >>= fun _ => next.renumber n g :=
  renumber_bind (emit events) id fun _ => rfl

end Traced

/-! ### The index -/

/-- The bucket with its members renumbered. -/
def Bucket.renumber (n : ℕ) (b : Bucket) : Bucket :=
  { b with members := b.members.map (Candidate.renumber n) }

namespace CandidateIndex

/-- The index with its candidates renumbered. -/
def renumber (n : ℕ) (index : CandidateIndex) : CandidateIndex :=
  ⟨index.buckets.map (Bucket.renumber n)⟩

theorem extend_renumber (operation : String) (arity : ℕ) (added : List Candidate)
    (buckets : List Bucket) :
    extend operation arity (added.map (Candidate.renumber n)) (buckets.map (Bucket.renumber n)) =
      (extend operation arity added buckets).map (Bucket.renumber n) := by
  induction buckets with
  | nil => rfl
  | cons b rest ih =>
    rw [List.map_cons, extend, extend, ih]
    by_cases hb : b.operation = operation ∧ b.arity = arity
    · have hb' : (b.renumber n).operation = operation ∧ (b.renumber n).arity = arity := hb
      rw [if_pos hb, if_pos hb', List.map_cons, Bucket.renumber, Bucket.renumber, List.map_append]
    · have hb' : ¬ ((b.renumber n).operation = operation ∧ (b.renumber n).arity = arity) := hb
      rw [if_neg hb, if_neg hb', List.map_cons]

/-- A batch put into buckets one by one. -/
theorem foldl_extend_renumber (batch : List Candidate) (buckets : List Bucket) :
    (batch.map (Candidate.renumber n)).foldl (fun bs c => extend c.operation c.arity [c] bs)
        (buckets.map (Bucket.renumber n)) =
      (batch.foldl (fun bs c => extend c.operation c.arity [c] bs) buckets).map
        (Bucket.renumber n) := by
  induction batch generalizing buckets with
  | nil => rfl
  | cons c batch ih =>
    rw [List.map_cons, List.foldl_cons, List.foldl_cons, ← ih]
    exact congrArg (List.foldl _ · _) (extend_renumber c.operation c.arity [c] buckets)

theorem group_renumber (batch : List Candidate) :
    group (batch.map (Candidate.renumber n)) = (group batch).map (Bucket.renumber n) :=
  foldl_extend_renumber batch []

/-- Buckets merged one by one. -/
theorem foldl_merge_renumber (added buckets : List Bucket) :
    (added.map (Bucket.renumber n)).foldl (fun bs b => extend b.operation b.arity b.members bs)
        (buckets.map (Bucket.renumber n)) =
      (added.foldl (fun bs b => extend b.operation b.arity b.members bs) buckets).map
        (Bucket.renumber n) := by
  induction added generalizing buckets with
  | nil => rfl
  | cons b added ih =>
    rw [List.map_cons, List.foldl_cons, List.foldl_cons, ← ih]
    exact congrArg (List.foldl _ · _) (extend_renumber b.operation b.arity b.members buckets)

theorem publishAll_renumber (index : CandidateIndex) (batch : List Candidate) :
    (index.renumber n).publishAll (batch.map (Candidate.renumber n)) =
      (index.publishAll batch).renumber n := by
  rw [publishAll, group_renumber]
  exact congrArg CandidateIndex.mk (foldl_merge_renumber (group batch) index.buckets)

theorem bucket_renumber (index : CandidateIndex) (operation : String) (arity : ℕ) :
    (index.renumber n).bucket operation arity =
      (index.bucket operation arity).map (Candidate.renumber n) := by
  have hfind : (index.renumber n).buckets.find? (fun b => b.operation = operation ∧ b.arity = arity)
      = (index.buckets.find? fun b => b.operation = operation ∧ b.arity = arity).map
        (Bucket.renumber n) := List.find?_map
  rw [bucket, hfind, bucket]
  cases index.buckets.find? fun b => b.operation = operation ∧ b.arity = arity <;> rfl

theorem flatMap_members_renumber (buckets : List Bucket) :
    (buckets.map (Bucket.renumber n)).flatMap Bucket.members =
      (buckets.flatMap Bucket.members).map (Candidate.renumber n) := by
  rw [List.flatMap_map, List.map_flatMap]
  rfl

theorem named_renumber (index : CandidateIndex) (operation : String) :
    (index.renumber n).named operation = (index.named operation).map (Candidate.renumber n) := by
  have hfilter : (index.renumber n).buckets.filter (fun b => b.operation = operation) =
      (index.buckets.filter fun b => b.operation = operation).map (Bucket.renumber n) :=
    List.filter_map
  rw [named, hfilter, flatMap_members_renumber, named]
  refine (List.map_mergeSort (f := Candidate.renumber n) fun _ _ _ _ => ?_).symm
  rw [Candidate.arity_renumber, Candidate.arity_renumber]

theorem size_renumber (index : CandidateIndex) : (index.renumber n).size = index.size := by
  have hbuckets : (index.renumber n).buckets = index.buckets.map (Bucket.renumber n) := rfl
  rw [size, hbuckets, flatMap_members_renumber, List.length_map, size]

end CandidateIndex

/-! ### Resolution -/

/-- The fitting candidate, renumbered. -/
def Fit.renumber (n : ℕ) (x : Fit) : Fit :=
  { x with candidate := x.candidate.renumber n }

theorem fits_renumber (positions : List (Option Ty)) (cs : List Candidate) :
    fits positions (cs.map (Candidate.renumber n)) =
      (fits positions cs).renumber n (List.map (Fit.renumber n)) := by
  induction cs with
  | nil => rfl
  | cons c rest ih =>
    rw [List.map_cons, fits, fits, Candidate.signature_renumber, ih]
    cases assess c.signature positions with
    | ok verdicts =>
      exact (Traced.renumber_bind (fits positions rest) (List.map (Fit.renumber n))
        fun _ => rfl).symm
    | error refusal =>
      cases refusal with
      | arity => rfl
      | position i => exact (Traced.renumber_emit_bind [.eliminated c i] _).symm

theorem winner?_renumber (found : List Fit) :
    winner? (found.map (Fit.renumber n)) = (winner? found).map (Fit.renumber n) := by
  rw [winner?, List.zipIdx_map, List.find?_map, winner?, Option.map_map, Option.map_map]
  -- Whether a candidate dominates the others is decided by the verdicts.
  have hbest : ((fun p : Fit × ℕ => ((found.map (Fit.renumber n)).eraseIdx p.2).all fun other =>
        dominates p.1.verdicts other.verdicts) ∘ Prod.map (Fit.renumber n) id) =
      fun p : Fit × ℕ => (found.eraseIdx p.2).all fun other =>
        dominates p.1.verdicts other.verdicts := by
    funext p
    rw [Function.comp_apply, Prod.map_snd, id_eq, List.eraseIdx_map, List.all_map]
    rfl
  rw [hbest]
  rfl

theorem undominated_renumber (found : List Fit) :
    undominated (found.map (Fit.renumber n)) = (undominated found).map (Fit.renumber n) := by
  rw [undominated, List.filter_map, undominated]
  refine congrArg _ (List.filter_congr fun a _ => ?_)
  simp only [Function.comp_apply, List.any_map]
  rfl

theorem sortByText_renumber (cs : List Candidate) :
    sortByText (cs.map (Candidate.renumber n)) = (sortByText cs).map (Candidate.renumber n) := by
  refine (List.map_mergeSort (f := Candidate.renumber n) fun _ _ _ _ => ?_).symm
  rw [Candidate.text_renumber, Candidate.text_renumber]

theorem select_renumber (found : List Fit) :
    select (found.map (Fit.renumber n)) = (select found).renumber n := by
  match found with
  | [] => rfl
  | [only] => rfl
  | a :: b :: rest =>
    have hwinner := winner?_renumber (n := n) (a :: b :: rest)
    have hundominated := undominated_renumber (n := n) (a :: b :: rest)
    rw [List.map_cons, List.map_cons] at hwinner hundominated ⊢
    rw [select_cons_cons, select_cons_cons, hwinner]
    cases winner? (a :: b :: rest) with
    | some best => rfl
    | none =>
      have hcandidates : ∀ xs : List Fit, (xs.map (Fit.renumber n)).map Fit.candidate =
          (xs.map Fit.candidate).map (Candidate.renumber n) := by
        intro xs
        rw [List.map_map, List.map_map]
        rfl
      rw [Option.map_none, hundominated, hcandidates, sortByText_renumber]
      rfl

/-- **Resolution does not look at numbers.** -/
theorem CandidateIndex.resolve_renumber (index : CandidateIndex) (call : Call) :
    (index.renumber n).resolve call = (index.resolve call).renumber n (Outcome.renumber n) := by
  rw [resolve, resolve, bucket_renumber]
  cases call.subject with
  | none => rfl
  | some subject =>
    cases index.bucket call.operation call.arity with
    | nil => rfl
    | cons c cs =>
      have hfits := fits_renumber (n := n) call.positions (c :: cs)
      rw [List.map_cons] at hfits ⊢
      dsimp only
      rw [hfits]
      refine (Traced.renumber_bind _ _ fun found => ?_).symm
      rw [select_renumber]
      rfl

/-! ### Registration -/

theorem number_renumber (first : ℕ) (xs : List Implementation) :
    number (n + first) xs = (number first xs).map (Candidate.renumber n) := by
  rw [number, number, List.map_map]
  refine List.map_congr_left fun p _ => ?_
  rw [Nat.add_assoc]
  rfl

namespace Registry

/-- The registry with its candidates renumbered, and the next number to match. -/
def renumber (n : ℕ) (r : Registry) : Registry where
  modules := r.modules.map fun m => (m.1, m.2.map (Candidate.renumber n))
  index := r.index.renumber n
  issued := n + r.issued

theorem candidatesOf?_renumber (r : Registry) (module : ModuleId) :
    (r.renumber n).candidatesOf? module =
      (r.candidatesOf? module).map (List.map (Candidate.renumber n)) := by
  have hfind : (r.renumber n).modules.find? (fun m => m.1 = module) =
      (r.modules.find? fun m => m.1 = module).map
        fun m => (m.1, m.2.map (Candidate.renumber n)) := List.find?_map
  rw [candidatesOf?, hfind, candidatesOf?, Option.map_map, Option.map_map]
  rfl

theorem isRegistered_renumber (r : Registry) (module : ModuleId) :
    (r.renumber n).isRegistered module = r.isRegistered module := by
  rw [isRegistered, candidatesOf?_renumber, Option.isSome_map, isRegistered]

theorem size_renumber (r : Registry) : (r.renumber n).size = r.size :=
  List.length_map _

theorem publish_renumber (r : Registry) (module : ModuleId) (cs : List Candidate) :
    (r.renumber n).publish module (cs.map (Candidate.renumber n)) =
      (r.publish module cs).renumber n := by
  have hmodules : (r.renumber n).modules ++ [(module, cs.map (Candidate.renumber n))] =
      ((r.publish module cs).renumber n).modules := by
    change _ = (r.modules ++ [(module, cs)]).map fun m => (m.1, m.2.map (Candidate.renumber n))
    rw [List.map_append]
    rfl
  have hindex : (r.renumber n).index.publishAll (cs.map (Candidate.renumber n)) =
      (r.index.publishAll cs).renumber n := r.index.publishAll_renumber cs
  have hissued : (r.renumber n).issued + cs.length = n + (r.issued + cs.length) :=
    Nat.add_assoc n r.issued cs.length
  rw [publish, hmodules, hindex, List.length_map, hissued]
  rfl

/-- **Registration does not look at numbers.** -/
theorem register_renumber (r : Registry) (module : ModuleId) (batch : List Implementation) :
    (r.renumber n).register module batch =
      (r.register module batch).renumber n (Prod.map id (renumber n)) := by
  rw [register, isRegistered_renumber, register]
  cases r.isRegistered module with
  | true => rfl
  | false =>
    have hfaulty : ((screen batch).2.map (Event.faulty module)).map (Event.renumber n) =
        (screen batch).2.map (Event.faulty module) := List.map_map ..
    have hpublish : (r.renumber n).publish module (number (r.renumber n).issued (screen batch).1) =
        (r.publish module (number r.issued (screen batch).1)).renumber n := by
      rw [← publish_renumber, ← number_renumber]
      rfl
    simp only [Bool.false_eq_true, if_false, hpublish, Traced.renumber_emit_bind, hfaulty]
    rfl

theorem registerResult_renumber (r : Registry) (module : ModuleId)
    (extracted : Except RegistrationError (List Implementation)) :
    (r.renumber n).registerResult module extracted =
      (r.registerResult module extracted).renumber n (Prod.map id (renumber n)) := by
  cases extracted with
  | ok batch => exact r.register_renumber module batch
  | error error => rfl

end Registry

/-! ### The cache -/

namespace Cache

/-- The cache with the candidates of its outcomes renumbered, as if cleared `k` times more. -/
def renumber (n k : ℕ) (c : Cache) : Cache :=
  { c with
    entries := c.entries.map fun entry => (entry.1, entry.2.renumber n)
    clearings := k + c.clearings }

theorem find?_renumber (c : Cache) (key : CallKey) :
    (c.renumber n k).find? key = (c.find? key).map (Outcome.renumber n) := by
  have hfind : (c.renumber n k).entries.find? (fun entry => entry.1 = key) =
      (c.entries.find? fun entry => entry.1 = key).map
        fun entry => (entry.1, entry.2.renumber n) := List.find?_map
  rw [find?, hfind, find?, Option.map_map, Option.map_map]
  rfl

theorem size_renumber (c : Cache) : (c.renumber n k).size = c.size :=
  List.length_map _

theorem keep_renumber (c : Cache) (key : CallKey) (outcome : Outcome) :
    (c.renumber n k).keep key (outcome.renumber n) = (c.keep key outcome).renumber n k := by
  have hcapacity : (c.renumber n k).settings.capacity = c.settings.capacity := rfl
  rw [keep, size_renumber, hcapacity, keep]
  split
  · rfl
  · change Cache.mk _ _ _ _ _ = Cache.mk _ _ _ _ _
    rw [List.map_append]
    rfl

end Cache

/-! ### The engine -/

namespace Engine

/-- The engine with its candidates renumbered, as if its cache had been cleared `k` times more. -/
def renumber (n k : ℕ) (e : Engine) : Engine :=
  { e with registry := e.registry.renumber n, cache := e.cache.renumber n k }

theorem counts_renumber (e : Engine) : (e.renumber n k).counts = e.counts := by
  change EngineCounts.mk e.types.size (e.registry.renumber n).size
    (e.registry.index.renumber n).size
    ⟨(e.cache.renumber n k).size, e.cache.hits, e.cache.misses⟩ = _
  rw [Registry.size_renumber, CandidateIndex.size_renumber, Cache.size_renumber]
  rfl

theorem withRegistry_renumber {α : Type} (e : Engine) (result : Traced (α × Registry)) :
    (e.renumber n k).withRegistry (result.renumber n (Prod.map id (Registry.renumber n))) =
      (e.withRegistry result).renumber n (Prod.map id (renumber n k)) :=
  (Traced.renumber_bind result (Prod.map id (Registry.renumber n)) fun _ => rfl).symm

theorem register_renumber (e : Engine) (module : ModuleId) (batch : List Implementation) :
    (e.renumber n k).register module batch =
      (e.register module batch).renumber n (Prod.map id (renumber n k)) := by
  rw [register, register, ← withRegistry_renumber, ← Registry.register_renumber]
  rfl

theorem registerResult_renumber (e : Engine) (module : ModuleId)
    (extracted : Except RegistrationError (List Implementation)) :
    (e.renumber n k).registerResult module extracted =
      (e.registerResult module extracted).renumber n (Prod.map id (renumber n k)) := by
  rw [registerResult, registerResult, ← withRegistry_renumber, ← Registry.registerResult_renumber]
  rfl

theorem load_renumber (e : Engine) (source : Source) :
    (e.renumber n k).load source = (e.load source).renumber n (Prod.map id (renumber n k)) := by
  have hregistered : (e.renumber n k).registry.isRegistered source.module =
      e.registry.isRegistered source.module := e.registry.isRegistered_renumber source.module
  cases h : e.registry.isRegistered source.module with
  | true =>
    rw [load_of_registered h, load_of_registered (hregistered.trans h)]
    rfl
  | false =>
    rw [load_of_unregistered h, load_of_unregistered (hregistered.trans h)]
    exact registerResult_renumber { e with types := (source.extraction.run e.types).2 } _ _

theorem loadEach_renumber (e : Engine) (sources : List Source) :
    (e.renumber n k).loadEach sources =
      (e.loadEach sources).renumber n (Prod.map id (renumber n k)) := by
  induction sources generalizing e with
  | nil => rfl
  | cons source rest ih =>
    rw [loadEach, load_renumber, loadEach]
    refine (Traced.renumber_bind (e.load source) (Prod.map id (renumber n k)) fun r => ?_).symm
    have hrest := ih r.2
    change _ = (r.2.renumber n k).loadEach rest >>= fun rs =>
      pure ((source.module, r.1) :: rs.1, rs.2)
    rw [hrest]
    exact Traced.renumber_bind (r.2.loadEach rest) (Prod.map id (renumber n k)) fun _ => rfl

theorem loadMany_renumber (e : Engine) (sources : List Source) :
    (e.renumber n k).loadMany sources =
      (e.loadMany sources).renumber n (Prod.map id (renumber n k)) := by
  rw [loadMany, loadEach_renumber, loadMany]
  refine (Traced.renumber_bind (e.loadEach sources) (Prod.map id (renumber n k)) fun r => ?_).symm
  dsimp only [Prod.map_fst, Prod.map_snd, id_eq]
  split <;> rfl

theorem resolveAfresh_renumber (e : Engine) (call : Call) :
    (e.renumber n k).resolveAfresh call =
      (e.resolveAfresh call).renumber n (Outcome.renumber n) := by
  have hresolve : (e.renumber n k).registry.index.resolve call =
      (e.registry.index.resolve call).renumber n (Outcome.renumber n) :=
    e.registry.index.resolve_renumber call
  rw [resolveAfresh, hresolve, resolveAfresh]
  refine (Traced.renumber_bind (e.registry.index.resolve call) (Outcome.renumber n)
    fun outcome => ?_).symm
  rw [Outcome.isAmbiguous_renumber]
  change _ = Traced.emit [.resolved call.operation (outcome.renumber n)] >>= fun _ =>
    if e.settings.logAmbiguity && outcome.isAmbiguous then _ else _
  split <;> rfl

/-- **The engine does not look at numbers.** Nor does it matter how often the cache was cleared. -/
theorem resolve_renumber (e : Engine) (call : Call) :
    (e.renumber n k).resolve call =
      (e.resolve call).renumber n (Prod.map (Outcome.renumber n) (renumber n k)) := by
  cases hs : call.subject with
  | none =>
    rw [resolve_of_null hs, resolve_of_null hs]
    rfl
  | some subject =>
    have hsubject : call.subject.isSome = true := by rw [hs, Option.isSome_some]
    cases hon : e.cache.settings.enabled with
    | false =>
      rw [resolve_of_disabled hsubject hon, resolve_of_disabled (e := e.renumber n k) hsubject hon,
        resolveAfresh_renumber]
      exact (Traced.renumber_bind (e.resolveAfresh call) (Outcome.renumber n) fun _ => rfl).symm
    | true =>
      have hfind' : (e.renumber n k).cache.find? call.key =
          (e.cache.find? call.key).map (Outcome.renumber n) := e.cache.find?_renumber call.key
      cases hfind : e.cache.find? call.key with
      | some kept =>
        rw [hfind, Option.map_some] at hfind'
        rw [resolve_of_hit hsubject hon hfind,
          resolve_of_hit (e := e.renumber n k) hsubject hon hfind']
        rfl
      | none =>
        rw [hfind, Option.map_none] at hfind'
        rw [resolve_of_miss hsubject hon hfind,
          resolve_of_miss (e := e.renumber n k) hsubject hon hfind', resolveAfresh_renumber]
        refine (Traced.renumber_bind (e.resolveAfresh call) (Outcome.renumber n)
          fun outcome => ?_).symm
        have hkeep : (e.renumber n k).cache.countMiss.keep call.key (outcome.renumber n) =
            (e.cache.countMiss.keep call.key outcome).renumber n k :=
          Cache.keep_renumber e.cache.countMiss call.key outcome
        rw [hkeep]
        rfl

end Engine

end MultiDispatch
