import MultiDispatch.Proofs.Holdings
import MultiDispatch.Proofs.Renumbering
import MultiDispatch.Proofs.Staleness

/-!
# A reset starts over

A reset engine is not the same as a new one over its types. The next candidate gets the number after
the last one that was given, and the cache was cleared once more. Neither shows: a host that resets
its engine is the host with a new engine, renumbered, and from there on the two do the same step by
step.

Candidates from before a reset cannot be confused with those that are registered after it. All
numbers of the former are below the next number at the reset, and none of the latter is.

## Main definitions

* `Host.Answer.renumber`, `Host.renumber`: answers and hosts with candidates renumbered
* `Host.transcript`: what shows of operations, the answers and the events on the way to them
* `Host.renewed`: the host with a new engine over the types of the old one

## Main results

* `Host.step_renumber`, `Host.transcript_renumber`: no operation looks at numbers
* `Host.next_reset_eq`: what a reset makes of a host
* `Host.reset_starts_over`: what is done after a reset is done by a new engine
-/

namespace MultiDispatch

variable {n k : ℕ}

/-! ### Answers -/

/-- The resolved call with the candidates of its outcome renumbered. -/
def Called.renumber (n : ℕ) (x : Called) : Called :=
  { x with outcome := x.outcome.renumber n }

/-- The candidates that an event is about. -/
def Event.named : Event → List Candidate
  | .eliminated candidate _ => [candidate]
  | .resolved _ outcome => outcome.named
  | .ambiguity _ outcome => outcome.named
  | _ => []

namespace Host.Answer

/-- The answer with the numbers of the candidates that it names raised by `n`. -/
def renumber (n : ℕ) : Answer → Answer
  | .outcome o => .outcome (o.renumber n)
  | .called result => .called (result.map (Called.renumber n))
  | .candidates cs => .candidates (cs.map (Candidate.renumber n))
  | .contribution cs => .contribution (cs.map (List.map (Candidate.renumber n)))
  | a => a

/-- The candidates that an answer names. -/
def named : Answer → List Candidate
  | .outcome o => o.named
  | .called (.ok x) => x.outcome.named
  | .candidates cs => cs
  | .contribution (some cs) => cs
  | _ => []

end Host.Answer

theorem Outcome.named_renumber (o : Outcome) :
    (o.renumber n).named = o.named.map (Candidate.renumber n) := by
  cases o <;> rfl

theorem Event.named_renumber (e : Event) :
    (e.renumber n).named = e.named.map (Candidate.renumber n) := by
  cases e with
  | resolved operation outcome => exact outcome.named_renumber
  | ambiguity operation outcome => exact outcome.named_renumber
  | _ => rfl

theorem Host.Answer.named_renumber (a : Host.Answer) :
    (a.renumber n).named = a.named.map (Candidate.renumber n) := by
  cases a with
  | outcome o => exact o.named_renumber
  | called result =>
    cases result with
    | ok x => exact x.outcome.named_renumber
    | error error => rfl
  | contribution cs => cases cs <;> rfl
  | _ => rfl

theorem Op.reply_renumber (outcome : Outcome) (op : Op) :
    op.reply (outcome.renumber n) = (op.reply outcome).renumber n := by
  cases op with
  | call operation subject args =>
    rw [reply, Engine.valueOf_renumber, reply]
    cases Engine.valueOf outcome subject args <;> rfl
  | callValue operation subject args =>
    rw [reply, Engine.valueOf_renumber]
    rfl
  | isCallable operation subject args =>
    rw [reply, Outcome.isMatched_renumber]
    rfl
  | _ => rfl

namespace Host

/-! ### Steps -/

/-- The host with its candidates renumbered, as if its cache had been cleared `k` times more. -/
def renumber (n k : ℕ) (h : Host) : Host :=
  { h with engine := h.engine.renumber n k }

/-- The answer and the host after an operation, both renumbered. -/
def renumberBoth (n k : ℕ) : Answer × Host → Answer × Host :=
  Prod.map (Answer.renumber n) (renumber n k)

/-- Answers that name no candidates stay as they are. -/
theorem withEngine_renumber {α : Type} (h : Host) {answer : α → Answer}
    {result result' : Traced (α × Engine)} (hanswer : ∀ a, (answer a).renumber n = answer a)
    (hresult : result' = result.renumber n (Prod.map id (Engine.renumber n k))) :
    (h.renumber n k).withEngine answer result' =
      (h.withEngine answer result).renumber n (renumberBoth n k) := by
  subst hresult
  refine (Traced.renumber_bind result (Prod.map id (Engine.renumber n k)) fun r => ?_).symm
  exact congrArg (fun a => pure (a, renumber n k { h with engine := r.2 })) (hanswer r.1)

theorem declare_renumber (h : Host) (d : Declaration) :
    (h.renumber n k).declare d = renumberBoth n k (h.declare d) := by
  have htypes : (h.renumber n k).engine.types = h.engine.types := rfl
  rw [declare_eq, htypes, declare_eq]
  cases h.engine.types.declare d <;> rfl

theorem declareIn_renumber (h : Host) (place : ℕ) (d : Declaration) :
    (h.renumber n k).declareIn place d = renumberBoth n k (h.declareIn place d) := by
  have htables : (h.renumber n k).tables = h.tables := rfl
  rw [declareIn, htables, declareIn]
  cases h.tables[place]? with
  | none => rfl
  | some t =>
    dsimp only
    cases t.declare d <;> rfl

/-- **No operation looks at numbers.** -/
theorem step_renumber (h : Host) (op : Op) :
    (h.renumber n k).step op = (h.step op).renumber n (renumberBoth n k) := by
  cases hcall : op.call? with
  | some c =>
    rw [step_eq_of_call? hcall, step_eq_of_call? hcall]
    have hresolve : (h.renumber n k).engine.resolve c = _ := h.engine.resolve_renumber c
    rw [hresolve]
    refine (Traced.renumber_bind (h.engine.resolve c) _ fun r => ?_).symm
    rw [Prod.map_fst, Op.reply_renumber]
    rfl
  | none =>
    cases op with
    | declare d => exact congrArg pure (h.declare_renumber d)
    | declareIn place d => exact congrArg pure (h.declareIn_renumber place d)
    | register module batch =>
      exact h.withEngine_renumber (fun _ => rfl) (h.engine.register_renumber module batch)
    | registerResult module extracted =>
      exact h.withEngine_renumber (fun _ => rfl) (h.engine.registerResult_renumber module extracted)
    | load source =>
      exact h.withEngine_renumber (fun _ => rfl) (h.engine.load_renumber source)
    | loadMany sources =>
      exact h.withEngine_renumber (fun _ => rfl) (h.engine.loadMany_renumber sources)
    | dispatch call =>
      have hresolve : (h.renumber n k).engine.registry.index.resolve call = _ :=
        h.engine.registry.index.resolve_renumber call
      rw [step, hresolve]
      exact (Traced.renumber_bind (h.engine.registry.index.resolve call) (Outcome.renumber n)
        fun _ => rfl).symm
    | candidates operation =>
      have hnamed : (h.renumber n k).engine.candidates operation = _ :=
        h.engine.registry.index.named_renumber operation
      rw [step, hnamed]
      rfl
    | candidatesOf module =>
      have hheld : (h.renumber n k).engine.registry.candidatesOf? module = _ :=
        h.engine.registry.candidatesOf?_renumber module
      rw [step, hheld]
      rfl
    | counts =>
      have hcounts : (h.renumber n k).engine.counts = _ := h.engine.counts_renumber
      rw [step, hcounts]
      rfl
    | openTable | reset => rfl
    | resolve | resolveValues | call | callValue | isCallable => cases hcall

theorem next_renumber (h : Host) (op : Op) :
    (h.renumber n k).next op = (h.next op).renumber n k := by
  rw [next, step_renumber]
  rfl

/-! ### Transcripts -/

/-- What shows of an operation. -/
structure Record where
  answer : Answer
  /-- The events on the way to the answer. -/
  events : List Event

/-- The record with its candidates renumbered. -/
def Record.renumber (n : ℕ) (record : Record) : Record :=
  ⟨record.answer.renumber n, record.events.map (Event.renumber n)⟩

/-- The candidates that a record names. -/
def Record.named (record : Record) : List Candidate :=
  record.answer.named ++ record.events.flatMap Event.named

theorem Record.named_renumber (record : Record) :
    (record.renumber n).named = record.named.map (Candidate.renumber n) := by
  have hevents : (record.events.map (Event.renumber n)).flatMap Event.named =
      (record.events.flatMap Event.named).map (Candidate.renumber n) := by
    rw [List.flatMap_map, List.map_flatMap]
    exact congrArg (List.flatMap · record.events) (funext fun e => e.named_renumber)
  rw [named, renumber, Answer.named_renumber, hevents, named, List.map_append]

/-- What shows of operations, one after the other. -/
def transcript (h : Host) : List Op → List Record
  | [] => []
  | op :: ops => ⟨h.answer op, (h.step op).events⟩ :: (h.next op).transcript ops

/-- What a renumbered host is seen to do is what the host is seen to do, renumbered. -/
theorem transcript_renumber (h : Host) (ops : List Op) :
    (h.renumber n k).transcript ops = (h.transcript ops).map (Record.renumber n) := by
  induction ops generalizing h with
  | nil => rfl
  | cons op ops ih =>
    rw [transcript, answer, step_renumber, next_renumber, ih, transcript, List.map_cons]
    rfl

theorem after_renumber (h : Host) (ops : List Op) :
    (h.renumber n k).after ops = (h.after ops).renumber n k := by
  induction ops generalizing h with
  | nil => rfl
  | cons op ops ih =>
    have hfirst : (h.renumber n k).after (op :: ops) = ((h.renumber n k).next op).after ops := rfl
    rw [hfirst, next_renumber, ih]
    rfl

/-! ### Resetting -/

/-- The host with a new engine over the types of the old one, with the same settings. -/
def renewed (h : Host) : Host :=
  { h with engine := .ofTypes h.engine.settings h.engine.types }

/-- What a reset makes of a host whose cache has the engine's settings. -/
theorem next_reset_eq {h : Host} (hsettings : h.engine.cache.settings = h.engine.settings.cache) :
    h.next .reset = h.renewed.renumber h.engine.registry.issued (h.engine.cache.clearings + 1) := by
  have hcache : h.engine.cache.clear =
      (Cache.create h.engine.settings.cache).renumber h.engine.registry.issued
        (h.engine.cache.clearings + 1) := by
    rw [Cache.clear, hsettings]
    rfl
  change ({ h with engine := _ } : Host) = _
  rw [hcache]
  rfl

theorem settings_next (h : Host) (op : Op) : (h.next op).engine.settings = h.engine.settings := by
  cases hcall : op.call? with
  | some c => rw [next_eq_of_call? hcall, engine_resolve_eq]
  | none =>
    cases hreset : op.isReset with
    | false => exact (grown_next hcall hreset).settings
    | true =>
      obtain rfl := Op.eq_reset hreset
      rfl

/-- An engine and its cache keep their settings. -/
theorem settings_after (settings : Settings) (tables : ℕ) (ops : List Op) :
    ((create settings tables).after ops).engine.settings = settings ∧
      ((create settings tables).after ops).engine.cache.settings = settings.cache := by
  rw [← asOf_length]
  exact ⟨asOf_induction (P := fun h => h.engine.settings = settings) (Nat.zero_le _) rfl
      fun _ op _ _ _ hi => (settings_next _ op).trans hi,
    (tracks_asOf settings tables (Nat.le_refl _)).settings_eq⟩

/-! ### Numbers -/

theorem issued_le_next (h : Host) (op : Op) :
    h.engine.registry.issued ≤ (h.next op).engine.registry.issued := by
  cases hreset : op.isReset with
  | true =>
    obtain rfl := Op.eq_reset hreset
    exact Nat.le_refl _
  | false => exact (later_registry_next hreset).issued_le

/-- Whatever was held at any time has a number below the next one. -/
theorem id_lt_issued (settings : Settings) (tables : ℕ) {ops : List Op} {t : ℕ}
    (ht : t ≤ ops.length) {c : Candidate}
    (hc : c ∈ ((create settings tables).asOf ops t).engine.registry.contributed) :
    c.id < ((create settings tables).after ops).engine.registry.issued := by
  have hthen : c.id < ((create settings tables).asOf ops t).engine.registry.issued :=
    (accounted_after (h := create settings tables) accounted_of_nothing (ops.take t)).inStep.below
      c.id (List.mem_map_of_mem hc)
  have hsince : ((create settings tables).asOf ops t).engine.registry.issued ≤
      ((create settings tables).asOf ops ops.length).engine.registry.issued :=
    asOf_induction (P := fun h => ((create settings tables).asOf ops t).engine.registry.issued ≤
      h.engine.registry.issued) ht (Nat.le_refl _)
      fun _ op _ _ _ hi => hi.trans (issued_le_next _ op)
  rw [asOf_length] at hsince
  exact Nat.lt_of_lt_of_le hthen hsince

/-- **A reset starts over.** Whatever was done before, and whatever is done afterwards, further
resets included: the answers and the events after a reset are those of a new engine with the same
settings over the types that were declared, with the numbers of candidates raised by the next number
at the reset. No candidate from before is among them: the numbers of all that were ever held are
below that number, and of those named after the reset none is. -/
theorem reset_starts_over (settings : Settings) (tables : ℕ) (before later : List Op) :
    let start := create settings tables
    let h := start.after before
    let fresh : Host := { h with engine := .ofTypes settings h.engine.types }
    let n := h.engine.registry.issued
    (h.next .reset).transcript later = (fresh.transcript later).map (Record.renumber n) ∧
    (∃ k, (h.next .reset).after later = (fresh.after later).renumber n k) ∧
    (∀ record ∈ (h.next .reset).transcript later, ∀ c ∈ record.named, n ≤ c.id) ∧
    ∀ t ≤ before.length, ∀ c ∈ (start.asOf before t).engine.registry.contributed, c.id < n := by
  intro start h fresh n
  obtain ⟨hsettings, hcache⟩ := settings_after settings tables before
  have hfresh : h.renewed = fresh := by rw [renewed, hsettings]
  have hreset : h.next .reset = fresh.renumber n (h.engine.cache.clearings + 1) := by
    rw [← hfresh]
    exact next_reset_eq (hcache.trans (congrArg Settings.cache hsettings.symm))
  have htranscript : (h.next .reset).transcript later =
      (fresh.transcript later).map (Record.renumber n) := by
    rw [hreset, transcript_renumber]
  refine ⟨htranscript, ⟨_, by rw [hreset, after_renumber]⟩, fun record hrecord c hc => ?_,
    fun t ht c hc => id_lt_issued settings tables ht hc⟩
  rw [htranscript] at hrecord
  obtain ⟨old, -, rfl⟩ := List.mem_map.1 hrecord
  rw [Record.named_renumber] at hc
  obtain ⟨d, -, rfl⟩ := List.mem_map.1 hc
  exact Nat.le_add_right n d.id

/-- A module that was registered before the reset is accepted again, with a new number. -/
example :
    let host := (create {} 0).after [.register ⟨[1]⟩ [hit], .reset]
    host.transcript [.counts, .candidatesOf ⟨[1]⟩] =
        [⟨.counts ⟨1, 0, 0, ⟨0, 0, 0⟩⟩, []⟩, ⟨.contribution none, []⟩] ∧
      ((host.transcript [.register ⟨[1]⟩ [hit], .candidatesOf ⟨[1]⟩]).flatMap Record.named).map
        Candidate.id = [1] :=
  ⟨rfl, by decide⟩

end Host

end MultiDispatch
