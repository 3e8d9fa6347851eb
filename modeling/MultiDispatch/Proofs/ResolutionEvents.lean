import MultiDispatch.Proofs.Accounting
import MultiDispatch.Proofs.Eliminations
import MultiDispatch.Proofs.Reset

/-!
# What is reported of a resolution

Three layers report on a resolution. The filter reports which candidates are out, the engine reports
the outcome and warns of an ambiguous one, and the cache reports nothing, but decides whether the
other two come to speak at all. Together they report a resolution in full or not at all.

So what is reported of a call depends on what was resolved before. A key that the cache has room for
is found from its second resolution on, and nothing is reported of it any more; whatever is
registered meanwhile, a warning of it comes once at most until the engine is reset. A key that came
too late to be kept is reported every time.

## Main definitions

* `Cache.held?`: the outcome that the cache answers with
* `Announced`: a full report
* `Host.warnings`: how often a key was warned of since the last reset

## Main results

* `Engine.resolve_of_held`, `Engine.resolve_of_not_held`: no report, or a full one
* `Host.held_iff`: what the cache answers, by the history
* `Host.warnings_concat`: what one operation adds to the warnings
* `Host.warnings_le_one`: a key that is kept is warned of once at most
* `Host.events_by_history`: the reports of every run
-/

namespace MultiDispatch

/-- Whether an event warns of an ambiguous call. -/
def Event.isAmbiguity : Event → Bool
  | .ambiguity _ _ => true
  | _ => false

/-- The outcome that a cache answers with instead of a resolution, none if it is not enabled. -/
def Cache.held? (c : Cache) (key : CallKey) : Option Outcome :=
  if c.settings.enabled then c.find? key else none

/-- The report of a call that is resolved: which candidates of the bucket it does not fit, the
outcome, and a warning if it is ambiguous and one is wanted. -/
def Announced (warns : Bool) (bucket : List Candidate) (call : Call) (outcome : Outcome)
    (events : List Event) : Prop :=
  ∃ eliminations, Eliminates call.positions bucket eliminations ∧
    events = eliminations ++ .resolved call.operation outcome ::
      if warns && outcome.isAmbiguous then [.ambiguity call.operation outcome] else []

variable {warns : Bool} {bucket : List Candidate} {call : Call} {outcome kept : Outcome}
  {events : List Event}

/-- Eliminations are no warnings. -/
theorem Eliminates.countP_isAmbiguity {positions : List (Option Ty)}
    (h : Eliminates positions bucket events) : events.countP Event.isAmbiguity = 0 := by
  rw [Eliminates] at h
  generalize (bucket.filter fun c => ¬ Accepts positions c.signature) = out at h
  induction h with
  | nil => rfl
  | cons hreport _ ih =>
    obtain ⟨i, -, rfl⟩ := hreport
    rw [List.countP_cons_of_neg Bool.false_ne_true, ih]

/-- A report warns once at most. -/
theorem Announced.countP_isAmbiguity_le (h : Announced warns bucket call outcome events) :
    events.countP Event.isAmbiguity ≤ 1 := by
  obtain ⟨eliminations, helim, rfl⟩ := h
  rw [List.countP_append, helim.countP_isAmbiguity, List.countP_cons_of_neg Bool.false_ne_true]
  split_ifs
  · exact Nat.le_refl 1
  · exact Nat.zero_le 1

/-! ### Kept keys -/

namespace Op

variable {capacity : ℕ} {ops : List Op} {op : Op} {k : CallKey}

/-- A key comes to be one of the first keys only by being resolved. -/
theorem mem_keptKeys_of_concat (hreset : op.isReset = false) (hkey : op.key? ≠ some k)
    (hmem : k ∈ keptKeys capacity (ops ++ [op])) : k ∈ keptKeys capacity ops := by
  cases hother : op.key? with
  | none =>
    rwa [keptKeys, distinctKeys, resolvedKeys_concat ops hreset, hother, Option.toList_none,
      List.append_nil] at hmem
  | some other =>
    by_cases hknown : other ∈ resolvedKeys ops
    · rwa [keptKeys, distinctKeys_concat_of_mem hreset hother hknown] at hmem
    · rw [keptKeys, distinctKeys_concat_of_notMem hreset hother hknown, List.take_append,
        List.mem_append] at hmem
      refine hmem.resolve_right fun hlast => hkey ?_
      rw [hother, List.mem_singleton.1 (List.mem_of_mem_take hlast)]

/-- A key that becomes one of the first keys was not resolved before. -/
theorem notMem_resolvedKeys_of_concat (hreset : op.isReset = false) (hkey : op.key? = some k)
    (habsent : k ∉ keptKeys capacity ops) (hmem : k ∈ keptKeys capacity (ops ++ [op])) :
    k ∉ resolvedKeys ops := by
  intro hknown
  rw [keptKeys, distinctKeys_concat_of_mem hreset hkey hknown] at hmem
  exact habsent hmem

end Op

/-! ### The engine -/

namespace Engine

variable {e : Engine}

theorem events_resolveAfresh (e : Engine) (call : Call) :
    (e.resolveAfresh call).events = (e.registry.index.resolve call).events ++
      .resolved call.operation (e.resolveAfresh call).value ::
        if e.settings.logAmbiguity && (e.resolveAfresh call).value.isAmbiguous then
          [.ambiguity call.operation (e.resolveAfresh call).value] else [] := by
  rw [value_resolveAfresh, resolveAfresh]
  simp only [Traced.events_bind]
  split <;> rfl

theorem announced_resolveAfresh (hconsistent : e.registry.Consistent)
    (hsubject : call.subject.isSome = true) :
    Announced e.settings.logAmbiguity (e.registry.index.bucket call.operation call.arity) call
      (e.resolveAfresh call).value (e.resolveAfresh call).events :=
  ⟨_, eliminates_resolve hconsistent hsubject, e.events_resolveAfresh call⟩

/-- What the cache answers is not reported. -/
theorem resolve_of_held (hsubject : call.subject.isSome = true)
    (hheld : e.cache.held? call.key = some kept) :
    (e.resolve call).value.1 = kept ∧ (e.resolve call).events = [] := by
  rw [Cache.held?] at hheld
  split_ifs at hheld with hon
  rw [resolve_of_hit hsubject hon hheld]
  exact ⟨rfl, rfl⟩

/-- What the cache does not answer is reported in full. -/
theorem resolve_of_not_held (hsubject : call.subject.isSome = true)
    (hheld : e.cache.held? call.key = none) :
    (e.resolve call).value.1 = (e.resolveAfresh call).value ∧
      (e.resolve call).events = (e.resolveAfresh call).events := by
  rw [Cache.held?] at hheld
  split_ifs at hheld with hon
  · rw [resolve_of_miss hsubject hon hheld]
    exact ⟨rfl, List.append_nil _⟩
  · rw [resolve_of_disabled hsubject (Bool.eq_false_iff.2 hon)]
    exact ⟨rfl, List.append_nil _⟩

end Engine

namespace Host

variable {h : Host} {ops : List Op} {op : Op} {k : CallKey}

theorem events_step_of_call? (hcall : op.call? = some call) :
    (h.step op).events = (h.engine.resolve call).events := by
  rw [step_eq_of_call? hcall]
  exact List.append_nil _

/-- Whatever operation resolves a key, it warns once at most. -/
theorem countP_isAmbiguity_step_le (hconsistent : h.engine.registry.Consistent)
    (hkey : op.key? = some k) : (h.step op).events.countP Event.isAmbiguity ≤ 1 := by
  obtain ⟨c, hcall, hsubject, rfl⟩ := Op.exists_call_of_key? hkey
  rw [events_step_of_call? hcall]
  cases hheld : h.engine.cache.held? c.key with
  | some kept =>
    rw [(Engine.resolve_of_held hsubject hheld).2]
    exact Nat.zero_le 1
  | none =>
    rw [(Engine.resolve_of_not_held hsubject hheld).2]
    exact (Engine.announced_resolveAfresh hconsistent hsubject).countP_isAmbiguity_le

/-- **The cache answers the first keys**, as many as it has room for, if it is enabled. -/
theorem held_iff (settings : Settings) (tables : ℕ) (ops : List Op) :
    (((create settings tables).after ops).engine.cache.held? k).isSome = true ↔
      settings.cache.enabled = true ∧ k ∈ Op.keptKeys settings.cache.capacity ops := by
  obtain ⟨hsettings, hkeys⟩ := keys_after settings tables ops
  rw [Cache.held?, hsettings]
  by_cases hon : settings.cache.enabled = true
  · rw [if_pos hon, ← hkeys hon, Option.isSome_iff_ne_none, Ne, Cache.find?_eq_none_iff, not_not]
    exact (and_iff_right hon).symm
  · rw [if_neg hon]
    exact iff_of_false Bool.false_ne_true fun hkept => hon hkept.1

/-! ### Warnings -/

/-- How often operations after the last reset warn that a call with the key `k` is ambiguous. -/
def warnings (h : Host) (ops : List Op) (k : CallKey) : ℕ :=
  let since := (ops.zip (h.transcript ops)).rtakeWhile fun p => !p.1.isReset
  ((since.filter fun p => p.1.key? = some k).flatMap fun p => p.2.events).countP Event.isAmbiguity

theorem length_transcript (h : Host) (ops : List Op) : (h.transcript ops).length = ops.length := by
  induction ops generalizing h with
  | nil => rfl
  | cons op ops ih => rw [transcript, List.length_cons, ih, List.length_cons]

theorem transcript_concat (h : Host) (ops : List Op) (op : Op) :
    h.transcript (ops ++ [op]) =
      h.transcript ops ++ [⟨(h.after ops).answer op, ((h.after ops).step op).events⟩] := by
  induction ops generalizing h with
  | nil => rfl
  | cons first ops ih =>
    rw [List.cons_append, transcript, ih, transcript]
    rfl

theorem zip_transcript_concat (h : Host) (ops : List Op) (op : Op) :
    (ops ++ [op]).zip (h.transcript (ops ++ [op])) = ops.zip (h.transcript ops) ++
      [(op, ⟨(h.after ops).answer op, ((h.after ops).step op).events⟩)] := by
  rw [transcript_concat, List.zip_append (h.length_transcript ops).symm]
  rfl

theorem warnings_concat_of_reset (h : Host) (ops : List Op) (k : CallKey)
    (hreset : op.isReset = true) : h.warnings (ops ++ [op]) k = 0 := by
  rw [warnings, zip_transcript_concat, List.rtakeWhile_concat, hreset]
  rfl

/-- Only an operation that resolves the key can warn of it. -/
theorem warnings_concat (h : Host) (ops : List Op) (k : CallKey) (hreset : op.isReset = false) :
    h.warnings (ops ++ [op]) k = h.warnings ops k +
      if op.key? = some k then ((h.after ops).step op).events.countP Event.isAmbiguity else 0 := by
  rw [warnings, zip_transcript_concat, List.rtakeWhile_concat, hreset, Bool.not_false, if_pos rfl,
    List.filter_append, List.flatMap_append, List.countP_append, warnings]
  congr 1
  by_cases hkey : op.key? = some k <;> simp [hkey]

/-- A key that was not resolved was not warned of. -/
theorem warnings_eq_zero (h : Host) (hnew : k ∉ Op.resolvedKeys ops) : h.warnings ops k = 0 := by
  induction ops using List.reverseRecOn with
  | nil => rfl
  | append_singleton ops op ih =>
    cases hreset : op.isReset with
    | true => exact h.warnings_concat_of_reset ops k hreset
    | false =>
      rw [Op.resolvedKeys_concat ops hreset, List.mem_append, not_or] at hnew
      have hkey : op.key? ≠ some k := fun hkey => hnew.2 (by simp [hkey])
      rw [h.warnings_concat ops k hreset, if_neg hkey, ih hnew.1]

/-- No module is registered in a new host. -/
theorem consistent_after (settings : Settings) (tables : ℕ) (ops : List Op) :
    ((create settings tables).after ops).engine.registry.Consistent := by
  rw [← asOf_length]
  exact consistent_asOf Registry.consistent_of_modules_eq_nil ops ops.length

/-- **A key that is kept is warned of once at most.** By induction on the history: a key that is
kept already is answered by the cache and adds nothing, and one that comes to be kept was not
resolved before. -/
theorem warnings_le_one (settings : Settings) (tables : ℕ) (hon : settings.cache.enabled = true)
    {ops : List Op} {k : CallKey} (hkept : k ∈ Op.keptKeys settings.cache.capacity ops) :
    (create settings tables).warnings ops k ≤ 1 := by
  induction ops using List.reverseRecOn with
  | nil => exact Nat.zero_le 1
  | append_singleton ops op ih =>
    cases hreset : op.isReset with
    | true =>
      rw [warnings_concat_of_reset _ ops k hreset]
      exact Nat.zero_le 1
    | false =>
      rw [warnings_concat _ ops k hreset]
      by_cases hkey : op.key? = some k
      · rw [if_pos hkey]
        by_cases hbefore : k ∈ Op.keptKeys settings.cache.capacity ops
        · obtain ⟨c, hcall, hsubject, rfl⟩ := Op.exists_call_of_key? hkey
          obtain ⟨kept, hheld⟩ := Option.isSome_iff_exists.1
            ((held_iff settings tables ops).2 ⟨hon, hbefore⟩)
          rw [events_step_of_call? hcall, (Engine.resolve_of_held hsubject hheld).2]
          exact ih hbefore
        · have hnew := Op.notMem_resolvedKeys_of_concat hreset hkey hbefore hkept
          rw [warnings_eq_zero _ hnew, Nat.zero_add]
          exact countP_isAmbiguity_step_le (consistent_after settings tables ops) hkey
      · rw [if_neg hkey]
        exact ih (Op.mem_keptKeys_of_concat hreset hkey hkept)

/-- **Reports match what was resolved.** In every run, for each operation that resolves a call:
nothing is reported of a null subject, and nothing of a call that the cache answers, which it does
if it is enabled and the key is among the first ones since the last reset, as many as it has room
for. Every other call is reported: in the order of its bucket the candidates that it does not fit,
each with the first position that is incompatible, then the outcome that is returned, and then a
warning exactly if it is ambiguous and warnings are wanted. So with the cache enabled, at most one
warning since the last reset is about a key that is among the first ones. -/
theorem events_by_history (settings : Settings) (tables : ℕ) (ops : List Op) :
    let host := create settings tables
    let capacity := settings.cache.capacity
    (∀ t op c, ops[t]? = some op → op.call? = some c →
      let before := host.asOf ops t
      let outcome := (before.engine.resolve c).value.1
      let events := (before.step op).events
      let held := before.engine.cache.held? c.key
      before.answer op = op.reply outcome ∧
      (c.subject = none → outcome = .unmatched .nullSubject ∧ events = []) ∧
      (c.subject.isSome = true →
        (∀ kept, held = some kept → outcome = kept ∧ events = []) ∧
        (held.isSome = true ↔ settings.cache.enabled = true ∧
          c.key ∈ (Op.distinctKeys (ops.take t)).take capacity) ∧
        (held = none → Announced settings.logAmbiguity
          ((host.indexAt ops t).bucket c.operation c.arity) c outcome events))) ∧
    (settings.cache.enabled = true →
      ∀ k ∈ (Op.distinctKeys ops).take capacity, host.warnings ops k ≤ 1) := by
  intro host capacity
  refine ⟨fun t op c hop hcall => ?_, fun hon k hk => warnings_le_one settings tables hon hk⟩
  intro before outcome events held
  have hevents : events = (before.engine.resolve c).events := events_step_of_call? hcall
  refine ⟨answer_eq_of_call? hcall, fun hnull => ?_, fun hsubject => ⟨fun kept hheld => ?_,
    held_iff settings tables (ops.take t), fun hheld => ?_⟩⟩
  · rw [hevents, show outcome = (before.engine.resolve c).value.1 from rfl,
      Engine.resolve_of_null hnull]
    exact ⟨rfl, rfl⟩
  · rw [hevents]
    exact Engine.resolve_of_held hsubject hheld
  · obtain ⟨hvalue, hreport⟩ := Engine.resolve_of_not_held hsubject hheld
    have hannounced := Engine.announced_resolveAfresh (e := before.engine)
      (consistent_after settings tables (ops.take t)) hsubject
    rw [← hvalue, ← hreport, ← hevents,
      show before.engine.settings = settings from (settings_after settings tables (ops.take t)).1]
      at hannounced
    exact hannounced

/-- A call of `link` on two values of the class. -/
def linkedCells : Call :=
  ⟨"link", some lateClass, [some lateClass]⟩

/-- Each of two candidates is closer to the call at one position. The call is resolved twice, and
again when a module has arrived that would settle it. -/
def contested : List Op :=
  [.declare ⟨"Cell", .reference none, []⟩,
    .register ⟨[1]⟩ [⟨⟨"link", lateClass, [.universal 0]⟩, Body.subject⟩,
      ⟨⟨"link", .universal 0, [lateClass]⟩, Body.subject⟩],
    .resolve linkedCells, .resolve linkedCells,
    .register ⟨[2]⟩ [⟨⟨"link", lateClass, [lateClass]⟩, Body.subject⟩],
    .resolve linkedCells]

/-- With a cache there is one warning; without one there is one for each resolution before the
module. -/
example :
    (create {} 0).warnings contested linkedCells.key = 1 ∧
      (create ⟨⟨false, 0⟩, true⟩ 0).warnings contested linkedCells.key = 2 := by
  decide +kernel

end Host

end MultiDispatch
