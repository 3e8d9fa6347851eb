import MultiDispatch.Proofs.ParetoFront
import MultiDispatch.Proofs.Staleness

/-!
# Dispatch is safe

Bodies check nothing, so it is up to the resolver that they only see what they are made for. A fresh
outcome names entries of the bucket that fit the call. An outcome from the cache names entries of
the bucket of another time, but that is the same bucket with fewer entries: nothing leaves a bucket
except by a reset, which empties the cache too.

## Main definitions

* `Ty.Suits`: what a fitting verdict says about two types
* `Admissible`: what may stand where a type is declared
* `Engine.MayRun`: the conditions under which a body is run

## Main results

* `accepts_ofValues_iff`: a call of values fits a signature whose types admit them
* `Host.named_mem_applicable`: in every state an outcome names entries that fit
* `Host.dispatch_safe`: what can be resolved and run in any state
-/

namespace MultiDispatch

/-! ### Fitting values -/

/-- A value of type `r` may stand where `d` is declared. -/
def Ty.Suits (r d : Ty) : Prop :=
  r.id = d.id ∨ d.isUniversal = true ∨ r.hasAncestor d.id = true ∨
    (d.isInterface = true ∧ r.implements d.id = true)

/-- An argument may stand where a type is declared: a null unless values are always present, and a
value of a type that suits. -/
def Admissible (declared : Ty) : Option Value → Prop
  | none => declared.isValue = false
  | some v => v.type.Suits declared

theorem isCompatible_judge_some_iff {r d : Ty} :
    (judge (some r) d).isCompatible = true ↔ r.Suits d := by
  rw [judge, Ty.Suits]
  by_cases hid : r.id = d.id
  · simp [hid, Verdict.isCompatible]
  by_cases huniversal : d.isUniversal = true
  · simp [hid, huniversal, Verdict.isCompatible]
  by_cases hancestor : r.hasAncestor d.id = true
  · simp [hid, huniversal, hancestor, Verdict.isCompatible]
  by_cases hinterface : d.isInterface = true ∧ r.implements d.id = true
  · simp [hid, huniversal, hancestor, hinterface, Verdict.isCompatible]
  · simp [hid, huniversal, hancestor, hinterface, Verdict.isCompatible]

theorem isCompatible_judge_none_iff {d : Ty} :
    (judge none d).isCompatible = true ↔ d.isValue = false := by
  cases h : d.isValue <;> simp [judge, h, Verdict.isCompatible]

theorem isCompatible_judge_iff {arg : Option Value} {d : Ty} :
    (judge (arg.map Value.type) d).isCompatible = true ↔ Admissible d arg := by
  cases arg with
  | none => exact isCompatible_judge_none_iff
  | some v => exact isCompatible_judge_some_iff

/-- A call of values fits a signature exactly if the declared types admit them one by one. -/
theorem accepts_ofValues_iff {operation : String} {subject : Option Value}
    {args : List (Option Value)} {s : Signature} :
    Accepts (Call.ofValues operation subject args).positions s ↔
      Admissible s.subject subject ∧
        List.Forall₂ (fun arg param => Admissible param arg) args s.params := by
  rw [Accepts, Call.positions, Signature.declared, List.forall₂_cons, Call.ofValues,
    isCompatible_judge_iff, List.forall₂_map_left_iff]
  simp only [isCompatible_judge_iff]

/-! ### What outcomes name -/

/-- A fresh outcome names entries of the bucket that fit the call. -/
theorem CandidateIndex.named_mem_applicable {index : CandidateIndex} {call : Call} {d : Candidate}
    (hd : d ∈ (index.resolve call).value.named) : d ∈ index.applicable call := by
  cases hsubject : call.subject with
  | none =>
    rw [CandidateIndex.resolve, hsubject] at hd
    cases hd
  | some subject =>
    have hs : call.subject.isSome = true := by rw [hsubject, Option.isSome_some]
    by_cases hbucket : index.bucket call.operation call.arity = []
    · rw [value_resolve_of_bucket_eq_nil hs hbucket] at hd
      cases hd
    · rw [value_resolve_eq hs hbucket, mem_named_ofFront] at hd
      exact front_subset_applicable index call d hd

theorem mem_applicable_iff {index : CandidateIndex} {call : Call} {d : Candidate} :
    d ∈ index.applicable call ↔
      d ∈ index.bucket call.operation call.arity ∧ Accepts call.positions d.signature := by
  rw [CandidateIndex.applicable, List.mem_filter, decide_eq_true_iff]

/-! ### In every state -/

/-- The conditions under which an engine runs the body of `d` for an operation: it is in the bucket
of the call, held by a registered module, and subject and arguments are what it declares. -/
structure Engine.MayRun (e : Engine) (operation : String) (d : Candidate) (subject : Value)
    (args : List (Option Value)) : Prop where
  inBucket : d ∈ e.registry.index.bucket operation (1 + args.length)
  registered : ∃ module cs, e.registry.candidatesOf? module = some cs ∧ d ∈ cs
  length_eq : args.length = d.signature.params.length
  subject_suits : subject.type.Suits d.signature.subject
  args_admissible : List.Forall₂ (fun arg param => Admissible param arg) args d.signature.params

theorem Engine.mayRun_of_mem_applicable {e : Engine} (hconsistent : e.registry.Consistent)
    {operation : String} {subject : Value} {args : List (Option Value)} {d : Candidate}
    (hd : d ∈ e.registry.index.applicable (.ofValues operation (some subject) args)) :
    e.MayRun operation d subject args := by
  obtain ⟨hbucket, haccepts⟩ := mem_applicable_iff.1 hd
  obtain ⟨hsubject, hargs⟩ := accepts_ofValues_iff.1 haccepts
  have harity : (Call.ofValues operation (some subject) args).arity = 1 + args.length := by
    rw [Call.arity, Call.ofValues, List.length_map]
  rw [harity] at hbucket
  obtain ⟨-, -, hregistered⟩ := hconsistent.exists_module hbucket
  exact ⟨hbucket, hregistered, hargs.length_eq, hsubject, hargs⟩

namespace Host

variable {settings : Settings} {tables : ℕ} {ops : List Op} {c : Call} {d : Candidate}

/-- In every state an outcome, kept or fresh, names entries that fit the call. A kept outcome is
that of an equal call on an earlier index, whose buckets have only grown since. -/
theorem named_mem_applicable (hlegal : (create settings tables).Legal ops)
    (hc : ∀ ty ∈ c.types, ty ∈ ((create settings tables).after ops).types)
    (hd : d ∈ (((create settings tables).after ops).engine.resolve c).value.1.named) :
    d ∈ ((create settings tables).after ops).engine.registry.index.applicable c := by
  cases hsubject : c.subject with
  | none =>
    rw [Engine.resolve_of_null hsubject] at hd
    cases hd
  | some subject =>
    -- Resolving `c` now is the last step of a longer history, whose outcome is known.
    let history := ops ++ [.resolve c]
    have hlegal' : (create settings tables).Legal history := hlegal.concat hc
    have hop : history[ops.length]? = some (.resolve c) := List.getElem?_concat_length
    have hs : c.subject.isSome = true := by rw [hsubject, Option.isSome_some]
    have htracks : (create settings tables).Tracks history settings.cache ops.length :=
      tracks_asOf settings tables (by simp [history])
    obtain ⟨s, hfirst⟩ := Op.exists_firstResolved hop (Op.key?_eq_some rfl hs)
    have houtcome := htracks.value_resolve (sound_create settings tables) hlegal' hop rfl hs hfirst
    rw [asOf_concat] at houtcome
    rw [houtcome] at hd
    split_ifs at hd
    · obtain ⟨hbucket, haccepts⟩ := mem_applicable_iff.1 (CandidateIndex.named_mem_applicable hd)
      have hgrown := (bucket_grows_asOf hfirst.le hfirst.kept c.operation c.arity).subset hbucket
      rw [indexAt, asOf_concat] at hgrown
      exact mem_applicable_iff.2 ⟨hgrown, haccepts⟩
    · have hfresh := CandidateIndex.named_mem_applicable hd
      rwa [indexAt, asOf_concat] at hfresh

/-- **Dispatch is safe in every state.** An outcome names only candidates that are in the bucket of
the call and fit it. Calling an operation comes down to resolving it: the engine is left in the same
state, and either no candidate is chosen and there is no value, or the answer is what the body of
the chosen candidate makes of arguments that it may be run with. -/
theorem dispatch_safe (settings : Settings) (tables : ℕ) (ops : List Op)
    (hlegal : (create settings tables).Legal ops) :
    let h := (create settings tables).after ops
    (∀ c : Call, (∀ ty ∈ c.types, ty ∈ h.types) →
      ∀ d ∈ (h.engine.resolve c).value.1.named,
        d ∈ h.engine.registry.index.bucket c.operation (1 + c.args.length) ∧
          List.Forall₂ (fun runtime declared => (judge runtime declared).isCompatible = true)
            (c.subject :: c.args) d.signature.declared) ∧
    ∀ operation subject args,
      (∀ ty ∈ (Call.ofValues operation subject args).types, ty ∈ h.types) →
      let resolved := (h.engine.resolve (.ofValues operation subject args)).value
      let called := (h.engine.call operation subject args).value
      (h.engine.callValue operation subject args).value = (called.1.map Called.value, called.2) ∧
      called.2 = resolved.2 ∧
      ((resolved.1.isMatched = false ∧ called.1 = .ok ⟨resolved.1, none⟩) ∨
        ∃ d s, resolved.1 = .matched d ∧ subject = some s ∧ h.engine.MayRun operation d s args ∧
          called.1 = (d.run s args).map fun v => ⟨resolved.1, some v⟩) := by
  intro h
  refine ⟨fun c hc d hd => mem_applicable_iff.1 (named_mem_applicable hlegal hc hd),
    fun operation subject args hc => ?_⟩
  intro resolved called
  refine ⟨rfl, rfl, ?_⟩
  have hcalled : called.1 = (Engine.valueOf resolved.1 subject args).map (⟨resolved.1, ·⟩) := rfl
  rw [hcalled]
  cases houtcome : resolved.1 with
  | unmatched reason => exact .inl ⟨rfl, rfl⟩
  | ambiguous cs => exact .inl ⟨rfl, rfl⟩
  | matched d =>
    cases subject with
    | none =>
      have hnull : resolved.1 = .unmatched .nullSubject :=
        congrArg (fun r => r.value.1) (Engine.resolve_of_null rfl)
      rw [hnull] at houtcome
      cases houtcome
    | some s =>
      have hconsistent : h.engine.registry.Consistent := by
        have hstart : (create settings tables).engine.registry.Consistent :=
          Registry.consistent_of_modules_eq_nil
        have := consistent_asOf hstart ops ops.length
        rwa [asOf_length] at this
      have hd : d ∈ resolved.1.named := by rw [houtcome]; exact List.mem_singleton_self d
      refine .inr ⟨d, s, rfl, rfl, Engine.mayRun_of_mem_applicable hconsistent
        (named_mem_applicable hlegal hc hd), ?_⟩
      cases hrun : d.run s args <;> simp [Engine.valueOf, Outcome.matched?, hrun, Except.map]

/-- A value of the universal type of the first table. -/
def anyValue : Value :=
  ⟨.universal 0, .unit⟩

/-- A call with a null, after the same call. -/
def nullHistory : List Op :=
  [.register ⟨[1]⟩ [⟨⟨"join", .universal 0, [.universal 0]⟩, Body.subject⟩],
    .call "join" (some anyValue) [none]]

/-- A null may stand for the universal type, also when the outcome is a kept one. -/
theorem dispatch_safe_nullHistory :
    let h := (create {} 0).after nullHistory
    h.engine.cache.size = 1 ∧
      ∃ d, d.id = 0 ∧ h.engine.MayRun "join" d anyValue [none] ∧
        (h.engine.call "join" (some anyValue) [none]).value.1 =
          (d.run anyValue [none]).map fun v => ⟨.matched d, some v⟩ := by
  intro h
  have hlegal : (create {} 0).Legal nullHistory := ⟨by decide, by decide, trivial⟩
  obtain ⟨-, hcalls⟩ := dispatch_safe {} 0 nullHistory hlegal
  obtain ⟨-, -, hresult⟩ := hcalls "join" (some anyValue) [none] (by decide)
  refine ⟨by decide, ?_⟩
  rcases hresult with ⟨hunmatched, -⟩ | ⟨d, s, hmatched, hs, hrun, hcalled⟩
  · exact absurd hunmatched (by decide)
  · obtain rfl : anyValue = s := Option.some.inj hs
    have hid : ((h.engine.resolve (.ofValues "join" (some anyValue) [none])).value.1.matched?.map
        Candidate.id) = some 0 := by decide
    rw [hmatched] at hid hcalled
    exact ⟨d, Option.some.inj hid, hrun, hcalled⟩

end Host

end MultiDispatch
