import MultiDispatch.Proofs.Loading

/-!
# Offering a module again

A module is registered at most once, and what is offered for it later has no effect. The check for
this stands at two places: a batch is checked when it is registered, and a source before it is read.
A result of an extraction that was made elsewhere is a batch or an error, and an error is passed on
without any check. So there is one attempt that is answered wrongly: an error that is handed over
for a registered module makes a failure of it, although the module is and stays registered. The
registry is not touched by it.

Sources that are loaded together are attempts one after the other, and what is said of one attempt
holds of each of them.

## Main definitions

* `Attempt`: an attempt to register a module
* `Attempt.Honest`: a repeated attempt is answered as one, and a failed one leaves nothing behind

## Main results

* `Attempt.perform_of_registered`: what is offered for a registered module changes nothing
* `Attempt.registry_of_failed`: a failed attempt leaves the registry alone
* `Engine.value_loadMany_append`: sources that are loaded together are loaded one after the other
* `Engine.reregistration`: which attempts are honest
-/

namespace MultiDispatch

/-! ### Registries -/

namespace Registry

variable {r : Registry} {module : ModuleId} {batch : List Implementation}

theorem isFailed_resultOf (n : ℕ) (errors : List RegistrationError) :
    (resultOf n errors).isFailed = false := by
  rw [resultOf]
  split <;> rfl

theorem resultOf_ne_alreadyRegistered (n : ℕ) (errors : List RegistrationError) :
    resultOf n errors ≠ .alreadyRegistered := by
  intro h
  rw [resultOf] at h
  split at h <;> cases h

/-- A batch never fails as a whole. -/
theorem isFailed_register (r : Registry) (module : ModuleId) (batch : List Implementation) :
    (r.register module batch).value.1.isFailed = false := by
  rcases r.register_cases module batch with ⟨-, hr⟩ | ⟨-, hr⟩
  · rw [hr]
    rfl
  · rw [hr]
    exact isFailed_resultOf _ _

end Registry

theorem Engine.value_register_of_registered {e : Engine} {module : ModuleId}
    {batch : List Implementation} (h : e.registry.isRegistered module = true) :
    (e.register module batch).value = (.alreadyRegistered, e) := by
  change ((e.registry.register module batch).value.1,
    { e with registry := (e.registry.register module batch).value.2 }) = _
  rw [Registry.value_register_of_registered h]

theorem Engine.value_register_of_new {e : Engine} {module : ModuleId}
    (h : e.registry.isRegistered module = false) (batch : List Implementation) :
    (e.register module batch).value =
      (Registry.resultOf (screen batch).1.length (screen batch).2,
        { e with
          registry := e.registry.publish module (number e.registry.issued (screen batch).1) }) := by
  change ((e.registry.register module batch).value.1,
    { e with registry := (e.registry.register module batch).value.2 }) = _
  rw [Registry.value_register_of_new h]

/-! ### Attempts -/

/-- An attempt to register a module. -/
inductive Attempt where
  | register (module : ModuleId) (batch : List Implementation)
  | registerResult (module : ModuleId) (extracted : Except RegistrationError (List Implementation))
  | load (source : Source)

namespace Attempt

/-- The module that an attempt is made for. -/
def module : Attempt → ModuleId
  | .register module _ => module
  | .registerResult module _ => module
  | .load source => source.module

/-- Make an attempt. -/
def perform (e : Engine) : Attempt → Traced (Registration × Engine)
  | .register module batch => e.register module batch
  | .registerResult module extracted => e.registerResult module extracted
  | .load source => e.load source

/-- Whether what is handed over is an error. -/
def handsOverError : Attempt → Bool
  | .registerResult _ (.error _) => true
  | _ => false

/-- What the answer to an attempt promises. That the module was registered before is answered if it
was, and then nothing changes. If the attempt failed, the module is not registered and nothing was
added, so that a later attempt may succeed. -/
structure Honest (e : Engine) (a : Attempt) : Prop where
  repeated : e.registry.isRegistered a.module = true → (a.perform e).value = (.alreadyRegistered, e)
  failed : (a.perform e).value.1.isFailed = true →
    (a.perform e).value.2.registry.isRegistered a.module = false ∧
      (a.perform e).value.2.registry = e.registry

variable {e : Engine} {a : Attempt}

/-- What is offered for a registered module is answered by that, unless it is an error, and changes
nothing in any case. -/
theorem perform_of_registered (h : e.registry.isRegistered a.module = true) :
    (a.perform e).value.2 = e ∧
      (a.handsOverError = false → (a.perform e).value.1 = .alreadyRegistered) := by
  have hanswered : ∀ {x : Registration × Engine}, x = (.alreadyRegistered, e) →
      x.2 = e ∧ (a.handsOverError = false → x.1 = .alreadyRegistered) := by
    rintro x rfl
    exact ⟨rfl, fun _ => rfl⟩
  cases a with
  | register module batch => exact hanswered (Engine.value_register_of_registered h)
  | registerResult module extracted =>
    cases extracted with
    | ok batch => exact hanswered (Engine.value_register_of_registered h)
    | error error => exact ⟨rfl, nofun⟩
  | load source => exact hanswered (congrArg Traced.value (Engine.load_of_registered h))

/-- A result fails exactly if it is an error, and then the registry stays as it is. -/
theorem registry_registerResult_of_failed {module : ModuleId}
    {extracted : Except RegistrationError (List Implementation)}
    (h : (e.registerResult module extracted).value.1.isFailed = true) :
    (e.registerResult module extracted).value.2.registry = e.registry := by
  cases extracted with
  | ok batch =>
    have hfailed : (e.registerResult module (.ok batch)).value.1.isFailed = false :=
      e.registry.isFailed_register module batch
    rw [h] at hfailed
    cases hfailed
  | error error => rfl

/-- A failed attempt leaves the registry as it is. If it was not an error that was handed over, its
module was not registered before. -/
theorem registry_of_failed (h : (a.perform e).value.1.isFailed = true) :
    (a.perform e).value.2.registry = e.registry ∧
      (a.handsOverError = false → e.registry.isRegistered a.module = false) := by
  refine ⟨?_, fun herror => ?_⟩
  · cases a with
    | register module batch =>
      have hfailed : (e.register module batch).value.1.isFailed = false :=
        e.registry.isFailed_register module batch
      rw [perform, hfailed] at h
      cases h
    | registerResult module extracted => exact registry_registerResult_of_failed h
    | load source =>
      cases hregistered : e.registry.isRegistered source.module with
      | true =>
        rw [perform, Engine.load_of_registered hregistered]
        rfl
      | false =>
        rw [perform, Engine.load_of_unregistered hregistered] at h ⊢
        exact registry_registerResult_of_failed h
  · cases hregistered : e.registry.isRegistered a.module with
    | false => rfl
    | true =>
      rw [(perform_of_registered hregistered).2 herror] at h
      cases h

/-- An error that is handed over makes a failure of the attempt, whatever the module is. -/
theorem isFailed_of_handsOverError (h : a.handsOverError = true) :
    (a.perform e).value.1.isFailed = true := by
  cases a with
  | registerResult module extracted =>
    cases extracted with
    | ok batch => cases h
    | error error => rfl
  | register module batch => cases h
  | load source => cases h

/-- **Honest attempts are all but one kind**: the error that is handed over for a registered
module. -/
theorem honest_iff :
    a.Honest e ↔ ¬ (a.handsOverError = true ∧ e.registry.isRegistered a.module = true) := by
  constructor
  · rintro hhonest ⟨herror, hregistered⟩
    have hfailed := isFailed_of_handsOverError (e := e) herror
    rw [hhonest.repeated hregistered] at hfailed
    cases hfailed
  · intro hnot
    have hbatch (hregistered : e.registry.isRegistered a.module = true) :
        a.handsOverError = false := by
      rw [← Bool.not_eq_true]
      exact fun herror => hnot ⟨herror, hregistered⟩
    refine ⟨fun hregistered => ?_, fun hfailed => ?_⟩
    · obtain ⟨hengine, hanswer⟩ := perform_of_registered hregistered
      exact Prod.ext (hanswer (hbatch hregistered)) hengine
    · obtain ⟨hregistry, hnew⟩ := registry_of_failed hfailed
      refine ⟨?_, hregistry⟩
      rw [hregistry, ← Bool.not_eq_true]
      intro hregistered
      rw [hnew (hbatch hregistered)] at hregistered
      cases hregistered

end Attempt

/-! ### Loading several sources -/

namespace Engine

theorem value_loadEach_append (e : Engine) (sources more : List Source) :
    (e.loadEach (sources ++ more)).value =
      ((e.loadEach sources).value.1 ++ ((e.loadEach sources).value.2.loadEach more).value.1,
        ((e.loadEach sources).value.2.loadEach more).value.2) := by
  induction sources generalizing e with
  | nil => rfl
  | cons source rest ih =>
    have hcons : ∀ xs, (e.loadEach (source :: xs)).value =
        ((source.module, (e.load source).value.1) :: ((e.load source).value.2.loadEach xs).value.1,
          ((e.load source).value.2.loadEach xs).value.2) := fun _ => rfl
    rw [List.cons_append, hcons, hcons, ih]
    rfl

/-- Sources that are loaded together are loaded one after the other. -/
theorem value_loadMany_append (e : Engine) (sources more : List Source) :
    (e.loadMany (sources ++ more)).value =
      (⟨(e.loadMany sources).value.1.results ++
          ((e.loadMany sources).value.2.loadMany more).value.1.results⟩,
        ((e.loadMany sources).value.2.loadMany more).value.2) := by
  rw [value_loadMany, value_loadEach_append, value_loadMany e sources, value_loadMany]

theorem value_loadMany_concat (e : Engine) (sources : List Source) (source : Source) :
    (e.loadMany (sources ++ [source])).value =
      (⟨(e.loadMany sources).value.1.results ++
          [(source.module, ((e.loadMany sources).value.2.load source).value.1)]⟩,
        ((e.loadMany sources).value.2.load source).value.2) := by
  rw [value_loadMany_append, value_loadMany _ [source]]
  rfl

theorem value_loadMany_cons (e : Engine) (source : Source) (rest : List Source) :
    (e.loadMany (source :: rest)).value =
      (⟨(source.module, (e.load source).value.1) ::
          ((e.load source).value.2.loadMany rest).value.1.results⟩,
        ((e.load source).value.2.loadMany rest).value.2) := by
  rw [value_loadMany, value_loadMany]
  rfl

/-- **Offering a module again.** An attempt is honest unless an error is handed over for a module
that is registered; that is answered as a failure, and the module is registered nevertheless. What
is offered for a registered module never changes anything, and a failed attempt never the registry.
Sources that are loaded together are attempts one after the other; one whose module is registered
when its turn comes is passed over. -/
theorem reregistration (e : Engine) :
    (∀ a : Attempt, a.Honest e ↔
      ¬ (a.handsOverError = true ∧ e.registry.isRegistered a.module = true)) ∧
    (∀ a : Attempt, e.registry.isRegistered a.module = true → (a.perform e).value.2 = e) ∧
    (∀ a : Attempt, (a.perform e).value.1.isFailed = true →
      (a.perform e).value.2.registry = e.registry) ∧
    ∀ before source after,
      let e' := (e.loadMany before).value.2
      let result := ((Attempt.load source).perform e').value
      (e.loadMany (before ++ source :: after)).value =
          (⟨(e.loadMany before).value.1.results ++ (source.module, result.1) ::
              (result.2.loadMany after).value.1.results⟩, (result.2.loadMany after).value.2) ∧
        (Attempt.load source).Honest e' := by
  refine ⟨fun a => a.honest_iff, fun a h => (a.perform_of_registered h).1,
    fun a h => (a.registry_of_failed h).1, fun before source after => ?_⟩
  intro e' result
  refine ⟨?_, Attempt.honest_iff.2 fun h => absurd h.1 Bool.false_ne_true⟩
  rw [value_loadMany_append, value_loadMany_cons]
  rfl

/-- A failure is answered for a module that is registered, and stays so. -/
theorem failed_attempt_for_registered :
    let e := ((create {} 0).register ⟨[1]⟩ []).value.2
    let a := Attempt.registerResult ⟨[1]⟩ (.error (.extraction ⟨[1]⟩ "no such file"))
    e.registry.isRegistered a.module = true ∧
      (a.perform e).value.1 = .failed (.extraction ⟨[1]⟩ "no such file") ∧
      (a.perform e).value.2.registry.isRegistered a.module = true ∧ ¬ a.Honest e := by
  intro e a
  have hregistered : e.registry.isRegistered a.module = true := by decide
  exact ⟨hregistered, rfl, hregistered, fun h => Attempt.honest_iff.1 h ⟨rfl, hregistered⟩⟩

end Engine

end MultiDispatch
