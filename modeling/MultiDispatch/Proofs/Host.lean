import MultiDispatch.Proofs.Loading
import MultiDispatch.Proofs.ReadThrough

/-!
# Hosts

A host owns an engine and possibly tables of types apart from the engine's. What it does with them
is a list of operations, each of which has an answer and leaves a host behind. Statements about all
histories of an engine are statements about all such lists.

## Re-entrant use

The bodies of candidates and the extractions of sources are plain functions here, so none of them
calls the engine. Nothing is lost. A call is resolved before its body runs, and a source asks
whether its module is registered before it extracts, so a body or an extraction that uses the engine
amounts to the operation followed by those it performs, or to those followed by `registerResult`.

## What a host can name

A host can hand the engine only types that it got from a table, and tables never take a type back.
`Legal` says that of the calls in a list of operations. Nothing else that a host hands over has to
be restricted.

## Main definitions

* `Op`, `Host.Answer`: the operations and their answers
* `Host.step`, `Host.after`: one operation, and many
* `Op.call?`, `Op.key?`: the call that an operation resolves, and the key it is cached under
* `Host.Legal`: operations whose calls name types that the host has

## Main results

* `Host.step_eq_of_call?`: the five ways of resolving resolve alike and differ in what they report
* `Host.grown_next`: all else but resetting only declares and registers
* `Host.registry_next_of_not_registers`, `Host.cache_next_of_key?_eq_none`: what leaves the registry
  and the cache alone
* `Host.allTables_next`: what an operation does to the tables
-/

namespace MultiDispatch

/-- What a host does. -/
inductive Op where
  /-- Create a table apart from the engine's. It gets the next number, as from a counter of 32 bits
  while there are fewer than `2 ^ 32` tables. -/
  | openTable
  /-- Declare a type in the table at a place among those apart from the engine's. -/
  | declareIn (place : ℕ) (d : Declaration)
  /-- Declare a type in the engine's table. -/
  | declare (d : Declaration)
  | register (module : ModuleId) (batch : List Implementation)
  | registerResult (module : ModuleId) (extracted : Except RegistrationError (List Implementation))
  | load (source : Source)
  | loadMany (sources : List Source)
  | resolve (call : Call)
  | resolveValues (operation : String) (subject : Option Value) (args : List (Option Value))
  | call (operation : String) (subject : Option Value) (args : List (Option Value))
  | callValue (operation : String) (subject : Option Value) (args : List (Option Value))
  | isCallable (operation : String) (subject : Option Value) (args : List (Option Value))
  /-- Resolve a call on the index, past the cache. -/
  | dispatch (call : Call)
  | candidates (operation : String)
  | candidatesOf (module : ModuleId)
  | counts
  | reset

/-- What a host is answered. -/
inductive Host.Answer where
  | done
  | declared (result : Except DeclareError Ty)
  | registration (result : Registration)
  | loaded (summary : LoadSummary)
  | outcome (outcome : Outcome)
  | called (result : Except BodyError Called)
  | value (result : Except BodyError (Option Value))
  | truth (b : Bool)
  | candidates (cs : List Candidate)
  | contribution (cs : Option (List Candidate))
  | counts (counts : EngineCounts)

/-- The number of candidates that were accepted, according to an answer. -/
def Host.Answer.accepted : Host.Answer → ℕ
  | .registration result => result.accepted
  | .loaded summary => summary.accepted
  | _ => 0

/-! ### Calls -/

/-- The types that a call names. -/
def Call.types (c : Call) : List Ty :=
  c.positions.reduceOption

/-- The key that a call is cached under. A call without a subject has none. -/
def Call.cacheKey? (c : Call) : Option CallKey :=
  c.subject.map fun _ => c.key

namespace Op

/-- The call that an operation resolves through the cache. -/
def call? : Op → Option Call
  | .resolve c => some c
  | .resolveValues operation subject args => some (.ofValues operation subject args)
  | .call operation subject args => some (.ofValues operation subject args)
  | .callValue operation subject args => some (.ofValues operation subject args)
  | .isCallable operation subject args => some (.ofValues operation subject args)
  | _ => none

/-- The key that an operation resolves. -/
def key? (op : Op) : Option CallKey :=
  op.call?.bind Call.cacheKey?

/-- The types of the call that an operation resolves. -/
def types (op : Op) : List Ty :=
  match op.call? with
  | some c => c.types
  | none => []

/-- What an operation that resolves a call makes of the outcome. -/
def reply (outcome : Outcome) : Op → Host.Answer
  | .resolve _ => .outcome outcome
  | .resolveValues _ _ _ => .outcome outcome
  | .call _ subject args => .called ((Engine.valueOf outcome subject args).map (⟨outcome, ·⟩))
  | .callValue _ subject args => .value (Engine.valueOf outcome subject args)
  | .isCallable _ _ _ => .truth outcome.isMatched
  | _ => .done

/-- Whether an operation makes the engine forget. -/
def isReset : Op → Bool
  | .reset => true
  | _ => false

/-- Whether an operation registers modules. -/
def registers : Op → Bool
  | .register _ _ => true
  | .registerResult _ _ => true
  | .load _ => true
  | .loadMany _ => true
  | _ => false

theorem accepted_reply (outcome : Outcome) (op : Op) : (op.reply outcome).accepted = 0 := by
  cases op <;> rfl

theorem eq_reset {op : Op} (h : op.isReset = true) : op = .reset := by
  cases op <;> first | rfl | cases h

theorem isReset_eq_false_of_call? {op : Op} {c : Call} (h : op.call? = some c) :
    op.isReset = false := by
  cases op <;> first | rfl | cases h

theorem types_eq {op : Op} {c : Call} (h : op.call? = some c) : op.types = c.types := by
  rw [types, h]

theorem key?_eq {op : Op} {c : Call} (h : op.call? = some c) : op.key? = c.cacheKey? := by
  rw [key?, h, Option.bind_some]

theorem key?_eq_some {op : Op} {c : Call} (h : op.call? = some c)
    (hsubject : c.subject.isSome = true) : op.key? = some c.key := by
  obtain ⟨subject, hs⟩ := Option.isSome_iff_exists.1 hsubject
  rw [key?_eq h, Call.cacheKey?, hs, Option.map_some]

theorem key?_eq_none_iff {op : Op} :
    op.key? = none ↔ ∀ c, op.call? = some c → c.subject = none := by
  simp only [key?, Option.bind_eq_none_iff, Call.cacheKey?, Option.map_eq_none_iff]

/-- A key is that of a call with a subject. -/
theorem exists_call_of_key? {op : Op} {k : CallKey} (h : op.key? = some k) :
    ∃ c, op.call? = some c ∧ c.subject.isSome = true ∧ c.key = k := by
  obtain ⟨c, hcall, hck⟩ := Option.bind_eq_some_iff.1 h
  obtain ⟨subject, hsubject, rfl⟩ := Option.map_eq_some_iff.1 hck
  exact ⟨c, hcall, by rw [hsubject, Option.isSome_some], rfl⟩

end Op

/-- An engine, and tables apart from the engine's own in the order of their creation. -/
structure Host where
  engine : Engine
  tables : List TypeTable
  /-- The number of the next table. -/
  nextTable : ℕ

namespace Host

/-- A host that created some tables and then an engine. -/
def create (settings : Settings) (tables : ℕ) : Host where
  engine := .create settings tables
  tables := (List.range tables).map .create
  nextTable := tables + 1

/-- All tables, the engine's first. -/
def allTables (h : Host) : List TypeTable :=
  h.engine.types :: h.tables

/-- The types that a host can name. -/
def types (h : Host) : List Ty :=
  h.allTables.flatMap TypeTable.types

/-! ### Operations -/

/-- The host with what an operation of its engine makes of it. -/
def withEngine {α : Type} (h : Host) (answer : α → Answer) (result : Traced (α × Engine)) :
    Traced (Answer × Host) := do
  let (a, engine) ← result
  pure (answer a, { h with engine := engine })

/-- Declare a type in the engine's table. -/
def declare (h : Host) (d : Declaration) : Answer × Host :=
  match h.engine.declare d with
  | .ok (ty, engine) => (.declared (.ok ty), { h with engine := engine })
  | .error error => (.declared (.error error), h)

/-- Declare a type in another table. -/
def declareIn (h : Host) (place : ℕ) (d : Declaration) : Answer × Host :=
  match h.tables[place]? with
  | none => (.done, h)
  | some t =>
    match t.declare d with
    | .ok (ty, t) => (.declared (.ok ty), { h with tables := h.tables.set place t })
    | .error error => (.declared (.error error), h)

/-- Perform an operation. -/
def step (h : Host) : Op → Traced (Answer × Host)
  | .openTable =>
    pure (.done,
      { h with tables := h.tables ++ [.create h.nextTable], nextTable := h.nextTable + 1 })
  | .declareIn place d => pure (h.declareIn place d)
  | .declare d => pure (h.declare d)
  | .register module batch => h.withEngine .registration (h.engine.register module batch)
  | .registerResult module extracted =>
    h.withEngine .registration (h.engine.registerResult module extracted)
  | .load source => h.withEngine .registration (h.engine.load source)
  | .loadMany sources => h.withEngine .loaded (h.engine.loadMany sources)
  | .resolve call => h.withEngine .outcome (h.engine.resolve call)
  | .resolveValues operation subject args =>
    h.withEngine .outcome (h.engine.resolveValues operation subject args)
  | .call operation subject args => h.withEngine .called (h.engine.call operation subject args)
  | .callValue operation subject args =>
    h.withEngine .value (h.engine.callValue operation subject args)
  | .isCallable operation subject args =>
    h.withEngine .truth (h.engine.isCallable operation subject args)
  | .dispatch call => do
    let outcome ← h.engine.registry.index.resolve call
    pure (.outcome outcome, h)
  | .candidates operation => pure (.candidates (h.engine.candidates operation), h)
  | .candidatesOf module => pure (.contribution (h.engine.registry.candidatesOf? module), h)
  | .counts => pure (.counts h.engine.counts, h)
  | .reset => h.withEngine (fun _ => .done) h.engine.reset

/-- The answer to an operation. -/
def answer (h : Host) (op : Op) : Answer :=
  (h.step op).value.1

/-- The host after an operation. -/
def next (h : Host) (op : Op) : Host :=
  (h.step op).value.2

/-- The host after operations. -/
def after (h : Host) (ops : List Op) : Host :=
  ops.foldl next h

theorem after_concat (h : Host) (ops : List Op) (op : Op) :
    h.after (ops ++ [op]) = (h.after ops).next op :=
  List.foldl_concat ..

/-- Every operation resolves, if any, a call of types that the host has at that time. -/
def Legal : Host → List Op → Prop
  | _, [] => True
  | h, op :: ops => (∀ ty ∈ op.types, ty ∈ h.types) ∧ (h.next op).Legal ops

/-! ### What an operation does -/

variable {h : Host} {op : Op} {c d : Call}

/-- **The five ways of resolving resolve alike.** They differ only in what they report of the
outcome. -/
theorem step_eq_of_call? (hcall : op.call? = some c) :
    h.step op = h.engine.resolve c >>= fun r =>
      pure (op.reply r.1, { h with engine := r.2 }) := by
  have hmap : ∀ (outcome : Outcome) (x : Except BodyError (Option Value)),
      (x.map (Called.mk outcome)).map Called.value = x := by
    rintro outcome (error | value) <;> rfl
  cases op <;> simp only [Op.call?, Option.some.injEq, reduceCtorEq] at hcall <;> subst hcall <;>
    simp only [step, withEngine, Engine.resolveValues, Engine.call, Engine.callValue,
      Engine.isCallable, bind_assoc, pure_bind, Op.reply, hmap]

theorem answer_eq_of_call? (hcall : op.call? = some c) :
    h.answer op = op.reply (h.engine.resolve c).value.1 := by
  rw [answer, step_eq_of_call? hcall]
  rfl

theorem next_eq_of_call? (hcall : op.call? = some c) :
    h.next op = { h with engine := (h.engine.resolve c).value.2 } := by
  rw [next, step_eq_of_call? hcall]
  rfl

/-- Declaring a type in the engine's table does nothing else to the engine. -/
theorem declare_eq (h : Host) (d : Declaration) : h.declare d =
    match h.engine.types.declare d with
    | .ok (ty, types) => (.declared (.ok ty), { h with engine := { h.engine with types := types } })
    | .error error => (.declared (.error error), h) := by
  rw [declare, Engine.declare]
  cases h.engine.types.declare d <;> rfl

/-- Resolving a call changes the cache and nothing else. -/
theorem engine_resolve_eq (e : Engine) (c : Call) :
    (e.resolve c).value.2 = { e with cache := (e.resolve c).value.2.cache } := by
  cases hs : c.subject with
  | none => rw [Engine.resolve_of_null hs]; rfl
  | some subject =>
    rw [Engine.resolve_of_subject (by rw [hs]; rfl)]
    rfl

/-- An operation that neither resolves a call nor resets the engine declares and registers. -/
theorem grown_next (hcall : op.call? = none) (hreset : op.isReset = false) :
    h.engine.Grown (h.next op).engine := by
  cases op with
  | declare d =>
    change h.engine.Grown (h.declare d).2.engine
    rw [declare_eq]
    split
    · rename_i hd
      exact ⟨TypeTable.Later.refl.declare hd, .refl, rfl, rfl⟩
    · exact .refl _
  | declareIn place d =>
    change h.engine.Grown (h.declareIn place d).2.engine
    rw [declareIn]
    split
    · exact .refl _
    · split <;> exact .refl _
  | register module batch => exact h.engine.grown_register module batch
  | registerResult module extracted => exact h.engine.grown_registerResult module extracted
  | load source => exact h.engine.grown_load source
  | loadMany sources => exact h.engine.grown_loadMany sources
  | openTable => exact .refl _
  | dispatch c => exact .refl _
  | candidates operation => exact .refl _
  | candidatesOf module => exact .refl _
  | counts => exact .refl _
  | reset => cases hreset
  | resolve c => cases hcall
  | resolveValues operation subject args => cases hcall
  | call operation subject args => cases hcall
  | callValue operation subject args => cases hcall
  | isCallable operation subject args => cases hcall

/-- What resolves no key leaves the cache alone, unless it resets the engine. -/
theorem cache_next_of_key?_eq_none (hreset : op.isReset = false) (hkey : op.key? = none) :
    (h.next op).engine.cache = h.engine.cache := by
  cases hcall : op.call? with
  | none => exact (grown_next hcall hreset).cache
  | some c =>
    rw [next_eq_of_call? hcall, Engine.resolve_of_null (Op.key?_eq_none_iff.1 hkey c hcall)]
    rfl

/-- What neither registers nor resets leaves the registry alone, and its answer accepts nothing. -/
theorem registry_next_of_not_registers (hregisters : op.registers = false)
    (hreset : op.isReset = false) :
    (h.next op).engine.registry = h.engine.registry ∧ (h.answer op).accepted = 0 := by
  cases hcall : op.call? with
  | some c =>
    rw [next_eq_of_call? hcall, engine_resolve_eq, answer_eq_of_call? hcall]
    exact ⟨rfl, op.accepted_reply _⟩
  | none =>
    cases op with
    | declare d =>
      change (h.declare d).2.engine.registry = _ ∧ (h.declare d).1.accepted = 0
      rw [declare_eq]
      split <;> exact ⟨rfl, rfl⟩
    | declareIn place d =>
      change (h.declareIn place d).2.engine.registry = _ ∧ (h.declareIn place d).1.accepted = 0
      rw [declareIn]
      split
      · exact ⟨rfl, rfl⟩
      · split <;> exact ⟨rfl, rfl⟩
    | openTable | dispatch | candidates | candidatesOf | counts => exact ⟨rfl, rfl⟩
    | resolve | resolveValues | call | callValue | isCallable => cases hcall
    | register | registerResult | load | loadMany => cases hregisters
    | reset => cases hreset

theorem next_reset_engine (h : Host) : (h.next .reset).engine =
    { h.engine with registry := h.engine.registry.clear, cache := h.engine.cache.clear } :=
  rfl

/-- No operation takes a type out of the engine's table. -/
theorem later_types_next (h : Host) (op : Op) : h.engine.types.Later (h.next op).engine.types := by
  cases hcall : op.call? with
  | some c =>
    rw [next_eq_of_call? hcall, engine_resolve_eq]
    exact .refl
  | none =>
    cases hreset : op.isReset with
    | false => exact (grown_next hcall hreset).types
    | true =>
      obtain rfl := Op.eq_reset hreset
      exact .refl

/-- An operation of the engine leaves the other tables alone. -/
theorem tables_next (hopen : op ≠ .openTable) (hdeclare : ∀ place d, op ≠ .declareIn place d) :
    (h.next op).tables = h.tables ∧ (h.next op).nextTable = h.nextTable := by
  cases op with
  | openTable => exact absurd rfl hopen
  | declareIn place d => exact absurd rfl (hdeclare place d)
  | declare d =>
    change (h.declare d).2.tables = h.tables ∧ (h.declare d).2.nextTable = h.nextTable
    rw [declare_eq]
    split <;> exact ⟨rfl, rfl⟩
  | _ => exact ⟨rfl, rfl⟩

/-- No operation but creating a table does more to tables than declare in them. -/
theorem allTables_next (h : Host) (op : Op) :
    (List.Forall₂ TypeTable.Later h.allTables (h.next op).allTables ∧
        (h.next op).nextTable = h.nextTable) ∨
      ((h.next op).allTables = h.allTables ++ [.create h.nextTable] ∧
        (h.next op).nextTable = h.nextTable + 1) := by
  have hsame : ∀ ts : List TypeTable, List.Forall₂ TypeTable.Later ts ts := fun ts =>
    List.forall₂_same.2 fun _ _ => .refl
  by_cases hopen : op = .openTable
  · subst hopen
    exact .inr ⟨rfl, rfl⟩
  refine .inl ?_
  by_cases hdeclare : ∃ place d, op = .declareIn place d
  · obtain ⟨place, d, rfl⟩ := hdeclare
    change List.Forall₂ _ _ (h.declareIn place d).2.allTables ∧
      (h.declareIn place d).2.nextTable = h.nextTable
    rw [declareIn]
    split
    · exact ⟨hsame _, rfl⟩
    · rename_i t ht
      split
      · rename_i ty t' hd
        exact ⟨.cons .refl (later_set ht (TypeTable.Later.refl.declare hd)), rfl⟩
      · exact ⟨hsame _, rfl⟩
  · obtain ⟨htables, hnext⟩ := tables_next (h := h) hopen fun place d he => hdeclare ⟨place, d, he⟩
    rw [allTables, allTables, htables]
    exact ⟨.cons (later_types_next h op) (hsame _), hnext⟩

end Host

end MultiDispatch
