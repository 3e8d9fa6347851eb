import MultiDispatch.Proofs.ReadThrough

/-!
# A cache that is used while it computes

What `Cache.readThrough` is given to compute an outcome may itself use the cache, and read through
it again. Between the look-up and the settling of an outcome the same key may then be stored, the
cache may be filled, or be cleared, also several times and with the key stored anew after that. The
cache guards against this with a second look-up and with the number of clearings.

A use of a cache is a program with the four operations, in which what is computed for a key is again
such a program. It is run by the definitions that the engine uses, in a monad whose state writes
down everything that the cache goes through. How often the cache was cleared is counted apart from
the cache's own number, so that nothing is said of the guard in terms of itself.

## Main definitions

* `CacheUse`: a program that uses a cache
* `CacheLog`: the states of a cache in use, in order
* `CacheUse.perform`: what a program does and answers
* `Cache.Extends`: the cache holds what it held, and is not overfull

## Main results

* `CacheUse.perform_induction`: what writing and clearing keep is kept by every program
* `CacheUse.lawful_perform`: a cache is never overfull, and holds what it held until it is cleared
* `CacheUse.run_readThrough_of_absent`: one reading through, by what the computation left behind
* `CacheUse.reentrant_laws`: the laws of a cache in use
-/

namespace MultiDispatch

/-- A program that uses a cache. -/
inductive CacheUse where
  | done (outcome : Outcome)
  | get (key : CallKey) (next : Option Outcome → CacheUse)
  | insert (key : CallKey) (outcome : Outcome) (next : Option Outcome → CacheUse)
  /-- Read through the cache; what computes the outcome may use the cache, too. -/
  | readThrough (key : CallKey) (resolve : CacheUse) (next : Outcome → CacheUse)
  | clear (next : CacheUse)

/-- A state of a cache in use. -/
structure Moment where
  cache : Cache
  /-- How often the cache was cleared before. -/
  clears : ℕ

/-- The states of a cache in use. -/
structure CacheLog where
  /-- The earlier states, in order. -/
  past : List Moment
  now : Moment

namespace CacheLog

/-- A cache of which nothing was used yet. -/
def start (settings : CacheSettings) : CacheLog :=
  ⟨[], .create settings, 0⟩

/-- All states so far, in order. -/
def moments (log : CacheLog) : List Moment :=
  log.past ++ [log.now]

/-- The cache is now `c`. -/
def write (log : CacheLog) (c : Cache) : CacheLog :=
  ⟨log.moments, c, log.now.clears⟩

/-- The cache is cleared. -/
def clear (log : CacheLog) : CacheLog :=
  ⟨log.moments, log.now.cache.clear, log.now.clears + 1⟩

instance : MonadStateOf Cache (StateM CacheLog) where
  get log := (log.now.cache, log)
  set c log := ((), log.write c)
  modifyGet f log := ((f log.now.cache).1, log.write (f log.now.cache).2)

end CacheLog

/-- What a program does and answers. -/
def CacheUse.perform : CacheUse → StateM CacheLog Outcome
  | .done outcome => pure outcome
  | .get key next => do
    let answer ← modifyGetThe Cache fun c => c.get key
    (next answer).perform
  | .insert key outcome next => do
    let answer ← modifyGetThe Cache fun c => c.insert key outcome
    (next answer).perform
  | .readThrough key resolve next => do
    let answer ← Cache.readThrough key resolve.perform
    (next answer).perform
  | .clear next => do
    modifyThe CacheLog CacheLog.clear
    next.perform

/-! ### One operation -/

namespace Cache

variable {c c' : Cache} {key : CallKey} {outcome kept : Outcome}

theorem insert_of_held (h : c.find? key = some kept) : c.insert key outcome = (some kept, c) := by
  rw [insert, h]

theorem insert_of_absent (h : c.find? key = none) :
    c.insert key outcome =
      (if c.settings.capacity ≤ c.size then none else some outcome, c.keep key outcome) := by
  rw [insert, h, keep]
  by_cases hfull : c.settings.capacity ≤ c.size
  · simp only [if_pos hfull]
  · simp only [if_neg hfull]

theorem keep_of_full (h : c.settings.capacity ≤ c.size) : c.keep key outcome = c := by
  rw [keep, if_pos h]

theorem keep_of_room (h : c.size < c.settings.capacity) :
    c.keep key outcome = { c with entries := c.entries ++ [(key, outcome)] } := by
  rw [keep, if_neg (Nat.not_le.2 h)]

theorem find?_keep_of_room (habsent : c.find? key = none) (h : c.size < c.settings.capacity) :
    (c.keep key outcome).find? key = some outcome := by
  rw [find?, Option.map_eq_none_iff] at habsent
  rw [keep_of_room h, find?, List.find?_append, habsent, Option.none_or]
  simp

/-- `c'` holds what `c` holds, and is full at most if `c` is so at most. -/
structure Extends (c c' : Cache) : Prop where
  settings : c'.settings = c.settings
  clearings : c'.clearings = c.clearings
  keeps : ∀ key outcome, c.find? key = some outcome → c'.find? key = some outcome
  room : c.size ≤ c.settings.capacity → c'.size ≤ c.settings.capacity

theorem Extends.refl (c : Cache) : c.Extends c := ⟨rfl, rfl, fun _ _ h => h, fun h => h⟩

theorem extends_countHit (c : Cache) : c.Extends c.countHit :=
  ⟨rfl, rfl, fun _ _ h => h, fun h => h⟩

theorem extends_countMiss (c : Cache) : c.Extends c.countMiss :=
  ⟨rfl, rfl, fun _ _ h => h, fun h => h⟩

theorem extends_keep (c : Cache) (key : CallKey) (outcome : Outcome) :
    c.Extends (c.keep key outcome) := by
  by_cases hfull : c.settings.capacity ≤ c.size
  · rw [keep_of_full hfull]
    exact .refl c
  · have hroom : c.size < c.settings.capacity := Nat.lt_of_not_le hfull
    rw [keep_of_room hroom]
    refine ⟨rfl, rfl, fun k o hfind => ?_, fun _ => ?_⟩
    · obtain ⟨entry, hentry, rfl⟩ := Option.map_eq_some_iff.1 hfind
      rw [find?, List.find?_append, hentry, Option.some_or, Option.map_some]
    · rw [size, List.length_append, List.length_singleton]
      exact hroom

theorem extends_get (c : Cache) (key : CallKey) : c.Extends (c.get key).2 := by
  rw [get]
  split
  · exact c.extends_countHit
  · exact .refl c

theorem extends_insert (c : Cache) (key : CallKey) (outcome : Outcome) :
    c.Extends (c.insert key outcome).2 := by
  cases h : c.find? key with
  | some kept =>
    rw [insert_of_held h]
    exact .refl c
  | none =>
    rw [insert_of_absent h]
    exact c.extends_keep key outcome

theorem settle_of_held (h : c.find? key = some kept) :
    c.settle c.clearings key outcome = (kept, c) := by
  rw [settle, if_pos rfl, insert_of_held h]
  rfl

theorem settle_of_cleared {n : ℕ} (h : c.clearings ≠ n) :
    c.settle n key outcome = (outcome, c) := by
  rw [settle, if_neg h]

theorem extends_settle (c : Cache) (n : ℕ) (key : CallKey) (outcome : Outcome) :
    c.Extends (c.settle n key outcome).2 := by
  by_cases hn : c.clearings = n
  · subst hn
    cases h : c.find? key with
    | some kept =>
      rw [settle_of_held h]
      exact .refl c
    | none =>
      rw [settle_of_absent h]
      exact c.extends_keep key outcome
  · rw [settle_of_cleared hn]
    exact .refl c

/-- What is answered to an insertion is held afterwards; there is no answer exactly if there was
nothing for the key and no room. -/
theorem insert_answer (c : Cache) (key : CallKey) (outcome : Outcome) :
    (c.insert key outcome).1 = (c.insert key outcome).2.find? key ∧
      ((c.insert key outcome).1 = none ↔ c.find? key = none ∧ c.settings.capacity ≤ c.size) := by
  cases h : c.find? key with
  | some kept =>
    rw [insert_of_held h]
    exact ⟨h.symm, by simp⟩
  | none =>
    rw [insert_of_absent h]
    by_cases hfull : c.settings.capacity ≤ c.size
    · rw [if_pos hfull, keep_of_full hfull]
      exact ⟨h.symm, by simp [hfull]⟩
    · rw [if_neg hfull, find?_keep_of_room h (Nat.lt_of_not_le hfull)]
      exact ⟨rfl, by simp [hfull]⟩

end Cache

/-- Reading through a cache in use: nothing is computed for a key that is held, and otherwise once,
after the miss was counted and before the outcome is settled. -/
theorem CacheLog.run_readThrough (log : CacheLog) (key : CallKey) (x : StateM CacheLog Outcome) :
    (Cache.readThrough key x).run log =
      if log.now.cache.settings.enabled then
        match log.now.cache.find? key with
        | some kept => (kept, log.write log.now.cache.countHit)
        | none =>
          let computed := x.run (log.write log.now.cache.countMiss)
          let settled := computed.2.now.cache.settle log.now.cache.clearings key computed.1
          (settled.1, computed.2.write settled.2)
      else x.run log := by
  have hread : (Cache.readThrough key x).run log =
      (if log.now.cache.settings.enabled then
        match log.now.cache.find? key with
        | some kept => do
          MonadStateOf.set log.now.cache.countHit
          pure kept
        | none => do
          MonadStateOf.set log.now.cache.countMiss
          let outcome ← x
          MonadStateOf.modifyGet fun after : Cache =>
            after.settle log.now.cache.clearings key outcome
      else x : StateM CacheLog Outcome).run log := rfl
  rw [hread]
  split
  · split <;> rfl
  · rfl

/-! ### Programs -/

namespace CacheUse

/-- **What every state of a cache in use has.** What is kept when the cache becomes one that extends
it, and when it is cleared, is kept by every program. -/
theorem perform_induction {P : CacheLog → Prop}
    (hwrite : ∀ log c, P log → log.now.cache.Extends c → P (log.write c))
    (hclear : ∀ log, P log → P log.clear) (p : CacheUse) {log : CacheLog} (h : P log) :
    P (p.perform.run log).2 := by
  induction p generalizing log with
  | done outcome => exact h
  | get key next ih => exact ih _ (hwrite log _ h (Cache.extends_get _ key))
  | insert key outcome next ih => exact ih _ (hwrite log _ h (Cache.extends_insert _ key outcome))
  | readThrough key resolve next ihresolve ihnext =>
    have hread : P ((Cache.readThrough key resolve.perform).run log).2 := by
      rw [CacheLog.run_readThrough]
      split
      · cases log.now.cache.find? key with
        | some kept => exact hwrite log _ h (Cache.extends_countHit _)
        | none =>
          have hcomputed := ihresolve (hwrite log _ h (Cache.extends_countMiss _))
          exact hwrite _ _ hcomputed (Cache.extends_settle _ _ _ _)
      · exact ihresolve h
    exact ihnext _ hread
  | clear next ih => exact ih (hclear log h)

end CacheUse

/-! ### All states -/

/-- Unless the cache is cleared between the two moments, what is held at the first is held at the
second. -/
def Moment.Keeps (m m' : Moment) : Prop :=
  m.clears = m'.clears → ∀ key kept, m.cache.find? key = some kept → m'.cache.find? key = some kept

/-- In all states so far the cache had at most so many entries, and it always held what it had held
until it was cleared. -/
structure CacheLog.Lawful (capacity : ℕ) (log : CacheLog) : Prop where
  room : ∀ m ∈ log.moments, m.cache.size ≤ capacity
  keeps : log.moments.Pairwise Moment.Keeps
  clears_le : ∀ m ∈ log.moments, m.clears ≤ log.now.clears
  capacity_eq : log.now.cache.settings.capacity = capacity

namespace CacheLog

variable {log : CacheLog} {capacity : ℕ} {c : Cache}

theorem now_mem_moments (log : CacheLog) : log.now ∈ log.moments :=
  List.mem_append_right _ (List.mem_singleton_self _)

theorem lawful_start (settings : CacheSettings) :
    (start settings).Lawful settings.capacity where
  room m hm := by
    obtain rfl := List.mem_singleton.1 hm
    exact Nat.zero_le _
  keeps := List.pairwise_singleton _ _
  clears_le m hm := by
    obtain rfl := List.mem_singleton.1 hm
    exact Nat.le_refl _
  capacity_eq := rfl

theorem Lawful.write (h : log.Lawful capacity) (hc : log.now.cache.Extends c) :
    (log.write c).Lawful capacity := by
  have hmoments : (log.write c).moments = log.moments ++ [⟨c, log.now.clears⟩] := rfl
  have hsize : c.size ≤ capacity := by
    rw [← h.capacity_eq]
    exact hc.room (h.capacity_eq ▸ h.room _ log.now_mem_moments)
  refine ⟨?_, ?_, ?_, ?_⟩
  · rw [hmoments, List.forall_mem_append, List.forall_mem_singleton]
    exact ⟨h.room, hsize⟩
  · rw [hmoments, List.pairwise_append]
    refine ⟨h.keeps, List.pairwise_singleton _ _, fun m hm m' hm' => ?_⟩
    rw [List.mem_singleton.1 hm']
    intro hclears key kept hfind
    -- What is held at `m` is held now, and hence by `c`.
    refine hc.keeps key kept ?_
    rcases List.mem_append.1 hm with hpast | hnow
    · exact (List.pairwise_append.1 h.keeps).2.2 m hpast _ (List.mem_singleton_self _) hclears key
        kept hfind
    · rwa [← List.mem_singleton.1 hnow]
  · rw [hmoments, List.forall_mem_append, List.forall_mem_singleton]
    exact ⟨h.clears_le, Nat.le_refl _⟩
  · exact hc.settings ▸ h.capacity_eq

theorem Lawful.clear (h : log.Lawful capacity) : log.clear.Lawful capacity := by
  have hmoments : log.clear.moments = log.moments ++ [⟨log.now.cache.clear, log.now.clears + 1⟩] :=
    rfl
  refine ⟨?_, ?_, ?_, h.capacity_eq⟩
  · rw [hmoments, List.forall_mem_append, List.forall_mem_singleton]
    exact ⟨h.room, Nat.zero_le _⟩
  · rw [hmoments, List.pairwise_append]
    refine ⟨h.keeps, List.pairwise_singleton _ _, fun m hm m' hm' => ?_⟩
    rw [List.mem_singleton.1 hm']
    intro hclears
    have := h.clears_le m hm
    dsimp only at hclears
    omega
  · rw [hmoments, List.forall_mem_append, List.forall_mem_singleton]
    exact ⟨fun m hm => Nat.le_succ_of_le (h.clears_le m hm), Nat.le_refl _⟩

end CacheLog

namespace CacheUse

/-- A cache in use is never overfull, and holds what it held until it is cleared. -/
theorem lawful_perform (p : CacheUse) {log : CacheLog} {capacity : ℕ} (h : log.Lawful capacity) :
    (p.perform.run log).2.Lawful capacity :=
  p.perform_induction (fun _ _ h hc => h.write hc) (fun _ h => h.clear) h

/-- The settings of a cache never change, and its own number of clearings advances by how often it
is cleared. -/
theorem clearings_perform (p : CacheUse) (log : CacheLog) :
    (p.perform.run log).2.now.cache.settings = log.now.cache.settings ∧
      (p.perform.run log).2.now.cache.clearings + log.now.clears =
        log.now.cache.clearings + (p.perform.run log).2.now.clears := by
  refine p.perform_induction
    (P := fun after => after.now.cache.settings = log.now.cache.settings ∧
      after.now.cache.clearings + log.now.clears = log.now.cache.clearings + after.now.clears)
    (fun after c h hc => ?_) (fun after h => ?_) ⟨rfl, rfl⟩
  · exact ⟨hc.settings.trans h.1, hc.clearings ▸ h.2⟩
  · refine ⟨h.1, ?_⟩
    change after.now.cache.clearings + 1 + log.now.clears =
      log.now.cache.clearings + (after.now.clears + 1)
    omega

/-! ### Reading through -/

variable {key : CallKey} {closure : CacheUse} {log : CacheLog}

theorem run_readThrough_of_disabled {x : StateM CacheLog Outcome}
    (hoff : log.now.cache.settings.enabled = false) :
    (Cache.readThrough key x).run log = x.run log := by
  rw [CacheLog.run_readThrough, if_neg (by simp [hoff])]

theorem run_readThrough_of_held {x : StateM CacheLog Outcome} {kept : Outcome}
    (hon : log.now.cache.settings.enabled = true) (hfind : log.now.cache.find? key = some kept) :
    (Cache.readThrough key x).run log = (kept, log.write log.now.cache.countHit) := by
  rw [CacheLog.run_readThrough, if_pos hon, hfind]

/-- What comes of a key that is not held, by what the computation answered and left behind. -/
theorem run_readThrough_of_absent (hon : log.now.cache.settings.enabled = true)
    (hfind : log.now.cache.find? key = none) :
    let computed := closure.perform.run (log.write log.now.cache.countMiss)
    let after := computed.2.now.cache
    (Cache.readThrough key closure.perform).run log =
      if computed.2.now.clears = log.now.clears then
        match after.find? key with
        | some kept => (kept, computed.2.write after)
        | none => (computed.1, computed.2.write (after.keep key computed.1))
      else (computed.1, computed.2.write after) := by
  intro computed after
  have hclearings : after.clearings + log.now.clears =
      log.now.cache.clearings + computed.2.now.clears :=
    (closure.clearings_perform (log.write log.now.cache.countMiss)).2
  have hread : (Cache.readThrough key closure.perform).run log =
      ((after.settle log.now.cache.clearings key computed.1).1,
        computed.2.write (after.settle log.now.cache.clearings key computed.1).2) := by
    rw [CacheLog.run_readThrough, if_pos hon, hfind]
  rw [hread]
  -- The cache's own number says whether it was cleared, since both numbers advance alike.
  by_cases hclears : computed.2.now.clears = log.now.clears
  · have hsame : log.now.cache.clearings = after.clearings := by omega
    rw [if_pos hclears, hsame]
    cases hafter : after.find? key with
    | some kept => rw [Cache.settle_of_held hafter]
    | none => rw [Cache.settle_of_absent hafter]
  · have hother : after.clearings ≠ log.now.cache.clearings := by omega
    rw [if_neg hclears, Cache.settle_of_cleared hother]

/-- **The laws of a cache in use.** In all states of every use there are at most as many entries as
the cache has room for, and what is held for a key stays what it is until the cache is cleared.
Reading through an enabled cache answers with what is held and computes nothing, or else computes
once. If the cache was not cleared meanwhile, what came to be held for the key is the answer, or
else what was computed is, and is stored if there is room; if it was cleared, what was computed is
the answer, and nothing is stored. An insertion answers with what is held afterwards, and with
nothing exactly if the cache is full and holds nothing for the key. Reading through a disabled cache
is computing. -/
theorem reentrant_laws (settings : CacheSettings) :
    (∀ use : CacheUse,
      let moments := (use.perform.run (.start settings)).2.moments
      (∀ m ∈ moments, m.cache.size ≤ settings.capacity) ∧
        moments.Pairwise fun m m' => m.clears = m'.clears →
          ∀ key kept, m.cache.find? key = some kept → m'.cache.find? key = some kept) ∧
    (∀ (log : CacheLog) (key : CallKey) (closure : CacheUse),
      let c := log.now.cache
      let read := (Cache.readThrough key closure.perform).run log
      let computed := closure.perform.run (log.write c.countMiss)
      let after := computed.2.now.cache
      let uncleared := computed.2.now.clears = log.now.clears
      (c.settings.enabled = true →
        (∀ kept, c.find? key = some kept → read = (kept, log.write c.countHit)) ∧
        (c.find? key = none →
          (∀ kept, uncleared → after.find? key = some kept →
            read = (kept, computed.2.write after)) ∧
          (uncleared → after.find? key = none → after.size < c.settings.capacity →
            read = (computed.1, computed.2.write
              { after with entries := after.entries ++ [(key, computed.1)] })) ∧
          (¬ uncleared ∨ (after.find? key = none ∧ c.settings.capacity ≤ after.size) →
            read = (computed.1, computed.2.write after)))) ∧
      (c.settings.enabled = false → read = closure.perform.run log)) ∧
    ∀ (c : Cache) (key : CallKey) (outcome : Outcome),
      (c.insert key outcome).1 = (c.insert key outcome).2.find? key ∧
        ((c.insert key outcome).1 = none ↔ c.find? key = none ∧ c.settings.capacity ≤ c.size) := by
  refine ⟨fun use => ?_, fun log key closure => ?_, Cache.insert_answer⟩
  · have hlawful := use.lawful_perform (CacheLog.lawful_start settings)
    exact ⟨hlawful.room, hlawful.keeps⟩
  · intro c read computed after uncleared
    have hsettings : after.settings = c.settings :=
      (closure.clearings_perform (log.write c.countMiss)).1
    refine ⟨fun hon => ⟨fun kept hfind => run_readThrough_of_held hon hfind, fun hfind => ?_⟩,
      fun hoff => run_readThrough_of_disabled hoff⟩
    have hread : read = if computed.2.now.clears = log.now.clears then
        match after.find? key with
        | some kept => (kept, computed.2.write after)
        | none => (computed.1, computed.2.write (after.keep key computed.1))
      else (computed.1, computed.2.write after) := run_readThrough_of_absent hon hfind
    refine ⟨fun kept hsame hafter => ?_, fun hsame hafter hroom => ?_, fun hnone => ?_⟩
    · rw [hread, if_pos hsame, hafter]
    · rw [hread, if_pos hsame, hafter, Cache.keep_of_room (hsettings ▸ hroom)]
    · rcases hnone with hcleared | ⟨hafter, hfull⟩
      · rw [hread, if_neg hcleared]
      · rw [hread, hafter, Cache.keep_of_full (hsettings ▸ hfull), ite_self]

/-- A computation that clears the cache and then stores another outcome for the key that it computes
one for. -/
def overtaken (key : CallKey) : CacheUse :=
  .readThrough key
    (.clear (.insert key (.unmatched .noCandidates) fun _ => .done (.unmatched .noneApplicable)))
    .done

/-- What is held now was stored after the clearing, and so it is not the answer. -/
example :
    let key : CallKey := ⟨"area", none, []⟩
    let used := (overtaken key).perform.run (.start {})
    used.1.isUnmatched = true ∧ used.1.same (.unmatched .noneApplicable) = true ∧
      (used.2.now.cache.find? key).any (·.same (.unmatched .noCandidates)) = true ∧
      used.2.now.clears = 1 := by
  decide

end CacheUse

end MultiDispatch
