import MultiDispatch.Proofs.Acceptance
import MultiDispatch.Proofs.EntryDeclarations

/-!
# The candidates that a manifest describes

A manifest describes a candidate by names: its operation, the type of its subject and those of its
parameters. The engine never sees these names. It gets the types that they lead to, compares types
by identifier, and writes signatures with the names that the types themselves have. None of this can
be told from the names in the manifest, as long as all of them are known: a name leads to a type of
that very name, and different names lead to different types.

So what an engine makes of the candidates of a module can be said by the entries of the manifest
alone. An entry is kept if its operation has a visible name and no entry before it is the same.

## Main definitions

* `withEarlier`: the entries of a list with those before them
* `CandidateEntry.signatureIn`, `CandidateEntry.implementationIn`: what an entry stands for
* `CandidateEntry.Kept`, `ModuleEntry.kept`, `ModuleEntry.rejections`: a module divided by its names

## Main results

* `CandidateEntry.text_signatureIn`: both ways of writing a signature agree
* `CandidateEntry.repeats_iff`: signatures are the same if and only if the entries are
* `ModuleEntry.run_source`: what is read of a module
* `ModuleEntry.screen_batch`: what is accepted of a module
-/

namespace MultiDispatch

/-! ### Entries with those before them -/

section

variable {α β : Type} {x : α} {xs earlier : List α}

/-- The entries of a list, each with all that stand before it. -/
def withEarlier (xs : List α) : List (List α × α) :=
  xs.inits.zip xs

theorem withEarlier_cons (x : α) (xs : List α) :
    withEarlier (x :: xs) = ([], x) :: (withEarlier xs).map (Prod.map (x :: ·) id) := by
  rw [withEarlier, List.inits_cons, List.zip_cons_cons, withEarlier, ← List.zip_map, List.map_id]

theorem withEarlier_concat (xs : List α) (x : α) :
    withEarlier (xs ++ [x]) = withEarlier xs ++ [(xs, x)] := by
  induction xs with
  | nil => rfl
  | cons y ys ih =>
    rw [List.cons_append, withEarlier_cons, ih, List.map_append, withEarlier_cons]
    rfl

theorem withEarlier_map (f : α → β) (xs : List α) :
    withEarlier (xs.map f) = (withEarlier xs).map (Prod.map (List.map f) f) := by
  rw [withEarlier, List.map_inits, List.zip_map, withEarlier]

theorem mem_of_mem_withEarlier (h : (earlier, x) ∈ withEarlier xs) :
    x ∈ xs ∧ ∀ y ∈ earlier, y ∈ xs := by
  obtain ⟨hearlier, hx⟩ := List.of_mem_zip h
  exact ⟨hx, fun _ hy => ((List.mem_inits _ _).1 hearlier).subset hy⟩

theorem getElem?_withEarlier (before : List α) (x : α) (after : List α) :
    (withEarlier (before ++ x :: after))[before.length]? = some (before, x) := by
  induction before with
  | nil => rw [List.nil_append, withEarlier_cons]; rfl
  | cons y before ih => simp [withEarlier_cons, ih]

end

/-! ### Entries in a table -/

namespace CandidateEntry

variable {c c' : CandidateEntry} {earlier : List CandidateEntry} {t : TypeTable} {label : Ty}

/-- The names that an entry refers to, in the order in which they are looked up. -/
def refersTo (c : CandidateEntry) : List String :=
  c.params ++ [c.subject]

/-- The signature that an entry stands for in a table that has all names. -/
def signatureIn (c : CandidateEntry) (t : TypeTable) : Signature :=
  ⟨c.operation, t.named c.subject, c.params.map t.named⟩

/-- The implementation that an entry stands for. It returns the text of the entry. -/
def implementationIn (c : CandidateEntry) (label : Ty) (t : TypeTable) : Implementation :=
  ⟨c.signatureIn t, Body.constant ⟨label, .text c.text⟩⟩

/-- The operation of the entry has a visible name, and the entry is not among those before it. -/
def Kept (earlier : List CandidateEntry) (c : CandidateEntry) : Prop :=
  Text.isBlank c.operation = false ∧ c ∉ earlier

instance : Decidable (Kept earlier c) :=
  inferInstanceAs (Decidable (_ ∧ _))

/-- What is said of an entry that is not kept. -/
def rejection (c : CandidateEntry) : RegistrationError :=
  .rejected c.text (if Text.isBlank c.operation then .blankOperation else .duplicateSignature)

/-- **A signature is written as the manifest has it.** -/
theorem text_signatureIn (hknown : ∀ n ∈ c.refersTo, n ∈ t.names) :
    (c.signatureIn t).text = c.text := by
  have hsubject : (t.named c.subject).name = c.subject :=
    TypeTable.name_named (hknown _ (List.mem_append_right _ (List.mem_singleton_self _)))
  have hparams : (c.params.map t.named).map Ty.name = c.params := by
    have hname : ∀ n ∈ c.params, (t.named n).name = id n := fun n hn =>
      TypeTable.name_named (hknown n (List.mem_append_left _ hn))
    rw [List.map_map]
    exact (List.map_congr_left hname).trans (List.map_id c.params)
  rw [signatureIn, Signature.text, hsubject, hparams, text]

/-- **Two entries have the same signature if and only if they are the same**: different names lead
to types with different identifiers. -/
theorem repeats_iff (hindexed : t.Indexed) (hknown : ∀ n ∈ c.refersTo, n ∈ t.names)
    (hknown' : ∀ n ∈ c'.refersTo, n ∈ t.names) :
    (c.signatureIn t).Repeats (c'.signatureIn t) ↔ c = c' := by
  refine ⟨fun h => ?_, fun h => h ▸ ⟨rfl, rfl, rfl⟩⟩
  have hinj : ∀ n ∈ c.refersTo, ∀ n' ∈ c'.refersTo,
      (t.named n).id = (t.named n').id → n = n' := by
    intro n hn n' hn' hid
    have htypes : t.named n = t.named n' :=
      hindexed.eq_of_id_eq (TypeTable.named_mem_types (hknown n hn))
        (TypeTable.named_mem_types (hknown' n' hn')) hid
    rw [← TypeTable.name_named (hknown n hn), htypes, TypeTable.name_named (hknown' n' hn')]
  have hrefers : c.refersTo = c'.refersTo := by
    refine eq_of_map_eq hinj ?_
    have hparams := h.params
    rw [signatureIn, signatureIn, List.map_map, List.map_map] at hparams
    rw [refersTo, refersTo, List.map_append, List.map_append]
    exact congrArg₂ (· ++ ·) hparams (congrArg (fun id => [id]) h.subject)
  have hnames := List.append_inj' hrefers rfl
  obtain ⟨operation, subject, params⟩ := c
  obtain ⟨operation', subject', params'⟩ := c'
  obtain rfl : operation = operation' := h.operation
  obtain rfl : params = params' := hnames.1
  obtain rfl : subject = subject' := List.singleton_inj.1 hnames.2
  rfl

/-- Entries are judged as what they stand for is. -/
theorem acceptable_iff_kept (hindexed : t.Indexed) (hknown : ∀ n ∈ c.refersTo, n ∈ t.names)
    (hearlier : ∀ e ∈ earlier, ∀ n ∈ e.refersTo, n ∈ t.names) :
    Acceptable (earlier.map (·.implementationIn label t)) (c.implementationIn label t) ↔
      Kept earlier c := by
  have hfirst : (∀ x ∈ earlier.map (·.implementationIn label t),
      ¬ x.signature.Repeats (c.signatureIn t)) ↔ c ∉ earlier := by
    rw [List.forall_mem_map]
    constructor
    · intro h hc
      exact h c hc ⟨rfl, rfl, rfl⟩
    · intro h e he hrepeats
      obtain rfl := (repeats_iff hindexed (hearlier e he) hknown).1 hrepeats
      exact h he
  rw [acceptable_iff, Kept]
  exact and_congr Iff.rfl hfirst

theorem complaint_implementationIn (hknown : ∀ n ∈ c.refersTo, n ∈ t.names) :
    complaint (c.implementationIn label t) = c.rejection := by
  rw [complaint, rejection, ← text_signatureIn hknown]
  rfl

end CandidateEntry

/-! ### Modules in a table -/

namespace ModuleEntry

variable {d : ModuleEntry} {t : TypeTable} {label : Ty}

/-- The names that a module refers to, in the order in which they are looked up. -/
def refersTo (d : ModuleEntry) : List String :=
  d.candidates.flatMap CandidateEntry.refersTo

/-- The entries that are kept, in order. -/
def kept (d : ModuleEntry) : List CandidateEntry :=
  ((withEarlier d.candidates).filter fun x => CandidateEntry.Kept x.1 x.2).map Prod.snd

/-- What is said of the entries that are not kept, in order. -/
def rejections (d : ModuleEntry) : List RegistrationError :=
  ((withEarlier d.candidates).filter fun x => ¬ CandidateEntry.Kept x.1 x.2).map fun x =>
    x.2.rejection

/-- What is said of a module that uses a name that is not known. -/
def undeclared (d : ModuleEntry) (missing : String) : RegistrationError :=
  .extraction (.ofName d.name)
    ("module `" ++ d.name ++ "` uses undeclared type `" ++ missing ++ "`")

/-- The implementations that the entries stand for. -/
def batch (d : ModuleEntry) (label : Ty) (t : TypeTable) : List Implementation :=
  d.candidates.map (·.implementationIn label t)

theorem refer_eq (d : ModuleEntry) (t : TypeTable) (n : String) :
    d.refer t n = (t.firstUnknown? [n]).elim (.ok (t.named n)) fun missing =>
      .error (d.undeclared missing) := by
  rw [← t.lookUp_eq, refer]
  cases t.get? n <;> rfl

theorem implementation_eq (d : ModuleEntry) (label : Ty) (t : TypeTable) (c : CandidateEntry) :
    d.implementation label t c =
      (t.firstUnknown? c.refersTo).elim (.ok (c.implementationIn label t)) fun missing =>
        .error (d.undeclared missing) := by
  have hfirst : t.firstUnknown? c.refersTo =
      (t.firstUnknown? c.params).or (t.firstUnknown? [c.subject]) := List.find?_append
  rw [implementation, mapM_eq_elim_findSome? (d.refer_eq t), ← t.firstUnknown?_eq_findSome?,
    d.refer_eq, hfirst]
  cases t.firstUnknown? c.params with
  | some missing => rfl
  | none => cases t.firstUnknown? [c.subject] <;> rfl

/-- **Reading a module** looks its names up, fails at the first that is not known, and leaves the
table as it is. -/
theorem run_source (d : ModuleEntry) (label : Ty) (t : TypeTable) :
    (d.source label).extraction.run t =
      ((t.firstUnknown? d.refersTo).elim (.ok (d.batch label t)) fun missing =>
        .error (d.undeclared missing), t) := by
  rw [refersTo, t.firstUnknown?_flatMap, batch,
    ← mapM_eq_elim_findSome? (d.implementation_eq label t)]
  rfl

/-- **A module is screened by its names.** -/
theorem screen_batch (hindexed : t.Indexed) (hknown : ∀ n ∈ d.refersTo, n ∈ t.names) :
    screen (d.batch label t) = (d.kept.map (·.implementationIn label t), d.rejections) := by
  have hentry : ∀ c ∈ d.candidates, ∀ n ∈ c.refersTo, n ∈ t.names := fun c hc n hn =>
    hknown n (List.mem_flatMap.2 ⟨c, hc, hn⟩)
  have hjudged : ∀ x ∈ withEarlier d.candidates,
      (Acceptable (x.1.map (·.implementationIn label t)) (x.2.implementationIn label t) ↔
        CandidateEntry.Kept x.1 x.2) := by
    intro x hx
    obtain ⟨hc, hearlier⟩ := mem_of_mem_withEarlier hx
    exact CandidateEntry.acceptable_iff_kept hindexed (hentry x.2 hc) fun e he =>
      hentry e (hearlier e he)
  have hplaced : placed (d.batch label t) = (withEarlier d.candidates).map
      (Prod.map (List.map (·.implementationIn label t)) (·.implementationIn label t)) :=
    withEarlier_map _ _
  rw [screen_eq, acceptable, complaints, hplaced, List.filter_map, List.filter_map, List.map_map,
    List.map_map, kept, rejections, List.map_map, Prod.mk.injEq]
  constructor
  · have hkept : (withEarlier d.candidates).filter (fun x => Acceptable
        (x.1.map (·.implementationIn label t)) (x.2.implementationIn label t)) =
        (withEarlier d.candidates).filter fun x => CandidateEntry.Kept x.1 x.2 :=
      List.filter_congr fun x hx => decide_eq_decide.2 (hjudged x hx)
    exact congrArg (List.map fun x => x.2.implementationIn label t) hkept
  · have hrejected : (withEarlier d.candidates).filter (fun x => ¬ Acceptable
        (x.1.map (·.implementationIn label t)) (x.2.implementationIn label t)) =
        (withEarlier d.candidates).filter fun x => ¬ CandidateEntry.Kept x.1 x.2 :=
      List.filter_congr fun x hx => decide_eq_decide.2 (not_congr (hjudged x hx))
    have hsaid : ∀ x ∈ (withEarlier d.candidates).filter fun x => ¬ CandidateEntry.Kept x.1 x.2,
        complaint (x.2.implementationIn label t) = x.2.rejection := by
      intro x hx
      obtain ⟨hc, -⟩ := mem_of_mem_withEarlier (List.mem_of_mem_filter hx)
      exact CandidateEntry.complaint_implementationIn (hentry x.2 hc)
    rw [← List.map_congr_left hsaid, ← hrejected]
    rfl

end ModuleEntry

end MultiDispatch
