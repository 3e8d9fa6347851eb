import MultiDispatch.Probe.Build
import MultiDispatch.Proofs.Redeclaration

/-!
# Declaring the types of a manifest

The declarations of a manifest refer to types by name, and each is made in a table that the ones
before it have changed. So what a declaration comes to depends on all that stands before it: a name
that is not in the table yet is an error, and a name that was declared before is judged by the shape
it got then.

That a list of declarations can be made once more is not a matter of course. Its names are looked up
in another table the second time, one that has all types of the list and possibly more. But a table
never takes a name back and never gives it to another type. So each name leads to the type that it
led to the first time, and the declaration comes to the shape that its own name got.

## Main definitions

* `TypeTable.names`, `TypeTable.named`: the names of a table, and the type with a name
* `TypeTable.firstUnknown?`: the first of some names that the table does not have
* `TypeEntry.refersTo`, `TypeEntry.declaration`: what a declaration of a manifest refers to and
  stands for
* `TypeEntry.Accepted`, `TypeEntry.Fault`: what one declaration does, and why it fails
* `AcceptedEach`: declarations that are accepted one after the other
* `Manifest.Declares`: the names that are known once a manifest's types are declared

## Main results

* `TypeTable.declare_again`: what was accepted once is accepted for good, and changes nothing
* `TypeEntry.declareIn_eq_ok_iff`, `TypeEntry.declareIn_eq_error_iff`: one declaration
* `AcceptedEach.again`: a list of declarations once more
* `declaring_in_order`: what a list of declarations does
* `Manifest.mem_names_universe`: the names of a manifest's table
-/

namespace MultiDispatch

/-! ### Computations that can fail -/

section

variable {ε α β : Type}

/-- A computation over a list fails as it does at the first entry at which it fails. -/
theorem mapM_eq_elim_findSome? {δ : Type} {f : α → Except ε β} {fault? : α → Option δ} {g : α → β}
    {error : δ → ε} (hf : ∀ x, f x = (fault? x).elim (.ok (g x)) fun d => .error (error d))
    (xs : List α) :
    xs.mapM f = (xs.findSome? fault?).elim (.ok (xs.map g)) fun d => .error (error d) := by
  induction xs with
  | nil => rfl
  | cons x xs ih =>
    rw [List.mapM_cons, List.findSome?_cons, hf x, ih]
    cases fault? x with
    | some d => rfl
    | none => cases xs.findSome? fault? <;> rfl

end

/-! ### Names -/

namespace TypeTable

variable {t t' : TypeTable} {name : String} {d : Declaration} {ty : Ty}

/-- The names of all types. -/
def names (t : TypeTable) : List String :=
  t.types.map Ty.name

/-- The type with a name, the universal type if there is none. -/
def named (t : TypeTable) (name : String) : Ty :=
  (t.get? name).getD t.universal

/-- The first of some names that no type of the table has. -/
def firstUnknown? (t : TypeTable) (ns : List String) : Option String :=
  ns.find? fun n => n ∉ t.names

theorem firstUnknown?_eq_none_iff {ns : List String} :
    t.firstUnknown? ns = none ↔ ∀ n ∈ ns, n ∈ t.names := by
  simp [firstUnknown?]

theorem firstUnknown?_flatMap {α : Type} (t : TypeTable) (f : α → List String) (xs : List α) :
    t.firstUnknown? (xs.flatMap f) = xs.findSome? fun x => t.firstUnknown? (f x) :=
  List.find?_flatMap

theorem firstUnknown?_eq_findSome? (t : TypeTable) (ns : List String) :
    t.firstUnknown? ns = ns.findSome? fun n => t.firstUnknown? [n] := by
  rw [← firstUnknown?_flatMap, List.flatMap_singleton']

theorem get?_of_notMem_names (h : name ∉ t.names) : t.get? name = none :=
  get?_eq_none_iff.2 h

theorem get?_of_mem_names (h : name ∈ t.names) : t.get? name = some (t.named name) := by
  cases hget : t.get? name with
  | none => exact absurd h (get?_eq_none_iff.1 hget)
  | some ty => rw [named, hget, Option.getD_some]

theorem isSome_get?_iff {n : String} : (t.get? n).isSome = true ↔ n ∈ t.names := by
  rw [Option.isSome_iff_ne_none, Ne, get?_eq_none_iff, not_not, names]

/-- A name is looked up with an error of its own if it is not known. -/
theorem lookUp_eq {ε : Type} (t : TypeTable) (error : String → ε) (n : String) :
    (t.get? n).elim (Except.error (error n)) Except.ok =
      (t.firstUnknown? [n]).elim (Except.ok (t.named n)) fun missing =>
        Except.error (error missing) := by
  by_cases h : n ∈ t.names
  · simp [get?_of_mem_names h, firstUnknown?, h]
  · simp [get?_of_notMem_names h, firstUnknown?, h]

theorem name_named (h : name ∈ t.names) : (t.named name).name = name := by
  simpa using List.find?_some (get?_of_mem_names h)

theorem named_mem_types (h : name ∈ t.names) : t.named name ∈ t.types :=
  List.mem_of_find?_eq_some (get?_of_mem_names h)

theorem Later.mem_names (hlater : t.Later t') (h : name ∈ t.names) : name ∈ t'.names :=
  (hlater.types_grow.map Ty.name).subset h

theorem Later.named_eq (hlater : t.Later t') (h : name ∈ t.names) : t'.named name = t.named name :=
  (Option.some.inj ((get?_of_mem_names (hlater.mem_names h)).symm.trans
    (hlater.get?_eq (get?_of_mem_names h))))

/-! ### Declarations that are repeated -/

/-- The name of an accepted declaration leads to the type that it was answered with. -/
theorem get?_of_declare (hd : t.declare d = .ok (ty, t')) : t'.get? d.name = some ty := by
  obtain ⟨-, ⟨hknown, -, -, rfl⟩ | ⟨hnew, rfl, rfl⟩⟩ := declare_cases hd
  · exact hknown
  · rw [get?] at hnew ⊢
    rw [types_push, List.find?_append, hnew, Option.none_or]
    simp [Declaration.toTy]

theorem mem_names_of_declare (hd : t.declare d = .ok (ty, t')) :
    name ∈ t'.names ↔ name ∈ t.names ∨ name = d.name := by
  obtain ⟨-, ⟨hknown, -, -, rfl⟩ | ⟨-, rfl, rfl⟩⟩ := declare_cases hd
  · have hmem : d.name ∈ t'.names := by
      by_contra hnot
      rw [get?_of_notMem_names hnot] at hknown
      cases hknown
    exact ⟨.inl, fun h => h.elim id fun he => he ▸ hmem⟩
  · rw [names, types_push, List.map_append, List.mem_append, List.map_singleton,
      List.mem_singleton]
    rfl

theorem shape_toTy (d : Declaration) (id : TypeId) :
    (d.toTy id).shape = d.shape ∧ (d.toTy id).isUniversal = false := by
  obtain ⟨name, form, bases⟩ := d
  refine ⟨?_, ?_⟩
  · obtain (_ | _) | _ | _ := form <;> rfl
  · cases form <;> rfl

/-- **What was accepted once is accepted for good.** It is answered with the same type, and changes
nothing. -/
theorem declare_again {t'' : TypeTable} (hd : t.declare d = .ok (ty, t')) (hlater : t'.Later t'') :
    t''.declare d = .ok (ty, t'') := by
  obtain ⟨hcheck, hcases⟩ := declare_cases hd
  obtain ⟨hname, hparent, hbases⟩ := Declaration.check_eq_ok_iff.1 hcheck
  have hshape : ty.shape = d.shape ∧ ty.isUniversal = false := by
    obtain ⟨-, huniversal, hshape, -⟩ | ⟨-, rfl, -⟩ := hcases
    · exact ⟨hshape, huniversal⟩
    · exact shape_toTy d t.nextId
  rw [declare_of_known ⟨hname, hparent, hbases⟩ (hlater.get?_eq (get?_of_declare hd))]
  simp [hshape.1, hshape.2]

end TypeTable

/-! ### One declaration of a manifest -/

/-- The entry of a manifest that an error is about. -/
def BuildError.entry : BuildError → String
  | .unknownType name _ => name
  | .declare name _ => name

namespace TypeEntry

variable {d : TypeEntry} {t t' t'' : TypeTable} {e : BuildError}

/-- The name of the parent. Only a class has one, whatever is written. -/
def parentName? (d : TypeEntry) : Option String :=
  match d.kind with
  | .reference => d.parent
  | .interface => none
  | .value => none

/-- The names that a declaration refers to, in the order in which they are looked up. -/
def refersTo (d : TypeEntry) : List String :=
  d.interfaces ++ d.parentName?.toList

/-- What a declaration introduces, its names replaced by the types of the table. -/
def formIn (d : TypeEntry) (t : TypeTable) : Declaration.Form :=
  match d.kind with
  | .reference => .reference (d.parent.map t.named)
  | .interface => .interface
  | .value => .value

/-- The declaration that an entry stands for in a table that has all names. -/
def declaration (d : TypeEntry) (t : TypeTable) : Declaration :=
  ⟨d.name, d.formIn t, d.interfaces.map t.named⟩

/-- The entry refers to types of the table, and the table accepts what it stands for. -/
structure Accepted (d : TypeEntry) (t t' : TypeTable) : Prop where
  known : ∀ n ∈ d.refersTo, n ∈ t.names
  declared : ∃ ty, t.declare (d.declaration t) = .ok (ty, t')

/-- Why an entry fails: the first name that the table does not have is reported, and if there is
none, the table refuses what the entry stands for. -/
inductive Fault (d : TypeEntry) (t : TypeTable) : BuildError → Prop
  | unknown {missing : String} : t.firstUnknown? d.refersTo = some missing →
    Fault d t (.unknownType d.name missing)
  | refused {cause : DeclareError} : (∀ n ∈ d.refersTo, n ∈ t.names) →
    t.declare (d.declaration t) = .error cause → Fault d t (.declare d.name cause)

theorem refer_eq (d : TypeEntry) (t : TypeTable) (n : String) :
    d.refer t n = (t.firstUnknown? [n]).elim (.ok (t.named n)) fun missing =>
      .error (.unknownType d.name missing) := by
  rw [← t.lookUp_eq, refer]
  cases t.get? n <;> rfl

theorem mapM_refer (d : TypeEntry) (t : TypeTable) (ns : List String) :
    ns.mapM (d.refer t) = (t.firstUnknown? ns).elim (.ok (ns.map t.named)) fun missing =>
      .error (.unknownType d.name missing) := by
  rw [mapM_eq_elim_findSome? (d.refer_eq t), t.firstUnknown?_eq_findSome?]

theorem form_eq (d : TypeEntry) (t : TypeTable) :
    d.form t = (t.firstUnknown? d.parentName?.toList).elim (.ok (d.formIn t)) fun missing =>
      .error (.unknownType d.name missing) := by
  rw [form, parentName?, formIn]
  cases d.kind with
  | interface => rfl
  | value => rfl
  | reference =>
    cases d.parent with
    | none => rfl
    | some parent =>
      show (d.refer t parent).map _ = (t.firstUnknown? [parent]).elim _ _
      rw [d.refer_eq]
      cases t.firstUnknown? [parent] <;> rfl

/-- **Names are looked up first**, and the first one that is missing is reported. -/
theorem resolve_eq (d : TypeEntry) (t : TypeTable) :
    d.resolve t = (t.firstUnknown? d.refersTo).elim (.ok (d.declaration t)) fun missing =>
      .error (.unknownType d.name missing) := by
  have hfirst : t.firstUnknown? d.refersTo =
      (t.firstUnknown? d.interfaces).or (t.firstUnknown? d.parentName?.toList) :=
    List.find?_append
  rw [resolve, mapM_refer, form_eq, hfirst]
  cases t.firstUnknown? d.interfaces with
  | some missing => rfl
  | none => cases t.firstUnknown? d.parentName?.toList <;> rfl

theorem declareIn_of_unknown {missing : String} (h : t.firstUnknown? d.refersTo = some missing) :
    d.declareIn t = .error (.unknownType d.name missing) := by
  rw [declareIn, resolve_eq, h]
  rfl

theorem declareIn_of_known (h : ∀ n ∈ d.refersTo, n ∈ t.names) :
    d.declareIn t = ((t.declare (d.declaration t)).map Prod.snd).mapError (.declare d.name) := by
  rw [declareIn, resolve_eq, TypeTable.firstUnknown?_eq_none_iff.2 h, Option.elim_none]
  dsimp only [bind, Except.bind]
  obtain cause | ⟨ty, t'⟩ := t.declare (d.declaration t) <;> rfl

theorem Accepted.declareIn_eq (h : d.Accepted t t') : d.declareIn t = .ok t' := by
  obtain ⟨ty, hd⟩ := h.declared
  rw [declareIn_of_known h.known, hd]
  rfl

theorem Fault.declareIn_eq (h : d.Fault t e) : d.declareIn t = .error e := by
  cases h with
  | unknown hmissing => exact declareIn_of_unknown hmissing
  | refused hknown hd =>
    rw [declareIn_of_known hknown, hd]
    rfl

/-- An entry is accepted or at fault. -/
theorem accepted_or_fault (d : TypeEntry) (t : TypeTable) :
    (∃ t', d.Accepted t t') ∨ ∃ e, d.Fault t e := by
  cases hmissing : t.firstUnknown? d.refersTo with
  | some missing => exact .inr ⟨_, .unknown hmissing⟩
  | none =>
    have hknown := TypeTable.firstUnknown?_eq_none_iff.1 hmissing
    cases hd : t.declare (d.declaration t) with
    | error cause => exact .inr ⟨_, .refused hknown hd⟩
    | ok answer => exact .inl ⟨answer.2, hknown, answer.1, hd⟩

theorem declareIn_eq_ok_iff : d.declareIn t = .ok t' ↔ d.Accepted t t' := by
  refine ⟨fun h => ?_, Accepted.declareIn_eq⟩
  obtain ⟨t'', haccepted⟩ | ⟨e, hfault⟩ := d.accepted_or_fault t
  · obtain rfl := Except.ok.inj (haccepted.declareIn_eq.symm.trans h)
    exact haccepted
  · rw [hfault.declareIn_eq] at h
    cases h

theorem declareIn_eq_error_iff : d.declareIn t = .error e ↔ d.Fault t e := by
  refine ⟨fun h => ?_, Fault.declareIn_eq⟩
  obtain ⟨t', haccepted⟩ | ⟨e', hfault⟩ := d.accepted_or_fault t
  · rw [haccepted.declareIn_eq] at h
    cases h
  · obtain rfl := Except.error.inj (hfault.declareIn_eq.symm.trans h)
    exact hfault

theorem Fault.entry_eq (h : d.Fault t e) : e.entry = d.name := by
  cases h <;> rfl

theorem Accepted.later (h : d.Accepted t t') : t.Later t' := by
  obtain ⟨ty, hd⟩ := h.declared
  exact TypeTable.Later.refl.declare hd

/-- An entry stands for the same declaration in every later table. -/
theorem declaration_of_later (hknown : ∀ n ∈ d.refersTo, n ∈ t.names) (hlater : t.Later t') :
    d.declaration t' = d.declaration t := by
  have hnamed : ∀ n ∈ d.refersTo, t'.named n = t.named n := fun n hn =>
    hlater.named_eq (hknown n hn)
  have hform : d.formIn t' = d.formIn t := by
    rw [formIn, formIn]
    cases hkind : d.kind with
    | interface => rfl
    | value => rfl
    | reference =>
      cases hparent : d.parent with
      | none => rfl
      | some parent =>
        have hmem : parent ∈ d.refersTo := by simp [refersTo, parentName?, hkind, hparent]
        simp [hnamed parent hmem]
  have hbases : d.interfaces.map t'.named = d.interfaces.map t.named :=
    List.map_congr_left fun n hn => hnamed n (List.mem_append_left _ hn)
  rw [declaration, declaration, hform, hbases]

/-- **An accepted entry is accepted again** at any later time, and then changes nothing. -/
theorem Accepted.again (h : d.Accepted t t') (hlater : t'.Later t'') : d.Accepted t'' t'' := by
  have hall := h.later.trans hlater
  obtain ⟨ty, hd⟩ := h.declared
  refine ⟨fun n hn => hall.mem_names (h.known n hn), ty, ?_⟩
  rw [declaration_of_later h.known hall]
  exact TypeTable.declare_again hd hlater

/-- Another parent makes no difference to an entry that is not a class. -/
theorem declareIn_congr_parent {d' : TypeEntry} (hsame : d' = { d with parent := d'.parent })
    (hclass : d.kind = .reference → d'.parent = d.parent) (t : TypeTable) :
    d'.declareIn t = d.declareIn t := by
  by_cases hkind : d.kind = .reference
  · rw [hsame, hclass hkind]
  · have hform : ∀ p, ({ d with parent := p } : TypeEntry).form t = d.form t := by
      intro p
      rw [form, form]
      cases hd : d.kind with
      | reference => exact absurd hd hkind
      | interface => rfl
      | value => rfl
    rw [hsame, declareIn, declareIn, resolve, resolve, hform]
    rfl

end TypeEntry

/-! ### Lists of declarations -/

/-- Each entry is accepted by the table that those before it have left. -/
inductive AcceptedEach : TypeTable → List TypeEntry → TypeTable → Prop
  | nil {t : TypeTable} : AcceptedEach t [] t
  | cons {t t' t'' : TypeTable} {d : TypeEntry} {ds : List TypeEntry} :
    d.Accepted t t' → AcceptedEach t' ds t'' → AcceptedEach t (d :: ds) t''

section

variable {t t' t'' : TypeTable} {d : TypeEntry} {ds ds' : List TypeEntry} {e : BuildError}

theorem declareEntries_of_accepted (h : d.Accepted t t') (ds : List TypeEntry) :
    declareEntries t (d :: ds) = declareEntries t' ds := by
  rw [declareEntries, h.declareIn_eq]

theorem declareEntries_of_fault (h : d.Fault t e) (ds : List TypeEntry) :
    declareEntries t (d :: ds) = (.error e, t) := by
  rw [declareEntries, h.declareIn_eq]

theorem AcceptedEach.declareEntries_eq (h : AcceptedEach t ds t') :
    declareEntries t ds = (.ok (), t') := by
  induction h with
  | nil => rfl
  | cons hd _ ih => rw [declareEntries_of_accepted hd, ih]

/-- The entries are accepted up to the first that is at fault. -/
theorem acceptedEach_or_fault (t : TypeTable) (ds : List TypeEntry) :
    (∃ t', AcceptedEach t ds t') ∨ ∃ before d after t' e,
      ds = before ++ d :: after ∧ AcceptedEach t before t' ∧ d.Fault t' e := by
  induction ds generalizing t with
  | nil => exact .inl ⟨t, .nil⟩
  | cons d ds ih =>
    cases hd : d.declareIn t with
    | ok t' =>
      have haccepted := TypeEntry.declareIn_eq_ok_iff.1 hd
      obtain ⟨t'', hds⟩ | ⟨before, d', after, t'', e, rfl, hbefore, hfault⟩ := ih t'
      · exact .inl ⟨t'', .cons haccepted hds⟩
      · exact .inr ⟨d :: before, d', after, t'', e, rfl, .cons haccepted hbefore, hfault⟩
    | error e => exact .inr ⟨[], d, ds, t, e, rfl, .nil, TypeEntry.declareIn_eq_error_iff.1 hd⟩

/-- The entries after one that is at fault are not looked at. -/
theorem AcceptedEach.declareEntries_of_fault (h : AcceptedEach t ds t') (hd : d.Fault t' e)
    (ds' : List TypeEntry) : declareEntries t (ds ++ d :: ds') = (.error e, t') := by
  induction h with
  | nil => exact MultiDispatch.declareEntries_of_fault hd ds'
  | cons hfirst _ ih => rw [List.cons_append, declareEntries_of_accepted hfirst, ih hd]

theorem declareEntries_eq_ok_iff :
    declareEntries t ds = (.ok (), t') ↔ AcceptedEach t ds t' := by
  refine ⟨fun h => ?_, AcceptedEach.declareEntries_eq⟩
  obtain ⟨left, haccepted⟩ | ⟨before, d, after, left, e, rfl, hbefore, hfault⟩ :=
    acceptedEach_or_fault t ds
  · cases haccepted.declareEntries_eq.symm.trans h
    exact haccepted
  · cases (hbefore.declareEntries_of_fault hfault after).symm.trans h

theorem declareEntries_eq_error_iff :
    declareEntries t ds = (.error e, t') ↔ ∃ before d after,
      ds = before ++ d :: after ∧ AcceptedEach t before t' ∧ d.Fault t' e := by
  constructor
  · intro h
    obtain ⟨left, haccepted⟩ | ⟨before, d, after, left, e', rfl, hbefore, hfault⟩ :=
      acceptedEach_or_fault t ds
    · cases haccepted.declareEntries_eq.symm.trans h
    · cases (hbefore.declareEntries_of_fault hfault after).symm.trans h
      exact ⟨before, d, after, rfl, hbefore, hfault⟩
  · rintro ⟨before, d, after, rfl, hbefore, hfault⟩
    exact hbefore.declareEntries_of_fault hfault after

theorem AcceptedEach.later (h : AcceptedEach t ds t') : t.Later t' := by
  induction h with
  | nil => exact .refl
  | cons hd _ ih => exact hd.later.trans ih

/-- **Entries that were accepted once are accepted again.** Each of them finds its own type in the
table, so the table stays as it is all the way. -/
theorem AcceptedEach.again (h : AcceptedEach t ds t') (hlater : t'.Later t'') :
    AcceptedEach t'' ds t'' := by
  induction h with
  | nil => exact .nil
  | cons hd hds ih => exact .cons (hd.again (hds.later.trans hlater)) (ih hlater)

theorem AcceptedEach.mem_names {name : String} (h : AcceptedEach t ds t') :
    name ∈ t'.names ↔ name ∈ t.names ∨ ∃ d ∈ ds, d.name = name := by
  induction h with
  | nil => simp
  | @cons t t' t'' d ds hd _ ih =>
    obtain ⟨ty, hdeclare⟩ := hd.declared
    have hname : (d.declaration t).name = d.name := rfl
    rw [ih, TypeTable.mem_names_of_declare hdeclare, hname, List.exists_mem_cons_iff, or_assoc,
      eq_comm]

theorem declareEntries_append_of_ok (h : declareEntries t ds = (.ok (), t'))
    (ds' : List TypeEntry) : declareEntries t (ds ++ ds') = declareEntries t' ds' := by
  replace h := declareEntries_eq_ok_iff.1 h
  induction h with
  | nil => rfl
  | cons hd _ ih => rw [List.cons_append, declareEntries_of_accepted hd, ih]

theorem declareEntries_append_of_error (h : declareEntries t ds = (.error e, t'))
    (ds' : List TypeEntry) : declareEntries t (ds ++ ds') = (.error e, t') := by
  obtain ⟨before, d, after, rfl, hbefore, hfault⟩ := declareEntries_eq_error_iff.1 h
  rw [List.append_assoc, List.cons_append]
  exact hbefore.declareEntries_of_fault hfault (after ++ ds')

/-- Entries that differ in the parents of interfaces and value types only come to the same. -/
theorem declareEntries_congr_parents
    (h : List.Forall₂ (fun d d' => d' = { d with parent := d'.parent } ∧
      (d.kind = .reference → d'.parent = d.parent)) ds ds') (t : TypeTable) :
    declareEntries t ds' = declareEntries t ds := by
  induction h generalizing t with
  | nil => rfl
  | cons hd _ ih =>
    rw [declareEntries, declareEntries, TypeEntry.declareIn_congr_parent hd.1 hd.2]
    split
    · rename_i t' _
      exact ih t'
    · rfl

end

/-- **What a list of declarations does.** In any table:

* The list succeeds if each entry in turn is accepted by the table that those before it have left.
* It fails at the first entry that is not, be it that one of its names is not in the table yet or
  that the table refuses the declaration. The error names this entry, and the table is left as the
  entries before it alone leave it.
* The parent of an interface or a value type makes no difference.
* A list that succeeded succeeds again in the table it has left and in every later one, and changes
  nothing there.
* Two lists in a row come to the first, and if that succeeds, to the second. -/
theorem declaring_in_order (t : TypeTable) (ds : List TypeEntry) :
    (∀ t', declareEntries t ds = (.ok (), t') ↔ AcceptedEach t ds t') ∧
    (∀ e t', declareEntries t ds = (.error e, t') ↔ ∃ before d after,
      ds = before ++ d :: after ∧ declareEntries t before = (.ok (), t') ∧ d.Fault t' e ∧
        e.entry = d.name) ∧
    (∀ ds', List.Forall₂ (fun d d' => d' = { d with parent := d'.parent } ∧
        (d.kind = .reference → d'.parent = d.parent)) ds ds' →
      declareEntries t ds' = declareEntries t ds) ∧
    (∀ t', declareEntries t ds = (.ok (), t') →
      ∀ t'', t'.Later t'' → declareEntries t'' ds = (.ok (), t'')) ∧
    (∀ t' ds', declareEntries t ds = (.ok (), t') →
      declareEntries t (ds ++ ds') = declareEntries t' ds') ∧
    ∀ e t' ds', declareEntries t ds = (.error e, t') →
      declareEntries t (ds ++ ds') = (.error e, t') := by
  refine ⟨fun t' => declareEntries_eq_ok_iff, fun e t' => ?_,
    fun ds' h => declareEntries_congr_parents h t, fun t' h t'' hlater => ?_,
    fun t' ds' h => declareEntries_append_of_ok h ds',
    fun e t' ds' h => declareEntries_append_of_error h ds'⟩
  · constructor
    · intro h
      obtain ⟨before, d, after, hds, hbefore, hfault⟩ := declareEntries_eq_error_iff.1 h
      exact ⟨before, d, after, hds, hbefore.declareEntries_eq, hfault, hfault.entry_eq⟩
    · rintro ⟨before, d, after, hds, hbefore, hfault, -⟩
      exact declareEntries_eq_error_iff.2
        ⟨before, d, after, hds, declareEntries_eq_ok_iff.1 hbefore, hfault⟩
  · exact ((declareEntries_eq_ok_iff.1 h).again hlater).declareEntries_eq

/-- A name that is declared a second time with other interfaces. The list fails there, although all
of its names are known. -/
example :
    (declareEntries (.create 0) [⟨"Shape", .interface, none, []⟩,
      ⟨"Beam", .reference, none, ["Shape"]⟩, ⟨"Beam", .reference, none, []⟩]).1 =
      .error (.declare "Beam" (.conflict "Beam")) := by
  decide +kernel

/-! ### The universe of a manifest -/

namespace Manifest

variable {m : Manifest} {t t' : TypeTable} {label : Ty}

/-- A name that is known when the modules of a manifest are loaded: one of a declared type, or one
that is there in any case. -/
def Declares (m : Manifest) (name : String) : Prop :=
  name = Ty.universalName ∨ name = labelName ∨ ∃ d ∈ m.types, d.name = name

instance (m : Manifest) (name : String) : Decidable (m.Declares name) :=
  inferInstanceAs (Decidable (_ ∨ _ ∨ _))

theorem universe_of_accepted {declared : TypeTable} (h : AcceptedEach t m.types declared) :
    m.universe t = (declared.declare ⟨labelName, .reference none, []⟩).mapError
      (.declare labelName) := by
  rw [Manifest.universe, h.declareEntries_eq]
  dsimp only [bind, Except.bind]
  cases declared.declare ⟨labelName, .reference none, []⟩ <;> rfl

theorem universe_of_error {e : BuildError} {left : TypeTable}
    (h : declareEntries t m.types = (.error e, left)) : m.universe t = .error e := by
  rw [Manifest.universe, h]
  rfl

theorem universe_eq_ok_iff : m.universe t = .ok (label, t') ↔ ∃ declared,
    AcceptedEach t m.types declared ∧
      declared.declare ⟨labelName, .reference none, []⟩ = .ok (label, t') := by
  constructor
  · intro h
    obtain ⟨declared, haccepted⟩ | ⟨before, d, after, left, e, hds, hbefore, hfault⟩ :=
      acceptedEach_or_fault t m.types
    · refine ⟨declared, haccepted, ?_⟩
      rw [universe_of_accepted haccepted] at h
      cases hlabel : declared.declare ⟨labelName, .reference none, []⟩ with
      | ok answer =>
        rw [hlabel] at h
        cases h
        rfl
      | error cause =>
        rw [hlabel] at h
        cases h
    · have herror := hbefore.declareEntries_of_fault hfault after
      rw [← hds] at herror
      cases (universe_of_error herror).symm.trans h
  · rintro ⟨declared, haccepted, hlabel⟩
    rw [universe_of_accepted haccepted, hlabel]
    rfl

theorem later_universe (h : m.universe t = .ok (label, t')) : t.Later t' := by
  obtain ⟨declared, haccepted, hlabel⟩ := universe_eq_ok_iff.1 h
  exact haccepted.later.declare hlabel

/-- The names of a manifest's table are those that the manifest declares. -/
theorem mem_names_universe {name : String} (h : m.universe (.create 0) = .ok (label, t')) :
    name ∈ t'.names ↔ m.Declares name := by
  obtain ⟨declared, haccepted, hlabel⟩ := universe_eq_ok_iff.1 h
  have huniversal : (TypeTable.create 0).names = [Ty.universalName] := rfl
  rw [TypeTable.mem_names_of_declare hlabel, haccepted.mem_names, huniversal, List.mem_singleton,
    Declares, or_assoc, or_comm (a := name = labelName)]

end Manifest

end MultiDispatch
