import MultiDispatch.Proofs.DeclarationHistory
import MultiDispatch.Resolution.Verdict

/-!
# Relations of types

What a type carries is compared with its declaration in `Inheritance`. Here the same is said without
declarations, of any two types of a history: what being above and being implemented imply, and what
they exclude. A verdict tests one relation after the other; since at most one of them holds, it can
be read off whichever does.

## Main results

* `Sound.hasAncestor_trans`, `Sound.implements_of_hasAncestor`, `Sound.implements_trans`: types have
  what the types above them have
* `Sound.kind_of_hasAncestor`, `Sound.isInterface_of_implements`: only classes are above a type, and
  only interfaces are implemented
* `Sound.judge_eq_ancestor`, `Sound.judge_eq_interface`: the verdict by the relation
-/

namespace MultiDispatch

variable {R D : Ty}

theorem judge_eq_universal (hid : R.id ≠ D.id) (huniversal : D.isUniversal = true) :
    judge (some R) D = .tier .universal := by
  rw [judge, if_neg hid, if_pos huniversal]

theorem Ty.isUniversal_eq_false {T : Ty} (h : T.kind ≠ .universal) : T.isUniversal = false :=
  decide_eq_false h

namespace DeclarationHistory

variable {h : DeclarationHistory} {T A I : Ty} {id : TypeId}

theorem Sound.eq_of_id_eq (hsound : h.Sound) (hT : T ∈ h.types) (hA : A ∈ h.types)
    (hid : T.id = A.id) : T = A :=
  hsound.distinct.eq_of_id_eq hT hA hid

/-! ### Universal types -/

/-- A type that was not created by a declaration carries nothing. -/
theorem Sound.mem_created_or_bare (hsound : h.Sound) (hT : T ∈ h.types) :
    T ∈ h.created.map Creation.type ∨ T.ancestors = [] ∧ T.interfaces = .empty := by
  rcases (hsound.mem_types_iff T).1 hT with hcreated | huniversal
  · exact .inl hcreated
  · obtain ⟨t, -, rfl⟩ := List.mem_map.1 huniversal
    exact .inr ⟨rfl, rfl⟩

theorem Sound.mem_created_of_hasAncestor (hsound : h.Sound) (hT : T ∈ h.types)
    (hid : T.hasAncestor id = true) : T ∈ h.created.map Creation.type := by
  refine (hsound.mem_created_or_bare hT).resolve_right fun hbare => ?_
  rw [Ty.hasAncestor, hbare.1] at hid
  exact absurd (of_decide_eq_true hid) List.not_mem_nil

theorem Sound.mem_created_of_implements (hsound : h.Sound) (hT : T ∈ h.types)
    (hid : T.implements id = true) : T ∈ h.created.map Creation.type := by
  refine (hsound.mem_created_or_bare hT).resolve_right fun hbare => ?_
  rw [Ty.implements, hbare.2] at hid
  exact absurd (of_decide_eq_true hid) (TypeSet.not_mem_empty id)

theorem Sound.isUniversal_of_mem_created (hsound : h.Sound)
    (hT : T ∈ h.created.map Creation.type) : T.isUniversal = false :=
  Ty.isUniversal_eq_false (hsound.built.kind_ne_universal hT)

theorem Sound.isUniversal_of_hasAncestor (hsound : h.Sound) (hT : T ∈ h.types)
    (hid : T.hasAncestor id = true) : T.isUniversal = false :=
  hsound.isUniversal_of_mem_created (hsound.mem_created_of_hasAncestor hT hid)

theorem Sound.isUniversal_of_implements (hsound : h.Sound) (hT : T ∈ h.types)
    (hid : T.implements id = true) : T.isUniversal = false :=
  hsound.isUniversal_of_mem_created (hsound.mem_created_of_implements hT hid)

/-! ### Ancestors -/

/-- What is above a type was created by a declaration. -/
theorem Sound.mem_created_of_isAncestor (hsound : h.Sound) (hT : T ∈ h.types) (hA : A ∈ h.types)
    (habove : T.hasAncestor A.id = true) : A ∈ h.created.map Creation.type := by
  have hcreated := hsound.mem_created_of_hasAncestor hT habove
  obtain ⟨A', hA', hid⟩ :=
    hsound.built.exists_of_mem_ancestors hcreated (of_decide_eq_true habove)
  exact hsound.mem_created_of_id_eq hA hA' hid

/-- Only reference classes are above a type. -/
theorem Sound.kind_of_hasAncestor (hsound : h.Sound) (hT : T ∈ h.types) (hA : A ∈ h.types)
    (habove : T.hasAncestor A.id = true) : A.kind = .reference := by
  have hcreated := hsound.mem_created_of_hasAncestor hT habove
  obtain ⟨Ps, hchain⟩ := hsound.built.exists_chain T hcreated
  have hid : A.id ∈ Ps.map Ty.id :=
    hsound.built.ancestors_eq_of_chain hchain hcreated ▸ of_decide_eq_true habove
  obtain ⟨P, hP, hid⟩ := List.mem_map.1 hid
  obtain ⟨hmem, hkind⟩ := hsound.built.of_mem_chain hchain P hP
  rwa [hsound.eq_of_id_eq (hsound.mem_types hmem) hA hid] at hkind

theorem Sound.not_hasAncestor_self (hsound : h.Sound) (hT : T ∈ h.types) :
    ¬ T.hasAncestor T.id = true := fun hself =>
  (hsound.built.fresh T (hsound.mem_created_of_hasAncestor hT hself)).1 (of_decide_eq_true hself)

theorem Sound.hasAncestor_trans (hsound : h.Sound) (hT : T ∈ h.types) (hA : A ∈ h.types)
    (habove : T.hasAncestor A.id = true) (hid : A.hasAncestor id = true) :
    T.hasAncestor id = true := by
  have hinherits := hsound.built.inherits (hsound.mem_created_of_isAncestor hT hA habove) T
    (hsound.mem_created_of_hasAncestor hT habove) (of_decide_eq_true habove)
  exact decide_eq_true (hinherits.1 id (of_decide_eq_true hid))

theorem Sound.implements_of_hasAncestor (hsound : h.Sound) (hT : T ∈ h.types) (hA : A ∈ h.types)
    (habove : T.hasAncestor A.id = true) (hid : A.implements id = true) :
    T.implements id = true := by
  have hinherits := hsound.built.inherits (hsound.mem_created_of_isAncestor hT hA habove) T
    (hsound.mem_created_of_hasAncestor hT habove) (of_decide_eq_true habove)
  exact decide_eq_true (hinherits.2 id (of_decide_eq_true hid))

/-! ### Interfaces -/

/-- What a type implements is an interface that a declaration created. -/
theorem Sound.isInterface_of_implements (hsound : h.Sound) (hT : T ∈ h.types) (hI : I ∈ h.types)
    (hid : T.implements I.id = true) :
    I ∈ h.created.map Creation.type ∧ I.isInterface = true := by
  have hcreated := hsound.mem_created_of_implements hT hid
  obtain ⟨J, hJ, hJid, hinterface, -⟩ :=
    hsound.built.exists_reaches T hcreated _ (of_decide_eq_true hid)
  obtain rfl : J = I := hsound.eq_of_id_eq (hsound.mem_types hJ) hI hJid
  exact ⟨hJ, hinterface⟩

theorem Sound.not_implements_self (hsound : h.Sound) (hT : T ∈ h.types) :
    ¬ T.implements T.id = true := fun hself =>
  (hsound.built.fresh T (hsound.mem_created_of_implements hT hself)).2 (of_decide_eq_true hself)

theorem Sound.implements_trans (hsound : h.Sound) (hT : T ∈ h.types) (hI : I ∈ h.types)
    (hTI : T.implements I.id = true) (hid : I.implements id = true) : T.implements id = true :=
  decide_eq_true <| hsound.built.implements_trans (hsound.isInterface_of_implements hT hI hTI).1 T
    (hsound.mem_created_of_implements hT hTI) (of_decide_eq_true hTI) id (of_decide_eq_true hid)

/-- No class is above an interface. -/
theorem Sound.not_hasAncestor_of_isInterface (hsound : h.Sound) (hI : I ∈ h.types)
    (hinterface : I.isInterface = true) : ¬ I.hasAncestor id = true := by
  intro hid
  have hcreated := hsound.mem_created_of_hasAncestor hI hid
  have hroot : I.ancestors = [] := hsound.built.ancestors_of_root hcreated fun P =>
    hsound.built.not_parentLink_of_isInterface hinterface
  rw [Ty.hasAncestor, hroot] at hid
  exact absurd (of_decide_eq_true hid) List.not_mem_nil

/-! ### Verdicts -/

theorem Sound.judge_eq_ancestor (hsound : h.Sound) (hR : R ∈ h.types) (hD : D ∈ h.types)
    (habove : R.hasAncestor D.id = true) : judge (some R) D = .tier .ancestor := by
  have hid : R.id ≠ D.id := fun hid => by
    rw [← hid] at habove
    exact hsound.not_hasAncestor_self hR habove
  have huniversal : D.isUniversal = false := by
    refine Ty.isUniversal_eq_false ?_
    rw [hsound.kind_of_hasAncestor hR hD habove]
    exact nofun
  rw [judge, if_neg hid, if_neg (by rw [huniversal]; exact nofun), if_pos habove]

theorem Sound.judge_eq_interface (hsound : h.Sound) (hR : R ∈ h.types) (hD : D ∈ h.types)
    (himplements : R.implements D.id = true) : judge (some R) D = .tier .interface := by
  obtain ⟨hcreated, hinterface⟩ := hsound.isInterface_of_implements hR hD himplements
  have hid : R.id ≠ D.id := fun hid => by
    rw [← hid] at himplements
    exact hsound.not_implements_self hR himplements
  have huniversal := hsound.isUniversal_of_mem_created hcreated
  have hclass : ¬ R.hasAncestor D.id = true := fun habove => by
    have hkind := hsound.kind_of_hasAncestor hR hD habove
    rw [Ty.isInterface, hkind] at hinterface
    cases hinterface
  rw [judge, if_neg hid, if_neg (by rw [huniversal]; exact nofun), if_neg hclass,
    if_pos (by rw [hinterface, himplements]; rfl)]

end DeclarationHistory

end MultiDispatch
