import Mathlib.Data.List.DropRight
import MultiDispatch.Proofs.Buckets
import MultiDispatch.Proofs.StableSort

/-!
# The index is a list

Seen from outside, an index is the list of all that was published since it was last cleared. A
look-up by operation and arity is a sublist of that list, a look-up by operation is a sublist sorted
by arity, and the size is the length. How the list is divided into buckets cannot be seen.

## Which orders are free

A batch is grouped by bucket before it is merged, and the groups may be merged in any order. The
buckets may be kept in any order as well, which decides in what order they are walked through when
an operation is listed or candidates are counted. `IndexOp.Yields` leaves both orders free at every
operation, and `Lists` is what all choices have in common: a list settles the buckets up to their
order, and the order shows in no answer. Grouping and merging as the index does it is one of the
choices.

What is not free is the order within a bucket. It survives because a group is filled in the order of
the batch and a bucket is extended at its end, while no two groups of a batch extend the same
bucket.

## Main definitions

* `IndexOp`, `CandidateIndex.after`: operations on an index
* `sinceClear`: what was published since the index was cleared
* `IndexOp.Yields`, `IndexRun`: operations with free orders
* `CandidateIndex.Lists`: the index has the buckets of a list

## Main results

* `publishAll_eq_foldl`: a batch is published like its members one by one
* `Lists.publish`: merging a batch in any order appends it to the list
* `IndexRun.lists`: any run leaves the buckets of what was published since the last clearing
* `Lists.stablySorted_named`, `Lists.size_eq`: what is seen of an index, read off its list
* `index_is_list`: an index is the list of what was published
-/

namespace MultiDispatch

variable {operation : String} {arity : ℕ}

/-- A candidate belongs in the bucket of its own operation and arity only. -/
theorem Candidate.belongs_eq (operation : String) (arity : ℕ) :
    Candidate.belongs operation arity =
      fun c => decide ((c.operation, c.arity) = (operation, arity)) := by
  funext c
  simp [belongs]

theorem Candidate.key_eq_of_belongs {c : Candidate} (h : c.belongs operation arity = true) :
    (c.operation, c.arity) = (operation, arity) := by
  rw [belongs_eq] at h
  exact of_decide_eq_true h

namespace CandidateIndex

/-- The buckets after groups were merged into them one after the other. -/
def merge (groups buckets : List Bucket) : List Bucket :=
  groups.foldl (fun buckets g => extend g.operation g.arity g.members buckets) buckets

theorem merge_cons (g : Bucket) (groups buckets : List Bucket) :
    merge (g :: groups) buckets = merge groups (extend g.operation g.arity g.members buckets) := rfl

/-! ### A batch and its members -/

theorem extend_append (o : String) (n : ℕ) (added more : List Candidate) (buckets : List Bucket) :
    extend o n (added ++ more) buckets = extend o n more (extend o n added buckets) := by
  induction buckets with
  | nil => simp [extend]
  | cons b rest ih =>
    by_cases hb : b.operation = o ∧ b.arity = n
    · simp [extend, hb]
    · simp [extend, hb, ih]

/-- A bucket that is there is extended in its place, whatever happens to other buckets. -/
theorem extend_comm {o o' : String} {n n' : ℕ} {added more : List Candidate} {buckets : List Bucket}
    (hne : (o', n') ≠ (o, n)) (hmem : (o, n) ∈ buckets.map Bucket.key) :
    extend o n added (extend o' n' more buckets) =
      extend o' n' more (extend o n added buckets) := by
  induction buckets with
  | nil => cases hmem
  | cons b rest ih =>
    by_cases hb : b.operation = o ∧ b.arity = n
    · obtain ⟨rfl, rfl⟩ := hb
      have hother : ¬ (b.operation = o' ∧ b.arity = n') := by
        rintro ⟨rfl, rfl⟩
        exact hne rfl
      simp [extend, hother]
    · have hrest : (o, n) ∈ rest.map Bucket.key := by
        refine (List.mem_cons.1 hmem).resolve_left fun he => hb ?_
        simpa [Bucket.key, eq_comm] using he
      by_cases hb' : b.operation = o' ∧ b.arity = n'
      · obtain ⟨rfl, rfl⟩ := hb'
        simp [extend, hb]
      · simp [extend, hb, hb', ih hrest]

theorem mem_map_key_extend_self (o : String) (n : ℕ) (added : List Candidate)
    (buckets : List Bucket) : (o, n) ∈ (extend o n added buckets).map Bucket.key := by
  rw [map_key_extend]
  split_ifs with hmem
  · exact hmem
  · simp

theorem mem_map_key_extend {o : String} {n : ℕ} {added : List Candidate} {buckets : List Bucket}
    {k : String × ℕ} (hk : k ∈ buckets.map Bucket.key) :
    k ∈ (extend o n added buckets).map Bucket.key := by
  rw [map_key_extend]
  split_ifs
  · exact hk
  · exact List.mem_append_left _ hk

/-- Groups for other buckets may as well be merged first. -/
theorem merge_extend_of_notMem {o : String} {n : ℕ} {added : List Candidate}
    {groups buckets : List Bucket} (hother : (o, n) ∉ groups.map Bucket.key)
    (hmem : (o, n) ∈ buckets.map Bucket.key) :
    merge groups (extend o n added buckets) = extend o n added (merge groups buckets) := by
  induction groups generalizing buckets with
  | nil => rfl
  | cons g groups ih =>
    rw [List.map_cons, List.mem_cons, not_or] at hother
    have hne : (g.operation, g.arity) ≠ (o, n) := fun he => hother.1 he.symm
    rw [merge_cons, merge_cons, ← extend_comm hne hmem]
    exact ih hother.2 (mem_map_key_extend hmem)

/-- Extending a group before it is merged is extending its bucket afterwards. -/
theorem merge_extend {o : String} {n : ℕ} {added : List Candidate} {groups : List Bucket}
    (hnodup : (groups.map Bucket.key).Nodup) (buckets : List Bucket) :
    merge (extend o n added groups) buckets = extend o n added (merge groups buckets) := by
  induction groups generalizing buckets with
  | nil => rfl
  | cons g groups ih =>
    rw [List.map_cons, List.nodup_cons] at hnodup
    by_cases hg : g.operation = o ∧ g.arity = n
    · obtain ⟨rfl, rfl⟩ := hg
      rw [extend, if_pos ⟨rfl, rfl⟩, merge_cons, merge_cons]
      change merge groups (extend g.operation g.arity (g.members ++ added) buckets) = _
      rw [extend_append]
      exact merge_extend_of_notMem hnodup.1 (mem_map_key_extend_self _ _ _ _)
    · rw [extend, if_neg hg, merge_cons, merge_cons, ih hnodup.2]

/-- **A batch is published like its members one by one**: grouping it first makes no difference, not
even to the order of the buckets. -/
theorem publishAll_eq_foldl (index : CandidateIndex) (batch : List Candidate) :
    index.publishAll batch = batch.foldl publish index := by
  induction batch using List.reverseRecOn with
  | nil => rfl
  | append_singleton batch c ih =>
    rw [List.foldl_append, ← ih]
    have hgroup : group (batch ++ [c]) = extend c.operation c.arity [c] (group batch) := by
      rw [group, List.foldl_append]
      rfl
    change CandidateIndex.mk (merge (group (batch ++ [c])) index.buckets) = _
    rw [hgroup, merge_extend (nodup_key_group batch)]
    rfl

/-! ### Buckets without order -/

theorem bucket_of_mem {buckets : List Bucket} (hnodup : (buckets.map Bucket.key).Nodup) {b : Bucket}
    (hb : b ∈ buckets) :
    (⟨buckets⟩ : CandidateIndex).bucket b.operation b.arity = b.members := by
  induction buckets with
  | nil => cases hb
  | cons b' rest ih =>
    rw [List.map_cons, List.nodup_cons] at hnodup
    rw [bucket_cons]
    rcases List.mem_cons.1 hb with rfl | hb
    · rw [if_pos (Bucket.isFor_iff.2 rfl)]
    · have hother : ¬ b'.isFor b.operation b.arity = true := by
        rw [Bucket.isFor_iff]
        intro hkey
        refine hnodup.1 (hkey ▸ ?_)
        exact List.mem_map_of_mem (f := Bucket.key) hb
      rw [if_neg hother, ih hnodup.2 hb]

theorem bucket_of_forall_ne {buckets : List Bucket}
    (hnone : ∀ b ∈ buckets, b.key ≠ (operation, arity)) :
    (⟨buckets⟩ : CandidateIndex).bucket operation arity = [] := by
  induction buckets with
  | nil => rfl
  | cons b rest ih =>
    rw [List.forall_mem_cons] at hnone
    rw [bucket_cons, if_neg (mt Bucket.isFor_iff.1 hnone.1), ih hnone.2]

/-- The order of the buckets is without influence on a look-up. -/
theorem bucket_perm {buckets buckets' : List Bucket} (hnodup : (buckets.map Bucket.key).Nodup)
    (hperm : buckets'.Perm buckets) :
    (⟨buckets'⟩ : CandidateIndex).bucket operation arity =
      (⟨buckets⟩ : CandidateIndex).bucket operation arity := by
  have hnodup' : (buckets'.map Bucket.key).Nodup := (hperm.map Bucket.key).nodup_iff.2 hnodup
  by_cases hsome : ∃ b ∈ buckets, b.key = (operation, arity)
  · obtain ⟨b, hb, hkey⟩ := hsome
    obtain ⟨rfl, rfl⟩ := Prod.mk.inj hkey
    rw [bucket_of_mem hnodup hb, bucket_of_mem hnodup' (hperm.mem_iff.2 hb)]
  · have hnone : ∀ b ∈ buckets, b.key ≠ (operation, arity) := fun b hb hkey => hsome ⟨b, hb, hkey⟩
    rw [bucket_of_forall_ne hnone, bucket_of_forall_ne fun b hb => hnone b (hperm.mem_iff.1 hb)]

theorem filter_membersOf_of_belongs {buckets : List Bucket}
    (hbelongs : ∀ b ∈ buckets, ∀ c ∈ b.members, c.belongs b.operation b.arity = true) :
    (membersOf buckets).filter (Candidate.belongs operation arity) =
      (buckets.filter (Bucket.isFor operation arity)).flatMap Bucket.members := by
  induction buckets with
  | nil => rfl
  | cons b rest ih =>
    rw [List.forall_mem_cons] at hbelongs
    rw [membersOf_cons, List.filter_append, ih hbelongs.2, List.filter_cons]
    split_ifs with hkey
    · obtain ⟨rfl, rfl⟩ := Prod.mk.inj (Bucket.isFor_iff.1 hkey)
      rw [List.filter_eq_self.2 hbelongs.1, List.flatMap_cons]
    · have hnone : b.members.filter (Candidate.belongs operation arity) = [] :=
        List.filter_eq_nil_iff.2 fun c hc hother => hkey <| Bucket.isFor_iff.2 <|
          (Candidate.key_eq_of_belongs (hbelongs.1 c hc)).symm.trans
            (Candidate.key_eq_of_belongs hother)
      rw [hnone, List.nil_append]

/-- The buckets of an operation hold what offers the operation. -/
theorem flatMap_members_of_operation {buckets : List Bucket}
    (hbelongs : ∀ b ∈ buckets, ∀ c ∈ b.members, c.belongs b.operation b.arity = true) :
    (buckets.filter fun b => b.operation = operation).flatMap Bucket.members =
      (membersOf buckets).filter fun c => c.operation = operation := by
  induction buckets with
  | nil => rfl
  | cons b rest ih =>
    rw [List.forall_mem_cons] at hbelongs
    have hoperation : ∀ c ∈ b.members, c.operation = b.operation := fun c hc =>
      (Prod.mk.inj (Candidate.key_eq_of_belongs (hbelongs.1 c hc))).1
    rw [membersOf_cons, List.filter_append, ← ih hbelongs.2, List.filter_cons]
    split_ifs with hb
    · have hall : (b.members.filter fun c => c.operation = operation) = b.members :=
        List.filter_eq_self.2 fun c hc =>
          decide_eq_true ((hoperation c hc).trans (of_decide_eq_true hb))
      rw [hall, List.flatMap_cons]
    · have hnone : (b.members.filter fun c => c.operation = operation) = [] :=
        List.filter_eq_nil_iff.2 fun c hc hc' =>
          hb (decide_eq_true ((hoperation c hc).symm.trans (of_decide_eq_true hc')))
      rw [hnone, List.nil_append]

/-! ### The buckets of a list -/

/-- The index has the buckets of a list: one for each operation and arity that occurs, and in it
what belongs there, in the order of the list. -/
structure Lists (index : CandidateIndex) (cs : List Candidate) : Prop where
  nodup : (index.buckets.map Bucket.key).Nodup
  inhabited : ∀ b ∈ index.buckets, b.members ≠ []
  bucket_eq : ∀ operation arity,
    index.bucket operation arity = cs.filter (Candidate.belongs operation arity)

namespace Lists

variable {index index' : CandidateIndex} {cs : List Candidate}

theorem empty : CandidateIndex.empty.Lists [] := ⟨List.nodup_nil, nofun, fun _ _ => rfl⟩

theorem members_eq (h : index.Lists cs) {b : Bucket} (hb : b ∈ index.buckets) :
    b.members = cs.filter (Candidate.belongs b.operation b.arity) := by
  rw [← h.bucket_eq, ← bucket_of_mem h.nodup hb]

/-- **A list settles the buckets**, up to their order. -/
theorem mem_buckets_iff (h : index.Lists cs) {b : Bucket} :
    b ∈ index.buckets ↔
      b.members ≠ [] ∧ b.members = cs.filter (Candidate.belongs b.operation b.arity) := by
  refine ⟨fun hb => ⟨h.inhabited b hb, h.members_eq hb⟩, fun ⟨hne, hmembers⟩ => ?_⟩
  obtain ⟨b', hb', hkey⟩ : ∃ b' ∈ index.buckets, b'.key = (b.operation, b.arity) := by
    by_contra hnone
    have hempty := bucket_of_forall_ne fun b' hb' hkey => hnone ⟨b', hb', hkey⟩
    rw [hmembers, ← h.bucket_eq] at hne
    exact hne hempty
  have hmembers' := h.members_eq hb'
  obtain ⟨o, n, ms⟩ := b
  obtain ⟨o', n', ms'⟩ := b'
  obtain ⟨rfl, rfl⟩ := Prod.mk.inj hkey
  obtain rfl : ms = ms' := hmembers.trans hmembers'.symm
  exact hb'

theorem buckets_perm (h : index.Lists cs) (h' : index'.Lists cs) :
    index'.buckets.Perm index.buckets := by
  refine (List.perm_ext_iff_of_nodup (.of_map _ h'.nodup) (.of_map _ h.nodup)).2 fun b => ?_
  rw [h.mem_buckets_iff, h'.mem_buckets_iff]

/-- Rearranged buckets are still those of the list. -/
theorem of_perm (h : index.Lists cs) (hperm : index'.buckets.Perm index.buckets) :
    index'.Lists cs :=
  ⟨(hperm.map Bucket.key).nodup_iff.2 h.nodup, fun b hb => h.inhabited b (hperm.mem_iff.1 hb),
    fun o n => (bucket_perm h.nodup hperm).trans (h.bucket_eq o n)⟩

/-! ### Merging -/

theorem extend {buckets : List Bucket} {o : String} {n : ℕ} {added : List Candidate}
    (h : (⟨buckets⟩ : CandidateIndex).Lists cs) (hadded : added ≠ [])
    (hbelongs : ∀ c ∈ added, c.belongs o n = true) :
    (⟨CandidateIndex.extend o n added buckets⟩ : CandidateIndex).Lists (cs ++ added) := by
  refine ⟨nodup_key_extend h.nodup, ?_, fun operation arity => ?_⟩
  · have hinhabited := h.inhabited
    clear h
    induction buckets with
    | nil => simpa [CandidateIndex.extend] using hadded
    | cons b rest ih =>
      simp only [List.forall_mem_cons] at hinhabited
      rw [CandidateIndex.extend]
      split_ifs
      · exact List.forall_mem_cons.2
          ⟨List.append_ne_nil_of_left_ne_nil hinhabited.1 _, hinhabited.2⟩
      · exact List.forall_mem_cons.2 ⟨hinhabited.1, ih hinhabited.2⟩
  · rw [bucket_extend, h.bucket_eq, List.filter_append]
    refine congrArg _ ?_
    split_ifs with hkey
    · obtain ⟨rfl, rfl⟩ := hkey
      exact (List.filter_eq_self.2 hbelongs).symm
    · refine (List.filter_eq_nil_iff.2 fun c hc hother => hkey (Prod.mk.inj ?_)).symm
      exact (Candidate.key_eq_of_belongs (hbelongs c hc)).symm.trans
        (Candidate.key_eq_of_belongs hother)

theorem merge {groups buckets : List Bucket} (h : (⟨buckets⟩ : CandidateIndex).Lists cs)
    (hgroups : ∀ g ∈ groups, g.members ≠ [] ∧
      ∀ c ∈ g.members, c.belongs g.operation g.arity = true) :
    (⟨CandidateIndex.merge groups buckets⟩ : CandidateIndex).Lists (cs ++ membersOf groups) := by
  induction groups generalizing buckets cs with
  | nil => rwa [membersOf_nil, List.append_nil]
  | cons g groups ih =>
    rw [List.forall_mem_cons] at hgroups
    rw [membersOf_cons, ← List.append_assoc]
    exact ih (h.extend hgroups.1.1 hgroups.1.2) hgroups.2

/-- Each bucket holds what belongs in it. -/
theorem belongs_of_mem (h : index.Lists cs) {b : Bucket} (hb : b ∈ index.buckets) :
    ∀ c ∈ b.members, c.belongs b.operation b.arity = true := by
  rw [h.members_eq hb]
  exact fun c hc => (List.mem_filter.1 hc).2

theorem group (batch : List Candidate) :
    (⟨CandidateIndex.group batch⟩ : CandidateIndex).Lists batch := by
  induction batch using List.reverseRecOn with
  | nil => exact empty
  | append_singleton batch c ih =>
    rw [CandidateIndex.group, List.foldl_append]
    exact ih.extend (List.cons_ne_nil c []) fun d hd => by
      simp [List.mem_singleton.1 hd, Candidate.belongs]

/-- The members of all buckets, in whatever order these are walked through, show each bucket as it
is. -/
theorem filter_membersOf (h : index.Lists cs) (operation : String) (arity : ℕ) :
    (membersOf index.buckets).filter (Candidate.belongs operation arity) =
      cs.filter (Candidate.belongs operation arity) := by
  rw [← h.bucket_eq, ← flatMap_members_of_nodup h.nodup]
  exact filter_membersOf_of_belongs fun b hb => h.belongs_of_mem hb

/-- **Merging the groups of a batch appends the batch to the list**, in whatever order they are
merged. -/
theorem publish {groups : List Bucket} {batch : List Candidate} (h : index.Lists cs)
    (hgroups : groups.Perm (CandidateIndex.group batch)) :
    (⟨CandidateIndex.merge groups index.buckets⟩ : CandidateIndex).Lists (cs ++ batch) := by
  have hbatch : (⟨groups⟩ : CandidateIndex).Lists batch := (group batch).of_perm hgroups
  have hmerged := h.merge fun g hg => ⟨hbatch.inhabited g hg, hbatch.belongs_of_mem hg⟩
  refine ⟨hmerged.nodup, hmerged.inhabited, fun o n => ?_⟩
  rw [hmerged.bucket_eq, List.filter_append, List.filter_append, hbatch.filter_membersOf]

/-! ### What is seen of an index -/

/-- Walking through all buckets leads through the list, in some order. -/
theorem membersOf_perm (h : index.Lists cs) : (membersOf index.buckets).Perm cs := by
  have hkeys : ∀ k : String × ℕ,
      ((membersOf index.buckets).filter fun c => (c.operation, c.arity) = k) =
        cs.filter fun c => (c.operation, c.arity) = k := by
    rintro ⟨o, n⟩
    simpa only [Candidate.belongs_eq] using h.filter_membersOf o n
  exact perm_of_filter_eq hkeys

theorem size_eq (h : index.Lists cs) : index.size = cs.length :=
  h.membersOf_perm.length_eq

theorem isEmpty_iff (h : index.Lists cs) : index.isEmpty = true ↔ cs = [] := by
  rw [CandidateIndex.isEmpty, h.size_eq, decide_eq_true_iff, List.length_eq_zero_iff]

/-- **Listing an operation sorts its part of the list by arity**, and keeps the order of the list
within an arity. -/
theorem stablySorted_named (h : index.Lists cs) (operation : String) :
    StablySorted Candidate.arity (cs.filter fun c => c.operation = operation)
      (index.named operation) := by
  refine (stablySorted_mergeSort Candidate.arity _).of_filter_eq fun n => ?_
  have hbelongs : (fun c : Candidate => decide (c.arity = n) && decide (c.operation = operation)) =
      Candidate.belongs operation n := by
    funext c
    simp [Candidate.belongs, and_comm]
  rw [flatMap_members_of_operation fun b hb => h.belongs_of_mem hb, List.filter_filter,
    List.filter_filter, hbelongs]
  exact h.filter_membersOf operation n

end Lists

end CandidateIndex

/-! ### Operations -/

/-- What is done to an index. -/
inductive IndexOp where
  | publish (p : Publication)
  | clear

namespace IndexOp

/-- The candidates that an operation publishes. -/
def candidates : IndexOp → List Candidate
  | .publish p => p.candidates
  | .clear => []

def isClear : IndexOp → Bool
  | .publish _ => false
  | .clear => true

/-- The index after an operation. -/
def perform (index : CandidateIndex) : IndexOp → CandidateIndex
  | .publish p => index.add p
  | .clear => .empty

/-- What an operation can make of an index: the groups of what is published are merged in any order,
and the buckets are kept in any order. -/
inductive Yields (index : CandidateIndex) : IndexOp → CandidateIndex → Prop
  | publish {p : Publication} {groups buckets : List Bucket} :
    groups.Perm (CandidateIndex.group p.candidates) →
    buckets.Perm (CandidateIndex.merge groups index.buckets) → Yields index (.publish p) ⟨buckets⟩
  | clear : Yields index .clear .empty

/-- What an operation does is one of the things that it can do. -/
theorem yields_perform (index : CandidateIndex) (op : IndexOp) :
    op.Yields index (op.perform index) := by
  cases op with
  | clear => exact .clear
  | publish p => cases p <;> exact .publish (.refl _) (.refl _)

end IndexOp

/-- The index after operations on an empty one. -/
def CandidateIndex.after (ops : List IndexOp) : CandidateIndex :=
  ops.foldl IndexOp.perform .empty

/-- What was published since the index was cleared for the last time, in order. -/
def sinceClear (ops : List IndexOp) : List Candidate :=
  (ops.rtakeWhile fun op => !op.isClear).flatMap IndexOp.candidates

theorem sinceClear_concat_clear (ops : List IndexOp) : sinceClear (ops ++ [.clear]) = [] := by
  rw [sinceClear, List.rtakeWhile_concat_neg _ _ _ (by simp [IndexOp.isClear])]
  rfl

theorem sinceClear_concat_publish (ops : List IndexOp) (p : Publication) :
    sinceClear (ops ++ [.publish p]) = sinceClear ops ++ p.candidates := by
  rw [sinceClear, List.rtakeWhile_concat_pos _ _ _ (by simp [IndexOp.isClear]), List.flatMap_append,
    List.flatMap_singleton]
  rfl

/-- The index is what operations on an empty index can lead to. -/
inductive IndexRun : List IndexOp → CandidateIndex → Prop
  | start : IndexRun [] .empty
  | concat {ops : List IndexOp} {op : IndexOp} {index index' : CandidateIndex} :
    IndexRun ops index → op.Yields index index' → IndexRun (ops ++ [op]) index'

theorem indexRun_after (ops : List IndexOp) : IndexRun ops (.after ops) := by
  induction ops using List.reverseRecOn with
  | nil => exact .start
  | append_singleton ops op ih =>
    rw [CandidateIndex.after, List.foldl_append]
    exact ih.concat (op.yields_perform _)

/-- One operation, whatever its orders, does to the index what it does to the list. -/
theorem CandidateIndex.Lists.yields {ops : List IndexOp} {op : IndexOp}
    {index index' : CandidateIndex} (h : index.Lists (sinceClear ops))
    (hyields : op.Yields index index') : index'.Lists (sinceClear (ops ++ [op])) := by
  cases hyields with
  | clear =>
    rw [sinceClear_concat_clear]
    exact .empty
  | publish hgroups hbuckets =>
    rw [sinceClear_concat_publish]
    exact (h.publish hgroups).of_perm hbuckets

/-- **Any run leaves the buckets of what was published** since the last clearing. -/
theorem IndexRun.lists {ops : List IndexOp} {index : CandidateIndex} (h : IndexRun ops index) :
    index.Lists (sinceClear ops) := by
  induction h with
  | start => exact .empty
  | concat _ hyields ih => exact ih.yields hyields

/-- **An index is the list of what was published** since it was last cleared. A look-up by operation
and arity, a listing of an operation, and the size are those of the list; and a batch is published
like its members one by one. Whatever the orders in which groups are merged and buckets are kept,
and whatever the operations were, an index with the same list has the same buckets up to their
order, and the same answers. -/
theorem index_is_list (ops : List IndexOp) :
    let cs := sinceClear ops
    let index := CandidateIndex.after ops
    (∀ operation arity, index.bucket operation arity =
      cs.filter fun c => c.operation = operation ∧ c.arity = arity) ∧
    (∀ operation, StablySorted Candidate.arity (cs.filter fun c => c.operation = operation)
      (index.named operation)) ∧
    index.size = cs.length ∧ (index.isEmpty = true ↔ cs = []) ∧
    (∀ batch, index.publishAll batch = batch.foldl CandidateIndex.publish index) ∧
    IndexRun ops index ∧
    ∀ ops' index', IndexRun ops' index' → sinceClear ops' = cs →
      index'.buckets.Perm index.buckets ∧
      (∀ operation arity, index'.bucket operation arity = index.bucket operation arity) ∧
      (∀ operation, index'.named operation = index.named operation) ∧
      index'.size = index.size ∧ index'.isEmpty = index.isEmpty := by
  intro cs index
  have hlists : index.Lists cs := (indexRun_after ops).lists
  refine ⟨hlists.bucket_eq, hlists.stablySorted_named, hlists.size_eq, hlists.isEmpty_iff,
    index.publishAll_eq_foldl, indexRun_after ops, fun ops' index' hrun hsame => ?_⟩
  have hlists' : index'.Lists cs := hsame ▸ hrun.lists
  refine ⟨hlists.buckets_perm hlists', fun o n => ?_, fun o => ?_, ?_, ?_⟩
  · rw [hlists.bucket_eq, hlists'.bucket_eq]
  · exact (hlists'.stablySorted_named o).unique (hlists.stablySorted_named o)
  · rw [hlists.size_eq, hlists'.size_eq]
  · rw [Bool.eq_iff_iff, hlists.isEmpty_iff, hlists'.isEmpty_iff]

end MultiDispatch
