import Mathlib.Data.List.Nodup
import MultiDispatch.Candidate.Index

/-!
# What publishing does to a bucket

A batch is grouped on its own before it is merged into the index, so publishing goes through two
lists of buckets. Seen from outside there is only one thing that happens: each bucket is extended at
its end by the candidates of the batch that belong in it, in their order.

Nothing is assumed of the index. An index whose list of buckets repeats a key would look up and
extend the first of them, so the statement holds of it too. The grouped batch is different: all its
buckets are merged, so there the keys have to be distinct, which they are because grouping starts
from nothing.

## Main definitions

* `Publication`, `CandidateIndex.publishEach`: publishing single candidates and batches in turn

## Main results

* `bucket_extend`: extending one bucket
* `bucket_publishAll`: publishing a batch
* `bucket_publishEach`: publishing in turn
* `size_publishAll`: how the index grows
-/

namespace MultiDispatch

variable {operation : String} {arity : ℕ}

/-- Whether a candidate belongs in the bucket of an operation and arity. -/
def Candidate.belongs (operation : String) (arity : ℕ) (c : Candidate) : Bool :=
  c.operation = operation ∧ c.arity = arity

/-- Whether a bucket is the one of an operation and arity. -/
def Bucket.isFor (operation : String) (arity : ℕ) (b : Bucket) : Bool :=
  b.operation = operation ∧ b.arity = arity

/-- What a bucket is found by. -/
def Bucket.key (b : Bucket) : String × ℕ :=
  (b.operation, b.arity)

theorem Bucket.isFor_iff {b : Bucket} :
    b.isFor operation arity = true ↔ b.key = (operation, arity) := by
  simp [Bucket.isFor, Bucket.key]

namespace CandidateIndex

theorem bucket_nil : (⟨[]⟩ : CandidateIndex).bucket operation arity = [] := rfl

theorem bucket_cons (b : Bucket) (rest : List Bucket) :
    (⟨b :: rest⟩ : CandidateIndex).bucket operation arity =
      if b.isFor operation arity then b.members
      else (⟨rest⟩ : CandidateIndex).bucket operation arity := by
  by_cases h : b.isFor operation arity = true
  · have hfind : (b :: rest).find? (fun b => b.operation = operation ∧ b.arity = arity) = some b :=
      List.find?_cons_of_pos h
    rw [if_pos h, bucket, hfind]
  · have hfind : (b :: rest).find? (fun b => b.operation = operation ∧ b.arity = arity) =
        rest.find? fun b => b.operation = operation ∧ b.arity = arity := List.find?_cons_of_neg h
    rw [if_neg h, bucket, bucket, hfind]

theorem bucket_extend (o : String) (n : ℕ) (added : List Candidate) (buckets : List Bucket) :
    (⟨extend o n added buckets⟩ : CandidateIndex).bucket operation arity =
      (⟨buckets⟩ : CandidateIndex).bucket operation arity ++
        if o = operation ∧ n = arity then added else [] := by
  induction buckets with
  | nil =>
    rw [extend, bucket_cons, bucket_nil]
    simp [Bucket.isFor]
  | cons b rest ih =>
    by_cases hb : b.operation = o ∧ b.arity = n
    · obtain ⟨rfl, rfl⟩ := hb
      rw [extend, if_pos ⟨rfl, rfl⟩, bucket_cons, bucket_cons]
      by_cases hkey : b.operation = operation ∧ b.arity = arity <;> simp [Bucket.isFor, hkey]
    · rw [extend, if_neg hb, bucket_cons, bucket_cons, ih]
      by_cases hkey : b.isFor operation arity = true
      · have hother : ¬ (o = operation ∧ n = arity) := by
          rintro ⟨rfl, rfl⟩
          exact hb (by simpa [Bucket.isFor] using hkey)
        simp [hkey, hother]
      · simp [hkey]

/-- Merging buckets into an index, one after the other. -/
theorem bucket_foldl_extend (groups buckets : List Bucket) :
    (⟨groups.foldl (fun buckets b => extend b.operation b.arity b.members buckets) buckets⟩ :
        CandidateIndex).bucket operation arity =
      (⟨buckets⟩ : CandidateIndex).bucket operation arity ++
        (groups.filter (Bucket.isFor operation arity)).flatMap Bucket.members := by
  induction groups generalizing buckets with
  | nil => simp
  | cons g groups ih =>
    rw [List.foldl_cons, ih, bucket_extend, List.filter_cons]
    by_cases hg : g.operation = operation ∧ g.arity = arity
    · simp [Bucket.isFor, hg]
    · simp [Bucket.isFor, hg]

/-! ### Grouping a batch -/

theorem map_key_extend (o : String) (n : ℕ) (added : List Candidate) (buckets : List Bucket) :
    (extend o n added buckets).map Bucket.key =
      if (o, n) ∈ buckets.map Bucket.key then buckets.map Bucket.key
      else buckets.map Bucket.key ++ [(o, n)] := by
  induction buckets with
  | nil => rfl
  | cons b rest ih =>
    by_cases hb : b.operation = o ∧ b.arity = n
    · obtain ⟨rfl, rfl⟩ := hb
      rw [extend, if_pos ⟨rfl, rfl⟩]
      simp [Bucket.key]
    · have hne : (o, n) ≠ b.key := fun h => hb (by simpa [Bucket.key, eq_comm] using h)
      rw [extend, if_neg hb, List.map_cons, ih]
      by_cases hmem : (o, n) ∈ rest.map Bucket.key
      · rw [if_pos hmem, List.map_cons, if_pos (List.mem_cons_of_mem _ hmem)]
      · rw [if_neg hmem, List.map_cons, if_neg (by simpa [hne] using hmem), List.cons_append]

theorem nodup_key_extend {o : String} {n : ℕ} {added : List Candidate} {buckets : List Bucket}
    (h : (buckets.map Bucket.key).Nodup) : ((extend o n added buckets).map Bucket.key).Nodup := by
  rw [map_key_extend]
  split_ifs with hmem
  · exact h
  · simpa using h.concat hmem

/-- With distinct keys there is one bucket to merge at most. -/
theorem flatMap_members_of_nodup {buckets : List Bucket} (h : (buckets.map Bucket.key).Nodup) :
    (buckets.filter (Bucket.isFor operation arity)).flatMap Bucket.members =
      (⟨buckets⟩ : CandidateIndex).bucket operation arity := by
  induction buckets with
  | nil => rfl
  | cons b rest ih =>
    rw [List.map_cons, List.nodup_cons] at h
    rw [bucket_cons, List.filter_cons]
    by_cases hb : b.isFor operation arity = true
    · have hrest : rest.filter (Bucket.isFor operation arity) = [] := by
        refine List.filter_eq_nil_iff.2 fun g hg hkey => h.1 ?_
        rw [Bucket.isFor_iff.1 hb, ← Bucket.isFor_iff.1 hkey]
        exact List.mem_map_of_mem hg
      simp [hb, hrest]
    · rw [if_neg hb, if_neg hb, ih h.2]

theorem nodup_key_group (batch : List Candidate) : ((group batch).map Bucket.key).Nodup := by
  have key : ∀ buckets : List Bucket, (buckets.map Bucket.key).Nodup →
      ((batch.foldl (fun buckets c => extend c.operation c.arity [c] buckets) buckets).map
        Bucket.key).Nodup := by
    induction batch with
    | nil => exact fun _ h => h
    | cons c rest ih => exact fun buckets h => ih _ (nodup_key_extend h)
  exact key [] List.nodup_nil

theorem bucket_group (batch : List Candidate) :
    (⟨group batch⟩ : CandidateIndex).bucket operation arity =
      batch.filter (Candidate.belongs operation arity) := by
  have key : ∀ buckets : List Bucket,
      (⟨batch.foldl (fun buckets c => extend c.operation c.arity [c] buckets) buckets⟩ :
          CandidateIndex).bucket operation arity =
        (⟨buckets⟩ : CandidateIndex).bucket operation arity ++
          batch.filter (Candidate.belongs operation arity) := by
    induction batch with
    | nil => simp
    | cons c rest ih =>
      intro buckets
      rw [List.foldl_cons, ih, bucket_extend, List.filter_cons]
      by_cases hc : c.operation = operation ∧ c.arity = arity <;> simp [Candidate.belongs, hc]
  exact key []

/-- **Publishing extends each bucket at its end** by the candidates of the batch that belong in
it. -/
theorem bucket_publishAll (index : CandidateIndex) (batch : List Candidate) :
    (index.publishAll batch).bucket operation arity =
      index.bucket operation arity ++ batch.filter (Candidate.belongs operation arity) := by
  rw [publishAll, bucket_foldl_extend, flatMap_members_of_nodup (nodup_key_group batch),
    bucket_group]

/-! ### The number of candidates -/

/-- The candidates in some buckets. -/
def membersOf (buckets : List Bucket) : List Candidate :=
  buckets.flatMap Bucket.members

@[simp] theorem membersOf_nil : membersOf [] = [] := rfl

@[simp] theorem membersOf_cons (b : Bucket) (rest : List Bucket) :
    membersOf (b :: rest) = b.members ++ membersOf rest := rfl

theorem length_membersOf_extend (o : String) (n : ℕ) (added : List Candidate)
    (buckets : List Bucket) :
    (membersOf (extend o n added buckets)).length = (membersOf buckets).length + added.length := by
  induction buckets with
  | nil => simp [extend]
  | cons b rest ih =>
    rw [extend]
    split
    · simp only [membersOf_cons, List.length_append]
      omega
    · simp only [membersOf_cons, List.length_append, ih]
      omega

theorem length_membersOf_foldl_extend (groups buckets : List Bucket) :
    (membersOf (groups.foldl (fun buckets b => extend b.operation b.arity b.members buckets)
      buckets)).length = (membersOf buckets).length + (membersOf groups).length := by
  induction groups generalizing buckets with
  | nil => rfl
  | cons g groups ih =>
    rw [List.foldl_cons, ih, length_membersOf_extend, membersOf_cons, List.length_append]
    omega

theorem length_membersOf_group (batch : List Candidate) :
    (membersOf (group batch)).length = batch.length := by
  have key : ∀ buckets : List Bucket,
      (membersOf (batch.foldl (fun buckets c => extend c.operation c.arity [c] buckets)
        buckets)).length = (membersOf buckets).length + batch.length := by
    induction batch with
    | nil => exact fun _ => rfl
    | cons c rest ih =>
      intro buckets
      rw [List.foldl_cons, ih, length_membersOf_extend, List.length_singleton, List.length_cons]
      omega
  have hlen := key []
  rwa [membersOf_nil, List.length_nil, Nat.zero_add] at hlen

/-- Grouping a batch neither loses nor repeats a candidate, and neither does merging the groups. -/
theorem size_publishAll (index : CandidateIndex) (batch : List Candidate) :
    (index.publishAll batch).size = index.size + batch.length := by
  have hlen := length_membersOf_foldl_extend (group batch) index.buckets
  rwa [length_membersOf_group] at hlen

end CandidateIndex

/-! ### Publishing in turn -/

/-- What is published at once. -/
inductive Publication where
  | single (c : Candidate)
  | batch (cs : List Candidate)

/-- The candidates that a publication publishes. -/
def Publication.candidates : Publication → List Candidate
  | .single c => [c]
  | .batch cs => cs

/-- The candidates that publications publish one after the other. -/
def published (ps : List Publication) : List Candidate :=
  ps.flatMap Publication.candidates

namespace CandidateIndex

/-- The index after a publication. -/
def add (index : CandidateIndex) : Publication → CandidateIndex
  | .single c => index.publish c
  | .batch cs => index.publishAll cs

/-- The index after publications one after the other. -/
def publishEach (index : CandidateIndex) (ps : List Publication) : CandidateIndex :=
  ps.foldl add index

theorem bucket_add (index : CandidateIndex) (p : Publication) :
    (index.add p).bucket operation arity =
      index.bucket operation arity ++ p.candidates.filter (Candidate.belongs operation arity) := by
  cases p with
  | single c => exact bucket_publishAll index [c]
  | batch cs => exact bucket_publishAll index cs

/-- How candidates are divided among publications makes no difference to the buckets. -/
theorem bucket_publishEach (index : CandidateIndex) (ps : List Publication) :
    (index.publishEach ps).bucket operation arity = index.bucket operation arity ++
      (published ps).filter (Candidate.belongs operation arity) := by
  induction ps generalizing index with
  | nil => exact (List.append_nil _).symm
  | cons p ps ih =>
    have hstep : index.publishEach (p :: ps) = (index.add p).publishEach ps := rfl
    rw [hstep, ih, bucket_add, published, published, List.flatMap_cons, List.filter_append,
      List.append_assoc]

end CandidateIndex

end MultiDispatch
