import Shardd.Isolation.Programs
import Shardd.Recovery.Lifetime

/-!
# Buckets do not interfere

A deletion, a flush and a sweep touch several buckets at once.  What reaches one bucket of them is
its share: the tombstone and the outcome of the cascade, the stored rows and the marks, the time of
the sweep.  Two runs whose operations have the same shares in a bucket, one after the other, leave
the bucket in the same state and give the same answers to the requests on it, whatever else they do.
-/

namespace Shardd

variable {D : Type}

/-! ## Operations on several buckets -/

namespace SharedState

variable {s s' : SharedState D} {c target bucket : String}

lemma Filed.of_cache (h : s.Filed) (hcache : s'.idempotencyCache = s.idempotencyCache) :
    s'.Filed := by
  intro key e he
  rw [hcache] at he
  exact h key e he

lemma Filed.stripBucket (h : s.Filed) (target : String) : (s.stripBucket target).Filed := by
  intro key e he
  have hcache : (s.idempotencyCache.retain fun k => k.2.1 != target) key = some e := he
  exact h key e (Map.of_retain hcache).1

/-- A deletion strips its own bucket only. -/
lemma sameBucket_stripBucket (hc : c ≠ target) (s : SharedState D) :
    SameBucket c s (s.stripBucket target) := by
  have hkeep : ∀ {κ ν : Type} (m : Map κ ν) (f : κ → String) (k : κ), f k = c →
      m k = (m.retain fun k => f k != target) k := by
    intro κ ν m f k hk
    rw [Map.retain_ne_apply m k f, if_neg fun h => hc (hk.symm.trans h)]
  exact { SameBucket.refl c s with
    bucketAllocators := (setSlot_bucketAllocators_of_ne _ hc).symm
    heads := fun k hk => hkeep s.heads Prod.fst k hk
    pendingSeqs := fun k hk => hkeep s.pendingSeqs Prod.fst k hk
    maxKnownSeqs := fun k hk => hkeep s.maxKnownSeqs Prod.fst k hk
    digests := fun k hk => hkeep s.digests Prod.fst k hk
    eventBuffer := fun k hk => hkeep s.eventBuffer Prod.fst k hk
    unpersisted := fun k hk => hkeep s.unpersisted Prod.fst k hk
    accounts := fun k hk => hkeep s.accounts Prod.fst k hk
    accountOriginEpochs := fun k hk => hkeep s.accountOriginEpochs Prod.fst k hk
    idempotencyCache := fun k hk => hkeep s.idempotencyCache (fun k => k.2.1) k hk }

end SharedState

lemma SameBucket.stripBucket {s s' : SharedState D} {target : String} (h : SameBucket target s s') :
    SameBucket target (s.stripBucket target) (s'.stripBucket target) := by
  have hgone : ∀ {κ ν : Type} (m m' : Map κ ν) (f : κ → String) (k : κ), f k = target →
      (m.retain fun k => f k != target) k = (m'.retain fun k => f k != target) k := by
    intro κ ν m m' f k hk
    rw [Map.retain_ne_apply m k f, Map.retain_ne_apply m' k f, if_pos hk, if_pos hk]
  exact { h with
    bucketAllocators := by
      unfold SharedState.stripBucket SharedState.forgetAllocator
      rw [SharedState.setSlot_bucketAllocators, SharedState.setSlot_bucketAllocators]
      exact congrArg AllocatorSlot.forget h.bucketAllocators
    heads := fun k hk => hgone s.heads s'.heads Prod.fst k hk
    pendingSeqs := fun k hk => hgone s.pendingSeqs s'.pendingSeqs Prod.fst k hk
    maxKnownSeqs := fun k hk => hgone s.maxKnownSeqs s'.maxKnownSeqs Prod.fst k hk
    digests := fun k hk => hgone s.digests s'.digests Prod.fst k hk
    eventBuffer := fun k hk => hgone s.eventBuffer s'.eventBuffer Prod.fst k hk
    unpersisted := fun k hk => hgone s.unpersisted s'.unpersisted Prod.fst k hk
    accounts := fun k hk => hgone s.accounts s'.accounts Prod.fst k hk
    accountOriginEpochs := fun k hk =>
      hgone s.accountOriginEpochs s'.accountOriginEpochs Prod.fst k hk
    idempotencyCache := fun k hk =>
      hgone s.idempotencyCache s'.idempotencyCache (fun k => k.2.1) k hk }

namespace Storage

variable {st st' : Storage D} {c target : String}

lemma sameBucket_deleteBucketCascade (hc : c ≠ target) (st : Storage D) :
    st.SameBucket c (st.deleteBucketCascade target) := by
  constructor
  · rw [deleteBucketCascade, List.filter_filter]
    refine List.filter_congr fun e _ => ?_
    by_cases he : e.bucket = c
    · simp [he, hc]
    · simp [he]
  · intro k hk
    exact (Map.retain_ne_apply st.digests k Prod.fst target).trans
      (if_neg fun h => hc (hk.symm.trans h)) |>.symm
  · intro k hk
    exact (Map.retain_ne_apply st.bucketAllocators k Prod.fst target).trans
      (if_neg fun h => hc (hk.symm.trans h)) |>.symm

lemma SameBucket.deleteBucketCascade (st st' : Storage D) :
    (st.deleteBucketCascade target).SameBucket target (st'.deleteBucketCascade target) := by
  have hnone : ∀ st : Storage D,
      (st.deleteBucketCascade target).events.filter (fun e => e.bucket = target) = [] := by
    intro st
    rw [Storage.deleteBucketCascade, List.filter_filter]
    refine List.filter_eq_nil_iff.2 fun e _ => ?_
    by_cases he : e.bucket = target
    · simp [he]
    · simp [he]
  constructor
  · rw [hnone, hnone]
  · intro k hk
    exact ((Map.retain_ne_apply st.digests k Prod.fst target).trans (if_pos hk)).trans
      ((Map.retain_ne_apply st'.digests k Prod.fst target).trans (if_pos hk)).symm
  · intro k hk
    exact ((Map.retain_ne_apply st.bucketAllocators k Prod.fst target).trans (if_pos hk)).trans
      ((Map.retain_ne_apply st'.bucketAllocators k Prod.fst target).trans (if_pos hk)).symm

end Storage

section Delete

variable {s s' : SharedState D} {c target : String} {env env' : Env D}

variable (env) in
lemma sameBucket_deleted (hc : c ≠ target) (s : SharedState D) (time : ℕ) :
    SameBucket c s (s.deleted env target time) := by
  have hst : s.storage.SameBucket c (s.deleted env target time).storage := by
    rw [SharedState.storage_deleted_eq]
    split
    · exact .refl c _
    · exact Storage.sameBucket_deleteBucketCascade hc _
  rw [SharedState.deleted_frame]
  refine SameBucket.trans ?_ (SharedState.sameBucket_stripBucket hc _)
  exact { SameBucket.refl c s with
    storage := hst
    deletedBuckets := (Map.insert_of_ne _ _ _ hc).symm }

/-- Two deletions of a bucket at one time and with one outcome. -/
lemma SameBucket.deleted (h : SameBucket target s s')
    (houtcome : env.storageOutcome s.storageCalls = env'.storageOutcome s'.storageCalls)
    (time : ℕ) : SameBucket target (s.deleted env target time) (s'.deleted env' target time) := by
  have hst : (s.deleted env target time).storage.SameBucket target
      (s'.deleted env' target time).storage := by
    rw [SharedState.storage_deleted_eq, SharedState.storage_deleted_eq, houtcome]
    split
    · exact h.storage
    · exact Storage.SameBucket.deleteBucketCascade _ _
  rw [SharedState.deleted_frame env s, SharedState.deleted_frame env' s']
  refine SameBucket.stripBucket { h with storage := hst, deletedBuckets := ?_ }
  exact (Map.insert_self _ _ _).trans (Map.insert_self _ _ _).symm

lemma SharedState.Filed.deleted (h : s.Filed) (env : Env D) (target : String) (time : ℕ) :
    (s.deleted env target time).Filed := by
  rw [SharedState.deleted_frame]
  exact SharedState.Filed.stripBucket (h.of_cache rfl) target

end Delete

section Persist

variable {s s' : SharedState D} {c b : String}

lemma sameBucket_markPersistedKey {key : OriginKey} (hc : key.1 ≠ c) (s : SharedState D) :
    SameBucket c s (s.markPersistedKey key) := by
  have hne : ∀ k : OriginKey, k.1 = c → k ≠ key := by
    rintro k hk rfl
    exact hc hk
  have hmarked : SameBucket c s { s with unpersisted := s.unpersisted.remove key } :=
    { SameBucket.refl c s with
      unpersisted := fun k hk => (Map.remove_of_ne _ _ (hne k hk)).symm }
  unfold SharedState.markPersistedKey
  dsimp only
  split
  · exact { hmarked with eventBuffer := fun k hk => (Map.remove_of_ne _ _ (hne k hk)).symm }
  · exact hmarked

lemma SameBucket.markPersistedKey (h : SameBucket b s s') {key : OriginKey} (hkey : key.1 = b) :
    SameBucket b (s.markPersistedKey key) (s'.markPersistedKey key) := by
  have hepoch : key.epoch.1 = b := hkey
  have hmarked : SameBucket b { s with unpersisted := s.unpersisted.remove key }
      { s' with unpersisted := s'.unpersisted.remove key } :=
    { h with unpersisted := fun k hk => Map.remove_congr (h.unpersisted k hk) }
  unfold SharedState.markPersistedKey
  dsimp only
  rw [h.head hepoch, h.pending hepoch]
  split
  · exact { hmarked with eventBuffer := fun k hk => Map.remove_congr (h.eventBuffer k hk) }
  · exact hmarked

/-- Marks are seen by their own buckets. -/
lemma SameBucket.markPersisted (h : SameBucket b s s') {keys keys' : List OriginKey}
    (hkeys : keys.filter (fun k => k.1 = b) = keys'.filter fun k => k.1 = b) :
    SameBucket b (s.markPersisted keys) (s'.markPersisted keys') := by
  have hown : ∀ (keys : List OriginKey) (s s' : SharedState D), SameBucket b s s' →
      SameBucket b (s.markPersisted keys) (s'.markPersisted (keys.filter fun k => k.1 = b)) := by
    intro keys
    induction keys with
    | nil => exact fun _ _ h => h
    | cons key keys ih =>
        intro s s' h
        by_cases hkey : key.1 = b
        · rw [List.filter_cons_of_pos (by simpa using hkey)]
          exact ih _ _ (h.markPersistedKey hkey)
        · rw [List.filter_cons_of_neg (by simpa using hkey)]
          exact ih _ _ ((sameBucket_markPersistedKey hkey s).symm.trans h)
  have hright := hown keys' s' s h.symm
  rw [← hkeys] at hright
  exact (hown keys s s (.refl b s)).trans hright.symm

lemma SameBucket.sweepExpired (h : SameBucket b s s') (now : ℕ) :
    SameBucket b (s.sweepExpired now) (s'.sweepExpired now) := by
  refine { h with accounts := fun k hk => ?_ }
  unfold SharedState.sweepExpired
  dsimp only
  rw [h.accountLocks k hk, h.accounts k hk]

/-- A flush adds rows, which are events of its batch. -/
lemma Storage.insertEventsBulk_events (st : Storage D) (es : List Event) :
    ∃ rows ⊆ es, (st.insertEventsBulk es).events = st.events ++ rows := by
  induction es generalizing st with
  | nil => exact ⟨[], List.Subset.refl _, (List.append_nil _).symm⟩
  | cons e es ih =>
      obtain ⟨rows, hrows, h⟩ := ih (st.insertEvent e).2
      change ∃ rows ⊆ e :: es, ((st.insertEvent e).2.insertEventsBulk es).events = _
      rcases st.insertEvent_events e with he | ⟨-, he⟩
      · exact ⟨rows, List.subset_cons_of_subset e hrows, h.trans (by rw [he])⟩
      · refine ⟨e :: rows, List.cons_subset_cons e hrows, ?_⟩
        rw [h, he, List.append_assoc, List.singleton_append]

end Persist

/-! ## Shares -/

/-- An operation of a node and the world it meets.  The readings of the clock, the ids and the
outcomes of the storage calls are counted from the start of the operation. -/
structure Command (D : Type) where
  op : LifeOp
  env : Env D

/-- What an operation is to one bucket. -/
inductive Share (D : Type)
  | create (input : LocalCreateInput) (env : Env D)
  | insert (e : Event) (env : Env D)
  /-- A request to delete the bucket, and what the meta bucket answers to it. -/
  | delete (granted : Option (Except StorageError (ℕ × StorageOutcome)))
  /-- A replicated event that deletes the bucket. -/
  | tombstone (time : ℕ) (outcome : StorageOutcome)
  /-- The events of the bucket that a flush stores, and those that it marks. -/
  | flush (rows : List Event) (marks : List OriginKey)
  | persist (marks : List OriginKey)
  | sweep (now : ℕ)

/-- What a request on a bucket is answered. -/
inductive Answer
  | created (r : Option (Except CreateLocalEventError LocalCreateResult))
  | inserted (r : Option Bool)
  /-- The event of a deletion is one of the meta bucket. -/
  | deleted (r : Option (Except CreateLocalEventError Unit))
  | silent

namespace SharedState

variable (s : SharedState D)

/-- The state in which an operation starts to count. -/
def rewound : SharedState D := { s with clockReads := 0, idsDrawn := 0, storageCalls := 0 }

instance (e : Event) : Decidable (s.Admits e) :=
  decidable_of_iff (s.deletedBuckets.containsKey e.bucket = false ∧ s.eventIsPresent e = false ∧
    s.eventBuffer e.originKey = none)
    ⟨fun h => ⟨h.1, h.2.1, h.2.2⟩, fun h => ⟨h.deleted, h.present, h.buffer⟩⟩

/-- The state after a bucket has been deleted at a time, with an outcome of the storage call. -/
def entombed (bucket : String) (time : ℕ) (outcome : StorageOutcome) : SharedState D :=
  ({ s with
    storage := if outcome = .failed then s.storage else s.storage.deleteBucketCascade bucket
    deletedBuckets := s.deletedBuckets.insert bucket time } : SharedState D).stripBucket bucket

/-- The bucket is not there to be deleted. -/
def RefusesDelete (bucket : String) : Prop :=
  (bucket = metaBucket ∨ isReservedBucketName bucket = true) ∨
    s.deletedBuckets.containsKey bucket = true

instance (bucket : String) : Decidable (s.RefusesDelete bucket) :=
  inferInstanceAs (Decidable (_ ∨ _))

end SharedState

/-- What the meta bucket answers to a request to delete a bucket: an identity for the event of the
deletion, and with it the time of the deletion and the outcome of its storage call. -/
def metaGrant (env : Env D) (s : SharedState D) :
    Option (Except StorageError (ℕ × StorageOutcome)) :=
  let (r, s₁) := NodeM.exec (allocate env metaBucket).run s
  r.map fun r => r.map fun _ => (env.clock s₁.clockReads, env.storageOutcome s₁.storageCalls)

namespace Command

variable (c : Command D) (s : SharedState D) (bucket : String)

def after : SharedState D := (NodeM.exec (c.op.program c.env) s.rewound).2

/-- The events of the bucket that the operation adds to the stored ones. -/
def stored : List Event :=
  ((c.after s).storage.events.filter fun e => e.bucket = bucket).drop
    (s.storage.events.filter fun e => e.bucket = bucket).length

/-- The share of the operation in a bucket other than the meta bucket. -/
def share : Option (Share D) :=
  match c.op with
  | .node (.create input) => if input.bucket = bucket then some (.create input c.env) else none
  | .node (.insert e) =>
      if e.bucket = bucket then some (.insert e c.env)
      else if s.Admits e ∧ e.metaTargetBucket = some bucket then
        some (.tombstone e.createdAtUnixMs (c.env.storageOutcome 0))
      else none
  | .node (.flush batch) =>
      if ∃ e ∈ batch, e.bucket = bucket then
        some (.flush (c.stored s bucket) (if c.env.storageOutcome 0 = .ok then
          (batch.map Event.originKey).filter fun key => key.1 = bucket else []))
      else none
  | .node (.persist keys) =>
      if ∃ key ∈ keys, key.1 = bucket then some (.persist (keys.filter fun key => key.1 = bucket))
      else none
  | .node .sweep => some (.sweep (c.env.clock 0))
  | .delete target _ =>
      if target = bucket then
        some (.delete (if s.RefusesDelete bucket then none else metaGrant c.env s.rewound))
      else none

/-- What the operation answers to a request on the bucket. -/
def answer : Answer :=
  match c.op with
  | .node (.create input) => .created (NodeM.exec (createLocalEvents c.env input).run s.rewound).1
  | .node (.insert e) =>
      if e.bucket = bucket then .inserted (NodeM.exec (insertEvent c.env e) s.rewound).1
      else .silent
  | .node _ => .silent
  | .delete target reason =>
      .deleted ((NodeM.exec (createMetaBucketDelete c.env target reason).run s.rewound).1.map
        fun r => r.map fun _ => ())

end Command

namespace Share

variable (bucket : String) (s : SharedState D)

/-- The share is one of the bucket; a replicated event that deletes a bucket is no share of its
own bucket, which is the meta bucket. -/
def Of : Share D → Prop
  | .create input _ => input.bucket = bucket
  | .insert e _ => e.bucket = bucket ∧ e.metaTargetBucket = none
  | _ => True

/-- The effect of a share on its bucket. -/
def effect : Share D → SharedState D
  | .create input env => (NodeM.exec (createLocalEvents env input).run s.rewound).2
  | .insert e env => (NodeM.exec (insertEvent env e) s.rewound).2
  | .delete granted =>
      match granted with
      | some (.ok (time, outcome)) =>
          if s.RefusesDelete bucket then s else s.entombed bucket time outcome
      | _ => s
  | .tombstone time outcome => s.entombed bucket time outcome
  | .flush rows marks =>
      { s with storage := { s.storage with events := s.storage.events ++ rows } }.markPersisted
        marks
  | .persist marks => s.markPersisted marks
  | .sweep now => s.sweepExpired now

/-- What the owner of a share is answered. -/
def answer : Share D → Answer
  | .create input env => .created (NodeM.exec (createLocalEvents env input).run s.rewound).1
  | .insert e env => .inserted (NodeM.exec (insertEvent env e) s.rewound).1
  | .delete granted =>
      .deleted (if s.RefusesDelete bucket then
        some (.error (if bucket = metaBucket ∨ isReservedBucketName bucket = true then
          .bucketReserved bucket else .bucketDeleted bucket))
      else granted.map fun r => (r.map fun _ => ()).mapError fun _ =>
        .insufficientFunds 0 0 0 false)
  | _ => .silent

end Share

section Shares

variable {s s' : SharedState D} {bucket : String}

lemma SameBucket.rewound (h : SameBucket bucket s s') : SameBucket bucket s.rewound s'.rewound :=
  { h with }

lemma sameBucket_rewound (bucket : String) (s : SharedState D) : SameBucket bucket s s.rewound :=
  { SameBucket.refl bucket s with }

lemma SameBucket.refusesDelete (h : SameBucket bucket s s') :
    s.RefusesDelete bucket ↔ s'.RefusesDelete bucket := by
  unfold SharedState.RefusesDelete
  rw [Map.containsKey, Map.containsKey, h.deletedBuckets]

lemma SameBucket.entombed (h : SameBucket bucket s s') (time : ℕ) (outcome : StorageOutcome) :
    SameBucket bucket (s.entombed bucket time outcome) (s'.entombed bucket time outcome) := by
  refine SameBucket.stripBucket { h with storage := ?_, deletedBuckets := ?_ }
  · dsimp only
    split
    · exact h.storage
    · exact Storage.SameBucket.deleteBucketCascade _ _
  · exact (Map.insert_self _ _ _).trans (Map.insert_self _ _ _).symm

/-- A deletion is that of its time and of the outcome of its call. -/
lemma sameBucket_entombed (env : Env D) (s : SharedState D) (time : ℕ) :
    SameBucket bucket (s.deleted env bucket time)
      (s.entombed bucket time (env.storageOutcome s.storageCalls)) := by
  rw [SharedState.deleted_frame, SharedState.storage_deleted_eq]
  exact SameBucket.stripBucket { SameBucket.refl bucket _ with }

/-- The effect of a share and its answer depend on the bucket alone. -/
theorem SameBucket.effect (hs : s.Filed) (hs' : s'.Filed) (h : SameBucket bucket s s')
    {x : Share D} (hx : x.Of bucket) :
    SameBucket bucket (x.effect bucket s) (x.effect bucket s') ∧
      x.answer bucket s = x.answer bucket s' := by
  have hcounters : s.rewound.SameCounters s'.rewound := ⟨rfl, rfl, rfl⟩
  cases x with
  | create input env =>
      obtain rfl : input.bucket = bucket := hx
      obtain ⟨hsame, -, hanswer⟩ := (confinedTo_createLocalEvents env input).tracks s.rewound
        s'.rewound hs hs' h.rewound hcounters
      exact ⟨hsame, congrArg Answer.created hanswer⟩
  | insert e env =>
      obtain ⟨rfl, hmeta⟩ := hx
      obtain ⟨hsame, -, hanswer⟩ := (confinedTo_insertEvent env hmeta).tracks s.rewound
        s'.rewound hs hs' h.rewound hcounters
      exact ⟨hsame, congrArg Answer.inserted hanswer⟩
  | delete granted =>
      unfold Share.effect Share.answer
      simp only [h.refusesDelete]
      refine ⟨?_, trivial⟩
      split
      · split
        · exact h
        · exact h.entombed _ _
      · exact h
  | tombstone time outcome => exact ⟨h.entombed time outcome, rfl⟩
  | flush rows marks =>
      refine ⟨SameBucket.markPersisted ?_ rfl, rfl⟩
      refine { h with storage := { h.storage with events := ?_ } }
      rw [List.filter_append, List.filter_append, h.storage.events]
  | persist marks => exact ⟨h.markPersisted rfl, rfl⟩
  | sweep now => exact ⟨h.sweepExpired now, rfl⟩

end Shares

/-! ## Operations and their shares -/

section Steps

variable {s s₁ : SharedState D} {c bucket target : String} (env : Env D)

/-- The state a sequence leaves is that of its first part when the second does nothing. -/
lemma exec_discard {α : Type} (t : NodeM D α) (s : SharedState D) :
    (NodeM.exec (t >>= fun _ => pure ()) s).2 = (NodeM.exec t s).2 := by
  simp only [NodeM.exec, Proc.exec_bind]
  rcases Proc.exec Wait.ready t s with ⟨_ | a, s'⟩ <;> rfl

/-- A replicated event of another bucket leaves a bucket as its cascade does. -/
lemma sameBucket_insertEvent {e : Event} (hs : s.Filed) (hadmits : s.Admits e) :
    (NodeM.exec (insertEvent env e) s).2.Filed ∧
      ∀ c, c ≠ e.bucket → SameBucket c (s.cleared env e) (NodeM.exec (insertEvent env e) s).2 := by
  have hcleared : (s.cleared env e).Filed := by
    unfold SharedState.cleared
    split
    · split
      · exact hs.deleted env _ _
      · exact hs
    · exact hs
  set s₁ : SharedState D := { s.cleared env e with
    eventBuffer := (s.cleared env e).eventBuffer.insert e.originKey e } with hs₁
  have hfiled : s₁.Filed := hcleared
  have hconfined := confinedTo_acceptEvent env e
  have hexec : NodeM.exec (insertEvent env e) s = NodeM.exec (acceptEvent env e) s₁ := by
    rw [exec_insertEvent_of_admits env e hadmits, exec_cascadeOf, SharedState.cleared_insert,
      Proc.andThen_some]
  rw [hexec]
  refine ⟨hconfined.inv s₁ hfiled, fun c hc => ?_⟩
  have hclaimed : SameBucket c (s.cleared env e) s₁ :=
    { SameBucket.refl c (s.cleared env e) with
      eventBuffer := fun k hk =>
        (Map.insert_of_ne _ _ _ (ne_of_bucket_ne Prod.fst hc hk rfl)).symm }
  exact hclaimed.trans (hconfined.spares c hc s₁ hfiled)

lemma sameBucket_cleared {e : Event} (hc : e.metaTargetBucket ≠ some c) (s : SharedState D) :
    SameBucket c s (s.cleared env e) := by
  unfold SharedState.cleared
  split
  · rename_i target hmeta
    have hne : c ≠ target := fun h => hc (h ▸ hmeta)
    split
    · exact sameBucket_deleted env hne s _
    · exact .refl c s
  · exact .refl c s

/-- What follows the deletion of a bucket is a matter of the meta bucket. -/
lemma sameBucket_tombstoned (hs : s₁.Filed) (hc : c ≠ metaBucket) {e : Event}
    (he : e.bucket = metaBucket) (time : ℕ) :
    ((((s₁.tick).built e).deleted env target time).recordLocal env e).Filed ∧
      SameBucket c (s₁.deleted env target time)
        ((((s₁.tick).built e).deleted env target time).recordLocal env e) := by
  have hrecord := confinedTo_recordNewLocalEvent env he
  have hexec := exec_recordNewLocalEvent env e (((s₁.tick).built e).deleted env target time)
  have hbuiltFiled : ((s₁.tick).built e).Filed := hs
  have hfiled := hbuiltFiled.deleted env target time
  have hinv := hrecord.inv _ hfiled
  have hspares := hrecord.spares c hc _ hfiled
  simp only [NodeM.exec] at hexec
  rw [hexec] at hinv hspares
  refine ⟨hinv, SameBucket.trans ?_ hspares⟩
  have hbuilt : SameBucket c s₁ ((s₁.tick).built e) := by
    refine { SameBucket.refl c s₁ with minted := ?_ }
    exact filter_append_of_ne hc he
  by_cases htarget : c = target
  · subst htarget
    exact hbuilt.deleted rfl time
  · exact (sameBucket_deleted env htarget s₁ time).symm.trans
      (hbuilt.trans (sameBucket_deleted env htarget _ time))

/-- What a request to delete a bucket is to the buckets other than the meta bucket. -/
lemma createMetaBucketDelete_cases (reason : Option String) (hs : s.Filed)
    (hrefuses : ¬ s.RefusesDelete target) :
    (NodeM.exec (createMetaBucketDelete env target reason).run s).2.Filed ∧
      match NodeM.exec (allocate env metaBucket).run s with
      | (some (.ok _), s₁) => ∀ c, c ≠ metaBucket → SameBucket c s s₁ ∧
            SameBucket c (s₁.deleted env target (env.clock s₁.clockReads))
              (NodeM.exec (createMetaBucketDelete env target reason).run s).2
      | _ => ∀ c, c ≠ metaBucket →
          SameBucket c s (NodeM.exec (createMetaBucketDelete env target reason).run s).2 := by
  obtain ⟨hreserved, hagain⟩ := not_or.1 hrefuses
  have htarget : target ≠ metaBucket := fun h => hreserved (.inl h)
  have hconfined := confinedTo_allocate metaBucket env
  have hinv := hconfined.inv s hs
  have hspares := fun c hc => hconfined.spares c hc s hs
  rcases hrun : NodeM.exec (allocate env metaBucket).run s with ⟨r, s₁⟩
  have hexec := exec_createMetaBucketDelete_of_allocate env reason hreserved
    (Bool.eq_false_iff.2 hagain) hrun
  simp only [NodeM.exec] at hrun
  rw [hrun] at hinv
  simp only [hrun] at hspares
  rw [hexec]
  rcases r with _ | err | id
  · exact ⟨hinv, hspares⟩
  · exact ⟨hinv, hspares⟩
  · refine ⟨?_, fun c hc => ⟨hspares c hc, ?_⟩⟩
    · exact (sameBucket_tombstoned env hinv htarget rfl _).1
    · exact (sameBucket_tombstoned env hinv hc rfl _).2

/-- A flush adds rows and marks its events if it has succeeded. -/
lemma exec_doFlush_rows (batch : List Event) (s : SharedState D) :
    ∃ rows ⊆ batch, (NodeM.exec (doFlush env batch) s).2 =
      (s.setStorage { s.storage with events := s.storage.events ++ rows }
        (s.storageCalls + 1)).markPersisted
          (if env.storageOutcome s.storageCalls = .ok then batch.map Event.originKey else []) := by
  rw [exec_doFlush_eq]
  unfold SharedState.storageAfter
  split
  · refine ⟨[], List.nil_subset batch, ?_⟩
    rw [List.append_nil]
  · obtain ⟨rows, hrows, h⟩ := s.storage.insertEventsBulk_events batch
    refine ⟨rows, hrows, ?_⟩
    dsimp only
    rw [s.storage.insertEventsBulk_frame batch, h]

/-- Every operation keeps the cache filed. -/
theorem Command.filed (x : Command D) (hs : s.Filed) : (x.after s).Filed := by
  have hstart : s.rewound.Filed := hs
  obtain ⟨op, env⟩ := x
  unfold Command.after
  match op with
  | .node (.create input) =>
      have hinv := (confinedTo_createLocalEvents env input).inv s.rewound hstart
      rw [← exec_discard] at hinv
      exact hinv
  | .node (.insert e) =>
      change (NodeM.exec (insertEvent env e >>= fun _ => pure ()) s.rewound).2.Filed
      rw [exec_discard]
      by_cases hadmits : s.rewound.Admits e
      · exact (sameBucket_insertEvent env hstart hadmits).1
      · rw [(exec_insertEvent_of_not_admits env e hadmits).2]
        exact hstart
  | .node (.flush batch) =>
      change (NodeM.exec (doFlush env batch) s.rewound).2.Filed
      rw [exec_doFlush_eq]
      refine hstart.of_cache ?_
      rw [SharedState.markPersisted_frame]
      rfl
  | .node (.persist keys) =>
      refine hstart.of_cache ?_
      change (s.rewound.markPersisted keys).idempotencyCache = _
      rw [SharedState.markPersisted_frame]
  | .node .sweep => exact hstart
  | .delete target reason =>
      change (NodeM.exec ((createMetaBucketDelete env target reason).run >>= fun _ => pure ())
        s.rewound).2.Filed
      rw [exec_discard]
      by_cases hrefuses : s.rewound.RefusesDelete target
      · rw [exec_createMetaBucketDelete_of_refused env target reason hrefuses]
        exact hstart
      · exact (createMetaBucketDelete_cases env reason hstart hrefuses).1

/-- **An operation without a share** leaves the bucket as it is. -/
theorem Command.spares (x : Command D) (hbucket : bucket ≠ metaBucket) (hs : s.Filed)
    (h : x.share s bucket = none) : SameBucket bucket s (x.after s) := by
  have hstart : s.rewound.Filed := hs
  refine (sameBucket_rewound bucket s).trans ?_
  obtain ⟨op, env⟩ := x
  unfold Command.share at h
  unfold Command.after
  match op with
  | .node (.create input) =>
      have hne : bucket ≠ input.bucket := by
        rintro rfl
        simp at h
      have hspares := (confinedTo_createLocalEvents env input).spares bucket hne s.rewound hstart
      rw [← exec_discard] at hspares
      exact hspares
  | .node (.insert e) =>
      change SameBucket bucket _ (NodeM.exec (insertEvent env e >>= fun _ => pure ()) s.rewound).2
      rw [exec_discard]
      have hne : bucket ≠ e.bucket := by
        rintro rfl
        simp at h
      by_cases hadmits : s.rewound.Admits e
      · have htarget : e.metaTargetBucket ≠ some bucket := by
          intro hmeta
          have hboth : s.Admits e ∧ e.metaTargetBucket = some bucket :=
            ⟨⟨hadmits.deleted, hadmits.present, hadmits.buffer⟩, hmeta⟩
          simp [Ne.symm hne, hboth] at h
        exact (sameBucket_cleared env htarget _).trans
          ((sameBucket_insertEvent env hstart hadmits).2 _ hne)
      · rw [(exec_insertEvent_of_not_admits env e hadmits).2]
        exact .refl bucket _
  | .node (.flush batch) =>
      have hnone : ∀ e ∈ batch, e.bucket ≠ bucket := by
        intro e he heq
        have hsome : ∃ e ∈ batch, e.bucket = bucket := ⟨e, he, heq⟩
        simp [hsome] at h
      change SameBucket bucket _ (NodeM.exec (doFlush env batch) s.rewound).2
      obtain ⟨rows, hrows, hexec⟩ := exec_doFlush_rows env batch s.rewound
      rw [hexec]
      have hstored : SameBucket bucket s.rewound (s.rewound.setStorage
          { s.rewound.storage with events := s.rewound.storage.events ++ rows }
          (s.rewound.storageCalls + 1)) := by
        refine { SameBucket.refl bucket s.rewound with
          storage := { Storage.SameBucket.refl bucket s.rewound.storage with events := ?_ } }
        have hnil : rows.filter (fun e => e.bucket = bucket) = [] := by
          rw [List.filter_eq_nil_iff]
          exact fun e he heq => hnone e (hrows he) (of_decide_eq_true heq)
        change _ = (s.rewound.storage.events ++ rows).filter _
        rw [List.filter_append, hnil, List.append_nil]
      have hmarks : ([] : List OriginKey).filter (fun key => key.1 = bucket) =
          (if env.storageOutcome s.rewound.storageCalls = .ok then batch.map Event.originKey
          else []).filter fun key => key.1 = bucket := by
        rw [List.filter_nil, eq_comm, List.filter_eq_nil_iff]
        intro key hkey heq
        split at hkey
        · obtain ⟨e, he, rfl⟩ := List.mem_map.1 hkey
          exact hnone e he (of_decide_eq_true heq)
        · exact List.not_mem_nil hkey
      exact hstored.markPersisted hmarks
  | .node (.persist keys) =>
      have hnone : ([] : List OriginKey).filter (fun key => key.1 = bucket) =
          keys.filter fun key => key.1 = bucket := by
        rw [List.filter_nil, eq_comm]
        refine List.filter_eq_nil_iff.2 fun key hkey heq => ?_
        have hsome : ∃ key ∈ keys, key.1 = bucket := ⟨key, hkey, of_decide_eq_true heq⟩
        simp [hsome] at h
      change SameBucket bucket _ (s.rewound.markPersisted keys)
      exact (SameBucket.refl bucket s.rewound).markPersisted hnone
  | .node .sweep => cases h
  | .delete target reason =>
      change SameBucket bucket _ (NodeM.exec
        ((createMetaBucketDelete env target reason).run >>= fun _ => pure ()) s.rewound).2
      rw [exec_discard]
      by_cases hrefuses : s.rewound.RefusesDelete target
      · rw [exec_createMetaBucketDelete_of_refused env target reason hrefuses]
        exact .refl bucket _
      have hne : bucket ≠ target := by
        rintro rfl
        simp at h
      have hcases := (createMetaBucketDelete_cases env reason hstart hrefuses).2
      rcases hrun : NodeM.exec (allocate env metaBucket).run s.rewound with ⟨_ | err | id, s₁⟩
      all_goals
        simp only [NodeM.exec] at hrun
        simp only [NodeM.exec, hrun] at hcases
      · exact hcases bucket hbucket
      · exact hcases bucket hbucket
      · obtain ⟨hallocated, hdeleted⟩ := hcases bucket hbucket
        exact hallocated.trans ((sameBucket_deleted env hne s₁ _).trans hdeleted)

lemma metaGrant_eq {r : Option (Except StorageError (ℕ × ℕ))}
    (h : NodeM.exec (allocate env metaBucket).run s = (r, s₁)) :
    metaGrant env s = r.map fun r => r.map fun _ =>
      (env.clock s₁.clockReads, env.storageOutcome s₁.storageCalls) := by
  unfold metaGrant
  rw [h]

/-- A request to delete a bucket is its share. -/
lemma deletion_shared (reason : Option String) (hs : s.Filed) :
    let x : Command D := ⟨.delete target reason, env⟩
    let share : Share D :=
      .delete (if s.RefusesDelete target then none else metaGrant env s.rewound)
    SameBucket target (x.after s) (share.effect target s) ∧
      x.answer s target = share.answer target s := by
  have hstart : s.rewound.Filed := hs
  dsimp only
  unfold Command.after Command.answer Share.effect Share.answer
  change SameBucket target (NodeM.exec ((createMetaBucketDelete env target reason).run >>=
    fun _ => pure ()) s.rewound).2 _ ∧ _
  rw [exec_discard]
  dsimp only
  by_cases hrefuses : s.RefusesDelete target
  · have hexec := exec_createMetaBucketDelete_of_refused env target reason
      (s := s.rewound) hrefuses
    rw [if_pos hrefuses, if_pos hrefuses, hexec]
    exact ⟨(sameBucket_rewound target s).symm, rfl⟩
  rw [if_neg hrefuses, if_neg hrefuses]
  obtain ⟨hreserved, hagain⟩ := not_or.1 hrefuses
  have htarget : target ≠ metaBucket := fun h => hreserved (.inl h)
  have hcases := (createMetaBucketDelete_cases env reason hstart hrefuses).2
  rcases hrun : NodeM.exec (allocate env metaBucket).run s.rewound with ⟨r, s₁⟩
  have hexec := exec_createMetaBucketDelete_of_allocate env reason (s := s.rewound) hreserved
    (Bool.eq_false_iff.2 hagain) hrun
  rw [metaGrant_eq env hrun]
  simp only [NodeM.exec] at hrun
  simp only [NodeM.exec, hrun] at hcases
  rcases r with _ | err | id
  · refine ⟨(hcases target htarget).symm.trans (sameBucket_rewound target s).symm, ?_⟩
    rw [hexec]
    rfl
  · refine ⟨(hcases target htarget).symm.trans (sameBucket_rewound target s).symm, ?_⟩
    rw [hexec]
    rfl
  · obtain ⟨hallocated, hdeleted⟩ := hcases target htarget
    refine ⟨hdeleted.symm.trans ((sameBucket_entombed env s₁ _).trans ?_), ?_⟩
    · change SameBucket target _ (if s.RefusesDelete target then s else _)
      rw [if_neg hrefuses]
      exact (hallocated.symm.trans (sameBucket_rewound target s).symm).entombed _ _
    · rw [hexec]
      rfl

/-- **An operation with a share** does to the bucket what the share does, and answers what the share
answers. -/
theorem Command.shared (x : Command D) (hbucket : bucket ≠ metaBucket) (hs : s.Filed)
    {share : Share D} (h : x.share s bucket = some share) :
    share.Of bucket ∧ SameBucket bucket (x.after s) (share.effect bucket s) ∧
      x.answer s bucket = share.answer bucket s := by
  have hstart : s.rewound.Filed := hs
  obtain ⟨op, env⟩ := x
  unfold Command.share at h
  unfold Command.after Command.answer
  match op with
  | .node (.create input) =>
      obtain ⟨hinput, hshare⟩ := Option.ite_none_right_eq_some.1 h
      obtain rfl := Option.some.inj hshare
      refine ⟨hinput, ?_, rfl⟩
      have hafter := exec_discard (createLocalEvents env input).run s.rewound
      change SameBucket bucket (NodeM.exec ((createLocalEvents env input).run >>= fun _ => pure ())
        s.rewound).2 _
      rw [hafter]
      exact .refl bucket _
  | .node (.insert e) =>
      change _ ∧ SameBucket bucket (NodeM.exec (insertEvent env e >>= fun _ => pure ())
        s.rewound).2 _ ∧ _
      rw [exec_discard]
      dsimp only at h ⊢
      split at h
      · rename_i he
        obtain rfl := Option.some.inj h
        rw [if_pos he]
        refine ⟨⟨he, ?_⟩, .refl bucket _, rfl⟩
        exact if_neg fun hmeta => hbucket (he.symm.trans hmeta.2)
      · rename_i he
        obtain ⟨⟨hadmits, htarget⟩, hshare⟩ := Option.ite_none_right_eq_some.1 h
        obtain rfl := Option.some.inj hshare
        rw [if_neg he]
        have hrewound : s.rewound.Admits e := ⟨hadmits.deleted, hadmits.present, hadmits.buffer⟩
        have hinsert := (sameBucket_insertEvent env hstart hrewound).2 bucket (Ne.symm he)
        refine ⟨trivial, hinsert.symm.trans ?_, rfl⟩
        have hcleared : s.rewound.cleared env e =
            s.rewound.deleted env bucket e.createdAtUnixMs := by
          unfold SharedState.cleared
          rw [htarget]
          exact if_pos hbucket
        rw [hcleared]
        exact (sameBucket_entombed env s.rewound _).trans
          ((sameBucket_rewound bucket s).symm.entombed _ _)
  | .node (.flush batch) =>
      obtain ⟨-, hshare⟩ := Option.ite_none_right_eq_some.1 h
      obtain rfl := Option.some.inj hshare
      refine ⟨trivial, ?_, rfl⟩
      obtain ⟨rows, -, hexec⟩ := exec_doFlush_rows env batch s.rewound
      have hstored : (Command.mk (.node (.flush batch)) env).stored s bucket =
          rows.filter fun e => e.bucket = bucket := by
        have hafter : ((Command.mk (.node (.flush batch)) env).after s).storage.events =
            s.storage.events ++ rows := by
          change (NodeM.exec (doFlush env batch) s.rewound).2.storage.events = _
          rw [hexec, SharedState.markPersisted_frame]
          rfl
        unfold Command.stored
        rw [hafter, List.filter_append, List.drop_left]
      change SameBucket bucket (NodeM.exec (doFlush env batch) s.rewound).2 _
      rw [hexec, hstored]
      refine SameBucket.markPersisted ?_ ?_
      · refine { (sameBucket_rewound bucket s).symm with
          storage := { Storage.SameBucket.refl bucket s.storage with events := ?_ } }
        change (s.storage.events ++ rows).filter _ = _
        dsimp only
        rw [List.filter_append, List.filter_append, List.filter_filter]
        simp
      · change List.filter _ (if env.storageOutcome 0 = .ok then _ else []) = _
        dsimp only
        split
        · rw [List.filter_filter]
          simp
        · rfl
  | .node (.persist keys) =>
      obtain ⟨-, hshare⟩ := Option.ite_none_right_eq_some.1 h
      obtain rfl := Option.some.inj hshare
      refine ⟨trivial, ?_, rfl⟩
      change SameBucket bucket (s.rewound.markPersisted keys) _
      refine (sameBucket_rewound bucket s).symm.markPersisted ?_
      rw [List.filter_filter]
      simp
  | .node .sweep =>
      obtain rfl := Option.some.inj h
      refine ⟨trivial, ?_, rfl⟩
      have hticked : SameBucket bucket s.rewound.tick s := { SameBucket.refl bucket s with }
      exact hticked.sweepExpired _
  | .delete target reason =>
      obtain ⟨rfl, hshare⟩ := Option.ite_none_right_eq_some.1 h
      obtain rfl := Option.some.inj hshare
      exact ⟨trivial, deletion_shared env reason hs⟩

end Steps

/-! ## Runs -/

/-- The state after operations one after the other. -/
def runAll (xs : List (Command D)) (s : SharedState D) : SharedState D :=
  xs.foldl (fun s x => x.after s) s

/-- What the operations of a run are to a bucket. -/
def shares (bucket : String) : List (Command D) → SharedState D → List (Share D)
  | [], _ => []
  | x :: xs, s =>
      match x.share s bucket with
      | some share => share :: shares bucket xs (x.after s)
      | none => shares bucket xs (x.after s)

/-- What the operations with a share in a bucket are answered. -/
def answers (bucket : String) : List (Command D) → SharedState D → List Answer
  | [], _ => []
  | x :: xs, s =>
      match x.share s bucket with
      | some _ => x.answer s bucket :: answers bucket xs (x.after s)
      | none => answers bucket xs (x.after s)

/-- The bucket by itself: its shares one after the other. -/
def replayShares (bucket : String) (shares : List (Share D)) (s : SharedState D) : SharedState D :=
  shares.foldl (fun s share => share.effect bucket s) s

def replayAnswers (bucket : String) : List (Share D) → SharedState D → List Answer
  | [], _ => []
  | share :: shares, s =>
      share.answer bucket s :: replayAnswers bucket shares (share.effect bucket s)

namespace LifeOp

/-- The operation is one on the bucket. -/
def On (bucket : String) : LifeOp → Prop
  | .node (.create input) => input.bucket = bucket
  | .node (.insert e) => e.bucket = bucket ∨ e.metaTargetBucket = some bucket
  | .node (.flush batch) => ∃ e ∈ batch, e.bucket = bucket
  | .node (.persist keys) => ∃ key ∈ keys, key.1 = bucket
  | .node .sweep => True
  | .delete target _ => target = bucket

instance (bucket : String) (op : LifeOp) : Decidable (op.On bucket) :=
  match op with
  | .node (.create _) | .delete _ _ => inferInstanceAs (Decidable (_ = _))
  | .node (.insert _) => inferInstanceAs (Decidable (_ ∨ _))
  | .node (.flush _) | .node (.persist _) => inferInstanceAs (Decidable (∃ _ ∈ _, _))
  | .node .sweep => inferInstanceAs (Decidable True)

end LifeOp

section Runs

variable {s s' t : SharedState D} {bucket : String}

/-- An operation on other buckets has no share. -/
lemma Command.share_eq_none {x : Command D} (h : ¬ x.op.On bucket) (s : SharedState D) :
    x.share s bucket = none := by
  obtain ⟨op, env⟩ := x
  unfold Command.share
  match op with
  | .node (.create input) => exact if_neg h
  | .node (.insert e) =>
      obtain ⟨hbucket, htarget⟩ := not_or.1 h
      exact (if_neg hbucket).trans (if_neg fun hboth => htarget hboth.2)
  | .node (.flush batch) => exact if_neg h
  | .node (.persist keys) => exact if_neg h
  | .node .sweep => exact absurd trivial h
  | .delete target _ => exact if_neg h

lemma SharedState.Filed.entombed (h : s.Filed) (bucket : String) (time : ℕ)
    (outcome : StorageOutcome) : (s.entombed bucket time outcome).Filed :=
  SharedState.Filed.stripBucket (h.of_cache rfl) bucket

/-- The effect of a share keeps the cache filed. -/
lemma Share.filed (share : Share D) (bucket : String) (hs : s.Filed) :
    (share.effect bucket s).Filed := by
  have hstart : s.rewound.Filed := hs
  cases share with
  | create input env => exact (confinedTo_createLocalEvents env input).inv s.rewound hstart
  | insert e env =>
      by_cases hadmits : s.rewound.Admits e
      · exact (sameBucket_insertEvent env hstart hadmits).1
      · change (NodeM.exec (insertEvent env e) s.rewound).2.Filed
        rw [(exec_insertEvent_of_not_admits env e hadmits).2]
        exact hstart
  | delete granted =>
      unfold Share.effect
      dsimp only
      split
      · split
        · exact hs
        · exact hs.entombed _ _ _
      · exact hs
  | tombstone time outcome => exact hs.entombed _ _ _
  | flush rows marks =>
      unfold Share.effect
      dsimp only
      rw [SharedState.markPersisted_frame]
      exact hs
  | persist marks =>
      unfold Share.effect
      dsimp only
      rw [SharedState.markPersisted_frame]
      exact hs
  | sweep now => exact hs

/-- The run lemma: a run does to a bucket what the bucket's shares do to it by themselves. -/
theorem SameBucket.replayShares (hbucket : bucket ≠ metaBucket) (xs : List (Command D))
    (hs : s.Filed) (ht : t.Filed) (h : SameBucket bucket s t) :
    SameBucket bucket (runAll xs s) (replayShares bucket (shares bucket xs s) t) ∧
      answers bucket xs s = replayAnswers bucket (shares bucket xs s) t := by
  induction xs generalizing s t with
  | nil => exact ⟨h, rfl⟩
  | cons x xs ih =>
      have hafter := x.filed hs
      unfold shares answers
      change SameBucket bucket (runAll xs (x.after s)) _ ∧ _
      rcases hshare : x.share s bucket with _ | share
      · exact ih hafter ht ((x.spares hbucket hs hshare).symm.trans h)
      · obtain ⟨hof, hstep, hanswer⟩ := x.shared hbucket hs hshare
        obtain ⟨hsame, hown⟩ := h.effect hs ht hof
        obtain ⟨hrun, hanswers⟩ := ih hafter (share.filed bucket ht) (hstep.trans hsame)
        exact ⟨hrun, congrArg₂ List.cons (hanswer.trans hown) hanswers⟩

/-- The cache of a node that has started files events under their own keys. -/
lemma Starts.filed {env : Env D} {st : Storage D} (h : Starts env st s) : s.Filed := by
  intro key e he
  rw [h.rebuilt.idempotencyCache] at he
  rcases SharedState.of_rebuildIdempotencyCache he with hblank | ⟨-, hkey⟩
  · cases hblank
  · exact hkey

/-- **Buckets do not interfere.**  Two runs with the same shares in a bucket other than the meta
bucket, from starts that agree on the bucket, leave it in the same state and answer the requests on
it in the same way. -/
theorem buckets_do_not_interfere (hbucket : bucket ≠ metaBucket) {env env' : Env D}
    {st st' : Storage D} (hs : Starts env st s) (hs' : Starts env' st' s')
    (h : SameBucket bucket s s') (xs xs' : List (Command D))
    (hshares : shares bucket xs s = shares bucket xs' s') :
    SameBucket bucket (runAll xs s) (runAll xs' s') ∧
      answers bucket xs s = answers bucket xs' s' := by
  obtain ⟨hrun, hanswers⟩ := h.replayShares hbucket xs hs.filed hs'.filed
  obtain ⟨hrun', hanswers'⟩ :=
    (SameBucket.refl bucket s').replayShares hbucket xs' hs'.filed hs'.filed
  rw [← hshares] at hrun' hanswers'
  exact ⟨hrun.trans hrun'.symm, hanswers.trans hanswers'.symm⟩

end Runs

section Example

/-- A deposit on the bucket. -/
def ownDeposit : Command Unit where
  op := .node (.create (.legacy "bucket" "alice" 10 none 0 "n1" false))
  env := Env.plain "node" 1000

/-- A deletion of another bucket. -/
def otherDeletion : Command Unit where
  op := .delete "other" none
  env := Env.plain "node" 1000

/-- A deposit and a deposit after a deletion of another bucket. -/
theorem buckets_do_not_interfere_deletion :
    ∃ s : SharedState Unit, Starts (Env.plain "node" 1000) .empty s ∧
      SameBucket "bucket" (runAll [ownDeposit] s) (runAll [otherDeletion, ownDeposit] s) ∧
      answers "bucket" [ownDeposit] s = answers "bucket" [otherDeletion, ownDeposit] s := by
  obtain ⟨calls, hrun⟩ := exec_newSharedState_empty (Env.plain "node" 1000)
  have hstart : Starts (Env.plain "node" 1000) .empty (.fresh 1 calls) := ⟨hrun, fun _ _ => rfl⟩
  refine ⟨_, hstart, buckets_do_not_interfere (by decide) hstart hstart (.refl _ _) _ _ ?_⟩
  have hother : ∀ s, otherDeletion.share s "bucket" = none :=
    Command.share_eq_none (x := otherDeletion) (by decide)
  have hown : ∀ s, ownDeposit.share s "bucket" =
      some (.create (.legacy "bucket" "alice" 10 none 0 "n1" false) ownDeposit.env) := by
    intro s
    unfold Command.share
    exact if_pos rfl
  simp only [shares, hown, hother]

/-- A deletion adds to the meta bucket. -/
theorem meta_bucket_interferes :
    ¬ ∀ (bucket : String) (s : SharedState Unit) (xs xs' : List (Command Unit)),
      Starts (Env.plain "node" 1000) .empty s →
      xs.filter (fun x => x.op.On bucket) = xs'.filter (fun x => x.op.On bucket) →
      ∀ key, key.1 = bucket → (runAll xs s).head key = (runAll xs' s).head key := by
  intro h
  obtain ⟨calls, hrun⟩ := exec_newSharedState_empty (Env.plain "node" 1000)
  have hstart : Starts (Env.plain "node" 1000) .empty (.fresh 1 calls) := ⟨hrun, fun _ _ => rfl⟩
  have hnot : ¬ otherDeletion.op.On metaBucket := by decide
  have hhead := h metaBucket _ [] [otherDeletion] hstart
    (by rw [List.filter_cons_of_neg (by simpa using hnot)]) (metaBucket, "node", 1) rfl
  have hafter : (otherDeletion.after (.fresh 1 calls)).head (metaBucket, "node", 1) = 1 := by
    change (otherDeletion.after (.fresh 1 0)).head (metaBucket, "node", 1) = 1
    decide +kernel
  have hbefore : (SharedState.fresh 1 calls : SharedState Unit).head (metaBucket, "node", 1) = 0 :=
    rfl
  exact absurd (hbefore.symm.trans (hhead.trans hafter)) (by decide)

end Example

end Shardd
