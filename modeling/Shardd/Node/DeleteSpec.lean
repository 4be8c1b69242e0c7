import Shardd.Node.ReplicateSpec

/-!
# What the deletion of a bucket does

`Tombstoned` lists what becomes of a request to delete a bucket, and `exec_insertEvent_cleared` what
becomes of any replicated event: one that is admitted first deletes the bucket it names, if it names
one, and is then accepted like any other.
-/

namespace Shardd

variable {D : Type} (env : Env D)

lemma Event.of_metaTargetBucket {e : Event} {target : String}
    (h : e.metaTargetBucket = some target) : e.bucket = metaBucket ∧ e.account = target := by
  unfold metaTargetBucket at h
  split at h
  · rename_i hmeta
    exact ⟨hmeta.2, Option.some.inj h⟩
  · cases h

namespace SharedState

variable (s : SharedState D)

/-- The state after `apply_bucket_delete_cascade`. -/
def cascaded (target : String) : SharedState D :=
  (s.callStorage env fun st => ((), st.deleteBucketCascade target)).2.stripBucket target

/-- The state after a bucket has got its tombstone and has been stripped. -/
def deleted (target : String) (time : ℕ) : SharedState D :=
  ({ s with deletedBuckets := s.deletedBuckets.insert target time } : SharedState D).cascaded env
    target

/-- The state after the cascade of an event. -/
def cleared (e : Event) : SharedState D :=
  match e.metaTargetBucket with
  | some target => if target ≠ metaBucket then s.deleted env target e.createdAtUnixMs else s
  | none => s

variable {s} {e : Event}

lemma cascaded_eq (target : String) :
    s.cascaded env target =
      (s.setStorage (s.storageAfter env fun st => ((), st.deleteBucketCascade target))
        (s.storageCalls + 1)).stripBucket target := by
  rw [cascaded, callStorage_snd]

/-- The storage after a deletion: a call that fails without effect leaves it. -/
lemma storage_deleted_eq (target : String) (time : ℕ) :
    (s.deleted env target time).storage =
      if env.storageOutcome s.storageCalls = .failed then s.storage
      else s.storage.deleteBucketCascade target := by
  rw [deleted, cascaded_eq]
  rfl

/-- The storage after a deletion, which may have failed. -/
lemma storage_deleted (target : String) (time : ℕ) :
    (s.deleted env target time).storage = s.storage ∨
      (s.deleted env target time).storage = s.storage.deleteBucketCascade target := by
  rw [storage_deleted_eq]
  split
  · exact .inl rfl
  · exact .inr rfl

/-- A deletion does not touch what is not kept by bucket. -/
lemma deleted_frame (s : SharedState D) (target : String) (time : ℕ) :
    let s' := s.deleted env target time
    s' = ({ s with
      storage := s'.storage
      storageCalls := s.storageCalls + 1
      deletedBuckets := s.deletedBuckets.insert target time } : SharedState D).stripBucket
        target := by
  dsimp only
  rw [deleted, cascaded_eq]
  rfl

lemma Unlocked.deleted (h : s.Unlocked) (target : String) (time : ℕ) :
    (s.deleted env target time).Unlocked := by
  intro key
  rw [deleted_frame]
  exact h key

lemma Unlocked.cleared (h : s.Unlocked) (e : Event) : (s.cleared env e).Unlocked := by
  unfold SharedState.cleared
  split
  · split
    · exact h.deleted env _ _
    · exact h
  · exact h

/-- The event that deletes a bucket is itself of another one, so it stays admitted. -/
lemma Admits.cleared (h : s.Admits e) : (s.cleared env e).Admits e := by
  unfold SharedState.cleared
  split
  swap
  · exact h
  rename_i target hmeta
  split
  swap
  · exact h
  rename_i hne
  have hbucket : e.bucket ≠ target := by
    rw [(Event.of_metaTargetBucket hmeta).1]
    exact Ne.symm hne
  have hkept : (e.bucket != target) = true := bne_iff_ne.2 hbucket
  rw [deleted_frame]
  constructor
  · show (s.deletedBuckets.insert target e.createdAtUnixMs).containsKey e.bucket = false
    rw [Map.containsKey, Map.insert_of_ne _ _ _ hbucket]
    exact h.deleted
  · have hpresent := h.present
    unfold eventIsPresent at hpresent ⊢
    have hbuffer : (s.eventBuffer.retain fun k => k.1 != target) e.originKey =
        s.eventBuffer e.originKey := if_pos hkept
    have hhead : (s.heads.retain fun k => k.1 != target) e.epochKey = s.heads e.epochKey :=
      if_pos hkept
    have hpending : (s.pendingSeqs.retain fun k => k.1 != target) e.epochKey =
        s.pendingSeqs e.epochKey := if_pos hkept
    simp only [stripBucket, forgetAllocator, setSlot, head, pending, hbuffer, hhead, hpending]
    exact hpresent
  · show (s.eventBuffer.retain fun k => k.1 != target) e.originKey = none
    exact (if_pos hkept).trans h.buffer

/-- The buffer slot of the event can be taken before the cascade or after it. -/
lemma cleared_insert (e : Event) :
    ({ s with eventBuffer := s.eventBuffer.insert e.originKey e } : SharedState D).cleared env e =
      { s.cleared env e with
        eventBuffer := (s.cleared env e).eventBuffer.insert e.originKey e } := by
  unfold cleared
  split
  swap
  · rfl
  rename_i target hmeta
  split
  swap
  · rfl
  rename_i hne
  have hbucket : e.bucket ≠ target := by
    rw [(Event.of_metaTargetBucket hmeta).1]
    exact Ne.symm hne
  have hbuffer := Map.retain_insert (p := fun k => k.1 != target) s.eventBuffer e.originKey e
    (bne_iff_ne.2 hbucket)
  rw [deleted, deleted, cascaded_eq, cascaded_eq]
  unfold stripBucket
  dsimp only [setStorage]
  rw [hbuffer]
  rfl

end SharedState

/-! ## Programs -/

section Programs

variable {env} {s : SharedState D}

variable (env) in
lemma exec_applyBucketDeleteCascade {target : String} (h : target ≠ metaBucket)
    (s : SharedState D) :
    NodeM.exec (applyBucketDeleteCascade env target) s = (some (), s.cascaded env target) := by
  have hcall := exec_storageCall env .deleteBucketCascade
    (fun st => ((), st.deleteBucketCascade target)) s
  simp only [NodeM.exec] at hcall
  simp only [applyBucketDeleteCascade, NodeM.exec, if_neg h, Proc.exec_bind, hcall,
    Proc.andThen_some, Proc.exec_update]
  rfl

variable (env) in
lemma exec_cascadeOf (e : Event) (s : SharedState D) :
    NodeM.exec (cascadeOf env e) s = (some (), s.cleared env e) := by
  rcases hmeta : e.metaTargetBucket with _ | target
  · simp only [cascadeOf, SharedState.cleared, hmeta]
    rfl
  by_cases hne : target ≠ metaBucket
  · have hcascade := exec_applyBucketDeleteCascade env hne
      { s with deletedBuckets := s.deletedBuckets.insert target e.createdAtUnixMs }
    simp only [NodeM.exec] at hcascade
    simp only [cascadeOf, SharedState.cleared, hmeta, NodeM.exec, if_pos hne, Proc.exec_bind,
      Proc.exec_update, Proc.andThen_some, hcascade]
    rfl
  · simp only [cascadeOf, SharedState.cleared, hmeta, if_neg hne]
    rfl

variable (env) in
/-- An event that is not admitted changes nothing; one that is admitted is accepted once its bucket
has been deleted. -/
theorem exec_insertEvent_cleared (e : Event) (h : s.Unlocked) :
    ∃ r s', NodeM.exec (insertEvent env e) s = (r, s') ∧
      (¬ s.Admits e ∧ r = some false ∧ s' = s ∨
        s.Admits e ∧ Inserted env e (s.cleared env e) r s') := by
  by_cases hadmits : s.Admits e
  · have hcleared := hadmits.cleared env
    obtain ⟨r, s', hinserted, hrun⟩ := exec_acceptEvent env e (h.cleared env e) hcleared.deleted
      hcleared.present hcleared.buffer
    refine ⟨r, s', ?_, .inr ⟨hadmits, hinserted⟩⟩
    rw [exec_insertEvent_of_admits env e hadmits, exec_cascadeOf, SharedState.cleared_insert,
      Proc.andThen_some, hrun]
  · have hrun := (exec_insertEvent_of_not_admits env e hadmits).2
    exact ⟨_, _, hrun, .inl ⟨hadmits, rfl, rfl⟩⟩

end Programs

/-! ## Requests to delete a bucket -/

/-- What becomes of a request to delete a bucket. -/
inductive Tombstoned (target : String) (reason : Option String) (s : SharedState D) :
    Option (Except CreateLocalEventError Event) → SharedState D → Prop
  | reserved : target = metaBucket ∨ isReservedBucketName target = true →
      Tombstoned target reason s (some (.error (.bucketReserved target))) s
  | again : ¬ (target = metaBucket ∨ isReservedBucketName target = true) →
      s.deletedBuckets.containsKey target = true →
      Tombstoned target reason s (some (.error (.bucketDeleted target))) s
  | unallocated {r : Option (Except StorageError Unit)} {s₁ : SharedState D} :
      ¬ (target = metaBucket ∨ isReservedBucketName target = true) →
      s.deletedBuckets.containsKey target = false →
      Prepared env metaBucket s r s₁ → r ≠ some (.ok ()) →
      Tombstoned target reason s (r.map fun _ => .error (.insufficientFunds 0 0 0 false)) s₁
  | deleted {s₁ : SharedState D} {e : Event} :
      ¬ (target = metaBucket ∨ isReservedBucketName target = true) →
      s.deletedBuckets.containsKey target = false →
      Prepared env metaBucket s (some (.ok ())) s₁ →
      e = s₁.draftEvent env (env.clock s₁.clockReads) (bucketDeleteDraft target reason) →
      Tombstoned target reason s (some (.ok e))
        (((((s₁.takeNext metaBucket env).tick).built e).deleted env target
          (env.clock s₁.clockReads)).recordLocal env e)

/-- What a request to delete a bucket does once the meta bucket has answered it. -/
lemma exec_createMetaBucketDelete_of_allocate {target : String} (reason : Option String)
    {s s₁ : SharedState D} {r : Option (Except StorageError (ℕ × ℕ))}
    (hreserved : ¬ (target = metaBucket ∨ isReservedBucketName target = true))
    (hagain : s.deletedBuckets.containsKey target = false)
    (h : NodeM.exec (allocate env metaBucket).run s = (r, s₁)) :
    NodeM.exec (createMetaBucketDelete env target reason).run s =
      match r with
      | some (.ok id) =>
          let now := env.clock s₁.clockReads
          let e := (bucketDeleteDraft target reason).event (env.freshId s₁.idsDrawn) env.nodeId id
            now
          (some (.ok e), (((s₁.tick).built e).deleted env target now).recordLocal env e)
      | some (.error _) => (some (.error (.insufficientFunds 0 0 0 false)), s₁)
      | none => (none, s₁) := by
  simp only [NodeM.exec] at h
  simp only [createMetaBucketDelete, NodeM.exec, if_neg hreserved, Proc.exec_run_bind,
    Proc.exec_run_lift, Proc.exec_read, Option.map_some, Proc.andThenOk_ok, hagain, if_false,
    Bool.false_eq_true, h]
  rcases r with _ | _ | id
  · rfl
  · rfl
  · have hne : target ≠ metaBucket := fun h => hreserved (.inl h)
    dsimp only
    set now := env.clock s₁.clockReads with hnow
    set e := (bucketDeleteDraft target reason).event (env.freshId s₁.idsDrawn) env.nodeId id now
      with he
    set s₂ := (s₁.tick).built e with hs₂
    have hclock : Proc.exec Wait.ready (nowMs env) s₁ = (some now, s₁.tick) := rfl
    have hbuild : Proc.exec Wait.ready (buildEvent env id now (bucketDeleteDraft target reason))
        s₁.tick = (some e, s₂) := rfl
    have hcascade := exec_applyBucketDeleteCascade env hne
      { s₂ with deletedBuckets := s₂.deletedBuckets.insert target now }
    have hrecord := exec_recordNewLocalEvent env e (s₂.deleted env target now)
    rw [SharedState.deleted] at hrecord ⊢
    simp only [NodeM.exec] at hcascade hrecord
    simp only [Proc.exec_run_bind, Proc.exec_run_lift, hclock, hbuild, hcascade, hrecord,
      Proc.exec_update, Option.map_some, Proc.andThenOk_ok, Proc.exec_run_pure]

/-- A request to delete a bucket that is reserved or deleted is refused. -/
lemma exec_createMetaBucketDelete_of_refused (target : String) (reason : Option String)
    {s : SharedState D}
    (h : (target = metaBucket ∨ isReservedBucketName target = true) ∨
      s.deletedBuckets.containsKey target = true) :
    NodeM.exec (createMetaBucketDelete env target reason).run s =
      (some (.error (if target = metaBucket ∨ isReservedBucketName target = true then
        .bucketReserved target else .bucketDeleted target)), s) := by
  by_cases hreserved : target = metaBucket ∨ isReservedBucketName target = true
  · simp only [createMetaBucketDelete, NodeM.exec, if_pos hreserved]
    rfl
  · have hagain := h.resolve_left hreserved
    simp only [createMetaBucketDelete, NodeM.exec, if_neg hreserved, Proc.exec_run_bind,
      Proc.exec_run_lift, Proc.exec_read, Option.map_some, Proc.andThenOk_ok, hagain, if_true]
    rfl

/-- The cases of `Tombstoned` are all that can become of a request to delete a bucket. -/
theorem exec_createMetaBucketDelete (target : String) (reason : Option String)
    (s : SharedState D) :
    ∃ r s', Tombstoned env target reason s r s' ∧
      NodeM.exec (createMetaBucketDelete env target reason).run s = (r, s') := by
  by_cases hreserved : target = metaBucket ∨ isReservedBucketName target = true
  · refine ⟨_, _, .reserved hreserved, ?_⟩
    rw [exec_createMetaBucketDelete_of_refused env target reason (.inl hreserved),
      if_pos hreserved]
  rcases hagain : s.deletedBuckets.containsKey target with _ | _
  swap
  · refine ⟨_, _, .again hreserved hagain, ?_⟩
    rw [exec_createMetaBucketDelete_of_refused env target reason (.inr hagain),
      if_neg hreserved]
  obtain ⟨r, s₁, hp, hrun⟩ := exec_allocate env metaBucket s
  have hexec := exec_createMetaBucketDelete_of_allocate env reason hreserved hagain hrun
  rcases r with _ | _ | ⟨⟩
  · exact ⟨_, _, .unallocated hreserved hagain hp (by simp), hexec⟩
  · exact ⟨_, _, .unallocated hreserved hagain hp (by simp), hexec⟩
  · exact ⟨_, _, .deleted hreserved hagain hp rfl, hexec⟩

end Shardd
