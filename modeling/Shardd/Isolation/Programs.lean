import Shardd.Isolation.View
import Shardd.Node.CreateRules

/-!
# The programs of a node and its buckets

A request and a replicated event are confined to the bucket they name: they leave all others as they
are, and what they answer depends on nothing but the bucket, the clock, the ids and the outcomes of
the storage calls.
-/

namespace Shardd

variable {D : Type} {b : String}

/-! ## Allocation -/

section Allocate

variable (b)

lemma confinedTo_withBumpLock {α : Type} {Q : α → Prop} (i : ℕ) {body : NodeM D α}
    (h : ConfinedTo b Q body) : ConfinedTo b Q (withBumpLock b i body) := by
  have hsuspend : ConfinedTo b (fun _ => True) (Proc.suspend (.bumpLock b i) : NodeM D PUnit) :=
    Proc.confined_suspend fun s s' h =>
      congrArg (fun slot : AllocatorSlot => 
        (slot.objects[i]?).all fun a : BucketAllocator => a.bumpLock.isNone) h.bucketAllocators
  refine hsuspend.bind fun _ _ => ?_
  refine (confinedTo_modifyAllocator b i (fun s a => { a with bumpLock := some s.running })
    fun s s' h => by rw [h]).bind fun _ _ => h.bind fun r hr => ?_
  refine (confinedTo_modifyAllocator b i (fun _ a => { a with bumpLock := none })
    fun _ _ _ => rfl).bind fun _ _ => Proc.confined_pure hr

lemma confinedTo_lazyBump (env : Env D) (i : ℕ) :
    ConfinedTo b (Proc.Succeeds fun _ => True) (lazyBump env b i).run := by
  have hread := confinedTo_readAllocator (D := D) b i BucketAllocator.needsBump
  refine (Proc.Confined.run_lift hread).run_bind fun needsBump _ => ?_
  cases needsBump with
  | false => exact Proc.confined_run_pure trivial
  | true =>
      refine confinedTo_withBumpLock b i ?_
      refine (Proc.Confined.run_lift hread).run_bind fun needsBump _ => ?_
      cases needsBump with
      | false => exact Proc.confined_run_pure trivial
      | true =>
          refine (confinedTo_bumpBucketEpoch b env).run_bind fun newEpoch _ => ?_
          exact Proc.Confined.run_lift (confinedTo_modifyAllocator b i _ fun _ _ _ => rfl)

lemma confinedTo_takeSeq (env : Env D) (i : ℕ) :
    ConfinedTo b (fun _ => True) (takeSeq env b i) := by
  refine Proc.confined_readUpdate ⟨fun _ hs => hs, fun _ _ => trivial, fun c hc s _ => ?_,
    fun s s' _ _ h hsync => ?_⟩
  · refine { sameBucket_setSlot hc _ s with issued := ?_ }
    rw [List.filter_append, List.filter_singleton]
    simp [Ne.symm hc]
  · have hslot := h.setSlot (congrArg (fun slot : AllocatorSlot =>
      slot.modify i fun a => { a with nextSeq := a.nextSeq + 1 }) h.bucketAllocators)
    dsimp only
    rw [h.allocator i]
    refine ⟨{ hslot with issued := ?_ }, { hsync with }, rfl⟩
    rw [List.filter_append, List.filter_append, h.issued]

lemma confinedTo_allocate (env : Env D) :
    ConfinedTo b (Proc.Succeeds fun _ => True) (allocate env b).run := by
  refine (confinedTo_lookupAllocator b env).run_bind fun i _ => ?_
  refine (confinedTo_lazyBump b env i).run_bind fun _ _ => ?_
  exact Proc.Confined.run_lift (confinedTo_takeSeq b env i)

end Allocate

/-! ## Minting -/

section Mint

variable (env : Env D)

lemma confinedTo_buildEvent (id : ℕ × ℕ) (now : ℕ) {d : EventDraft} (hd : d.key.1 = b) :
    ConfinedTo b (fun e : Event => e.bucket = b) (buildEvent env id now d) := by
  refine Proc.confined_readUpdate ⟨fun _ hs => hs, fun _ _ => hd, fun c hc s _ => ?_,
    fun s s' _ _ h hsync => ?_⟩
  · refine { SameBucket.refl c s with minted := ?_ }
    have hne : (d.event (env.freshId s.idsDrawn) env.nodeId id now).bucket ≠ c := fun h =>
      hc (h.symm.trans hd)
    rw [List.filter_append, List.filter_singleton]
    simp [hne]
  · have hid : env.freshId s.idsDrawn = env.freshId s'.idsDrawn :=
      congrArg env.freshId hsync.idsDrawn
    dsimp only
    rw [hid]
    refine ⟨{ h with minted := ?_ }, { hsync with idsDrawn := congrArg (· + 1) hsync.idsDrawn },
      rfl⟩
    rw [List.filter_append, List.filter_append, h.minted]

/-- An event is cached under its own key. -/
lemma confinedTo_cacheEvent {e : Event} (he : e.bucket = b) :
    ConfinedTo b (fun _ => True) (Proc.update fun s => s.cacheEvent e : NodeM D PUnit) := by
  refine confinedTo_update (fun s hs key x hx => ?_) (fun c hc s => ?_) (fun s s' h => ?_)
    fun _ _ h => { h with }
  · rcases Map.of_insert hx with hx | ⟨rfl, rfl⟩
    · exact hs key x hx
    · rfl
  · exact { SameBucket.refl c s with
      idempotencyCache := fun k hk => (Map.insert_of_ne _ _ _ fun h => hc (by
        rw [← hk, h, ← he]
        rfl)).symm }
  · exact { h with idempotencyCache := fun k hk => Map.insert_congr _ (h.idempotencyCache k hk) }

lemma confinedTo_applyLocal {e : Event} (he : e.bucket = b) :
    ConfinedTo b (fun _ => True) (Proc.update fun s => s.applyLocal e : NodeM D PUnit) := by
  have hkey : e.balanceKey.1 = b := he
  exact (confinedTo_modifyAccount hkey fun acc => acc.applyEvent e).bind
    fun _ _ => confinedTo_cacheEvent he

lemma confinedTo_allocateFor {key : BalanceKey} (hkey : key.1 = b) (now : ℕ) :
    ConfinedTo b (Proc.Succeeds fun _ => True) (allocateFor env key now).run := by
  subst hkey
  refine (Proc.Confined.run_lift (confinedTo_readAccount rfl)).run_bind fun acc _ => ?_
  refine (confinedTo_allocate key.1 env).bind fun r _ => ?_
  cases r with
  | ok pair => exact Proc.confined_pure fun _ _ => trivial
  | error err => exact Proc.confined_pure fun _ _ => trivial

lemma confinedTo_mintLocal (now : ℕ) {d : EventDraft} (hd : d.key.1 = b) :
    ConfinedTo b (Proc.Succeeds fun e : Event => e.bucket = b) (mintLocal env now d).run := by
  refine (confinedTo_allocateFor env hd now).run_bind fun id _ => ?_
  refine (Proc.Confined.run_lift (confinedTo_buildEvent env id now hd)).run_bind fun e he => ?_
  refine (Proc.Confined.run_lift (confinedTo_applyLocal he)).run_bind fun _ _ => ?_
  exact Proc.confined_run_pure he

end Mint

/-! ## Heads -/

section Heads

lemma ne_of_bucket_ne {κ : Type} (bucket : κ → String) {c : String} {k k' : κ} (hc : c ≠ b)
    (hk : bucket k = c) (hk' : bucket k' = b) : k ≠ k' := by
  rintro rfl
  exact hc (hk.symm.trans hk')

namespace SharedState

variable {s s' : SharedState D} {key : EpochKey} {c : String}

lemma drainPending_congr (h : SameBucket b s s') (hkey : key.1 = b) (seq : ℕ) :
    (s.drainPending key seq).1 = (s'.drainPending key seq).1 ∧
      SameBucket b (s.drainPending key seq).2 (s'.drainPending key seq).2 := by
  unfold drainPending
  rw [h.pendingSeqs key hkey]
  cases s'.pendingSeqs key with
  | none => exact ⟨rfl, h⟩
  | some pending =>
      exact ⟨rfl, { h with pendingSeqs := fun k hk => Map.insert_congr _ (h.pendingSeqs k hk) }⟩

lemma sameBucket_drainPending (hc : c ≠ b) (hkey : key.1 = b) (seq : ℕ) (s : SharedState D) :
    SameBucket c s (s.drainPending key seq).2 := by
  unfold drainPending
  cases s.pendingSeqs key with
  | none => exact .refl c s
  | some pending =>
      exact { SameBucket.refl c s with
        pendingSeqs := fun k hk =>
          (Map.insert_of_ne _ _ _ (ne_of_bucket_ne Prod.fst hc hk hkey)).symm }

lemma updateDigest_congr (hasher : Hasher D) (h : SameBucket b s s') (hkey : key.1 = b)
    (oldHead newHead : ℕ) :
    (s.updateDigest hasher key oldHead newHead).1 =
        (s'.updateDigest hasher key oldHead newHead).1 ∧
      SameBucket b (s.updateDigest hasher key oldHead newHead).2
        (s'.updateDigest hasher key oldHead newHead).2 := by
  have hstep : s.digestStep hasher key = s'.digestStep hasher key := by
    funext digest n
    unfold digestStep
    rw [h.eventBuffer (key.at n) hkey]
  unfold updateDigest
  rw [h.digests key hkey, hstep]
  exact ⟨rfl, { h with digests := fun k hk => Map.insert_congr _ (h.digests k hk) }⟩

lemma prunePersistedBufferRange_congr (h : SameBucket b s s') (fromSeq toSeq : ℕ) :
    SameBucket b (s.prunePersistedBufferRange key fromSeq toSeq)
      (s'.prunePersistedBufferRange key fromSeq toSeq) := by
  refine { h with eventBuffer := fun k hk => ?_ }
  unfold prunePersistedBufferRange
  dsimp only
  rw [Map.retain_apply, Map.retain_apply, h.unpersisted k hk, h.eventBuffer k hk]

lemma sameBucket_prunePersistedBufferRange (hc : c ≠ b) (hkey : key.1 = b) (fromSeq toSeq : ℕ)
    (s : SharedState D) : SameBucket c s (s.prunePersistedBufferRange key fromSeq toSeq) := by
  refine { SameBucket.refl c s with eventBuffer := fun k hk => ?_ }
  have hne : k.epoch ≠ key := ne_of_bucket_ne Prod.fst hc hk hkey
  unfold prunePersistedBufferRange
  dsimp only
  rw [Map.retain_apply, if_pos (by simp [hne])]

/-- A head is advanced from the entries of its own bucket. -/
lemma advanceHeadLocked_congr (hasher : Hasher D) (h : SameBucket b s s') (hkey : key.1 = b)
    (seq : ℕ) :
    (s.advanceHeadLocked hasher key seq).1 = (s'.advanceHeadLocked hasher key seq).1 ∧
      SameBucket b (s.advanceHeadLocked hasher key seq).2
        (s'.advanceHeadLocked hasher key seq).2 := by
  obtain ⟨hnew, hdrained⟩ := drainPending_congr h hkey seq
  obtain ⟨hdigest, hupdated⟩ := updateDigest_congr hasher hdrained hkey (s'.head key)
    (s'.drainPending key seq).1
  have hmoved : SameBucket b
      { ((s.drainPending key seq).2.updateDigest hasher key (s'.head key)
          (s'.drainPending key seq).1).2 with
        heads := ((s.drainPending key seq).2.updateDigest hasher key (s'.head key)
          (s'.drainPending key seq).1).2.heads.insert key (s'.drainPending key seq).1 }
      { ((s'.drainPending key seq).2.updateDigest hasher key (s'.head key)
          (s'.drainPending key seq).1).2 with
        heads := ((s'.drainPending key seq).2.updateDigest hasher key (s'.head key)
          (s'.drainPending key seq).1).2.heads.insert key (s'.drainPending key seq).1 } :=
    { hupdated with heads := fun k hk => Map.insert_congr _ (hupdated.heads k hk) }
  unfold advanceHeadLocked
  dsimp only
  rw [h.head hkey, hnew]
  split
  · exact ⟨congrArg (fun digest => some ((s'.drainPending key seq).1, digest)) hdigest,
      prunePersistedBufferRange_congr hmoved _ _⟩
  · split
    · refine ⟨rfl, { h with
        pendingSeqs := fun k hk => ?_
        heads := fun k hk => Map.insert_congr _ (h.heads k hk) }⟩
      rw [h.pending hkey]
      exact Map.insert_congr _ (h.pendingSeqs k hk)
    · exact ⟨rfl, h⟩

lemma sameBucket_advanceHeadLocked (hasher : Hasher D) (hc : c ≠ b) (hkey : key.1 = b) (seq : ℕ)
    (s : SharedState D) : SameBucket c s (s.advanceHeadLocked hasher key seq).2 := by
  have hne : ∀ k : EpochKey, k.1 = c → k ≠ key := fun k hk => ne_of_bucket_ne Prod.fst hc hk hkey
  unfold advanceHeadLocked
  dsimp only
  split
  · refine (sameBucket_drainPending hc hkey seq s).trans ?_
    refine SameBucket.trans ?_ (sameBucket_prunePersistedBufferRange hc hkey _ _ _)
    exact { SameBucket.refl c _ with
      digests := fun k hk => (Map.insert_of_ne _ _ _ (hne k hk)).symm
      heads := fun k hk => (Map.insert_of_ne _ _ _ (hne k hk)).symm }
  · split
    · exact { SameBucket.refl c s with
        pendingSeqs := fun k hk => (Map.insert_of_ne _ _ _ (hne k hk)).symm
        heads := fun k hk => (Map.insert_of_ne _ _ _ (hne k hk)).symm }
    · exact .refl c s

end SharedState

variable (env : Env D)

lemma confinedTo_advanceHead {key : EpochKey} (hkey : key.1 = b) (seq : ℕ) :
    ConfinedTo b (fun _ => True) (advanceHead env key seq) := by
  have hlocked : ConfinedTo b (fun _ => True)
      (Proc.readUpdate fun s => s.advanceHeadLocked env.hasher key seq : NodeM D _) := by
    refine Proc.confined_readUpdate ⟨fun s hs => ?_, fun _ _ => trivial,
      fun c hc s _ => SharedState.sameBucket_advanceHeadLocked _ hc hkey seq s,
      fun s s' _ _ h hsync => ?_⟩
    · rw [SharedState.advanceHeadLocked_frame]
      exact hs
    · obtain ⟨hanswer, hsame⟩ := SharedState.advanceHeadLocked_congr env.hasher h hkey seq
      refine ⟨hsame, ?_, hanswer⟩
      rw [SharedState.advanceHeadLocked_frame, SharedState.advanceHeadLocked_frame env.hasher s']
      exact { hsync with }
  refine hlocked.bind fun moved _ => ?_
  cases moved with
  | none => exact Proc.confined_pure trivial
  | some moved =>
      refine Proc.Confined.bind (confinedTo_storageCall (Q := fun _ => True) env _
        (fun _ => trivial) (fun c hc st => ?_) fun st st' hst => ⟨?_, rfl⟩)
          fun _ _ => Proc.confined_pure trivial
      · exact { Storage.SameBucket.refl c st with
          digests := fun k hk =>
            (Map.insert_of_ne _ _ _ (ne_of_bucket_ne Prod.fst hc hk hkey)).symm }
      · exact { hst with digests := fun k hk => Map.insert_congr _ (hst.digests k hk) }

lemma confinedTo_updateOriginTracking {e : Event} (he : e.bucket = b) :
    ConfinedTo b (fun _ => True)
      (Proc.update fun s => s.updateOriginTracking e : NodeM D PUnit) := by
  refine confinedTo_update (fun _ hs => hs) (fun c hc s => ?_) (fun s s' h => ?_)
    fun _ _ h => { h with }
  · exact { SameBucket.refl c s with
      accountOriginEpochs := fun k hk =>
        (Map.insert_of_ne _ _ _ (ne_of_bucket_ne Prod.fst hc hk he)).symm
      maxKnownSeqs := fun k hk =>
        (Map.insert_of_ne _ _ _ (ne_of_bucket_ne Prod.fst hc hk he)).symm }
  · unfold SharedState.updateOriginTracking
    rw [h.accountOriginEpochs e.balanceKey he, h.maxKnownSeqs e.epochKey he]
    exact { h with
      accountOriginEpochs := fun k hk => Map.insert_congr _ (h.accountOriginEpochs k hk)
      maxKnownSeqs := fun k hk => Map.insert_congr _ (h.maxKnownSeqs k hk) }

lemma confinedTo_storeEventBuffer {e : Event} (he : e.bucket = b) :
    ConfinedTo b (fun _ => True)
      (Proc.update fun s => s.storeEventBuffer e : NodeM D PUnit) := by
  refine confinedTo_update (fun _ hs => hs) (fun c hc s => ?_) (fun s s' h => ?_)
    fun _ _ h => { h with }
  · exact { SameBucket.refl c s with
      eventBuffer := fun k hk =>
        (Map.insert_of_ne _ _ _ (ne_of_bucket_ne Prod.fst hc hk he)).symm
      unpersisted := fun k hk =>
        (Map.insert_of_ne _ _ _ (ne_of_bucket_ne Prod.fst hc hk he)).symm }
  · exact { h with
      eventBuffer := fun k hk => Map.insert_congr _ (h.eventBuffer k hk)
      unpersisted := fun k hk => Map.insert_congr _ (h.unpersisted k hk) }

/-- What is put at the end of a queue is seen by its own bucket. -/
lemma filter_append_of_ne {c : String} {es : List Event} {e : Event} (hc : c ≠ b)
    (he : e.bucket = b) :
    es.filter (fun e => e.bucket = c) = (es ++ [e]).filter fun e => e.bucket = c := by
  have hne : e.bucket ≠ c := fun h => hc (h.symm.trans he)
  rw [List.filter_append, List.filter_singleton]
  simp [hne]

lemma confinedTo_queueForBatch {e : Event} (he : e.bucket = b) :
    ConfinedTo b (fun _ => True) (Proc.update fun s => s.queueForBatch e : NodeM D PUnit) := by
  refine confinedTo_update (fun _ hs => hs) (fun c hc s => ?_) (fun s s' h => ?_)
    fun _ _ h => { h with }
  · exact { SameBucket.refl c s with batchQueue := filter_append_of_ne hc he }
  · refine { h with batchQueue := ?_ }
    unfold SharedState.queueForBatch
    rw [List.filter_append, List.filter_append, h.batchQueue]

lemma confinedTo_queueCorrection {e : Event} (he : e.bucket = b) :
    ConfinedTo b (fun _ => True) (Proc.update fun s => s.queueCorrection e : NodeM D PUnit) := by
  refine confinedTo_update (fun _ hs => hs) (fun c hc s => ?_) (fun s s' h => ?_)
    fun _ _ h => { h with }
  · exact { SameBucket.refl c s with correctionQueue := filter_append_of_ne hc he }
  · refine { h with correctionQueue := ?_ }
    unfold SharedState.queueCorrection
    rw [List.filter_append, List.filter_append, h.correctionQueue]

/-- The count of all events is no part of any bucket. -/
lemma confinedTo_countEvent :
    ConfinedTo b (fun _ => True) (Proc.update fun s => s.countEvent : NodeM D PUnit) :=
  confinedTo_update (fun _ hs => hs) (fun c _ s => { SameBucket.refl c s with })
    (fun _ _ h => { h with }) fun _ _ h => { h with }

lemma confinedTo_recordNewLocalEvent {e : Event} (he : e.bucket = b) :
    ConfinedTo b (fun _ => True) (recordNewLocalEvent env e) := by
  refine (confinedTo_storeEventBuffer he).bind fun _ _ => ?_
  refine (confinedTo_advanceHead env he e.originSeq).bind fun _ _ => ?_
  refine (confinedTo_updateOriginTracking he).bind fun _ _ => ?_
  exact confinedTo_countEvent.bind fun _ _ => confinedTo_queueForBatch he

lemma confinedTo_flushLocalEvents {es : List Event} (hes : ∀ e ∈ es, e.bucket = b) :
    ConfinedTo b (fun _ => True) (flushLocalEvents env es) := by
  induction es with
  | nil => exact Proc.confined_pure trivial
  | cons e es ih =>
      refine (confinedTo_recordNewLocalEvent env (hes e List.mem_cons_self)).bind fun _ _ => ?_
      exact ih fun x hx => hes x (List.mem_cons_of_mem _ hx)

end Heads

/-! ## Requests -/

section Requests

variable (env : Env D) {input : LocalCreateInput} (hbucket : input.bucket = b) (now : ℕ)

include hbucket

lemma confinedTo_emitHold (hold : UInt64 × ℕ) :
    ConfinedTo b (Proc.Succeeds fun es : List Event => ∀ e ∈ es, e.bucket = b)
      (emitHold env input now hold).run := by
  unfold emitHold
  split
  · refine (confinedTo_mintLocal env now hbucket).run_bind fun e he => ?_
    exact Proc.confined_run_pure fun x hx => List.mem_singleton.1 hx ▸ he
  · exact Proc.confined_run_pure fun x hx => absurd hx List.not_mem_nil

lemma confinedTo_emitTransfer :
    ConfinedTo b (Proc.Succeeds fun es : List Event => ∀ e ∈ es, e.bucket = b)
      (emitTransfer env input now).run := by
  unfold emitTransfer
  cases input.transferTo with
  | none => exact Proc.confined_run_pure fun x hx => absurd hx List.not_mem_nil
  | some toAddr =>
      refine confinedTo_withAccount hbucket ?_
      cases checkedAbs input.amount with
      | none => exact Proc.confined_run_throw
      | some creditAmount =>
          refine (confinedTo_mintLocal env now hbucket).run_bind fun e he => ?_
          exact Proc.confined_run_pure fun x hx => List.mem_singleton.1 hx ▸ he

lemma confinedTo_emitChargeLocked (holdOverride : Option (UInt64 × ℕ)) :
    ConfinedTo b (Proc.Succeeds fun _ => True)
      (emitChargeLocked env input now holdOverride).run := by
  refine (Proc.Confined.run_lift (confinedTo_readAccount hbucket)).run_bind fun acc _ => ?_
  dsimp only
  split
  · exact Proc.confined_run_throw
  · refine (confinedTo_emitHold env hbucket now _).run_bind fun held hheld => ?_
    refine (confinedTo_mintLocal env now hbucket).run_bind fun charge hcharge => ?_
    refine (confinedTo_emitTransfer env hbucket now).run_bind fun credited hcredited => ?_
    refine (Proc.Confined.run_lift (confinedTo_flushLocalEvents env fun e he => ?_)).run_bind
      fun _ _ => Proc.confined_run_pure trivial
    rcases List.mem_append.1 he with he | he
    · rcases List.mem_append.1 he with he | he
      · exact hheld e he
      · exact List.mem_singleton.1 he ▸ hcharge
    · exact hcredited e he

omit hbucket in
/-- A reservation or a release mints one event. -/
lemma confinedTo_emitOne {d : EventDraft} (hd : d.key.1 = b) :
    ConfinedTo b (Proc.Succeeds fun _ => True) (do
      let e ← mintLocal env now d
      (flushLocalEvents env [e] : NodeM D Unit)
      return { primaryEvent := e, emittedEvents := [e] } :
        ExceptT CreateLocalEventError (NodeM D) LocalCreateResult).run := by
  refine (confinedTo_mintLocal env now hd).run_bind fun e he => ?_
  refine (Proc.Confined.run_lift (confinedTo_flushLocalEvents env fun x hx => ?_)).run_bind
    fun _ _ => Proc.confined_run_pure trivial
  exact List.mem_singleton.1 hx ▸ he

lemma confinedTo_emitSettleLocked (reservationId : String) :
    ConfinedTo b (Proc.Succeeds fun _ => True)
      (emitSettleLocked env input now reservationId).run := by
  refine (Proc.Confined.run_lift (confinedTo_readAccount hbucket)).run_bind fun acc _ => ?_
  cases acc.settleCheck reservationId input.amount now with
  | error err => exact Proc.confined_run_throw
  | ok _ =>
      have hdraft : ∀ {d : EventDraft}, d.key = input.balanceKey → d.key.1 = b := fun hd =>
        (congrArg Prod.fst hd).trans hbucket
      refine (confinedTo_allocateFor env hbucket now).run_bind fun chargeId _ => ?_
      refine (confinedTo_allocateFor env hbucket now).run_bind fun releaseId _ => ?_
      refine (Proc.Confined.run_lift (confinedTo_buildEvent env chargeId now
        (hdraft rfl))).run_bind fun charge hcharge => ?_
      refine (Proc.Confined.run_lift (confinedTo_buildEvent env releaseId now
        (hdraft rfl))).run_bind fun release hrelease => ?_
      have happly : ConfinedTo b (fun _ => True)
          (Proc.update fun s => (s.applyLocal charge).applyLocal release : NodeM D PUnit) :=
        (confinedTo_applyLocal hcharge).bind fun _ _ => confinedTo_applyLocal hrelease
      refine (Proc.Confined.run_lift happly).run_bind fun _ _ => ?_
      refine (Proc.Confined.run_lift (confinedTo_flushLocalEvents env fun x hx => ?_)).run_bind
        fun _ _ => Proc.confined_run_pure trivial
      rcases List.mem_pair.1 hx with rfl | rfl
      · exact hcharge
      · exact hrelease

lemma confinedTo_emitLocked (mode : LocalCreateMode) :
    ConfinedTo b (Proc.Succeeds fun _ => True) (emitLocked env input now mode).run := by
  cases mode with
  | charge holdOverride => exact confinedTo_emitChargeLocked env hbucket now holdOverride
  | reserve =>
      refine (Proc.Confined.run_lift (confinedTo_readAccount hbucket)).run_bind fun acc _ => ?_
      split
      · exact Proc.confined_run_throw
      · exact confinedTo_emitOne env now hbucket
  | settle reservationId => exact confinedTo_emitSettleLocked env hbucket now reservationId
  | release reservationId =>
      refine (Proc.Confined.run_lift (confinedTo_readAccount hbucket)).run_bind fun acc _ => ?_
      split
      · exact Proc.confined_run_throw
      · exact confinedTo_emitOne env now hbucket

end Requests

section Answers

variable (env : Env D)

lemma Storage.SameBucket.findByIdempotencyKey {st st' : Storage D} (h : st.SameBucket b st')
    {key : IdemKey} (hkey : key.2.1 = b) :
    st.findByIdempotencyKey key = st'.findByIdempotencyKey key := by
  have hpart : ∀ st : Storage D, st.findByIdempotencyKey key =
      (st.events.filter fun e => e.bucket = b).filter fun e => e.idempotencyKey = key := by
    intro st
    rw [List.filter_filter, Storage.findByIdempotencyKey]
    refine List.filter_congr fun e _ => ?_
    by_cases he : e.idempotencyKey = key
    · have hb : e.bucket = b := (congrArg (fun k : IdemKey => k.2.1) he).trans hkey
      simp [he, hb]
    · simp [he]
  rw [hpart, hpart, h.events]

/-- Stored events are found under their own key. -/
lemma confinedTo_findStored {key : IdemKey} (hkey : key.2.1 = b) :
    ConfinedTo b (Proc.Succeeds fun found : List Event => ∀ e ∈ found, e.idempotencyKey = key)
      (storageCall env .findByIdempotencyKey fun st => (st.findByIdempotencyKey key, st)).run :=
  confinedTo_query env _ (fun st e he => by simpa using (List.mem_filter.1 he).2)
    fun st st' h => h.findByIdempotencyKey hkey

/-- An event is cached under a key it has. -/
lemma confinedTo_cacheInsert {key : IdemKey} (hkey : key.2.1 = b) {e : Event}
    (he : e.idempotencyKey = key) :
    ConfinedTo b (fun _ => True)
      (Proc.update fun s =>
        { s with idempotencyCache := s.idempotencyCache.insert key e } : NodeM D PUnit) := by
  refine confinedTo_update (fun s hs k x hx => ?_) (fun c hc s => ?_) (fun s s' h => ?_)
    fun _ _ h => { h with }
  · rcases Map.of_insert hx with hx | ⟨rfl, rfl⟩
    · exact hs k x hx
    · exact he
  · exact { SameBucket.refl c s with
      idempotencyCache := fun k hk =>
        (Map.insert_of_ne _ _ _ (ne_of_bucket_ne (fun k => k.2.1) hc hk hkey)).symm }
  · exact { h with idempotencyCache := fun k hk => Map.insert_congr _ (h.idempotencyCache k hk) }

lemma confinedTo_findExisting {key : IdemKey} (hkey : key.2.1 = b) :
    ConfinedTo b (fun _ => True) (findExisting env key) := by
  have hcached : ConfinedTo b (fun _ => True)
      (Proc.read fun s => s.idempotencyCache key : NodeM D (Option Event)) :=
    Proc.confined_read (fun _ _ => trivial) fun _ _ _ _ h => h.idempotencyCache key hkey
  refine hcached.bind fun cached _ => ?_
  cases cached with
  | some existing => exact Proc.confined_pure trivial
  | none =>
      refine (confinedTo_findStored env hkey).bind fun r hr => ?_
      cases r with
      | error err => exact Proc.confined_pure trivial
      | ok found =>
          dsimp only
          cases hwinner : canonicalWinner found with
          | none => exact Proc.confined_pure trivial
          | some winner =>
              have he := Proc.succeeds_ok.1 hr winner (mem_of_canonicalWinner hwinner)
              exact (confinedTo_cacheInsert hkey he).bind fun _ _ => Proc.confined_pure trivial

lemma confinedTo_readTombstone (bucket : String) :
    ConfinedTo bucket (fun _ => True)
      (Proc.read fun s => s.deletedBuckets.containsKey bucket : NodeM D Bool) :=
  Proc.confined_read (fun _ _ => trivial) fun _ _ _ _ h =>
    congrArg Option.isSome h.deletedBuckets

/-- **A request** is confined to its bucket. -/
theorem confinedTo_createLocalEvents (input : LocalCreateInput) :
    ConfinedTo input.bucket (Proc.Succeeds fun _ => True) (createLocalEvents env input).run := by
  unfold createLocalEvents
  split
  · exact Proc.confined_run_throw_bind
  refine (Proc.Confined.run_lift (confinedTo_readTombstone input.bucket)).run_bind
    fun deleted _ => ?_
  dsimp only
  split
  · exact Proc.confined_run_throw_bind
  refine (Proc.Confined.run_lift (confinedTo_nowMs _ env)).run_bind fun checkedAt _ => ?_
  refine (Proc.confined_run_except _).run_bind fun mode _ => ?_
  have hkey : input.balanceKey.1 = input.bucket := rfl
  refine confinedTo_withAccount hkey ?_
  have hidem : input.idempotencyKey.2.1 = input.bucket := rfl
  refine (Proc.Confined.run_lift (confinedTo_findExisting env hidem)).run_bind
    fun existing _ => ?_
  cases existing with
  | some existing => exact Proc.confined_run_pure trivial
  | none =>
      refine (Proc.Confined.run_lift (confinedTo_nowMs _ env)).run_bind fun now _ => ?_
      exact confinedTo_emitLocked env rfl now mode

end Answers

/-! ## Replicated events -/

section Replicate

variable (env : Env D)

lemma confinedTo_applyCorrectionEvent {e : Event} (he : e.bucket = b) :
    ConfinedTo b (fun _ => True) (applyCorrectionEvent env e) := by
  have hkey : e.balanceKey.1 = b := he
  refine (confinedTo_storeEventBuffer he).bind fun _ _ => ?_
  refine (confinedTo_withAccount hkey (confinedTo_modifyAccount hkey _)).bind fun _ _ => ?_
  refine (confinedTo_advanceHead env he e.originSeq).bind fun _ _ => ?_
  have hcount : ConfinedTo b (fun _ => True) (Proc.update fun s =>
      ((s.updateOriginTracking e).countEvent).cacheEvent e : NodeM D PUnit) :=
    (confinedTo_updateOriginTracking he).bind fun _ _ => confinedTo_countEvent.bind fun _ _ =>
      confinedTo_cacheEvent he
  have hqueue : ConfinedTo b (fun _ => True)
      (Proc.update fun s => (s.queueForBatch e).queueCorrection e : NodeM D PUnit) :=
    (confinedTo_queueForBatch he).bind fun _ _ => confinedTo_queueCorrection he
  exact hcount.bind fun _ _ => hqueue

/-- Whether an event is cached under a key of the bucket. -/
lemma confinedTo_readCached {key : IdemKey} (hkey : key.2.1 = b) :
    ConfinedTo b (fun _ => True)
      (Proc.read fun s => s.idempotencyCache.containsKey key : NodeM D Bool) :=
  Proc.confined_read (fun _ _ => trivial) fun _ _ _ _ h =>
    congrArg Option.isSome (h.idempotencyCache key hkey)

lemma confinedTo_emitHoldRelease (winner loser : Event) :
    ConfinedTo loser.bucket (fun _ => True) (emitHoldRelease env winner loser) := by
  unfold emitHoldRelease
  split
  swap
  · exact Proc.confined_pure trivial
  have hkey : (releaseIdemKey loser).2.1 = loser.bucket := rfl
  refine (confinedTo_readCached hkey).bind fun released _ => ?_
  cases released with
  | true => exact Proc.confined_pure trivial
  | false =>
      refine (confinedTo_allocate loser.bucket env).bind fun r _ => ?_
      cases r with
      | error err => exact Proc.confined_pure trivial
      | ok id =>
          have hdraft : (holdReleaseDraft winner loser).key.1 = loser.bucket := rfl
          refine (confinedTo_nowMs _ env).bind fun now _ => ?_
          refine (confinedTo_buildEvent env id now hdraft).bind fun release hrelease => ?_
          exact confinedTo_applyCorrectionEvent env hrelease

lemma confinedTo_emitCorrections (winner loser : Event) :
    ConfinedTo loser.bucket (fun _ => True) (emitCorrections env winner loser) := by
  have hkey : (voidIdemKey loser).2.1 = loser.bucket := rfl
  refine (confinedTo_readCached hkey).bind fun voided _ => ?_
  cases voided with
  | true => exact Proc.confined_pure trivial
  | false =>
      refine (confinedTo_findStored env hkey).bind fun found _ => ?_
      rcases found with err | _ | ⟨e, rest⟩
      -- a failed look-up counts as no void
      any_goals
        refine (confinedTo_allocate loser.bucket env).bind fun r _ => ?_
        cases r with
        | error err => exact Proc.confined_pure trivial
        | ok id =>
            have hdraft : (voidDraft winner loser).key.1 = loser.bucket := rfl
            refine (confinedTo_nowMs _ env).bind fun now _ => ?_
            refine (confinedTo_buildEvent env id now hdraft).bind fun void hvoid => ?_
            refine (confinedTo_applyCorrectionEvent env hvoid).bind fun _ _ => ?_
            exact confinedTo_emitHoldRelease env winner loser
      exact Proc.confined_pure trivial

/-- The event that is found under the key of an event is of the same bucket. -/
lemma confinedTo_checkIdempotencyConflict {e : Event} (he : e.bucket = b) :
    ConfinedTo b (fun _ => True) (checkIdempotencyConflict env e) := by
  have hkey : e.idempotencyKey.2.1 = b := he
  have hread : ConfinedTo b (fun r : Option Event => ∀ x, r = some x →
      x.idempotencyKey = e.idempotencyKey)
      (Proc.read fun s => s.conflicting e : NodeM D (Option Event)) := by
    refine Proc.confined_read (fun s hs x hx => ?_) fun s s' _ _ h => ?_
    · exact hs _ x (Option.filter_eq_some_iff.1 hx).1
    · rw [SharedState.conflicting, SharedState.conflicting, h.idempotencyCache _ hkey]
  refine hread.bind fun r hr => ?_
  cases r with
  | none => exact confinedTo_cacheEvent he
  | some existing =>
      have hexisting := hr existing rfl
      have hbucket : existing.bucket = b :=
        (congrArg (fun k : IdemKey => k.2.1) hexisting).trans he
      have hcases := idempotencyWinner_cases existing e
      have hwinner : (idempotencyWinner existing e).1.idempotencyKey = e.idempotencyKey := by
        rcases hcases with h | h
        · rw [h]
          exact hexisting
        · rw [h]
      have hloser : (idempotencyWinner existing e).2.bucket = b := by
        rcases hcases with h | h
        · rw [h]
          exact he
        · rw [h]
          exact hbucket
      refine (confinedTo_cacheInsert hkey hwinner).bind fun _ _ => ?_
      exact hloser ▸ confinedTo_emitCorrections env _ _

/-- Whether an event is present is seen from its bucket. -/
lemma SameBucket.eventIsPresent {s s' : SharedState D} {e : Event}
    (h : SameBucket e.bucket s s') : s.eventIsPresent e = s'.eventIsPresent e := by
  unfold SharedState.eventIsPresent
  rw [h.eventBuffer e.originKey rfl, h.pending rfl, h.head rfl]

lemma confinedTo_acceptEvent (e : Event) :
    ConfinedTo e.bucket (fun _ => True) (acceptEvent env e) := by
  have hkey : e.balanceKey.1 = e.bucket := rfl
  have hmark : ConfinedTo e.bucket (fun _ => True) (Proc.update fun s =>
      { s with unpersisted := s.unpersisted.insert e.originKey e.createdAtUnixMs } :
        NodeM D PUnit) := by
    refine confinedTo_update (fun _ hs => hs) (fun c hc s => ?_) (fun s s' h => ?_)
      fun _ _ h => { h with }
    · exact { SameBucket.refl c s with
        unpersisted := fun k hk =>
          (Map.insert_of_ne _ _ _ (ne_of_bucket_ne Prod.fst hc hk rfl)).symm }
    · exact { h with unpersisted := fun k hk => Map.insert_congr _ (h.unpersisted k hk) }
  have hcount : ConfinedTo e.bucket (fun _ => True)
      (Proc.update fun s => (s.updateOriginTracking e).countEvent : NodeM D PUnit) :=
    (confinedTo_updateOriginTracking rfl).bind fun _ _ => confinedTo_countEvent
  refine (confinedTo_withAccount hkey (confinedTo_modifyAccount hkey _)).bind fun _ _ => ?_
  have hhead : e.epochKey.1 = e.bucket := rfl
  refine hmark.bind fun _ _ => ?_
  refine (confinedTo_advanceHead env hhead e.originSeq).bind fun _ _ => ?_
  refine hcount.bind fun _ _ => ?_
  refine (confinedTo_queueForBatch rfl).bind fun _ _ => ?_
  exact (confinedTo_checkIdempotencyConflict env rfl).bind fun _ _ => Proc.confined_pure trivial

/-- **A replicated event** that deletes no bucket is confined to its own. -/
theorem confinedTo_insertEvent {e : Event} (hmeta : e.metaTargetBucket = none) :
    ConfinedTo e.bucket (fun _ => True) (insertEvent env e) := by
  have hpresent : ConfinedTo e.bucket (fun _ => True)
      (Proc.read fun s => s.eventIsPresent e : NodeM D Bool) :=
    Proc.confined_read (fun _ _ => trivial) fun _ _ _ _ h => h.eventIsPresent
  have hcascade : cascadeOf env e = (pure () : NodeM D Unit) := by
    unfold cascadeOf
    rw [hmeta]
  refine (confinedTo_readTombstone e.bucket).bind fun deleted _ => ?_
  cases deleted with
  | true => exact Proc.confined_pure trivial
  | false =>
  refine hpresent.bind fun present _ => ?_
  cases present with
  | true => exact Proc.confined_pure trivial
  | false =>
  refine Proc.Confined.bind (Q := fun _ => True) (Proc.confined_readUpdate ?_) fun taken _ => ?_
  · -- the slot is one of the event's bucket
    refine ⟨fun s hs => ?_, fun _ _ => trivial, fun c hc s _ => ?_, fun s s' _ _ h hsync => ?_⟩
    · split <;> exact hs
    · split
      · exact .refl c s
      · exact { SameBucket.refl c s with
          eventBuffer := fun k hk =>
            (Map.insert_of_ne _ _ _ (ne_of_bucket_ne Prod.fst hc hk rfl)).symm }
    · rw [h.eventBuffer e.originKey rfl]
      cases s'.eventBuffer e.originKey with
      | some _ => exact ⟨h, hsync, rfl⟩
      | none =>
          exact ⟨{ h with eventBuffer := fun k hk => Map.insert_congr _ (h.eventBuffer k hk) },
            { hsync with }, rfl⟩
  cases taken with
  | true => exact Proc.confined_pure trivial
  | false =>
      simp only [hcascade]
      exact confinedTo_acceptEvent env e

end Replicate

end Shardd
