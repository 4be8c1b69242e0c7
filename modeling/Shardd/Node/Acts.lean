import Shardd.Node.HeadSpec

/-!
# The quiet acts of a node's programs

Most of what a call does between two suspensions is allocating an identity or bookkeeping: neither
touches an account, an account's lock, the idempotency cache or what has been minted.  `Quiet` says
that of one act, and `Noted` that the allocators are left alone as well.  One lemma for each program
that consists of such acts.
-/

namespace Shardd

variable {D : Type}

/-- An act that touches neither accounts nor locks, neither the cache nor the stored events, and
that buffers and sends to the batch writer nothing but `es`. -/
structure SharedState.Quiet (es : List Event) (s s' : SharedState D) : Prop where
  events : s'.storage.events = s.storage.events
  accounts : s'.accounts = s.accounts
  accountLocks : s'.accountLocks = s.accountLocks
  idempotencyCache : s'.idempotencyCache = s.idempotencyCache
  deletedBuckets : s'.deletedBuckets = s.deletedBuckets
  idsDrawn : s'.idsDrawn = s.idsDrawn
  minted : s'.minted = s.minted
  running : s'.running = s.running
  clockReads : s.clockReads ≤ s'.clockReads
  queue : ∀ e ∈ s'.batchQueue, e ∈ s.batchQueue ∨ e ∈ es
  buffer : ∀ k e, s'.eventBuffer k = some e → s.eventBuffer k = some e ∨ e ∈ es

/-- A quiet act that leaves the allocators alone. -/
structure SharedState.Noted (es : List Event) (s s' : SharedState D) : Prop
    extends SharedState.Quiet es s s' where
  bucketAllocators : s'.bucketAllocators = s.bucketAllocators
  rows : s'.storage.bucketAllocators = s.storage.bucketAllocators
  issued : s'.issued = s.issued

/-- An act of the batch writer, which stores nothing but `es`. -/
structure SharedState.Wrote (es : List Event) (s s' : SharedState D) : Prop where
  events : ∀ e ∈ s'.storage.events, e ∈ s.storage.events ∨ e ∈ es
  accounts : s'.accounts = s.accounts
  accountLocks : s'.accountLocks = s.accountLocks
  idempotencyCache : s'.idempotencyCache = s.idempotencyCache
  deletedBuckets : s'.deletedBuckets = s.deletedBuckets
  bucketAllocators : s'.bucketAllocators = s.bucketAllocators
  rows : s'.storage.bucketAllocators = s.storage.bucketAllocators
  issued : s'.issued = s.issued
  idsDrawn : s'.idsDrawn = s.idsDrawn
  minted : s'.minted = s.minted
  running : s'.running = s.running
  clockReads : s.clockReads ≤ s'.clockReads
  queue : s'.batchQueue = s.batchQueue
  buffer : ∀ k e, s'.eventBuffer k = some e → s.eventBuffer k = some e

/-- An act on the allocators and on the tables of the storage that hold no events. -/
structure SharedState.Allocating (s s' : SharedState D) : Prop where
  frame : s' = { s with
    storage := s'.storage
    bucketAllocators := s'.bucketAllocators
    storageCalls := s'.storageCalls
    issued := s'.issued }
  events : s'.storage.events = s.storage.events

/-- A wait for something else than an account. -/
def Wait.Free (l : Wait) : Prop := l ≠ .start ∧ ∀ key, l ≠ .account key

namespace SharedState

variable {s s' : SharedState D} {es : List Event}

lemma Quiet.refl (es : List Event) (s : SharedState D) : s.Quiet es s :=
  ⟨rfl, rfl, rfl, rfl, rfl, rfl, rfl, rfl, Nat.le_refl _, fun _ h => .inl h, fun _ _ h => .inl h⟩

lemma Allocating.refl (s : SharedState D) : s.Allocating s := ⟨rfl, rfl⟩

lemma Allocating.quiet (h : s.Allocating s') : s.Quiet [] s' := by
  rw [h.frame]
  exact { Quiet.refl [] s with events := h.events }

lemma Noted.refl (es : List Event) (s : SharedState D) : s.Noted es s :=
  ⟨.refl es s, rfl, rfl, rfl⟩

lemma Quiet.mono {es' : List Event} (h : s.Quiet es s') (hsub : ∀ e ∈ es, e ∈ es') :
    s.Quiet es' s' :=
  { h with
    queue := fun e he => (h.queue e he).imp id (hsub e)
    buffer := fun k e he => (h.buffer k e he).imp id (hsub e) }

lemma Noted.mono {es' : List Event} (h : s.Noted es s') (hsub : ∀ e ∈ es, e ∈ es') :
    s.Noted es' s' := { h with toQuiet := h.toQuiet.mono hsub }

lemma Quiet.account (h : s.Quiet es s') (key : BalanceKey) : s'.account key = s.account key := by
  rw [SharedState.account, h.accounts, SharedState.account]

end SharedState

/-! ## Storage calls and the clock -/

section Programs

variable (env : Env D) {R : SharedState D → SharedState D → Prop} {W : Wait → Prop}

lemma only_storageCall {α : Type} {op : StorageOp} {f : Storage D → α × Storage D}
    (hR : ∀ s : SharedState D, R s (s.callStorage env f).2) (hrequest : W (.request op))
    (hresponse : ∀ ok, W (.response op ok)) : (storageCall env op f).run.Only R W := by
  refine (Proc.only_suspend hrequest).bind fun _ => ?_
  refine (Proc.only_readUpdate hR).bind fun r => ?_
  exact (Proc.only_suspend (hresponse _)).bind fun _ => trivial

lemma Wait.free_request (op : StorageOp) : Wait.Free (.request op) :=
  ⟨Wait.noConfusion, fun _ => Wait.noConfusion⟩

lemma Wait.free_response (op : StorageOp) (ok : Bool) : Wait.Free (.response op ok) :=
  ⟨Wait.noConfusion, fun _ => Wait.noConfusion⟩

lemma Wait.free_bumpLock (bucket : String) (i : ℕ) : Wait.Free (.bumpLock bucket i) :=
  ⟨Wait.noConfusion, fun _ => Wait.noConfusion⟩

lemma allocating_callStorage {α : Type} {f : Storage D → α × Storage D}
    (hf : ∀ st, (f st).2.events = st.events) (s : SharedState D) :
    s.Allocating (s.callStorage env f).2 := by
  unfold SharedState.callStorage
  cases env.storageOutcome s.storageCalls with
  | ok => exact ⟨rfl, hf s.storage⟩
  | failed => exact ⟨rfl, rfl⟩
  | failedAfterEffect => exact ⟨rfl, hf s.storage⟩

lemma quiet_callStorage {α : Type} {f : Storage D → α × Storage D}
    (hf : ∀ st, (f st).2.events = st.events) (s : SharedState D) :
    s.Quiet [] (s.callStorage env f).2 := (allocating_callStorage env hf s).quiet

lemma noted_callStorage {α : Type} {f : Storage D → α × Storage D}
    (hf : ∀ st, (f st).2.events = st.events)
    (hrows : ∀ st, (f st).2.bucketAllocators = st.bucketAllocators) (s : SharedState D) :
    s.Noted [] (s.callStorage env f).2 := by
  unfold SharedState.callStorage
  cases env.storageOutcome s.storageCalls with
  | ok =>
      exact { SharedState.Noted.refl [] s with events := hf s.storage, rows := hrows s.storage }
  | failed => exact { SharedState.Noted.refl [] s with }
  | failedAfterEffect =>
      exact { SharedState.Noted.refl [] s with events := hf s.storage, rows := hrows s.storage }

/-- An answer without an error is the answer of the storage. -/
lemma SharedState.of_callStorage_ok {α : Type} {f : Storage D → α × Storage D} {s : SharedState D}
    {a : α} (h : (s.callStorage env f).1 = .ok a) : a = (f s.storage).1 := by
  unfold SharedState.callStorage at h
  split at h
  · exact (Except.ok.inj h).symm
  · cases h
  · cases h

lemma only_nowMs : (nowMs env).Only (SharedState.Noted []) W :=
  Proc.only_readUpdate fun s => { SharedState.Noted.refl [] s with clockReads := Nat.le_succ _ }

/-! ## Allocation -/

lemma allocating_modifyAllocator (s : SharedState D) (bucket : String) (i : ℕ)
    (f : BucketAllocator → BucketAllocator) : s.Allocating (s.modifyAllocator bucket i f) :=
  ⟨rfl, rfl⟩

lemma only_bumpBucketEpoch (bucket : String) :
    (bumpBucketEpoch env bucket).run.Only SharedState.Allocating Wait.Free := by
  apply only_storageCall
  · exact allocating_callStorage env fun _ => rfl
  · exact Wait.free_request _
  · exact Wait.free_response _

lemma only_lookupAllocator (bucket : String) :
    (lookupAllocator env bucket).run.Only SharedState.Allocating Wait.Free := by
  refine (Proc.only_read SharedState.Allocating.refl _).run_lift.run_bind fun current => ?_
  cases current with
  | some i => trivial
  | none =>
      refine (only_bumpBucketEpoch env bucket).run_bind fun epoch => ?_
      refine Proc.Only.run_bind ?_ fun rows => ?_
      · apply only_storageCall
        · exact allocating_callStorage env fun _ => rfl
        · exact Wait.free_request _
        · exact Wait.free_response _
      · apply Proc.Only.run_lift
        exact Proc.only_readUpdate fun s => ⟨rfl, rfl⟩

lemma only_lazyBump (bucket : String) (i : ℕ) :
    (lazyBump env bucket i).run.Only SharedState.Allocating Wait.Free := by
  have hread := Proc.only_read (ι := Wait) (W := Wait.Free) SharedState.Allocating.refl
    (fun s : SharedState D => (s.allocator bucket i).needsBump)
  refine hread.run_lift.run_bind fun needsBump => ?_
  cases needsBump with
  | false => trivial
  | true =>
      refine (Proc.only_suspend (Wait.free_bumpLock bucket i)).bind fun _ => ?_
      refine (Proc.only_update fun s => allocating_modifyAllocator s bucket i _).bind fun _ => ?_
      refine Proc.Only.bind ?_ fun r => ?_
      · refine hread.run_lift.run_bind fun needsBump => ?_
        cases needsBump with
        | false => trivial
        | true =>
            refine (only_bumpBucketEpoch env bucket).run_bind fun newEpoch => ?_
            exact (Proc.only_update fun s => allocating_modifyAllocator s bucket i _).run_lift
      · exact (Proc.only_update fun s =>
          allocating_modifyAllocator s bucket i _).bind fun _ => trivial

/-- Allocating an identity touches nothing else. -/
theorem only_allocate_frame (bucket : String) :
    (allocate env bucket).run.Only SharedState.Allocating Wait.Free := by
  refine (only_lookupAllocator env bucket).run_bind fun i => ?_
  refine (only_lazyBump env bucket i).run_bind fun _ => ?_
  apply Proc.Only.run_lift
  exact Proc.only_readUpdate fun s => ⟨rfl, rfl⟩

/-- Allocating an identity is quiet. -/
theorem only_allocate (bucket : String) :
    (allocate env bucket).run.Only (SharedState.Quiet []) Wait.Free :=
  (only_allocate_frame env bucket).mono (fun _ _ h => h.quiet) fun _ h => h

/-- So is loading the allocators at a start. -/
lemma only_loadFromStorage : (loadFromStorage env).run.Only (SharedState.Quiet []) Wait.Free := by
  refine Proc.Only.run_bind ?_ fun _ => Proc.Only.run_bind ?_ fun rows => ?_
  · apply only_storageCall
    · exact quiet_callStorage env fun _ => rfl
    · exact Wait.free_request _
    · exact Wait.free_response _
  · apply only_storageCall
    · exact quiet_callStorage env fun _ => rfl
    · exact Wait.free_request _
    · exact Wait.free_response _
  · exact (Proc.only_update fun s => { SharedState.Quiet.refl [] s with }).run_lift

/-! ## Records -/

lemma noted_advanceHeadLocked (hasher : Hasher D) (key : EpochKey) (seq : ℕ) (s : SharedState D) :
    s.Noted [] (s.advanceHeadLocked hasher key seq).2 := by
  have hdrain : ∀ head, s.Noted [] (s.drainPending key head).2 := by
    intro head
    unfold SharedState.drainPending
    split
    · exact { SharedState.Noted.refl [] s with }
    · exact SharedState.Noted.refl [] s
  have hprune : ∀ (s : SharedState D) first last {k e},
      (s.prunePersistedBufferRange key first last).eventBuffer k = some e →
      s.eventBuffer k = some e := by
    intro s first last k e he
    unfold SharedState.prunePersistedBufferRange at he
    dsimp only at he
    exact (Map.of_retain he).1
  unfold SharedState.advanceHeadLocked
  dsimp only
  split
  · exact { hdrain seq with buffer := fun k e he => (hdrain seq).buffer k e (hprune _ _ _ he) }
  · split
    · exact { SharedState.Noted.refl [] s with }
    · exact SharedState.Noted.refl [] s

lemma only_advanceHead (key : EpochKey) (seq : ℕ) :
    (advanceHead env key seq).Only (SharedState.Noted []) Wait.Free := by
  refine (Proc.only_readUpdate (noted_advanceHeadLocked env.hasher key seq)).bind fun r => ?_
  cases r with
  | none => trivial
  | some hd =>
      refine Proc.Only.bind ?_ fun _ => trivial
      apply only_storageCall
      · exact noted_callStorage env (fun _ => rfl) fun _ => rfl
      · exact Wait.free_request _
      · exact Wait.free_response _

/-- Buffering an event; `unpersisted` is what becomes of the marks. -/
lemma noted_buffer {es : List Event} {e : Event} (he : e ∈ es) (s : SharedState D)
    (unpersisted : Map OriginKey ℕ) :
    s.Noted es { s with
      eventBuffer := s.eventBuffer.insert e.originKey e
      unpersisted := unpersisted } := by
  refine { SharedState.Noted.refl es s with buffer := fun k x hx => ?_ }
  rcases Map.of_insert hx with hx | ⟨-, rfl⟩
  · exact .inl hx
  · exact .inr he

lemma only_recordNewLocalEvent (e : Event) :
    (recordNewLocalEvent env e).Only (SharedState.Noted [e]) Wait.Free := by
  refine (Proc.only_update fun s => noted_buffer List.mem_cons_self s _).bind fun _ => ?_
  refine Proc.Only.bind ?_ fun _ => ?_
  · exact (only_advanceHead env e.epochKey e.originSeq).mono
      (fun _ _ h => h.mono fun _ he => absurd he List.not_mem_nil) fun _ h => h
  refine (Proc.only_update fun s => { SharedState.Noted.refl [e] s with }).bind fun _ => ?_
  refine Proc.only_update fun s => { SharedState.Noted.refl [e] s with queue := ?_ }
  intro x hx
  exact List.mem_append.1 hx

/-- Recording events is quiet, and leaves the allocators alone. -/
theorem only_flushLocalEvents (es : List Event) :
    (flushLocalEvents env es).Only (SharedState.Noted es) Wait.Free := by
  induction es with
  | nil => trivial
  | cons e es ih =>
      refine Proc.Only.bind ?_ fun _ => ?_
      · refine (only_recordNewLocalEvent env e).mono (fun _ _ h => h.mono fun x hx => ?_)
          fun _ h => h
        rw [List.mem_singleton.1 hx]
        exact List.mem_cons_self
      · exact ih.mono (fun _ _ h => h.mono fun x hx => List.mem_cons_of_mem _ hx) fun _ h => h

lemma SharedState.idempotencyCache_stripBucket (s : SharedState D) (bucket : String) :
    (s.stripBucket bucket).idempotencyCache =
      s.idempotencyCache.retain fun k => k.2.1 != bucket := rfl

lemma SharedState.eventBuffer_stripBucket (s : SharedState D) (bucket : String) :
    (s.stripBucket bucket).eventBuffer = s.eventBuffer.retain fun k => k.1 != bucket := rfl

/-! ## The batch writer -/

lemma wrote_callStorage (es : List Event) (s : SharedState D) :
    s.Wrote es (s.callStorage env fun st => ((), st.insertEventsBulk es)).2 := by
  have hkeep : ∀ calls, s.Wrote es (s.setStorage s.storage calls) := fun calls =>
    ⟨fun e he => .inl he, rfl, rfl, rfl, rfl, rfl, rfl, rfl, rfl, rfl, rfl, Nat.le_refl _, rfl,
      fun _ _ h => h⟩
  have hstore : ∀ calls, s.Wrote es (s.setStorage (s.storage.insertEventsBulk es) calls) :=
    fun calls =>
      { hkeep calls with
        events := fun e he => Storage.mem_insertEventsBulk he
        rows := s.storage.bucketAllocators_insertEventsBulk es }
  unfold SharedState.callStorage
  split
  · exact hstore _
  · exact hkeep _
  · exact hstore _

/-- A flush stores the events of its batch. -/
theorem only_doFlush (es : List Event) :
    (doFlush env es).Only (SharedState.Wrote es) Wait.Free := by
  refine Proc.Only.bind ?_ fun r => ?_
  · apply only_storageCall
    · exact wrote_callStorage env es
    · exact Wait.free_request _
    · exact Wait.free_response _
  · cases r with
    | error _ => trivial
    | ok _ =>
        refine Proc.only_update fun s => ?_
        have hbuffer := SharedState.eventBuffer_markPersisted s (es.map Event.originKey)
        rw [SharedState.markPersisted_frame]
        exact ⟨fun e he => .inl he, rfl, rfl, rfl, rfl, rfl, rfl, rfl, rfl, rfl, rfl,
          Nat.le_refl _, rfl, hbuffer⟩

end Programs

end Shardd
