import Shardd.Node.Create

/-!
# Replicated events, conflict corrections and bucket deletion (§3.2, §3.5, §10.4)

`insert_event` accepts an event of another node, `check_idempotency_conflict` detects that two
events carry one idempotency key and voids the loser, `apply_bucket_delete_cascade` strips a
deleted bucket from the node.
-/

namespace Shardd

variable {D : Type}

namespace SharedState

variable (s : SharedState D)

/-- The in-memory side of `apply_bucket_delete_cascade`. -/
def stripBucket (bucket : String) : SharedState D :=
  ({ s with
    heads := s.heads.retain fun k => k.1 != bucket
    pendingSeqs := s.pendingSeqs.retain fun k => k.1 != bucket
    maxKnownSeqs := s.maxKnownSeqs.retain fun k => k.1 != bucket
    digests := s.digests.retain fun k => k.1 != bucket
    eventBuffer := s.eventBuffer.retain fun k => k.1 != bucket
    unpersisted := s.unpersisted.retain fun k => k.1 != bucket
    accounts := s.accounts.retain fun k => k.1 != bucket
    accountOriginEpochs := s.accountOriginEpochs.retain fun k => k.1 != bucket
    idempotencyCache := s.idempotencyCache.retain fun k => k.2.1 != bucket }).forgetAllocator bucket

/-- `total_event_count.fetch_add(1)`. -/
def countEvent : SharedState D := { s with totalEventCount := s.totalEventCount + 1 }

/-- `batch_tx.send(event)`. -/
def queueForBatch (e : Event) : SharedState D := { s with batchQueue := s.batchQueue ++ [e] }

/-- `correction_tx.send(event)`. -/
def queueCorrection (e : Event) : SharedState D :=
  { s with correctionQueue := s.correctionQueue ++ [e] }

/-- The sweep at time `now`: an account whose lock is taken is skipped. -/
def sweepExpired (now : ℕ) : SharedState D :=
  { s with
    accounts := fun key =>
      if (s.accountLocks key).isNone then (s.accounts key).map fun acc => acc.sweepExpired now
      else s.accounts key }

end SharedState

variable (env : Env D)

def sweepExpiredHolds : NodeM D Unit := do
  let now ← nowMs env
  Proc.update fun s => s.sweepExpired now

def applyBucketDeleteCascade (bucket : String) : NodeM D Unit := do
  if bucket = metaBucket then
    return ()
  -- a failure is only logged
  let _ ← (storageCall env .deleteBucketCascade fun st => ((), st.deleteBucketCascade bucket)).run
  Proc.update fun s => s.stripBucket bucket

/-! ## Corrections -/

/-- Apply a void or a hold release of this node to its own state. -/
def applyCorrectionEvent (e : Event) : NodeM D Unit := do
  Proc.update fun s => s.storeEventBuffer e
  withAccount e.balanceKey <| Proc.update fun s =>
    s.modifyAccount e.balanceKey fun acc => (acc.post e.amount).applyReleaseOf e
  advanceHead env e.epochKey e.originSeq
  Proc.update fun s => ((s.updateOriginTracking e).countEvent).cacheEvent e
  Proc.update fun s => (s.queueForBatch e).queueCorrection e

def voidNonce (loser : Event) : String := "void:" ++ loser.eventId

def releaseNonce (loser : Event) : String := "release:" ++ loser.eventId

/-- The key under which a void of `loser` is filed. -/
def voidIdemKey (loser : Event) : IdemKey :=
  (voidNonce loser, loser.bucket, loser.account, -loser.amount)

/-- The key under which a hold release of `loser` is filed. -/
def releaseIdemKey (loser : Event) : IdemKey :=
  (releaseNonce loser, loser.bucket, loser.account, 0)

def voidDraft (winner loser : Event) : EventDraft where
  type := .void
  key := loser.balanceKey
  amount := -loser.amount
  note := some ("void: duplicate of event " ++ winner.eventId)
  idempotencyNonce := voidNonce loser
  voidRef := some loser.eventId
  hold := (0, 0)
  transferTo := none

def holdReleaseDraft (winner loser : Event) : EventDraft where
  type := .holdRelease
  key := loser.balanceKey
  amount := 0
  note := some ("release hold: duplicate of event " ++ winner.eventId)
  idempotencyNonce := releaseNonce loser
  voidRef := some loser.eventId
  hold := (0, 0)
  transferTo := none

/-- §10.5 step 2: release the hold of a loser that carried one. -/
def emitHoldRelease (winner loser : Event) : NodeM D Unit := do
  if loser.hasHold then
    if ← Proc.read fun s => s.idempotencyCache.containsKey (releaseIdemKey loser) then
      return ()
    match ← (allocate env loser.bucket).run with
    | .error _ => return ()
    | .ok id =>
        let now ← nowMs env
        let release ← buildEvent env id now (holdReleaseDraft winner loser)
        applyCorrectionEvent env release

/-- §10.5: void the loser, unless that has been done already, and release its hold. -/
def emitCorrections (winner loser : Event) : NodeM D Unit := do
  if ← Proc.read fun s => s.idempotencyCache.containsKey (voidIdemKey loser) then
    return ()
  match ← (storageCall env .findByIdempotencyKey
    fun st => (st.findByIdempotencyKey (voidIdemKey loser), st)).run with
  | .ok (_ :: _) => return ()
  | _ =>
      match ← (allocate env loser.bucket).run with
      | .error _ => return ()
      | .ok id =>
          let now ← nowMs env
          let void ← buildEvent env id now (voidDraft winner loser)
          applyCorrectionEvent env void
          emitHoldRelease env winner loser

/-- The event the cache holds under the key of `e`, when it is another one. -/
def SharedState.conflicting (s : SharedState D) (e : Event) : Option Event :=
  (s.idempotencyCache e.idempotencyKey).filter fun existing => existing.eventId ≠ e.eventId

def checkIdempotencyConflict (e : Event) : NodeM D Unit := do
  match ← Proc.read fun s => s.conflicting e with
  | none => Proc.update fun s => s.cacheEvent e
  | some existing =>
      let (winner, loser) := idempotencyWinner existing e
      Proc.update fun s =>
        { s with idempotencyCache := s.idempotencyCache.insert e.idempotencyKey winner }
      emitCorrections env winner loser

/-! ## Replicated events -/

/-- The cascade of a meta event, before any account is touched. -/
def cascadeOf (e : Event) : NodeM D Unit := do
  match e.metaTargetBucket with
  | some target =>
      if target ≠ metaBucket then
        Proc.update fun s =>
          { s with deletedBuckets := s.deletedBuckets.insert target e.createdAtUnixMs }
        applyBucketDeleteCascade env target
  | none => return ()

/-- Insert a replicated event; `true` if it is new. -/
def insertEvent (e : Event) : NodeM D Bool := do
  if ← Proc.read fun s => s.deletedBuckets.containsKey e.bucket then
    return false
  if ← Proc.read fun s => s.eventIsPresent e then
    return false
  if ← Proc.readUpdate fun s =>
      match s.eventBuffer e.originKey with
      | some _ => (true, s)
      | none => (false, { s with eventBuffer := s.eventBuffer.insert e.originKey e }) then
    return false
  cascadeOf env e
  withAccount e.balanceKey <| Proc.update fun s =>
    s.modifyAccount e.balanceKey fun acc => acc.applyEvent e
  Proc.update fun s =>
    { s with unpersisted := s.unpersisted.insert e.originKey e.createdAtUnixMs }
  advanceHead env e.epochKey e.originSeq
  Proc.update fun s => (s.updateOriginTracking e).countEvent
  Proc.update fun s => s.queueForBatch e
  checkIdempotencyConflict env e
  return true

def insertEventsBatch : List Event → NodeM D ℕ
  | [] => return 0
  | e :: rest => do
      let new ← insertEvent env e
      let count ← insertEventsBatch rest
      return (if new then 1 else 0) + count

/-! ## Deleting a bucket -/

/-- One tombstone per target bucket name. -/
def bucketDeleteDraft (targetBucket : String) (reason : Option String) : EventDraft where
  type := .bucketDelete
  key := (metaBucket, targetBucket)
  amount := 0
  note := reason
  idempotencyNonce := "delete:" ++ targetBucket
  voidRef := none
  hold := (0, 0)
  transferTo := none

/-- `create_meta_bucket_delete`: the tombstone is recorded and the bucket stripped before the
meta event is recorded. -/
def createMetaBucketDelete (targetBucket : String) (reason : Option String) :
    ExceptT CreateLocalEventError (NodeM D) Event := do
  if targetBucket = metaBucket ∨ isReservedBucketName targetBucket = true then
    throw (.bucketReserved targetBucket)
  if ← (Proc.read fun s => s.deletedBuckets.containsKey targetBucket : NodeM D Bool) then
    throw (.bucketDeleted targetBucket)
  match ← ((allocate env metaBucket).run : NodeM D (Except StorageError (ℕ × ℕ))) with
  | .error _ => throw (.insufficientFunds 0 0 0 false)
  | .ok id =>
      let now ← nowMs env
      let e ← (buildEvent env id now (bucketDeleteDraft targetBucket reason) : NodeM D Event)
      (Proc.update fun s =>
        { s with deletedBuckets := s.deletedBuckets.insert targetBucket now } : NodeM D Unit)
      applyBucketDeleteCascade env targetBucket
      recordNewLocalEvent env e
      return e

end Shardd
