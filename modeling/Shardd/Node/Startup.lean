import Shardd.Node.Replicate

/-!
# Start-up (`SharedState::new`, §13.1)

A node starts by flagging and loading its allocator rows and by rebuilding every cache from the
storage.  Each of its storage calls may fail; the part of the state it was to rebuild is then
left empty.
-/

namespace Shardd

variable {D : Type}

/-- The state before anything has been rebuilt. -/
def SharedState.blank (storage : Storage D) : SharedState D where
  storage := storage
  bucketAllocators := fun _ => .empty
  accounts := fun _ => none
  accountLocks := fun _ => none
  heads := fun _ => none
  pendingSeqs := fun _ => none
  accountOriginEpochs := fun _ => none
  maxKnownSeqs := fun _ => none
  eventBuffer := fun _ => none
  unpersisted := fun _ => none
  idempotencyCache := fun _ => none
  batchQueue := []
  correctionQueue := []
  totalEventCount := 0
  digests := fun _ => none
  deletedBuckets := fun _ => none
  clockReads := 0
  idsDrawn := 0
  storageCalls := 0
  running := 0
  minted := []
  issued := []

namespace SharedState

variable (s : SharedState D)

def rebuildBalances (balances : Map BalanceKey Int64) : SharedState D :=
  { s with
    accounts := fun key => (balances key).map fun sum => { AccountState.new with balance := sum } }

/-- Heads, pending seqs and maximal known seqs; `count` is the number of stored events. -/
def rebuildHeads (seqsByEpoch : Map EpochKey (List ℕ)) (count : ℕ) : SharedState D :=
  { s with
    heads := fun key => (seqsByEpoch key).map computeContiguousHead
    pendingSeqs := fun key => (seqsByEpoch key).bind fun seqs =>
      let pending := seqs.toFinset.filter fun seq => computeContiguousHead seqs < seq
      if pending = ∅ then none else some pending
    maxKnownSeqs := fun key => (seqsByEpoch key).bind List.getLast?
    totalEventCount := count }

def rebuildOriginTracking (events : List Event) : SharedState D :=
  { s with
    accountOriginEpochs := events.foldl
      (fun m e => m.insert e.balanceKey (insert e.epochKey ((m e.balanceKey).getD ∅)))
      fun _ => none }

/-- The per-account caches of one stored event: an expired hold is not tracked. -/
def rebuildAccount (now : ℕ) (e : Event) : SharedState D :=
  s.modifyAccount e.balanceKey fun acc =>
    let acc := { acc with eventCount := acc.eventCount + 1 }
    let acc :=
      if e.hasHold ∧ now < e.holdExpiresAtUnixMs then acc.trackReservation e else acc
    acc.applyReleaseOf e

/-- The idempotency cache from the 10000 most recent events, the most recent first. -/
def rebuildIdempotencyCache (events : List Event) : SharedState D :=
  { s with
    idempotencyCache := (events.reverse.take 10000).foldl
      (fun m e => if m.containsKey e.idempotencyKey then m else m.insert e.idempotencyKey e)
      s.idempotencyCache }

/-- One event of the digest loop, in ascending order of origin keys. -/
def rebuildDigest (hasher : Hasher D) (st : Map EpochKey (ℕ × D) × SharedState D) (e : Event) :
    Map EpochKey (ℕ × D) × SharedState D :=
  let (computed, s) := st
  if s.head e.epochKey < e.originSeq then
    (computed, { s with eventBuffer := s.eventBuffer.insert e.originKey e })
  else
    let (head, digest) := (computed e.epochKey).getD (0, hasher.zero)
    if e.originSeq = head + 1 then
      (computed.insert e.epochKey (e.originSeq, hasher.chain digest e.canonical), s)
    else (computed.insert e.epochKey (head, digest), s)

end SharedState

/-- The order of the digest loop. -/
def byOriginKey (a b : Event) : Prop :=
  toLex (a.bucket, toLex (a.originNodeId, toLex (a.originEpoch, a.originSeq))) ≤
  toLex (b.bucket, toLex (b.originNodeId, toLex (b.originEpoch, b.originSeq)))

instance : DecidableRel byOriginKey := fun _ _ => inferInstanceAs (Decidable (_ ≤ _))

variable (env : Env D)

/-- Persist and keep the recomputed digests. -/
def saveDigests (computed : Map EpochKey (ℕ × D)) : List EpochKey → NodeM D Unit
  | [] => return ()
  | key :: rest => do
      match computed key with
      | some (head, digest) =>
          Proc.update fun s => { s with digests := s.digests.insert key (head, digest) }
          let _ ← (storageCall env .saveDigest fun st => ((), st.saveDigest key head digest)).run
      | none => pure ()
      saveDigests computed rest

/-- The rebuild of the per-event caches. -/
def rebuildFromEvents (now : ℕ) (events : List Event) : NodeM D Unit := do
  Proc.update fun s => events.foldl (fun s e => s.rebuildAccount now e) s
  Proc.update fun s => s.rebuildIdempotencyCache events
  let computed ← Proc.readUpdate fun s =>
    (events.insertionSort byOriginKey).foldl (SharedState.rebuildDigest env.hasher)
      ((fun _ => none : Map EpochKey (ℕ × D)), s)
  saveDigests env computed ((events.map Event.epochKey).dedup)

/-- A storage call of the start-up whose failure leaves the state as it is. -/
def startUpQuery {α : Type} (query : Storage D → α) (rebuild : α → NodeM D Unit) :
    NodeM D Unit := do
  match ← (storageCall env .startUp fun st => (query st, st)).run with
  | .ok a => rebuild a
  | .error _ => return ()

def rebuildDeletedBuckets (metaEvents : List Event) : NodeM D Unit :=
  Proc.update fun s =>
    { s with
      deletedBuckets := metaEvents.foldl
        (fun m e => match e.metaTargetBucket with
          | some target => m.insert target e.createdAtUnixMs
          | none => m)
        fun _ => none }

/-- `SharedState::new`, on the blank state over its storage. -/
def newSharedState : NodeM D Unit := do
  -- "failed to load bucket allocators; starting fresh"
  let _ ← (loadFromStorage env).run
  startUpQuery env Storage.aggregateBalances fun balances =>
    Proc.update fun s => s.rebuildBalances balances
  startUpQuery env (fun st => (st.sequencesByOriginEpoch, st.events.length))
    fun stored => Proc.update fun s => s.rebuildHeads stored.1 stored.2
  startUpQuery env (fun st => st.events) fun events =>
    Proc.update fun s => s.rebuildOriginTracking events
  let now ← nowMs env
  startUpQuery env Storage.queryAllEventsSorted fun events => rebuildFromEvents env now events
  startUpQuery env (fun st => st.queryEventsByBucket metaBucket) rebuildDeletedBuckets

/-- A node with the default hold settings, a standing clock, numbered ids and a storage that never
fails. -/
def Env.plain (nodeId : String) (now : ℕ) : Env Unit where
  nodeId := nodeId
  hold := { multiplier := 5, durationMs := 600000 }
  hasher := { zero := (), chain := fun _ _ => () }
  clock := fun _ => now
  freshId := fun n => toString n
  storageOutcome := fun _ => .ok

end Shardd
