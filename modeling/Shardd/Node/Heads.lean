import Shardd.Node.State

/-!
# Contiguous heads, pending seqs, digests and the event buffer

The bookkeeping a node does for every event it accepts, local or replicated, and the bookkeeping
of persistence: `advance_head`, `drain_pending`, `update_digest`, `prune_persisted_buffer_range`,
`update_origin_tracking`, `event_is_present`, `mark_persisted` and `record_new_local_event` of
`state.rs`, and `BatchWriter::do_flush`.
-/

namespace Shardd

variable {D : Type}

/-- The origin key of seq `n` in an epoch. -/
def EpochKey.at (key : EpochKey) (n : ℕ) : OriginKey := (key.1, key.2.1, key.2.2, n)

/-- The epoch an origin key belongs to. -/
def OriginKey.epoch (key : OriginKey) : EpochKey := (key.1, key.2.1, key.2.2.1)

/-- The `while` loop of `drain_pending`.  Every round takes an element out of `pending`, so as
many rounds as `pending` has elements are enough. -/
def drainLoop : ℕ → ℕ → Finset ℕ → ℕ × Finset ℕ
  | 0, head, pending => (head, pending)
  | rounds + 1, head, pending =>
      if head + 1 ∈ pending then drainLoop rounds (head + 1) (pending.erase (head + 1))
      else (head, pending)

/-- `compute_contiguous_head` of an ascending list. -/
def computeContiguousHead (seqs : List ℕ) : ℕ := go 0 seqs
where
  go (head : ℕ) : List ℕ → ℕ
    | [] => head
    | seq :: rest =>
        if seq = head + 1 then go seq rest
        else if head + 1 < seq then head
        else go head rest

namespace SharedState

variable (hasher : Hasher D) (s : SharedState D)

def head (key : EpochKey) : ℕ := (s.heads key).getD 0

def pending (key : EpochKey) : Finset ℕ := (s.pendingSeqs key).getD ∅

def drainPending (key : EpochKey) (currentHead : ℕ) : ℕ × SharedState D :=
  match s.pendingSeqs key with
  | some pending =>
      let (head, rest) := drainLoop pending.card currentHead pending
      (head, { s with pendingSeqs := s.pendingSeqs.insert key rest })
  | none => (currentHead, s)

/-- One step of the rolling digest; a seq whose event is not in the buffer is skipped. -/
def digestStep (key : EpochKey) (digest : D) (seq : ℕ) : D :=
  match s.eventBuffer (key.at seq) with
  | some e => hasher.chain digest e.canonical
  | none => digest

def updateDigest (key : EpochKey) (oldHead newHead : ℕ) : D × SharedState D :=
  let start := ((s.digests key).map Prod.snd).getD hasher.zero
  let seqs := List.range' (oldHead + 1) (newHead - oldHead)
  let digest := seqs.foldl (s.digestStep hasher key) start
  (digest, { s with digests := s.digests.insert key (newHead, digest) })

/-- Drop the events of `[fromSeq, toSeq]` that are persisted. -/
def prunePersistedBufferRange (key : EpochKey) (fromSeq toSeq : ℕ) : SharedState D :=
  { s with
    eventBuffer := s.eventBuffer.retain fun k =>
      !(decide (k.epoch = key) && decide (fromSeq ≤ k.2.2.2) && decide (k.2.2.2 ≤ toSeq) &&
        (s.unpersisted k).isNone) }

/-- The section of `advance_head` under the epoch's lock; the digest to persist, if any. -/
def advanceHeadLocked (key : EpochKey) (seq : ℕ) : Option (ℕ × D) × SharedState D :=
  let current := s.head key
  if seq = current + 1 then
    let (newHead, s₁) := s.drainPending key seq
    let (digest, s₂) := s₁.updateDigest hasher key current newHead
    let s₃ := { s₂ with heads := s₂.heads.insert key newHead }
    (some (newHead, digest), s₃.prunePersistedBufferRange key (current + 1) newHead)
  else if current + 1 < seq then
    (none,
      { s with
        pendingSeqs := s.pendingSeqs.insert key (insert seq (s.pending key))
        heads := s.heads.insert key current })
  else (none, s)

def updateOriginTracking (e : Event) : SharedState D :=
  { s with
    accountOriginEpochs := s.accountOriginEpochs.insert e.balanceKey
      (insert e.epochKey ((s.accountOriginEpochs e.balanceKey).getD ∅))
    maxKnownSeqs := s.maxKnownSeqs.insert e.epochKey
      (match s.maxKnownSeqs e.epochKey with
        | some m => if m < e.originSeq then e.originSeq else m
        | none => e.originSeq) }

def storeEventBuffer (e : Event) : SharedState D :=
  { s with
    eventBuffer := s.eventBuffer.insert e.originKey e
    unpersisted := s.unpersisted.insert e.originKey e.createdAtUnixMs }

/-- `total_event_count.fetch_add(1)` and `batch_tx.send(event)`. -/
def countAndQueue (e : Event) : SharedState D :=
  { s with
    totalEventCount := s.totalEventCount + 1
    batchQueue := s.batchQueue ++ [e] }

def eventIsPresent (e : Event) : Bool :=
  match s.eventBuffer e.originKey with
  | some existing => existing.eventId == e.eventId
  | none => decide (e.originSeq ∈ s.pending e.epochKey) || decide (e.originSeq ≤ s.head e.epochKey)

/-- `mark_persisted` for one key. -/
def markPersistedKey (key : OriginKey) : SharedState D :=
  let s' := { s with unpersisted := s.unpersisted.remove key }
  if key.2.2.2 ≤ s.head key.epoch ∧ key.2.2.2 ∉ s.pending key.epoch then
    { s' with eventBuffer := s.eventBuffer.remove key }
  else s'

def markPersisted (keys : List OriginKey) : SharedState D :=
  keys.foldl markPersistedKey s

end SharedState

variable (env : Env D)

def advanceHead (key : EpochKey) (seq : ℕ) : NodeM D Unit := do
  match ← Proc.readUpdate fun s => s.advanceHeadLocked env.hasher key seq with
  | some (head, digest) =>
      -- a failure is only logged
      let _ ← (storageCall env .saveDigest fun st => ((), st.saveDigest key head digest)).run
      return ()
  | none => return ()

def recordNewLocalEvent (e : Event) : NodeM D Unit := do
  Proc.update fun s => s.storeEventBuffer e
  advanceHead env e.epochKey e.originSeq
  Proc.update fun s => s.updateOriginTracking e
  Proc.update fun s => s.countAndQueue e

def flushLocalEvents : List Event → NodeM D Unit
  | [] => return ()
  | e :: rest => do
      recordNewLocalEvent env e
      flushLocalEvents rest

/-- `do_flush` of a batch the writer has taken off its queue: a failed flush leaves the events
unpersisted. -/
def doFlush (events : List Event) : NodeM D Unit := do
  match ← (storageCall env .insertEventsBulk fun st => ((), st.insertEventsBulk events)).run with
  | .ok () => Proc.update fun s => s.markPersisted (events.map Event.originKey)
  | .error _ => return ()

end Shardd
