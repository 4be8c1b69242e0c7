import Mathlib.Data.List.Sort
import Mathlib.Data.Prod.Lex
import Shardd.Lib.Map
import Shardd.Types

/-!
# The in-memory storage backend (`libs/storage/src/memory.rs`)

The tables a node's durable state lives in, with the statements the node issues against them.
The events table is a list whose origin keys are distinct; the table of `event_id`s that the
source keeps beside it is read off the list.  Registry and node-meta tables are left out.

That a call can fail is the caller's business (`Node/State.lean`); here a call succeeds.
-/

namespace Shardd

structure BucketAllocatorRow where
  currentEpoch : ℕ
  nextSeq : ℕ
  needsBump : Bool
  deriving DecidableEq, Repr

/-- `D` is the type of digests. -/
structure Storage (D : Type) where
  events : List Event
  digests : Map EpochKey (ℕ × D)
  /-- `(bucket, node_id)` → row. -/
  bucketAllocators : Map (String × String) BucketAllocatorRow

inductive InsertResult
  | inserted
  | duplicate
  | conflict
  deriving DecidableEq, Repr

namespace Storage

variable {D : Type} (st : Storage D)

def empty : Storage D where
  events := []
  digests := fun _ => none
  bucketAllocators := fun _ => none

/-- The stored event with this origin key. -/
def eventAt (key : OriginKey) : Option Event := st.events.find? fun e => e.originKey = key

/-- The origin key under which this `event_id` is stored. -/
def keyOfId (eventId : String) : Option OriginKey :=
  (st.events.find? fun e => e.eventId = eventId).map Event.originKey

def insertEvent (e : Event) : InsertResult × Storage D :=
  if (st.keyOfId e.eventId).any (· ≠ e.originKey) then (.conflict, st)
  else
    match st.eventAt e.originKey with
    | some old => (if old.eventId = e.eventId then .duplicate else .conflict, st)
    | none => (.inserted, { st with events := st.events ++ [e] })

def insertEventsBulk (es : List Event) : Storage D :=
  es.foldl (fun st e => (st.insertEvent e).2) st

def findByIdempotencyKey (key : IdemKey) : List Event :=
  st.events.filter fun e => e.idempotencyKey = key

def deleteBucketCascade (bucket : String) : Storage D where
  events := st.events.filter fun e => e.bucket ≠ bucket
  digests := st.digests.retain fun k => k.1 != bucket
  bucketAllocators := st.bucketAllocators.retain fun k => k.1 != bucket

def saveDigest (key : EpochKey) (head : ℕ) (digest : D) : Storage D :=
  { st with digests := st.digests.insert key (head, digest) }

/-! ## Allocator rows -/

/-- The rows of one node, by bucket. -/
def loadBucketAllocators (nodeId : String) : Map String BucketAllocatorRow :=
  fun bucket => st.bucketAllocators (bucket, nodeId)

def markBucketAllocatorsPending (nodeId : String) : Storage D :=
  { st with
    bucketAllocators := fun k =>
      if k.2 = nodeId then (st.bucketAllocators k).map fun row => { row with needsBump := true }
      else st.bucketAllocators k }

/-- The row of a bucket after `bump_bucket_epoch`.  The epoch is a `u32`. -/
def bumpedRow : Option BucketAllocatorRow → BucketAllocatorRow
  | some row =>
      if row.needsBump then
        { currentEpoch := (row.currentEpoch + 1) % 2 ^ 32, nextSeq := 1, needsBump := false }
      else row
  | none => { currentEpoch := 1, nextSeq := 1, needsBump := false }

def bumpBucketEpoch (bucket nodeId : String) : ℕ × Storage D :=
  let row := bumpedRow (st.bucketAllocators (bucket, nodeId))
  (row.currentEpoch,
    { st with bucketAllocators := st.bucketAllocators.insert (bucket, nodeId) row })

@[simp] theorem bumpedRow_needsBump (row : Option BucketAllocatorRow) :
    (bumpedRow row).needsBump = false := by
  rcases row with _ | row
  · rfl
  · simp only [bumpedRow]
    split <;> rename_i h
    · rfl
    · simpa using h

/-! ## Queries of the start-up -/

def aggregateBalances : Map BalanceKey Int64 :=
  st.events.foldl
    (fun m e => m.insert e.balanceKey ((m e.balanceKey).getD 0 + e.amount)) fun _ => none

/-- The stored seqs of each epoch, ascending. -/
def sequencesByOriginEpoch : Map EpochKey (List ℕ) := fun k =>
  let seqs := (st.events.filter fun e => e.epochKey = k).map Event.originSeq
  if seqs = [] then none else some (seqs.insertionSort (· ≤ ·))

/-- The order of `query_all_events_sorted`. -/
def chronological (a b : Event) : Prop :=
  toLex (a.createdAtUnixMs, toLex (a.bucket, toLex (a.originNodeId,
    toLex (a.originEpoch, a.originSeq)))) ≤
  toLex (b.createdAtUnixMs, toLex (b.bucket, toLex (b.originNodeId,
    toLex (b.originEpoch, b.originSeq))))

instance : DecidableRel chronological := fun _ _ => inferInstanceAs (Decidable (_ ≤ _))

def queryAllEventsSorted : List Event := st.events.insertionSort chronological

def queryEventsByBucket (bucket : String) : List Event :=
  st.events.filter fun e => e.bucket = bucket

end Storage

end Shardd
