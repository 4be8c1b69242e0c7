import Shardd.Node.State

/-!
# The per-bucket epoch and sequence allocator (`apps/node/src/bucket_allocator.rs`)

`allocate` hands out `(epoch, seq)` pairs for a bucket.  The first call for a bucket after a start
goes through the storage; later calls only count up in memory.
-/

namespace Shardd

variable {D : Type}

namespace SharedState

variable (s : SharedState D)

/-- Allocator `i` of a bucket. -/
def allocator (bucket : String) (i : ℕ) : BucketAllocator :=
  ((s.bucketAllocators bucket).objects[i]?).getD (.new 0 0 false)

def setSlot (bucket : String) (slot : AllocatorSlot) : SharedState D :=
  { s with bucketAllocators := Function.update s.bucketAllocators bucket slot }

def modifyAllocator (bucket : String) (i : ℕ) (f : BucketAllocator → BucketAllocator) :
    SharedState D :=
  s.setSlot bucket ((s.bucketAllocators bucket).modify i f)

def installAllocator (bucket : String) (a : BucketAllocator) : ℕ × SharedState D :=
  let slot := s.bucketAllocators bucket
  (slot.objects.length, s.setSlot bucket (slot.install a))

def forgetAllocator (bucket : String) : SharedState D :=
  s.setSlot bucket (s.bucketAllocators bucket).forget

end SharedState

variable (env : Env D)

def bumpBucketEpoch (bucket : String) : ExceptT StorageError (NodeM D) ℕ :=
  storageCall env (.bumpBucketEpoch bucket) fun st => st.bumpBucketEpoch bucket env.nodeId

def loadBucketAllocators (bucket : String) :
    ExceptT StorageError (NodeM D) (Map String BucketAllocatorRow) :=
  storageCall env (.loadBucketAllocators bucket) fun st =>
    (st.loadBucketAllocators env.nodeId, st)

/-- Run `body` inside the critical section of the lazy bump. -/
def withBumpLock {α : Type} (bucket : String) (i : ℕ) (body : NodeM D α) : NodeM D α := do
  Proc.suspend (.bumpLock bucket i)
  Proc.update fun s => s.modifyAllocator bucket i fun a => { a with bumpLock := some s.running }
  let r ← body
  Proc.update fun s => s.modifyAllocator bucket i fun a => { a with bumpLock := none }
  return r

/-- The look-up of `allocate`: the allocator the map holds, or a new one built from the storage
and put into the map. -/
def lookupAllocator (bucket : String) : ExceptT StorageError (NodeM D) ℕ := do
  match ← (Proc.read fun s => (s.bucketAllocators bucket).current : NodeM D (Option ℕ)) with
  | some i => return i
  | none =>
      let epoch ← bumpBucketEpoch env bucket
      let rows ← loadBucketAllocators env bucket
      let (nextSeq, needsBump) :=
        match rows bucket with
        | some row => (row.nextSeq, row.needsBump)
        | none => (1, false)
      (Proc.readUpdate fun s => s.installAllocator bucket (.new epoch nextSeq needsBump) :
        NodeM D ℕ)

/-- The lazy bump: the check is made again inside the lock. -/
def lazyBump (bucket : String) (i : ℕ) : ExceptT StorageError (NodeM D) Unit := do
  if ← (Proc.read fun s => (s.allocator bucket i).needsBump : NodeM D Bool) then
    ExceptT.mk <| withBumpLock bucket i <| ExceptT.run do
      if ← (Proc.read fun s => (s.allocator bucket i).needsBump : NodeM D Bool) then
        let newEpoch ← bumpBucketEpoch env bucket
        (Proc.update fun s => s.modifyAllocator bucket i fun a =>
          { a with currentEpoch := newEpoch, nextSeq := 1, needsBump := false } : NodeM D Unit)

/-- `allocator.epoch()` and `next_seq.fetch_add(1)`. -/
def takeSeq (bucket : String) (i : ℕ) : NodeM D (ℕ × ℕ) :=
  .readUpdate fun s =>
    let a := s.allocator bucket i
    ((a.currentEpoch, a.nextSeq),
      { s.modifyAllocator bucket i (fun a => { a with nextSeq := a.nextSeq + 1 }) with
        issued := s.issued ++ [(bucket, env.nodeId, a.currentEpoch, a.nextSeq)] })

def allocate (bucket : String) : ExceptT StorageError (NodeM D) (ℕ × ℕ) := do
  let i ← lookupAllocator env bucket
  lazyBump env bucket i
  takeSeq env bucket i

/-- `load_from_storage`: flag every row of this node, then load the rows.  It is run before the
node exists, on a state without calls. -/
def loadFromStorage : ExceptT StorageError (NodeM D) Unit := do
  storageCall env .startUp fun st => ((), st.markBucketAllocatorsPending env.nodeId)
  let rows ← storageCall env .startUp fun st => (st.loadBucketAllocators env.nodeId, st)
  (Proc.update fun s =>
    { s with
      bucketAllocators := fun bucket =>
        match rows bucket with
        | some row => .single (.new row.currentEpoch row.nextSeq row.needsBump)
        | none => s.bucketAllocators bucket } : NodeM D Unit)

end Shardd
