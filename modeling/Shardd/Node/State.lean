import Shardd.Account
import Shardd.Lib.Pool
import Shardd.Storage

/-!
# The state of a node (`SharedState`) and the primitive steps of its programs

`SharedState` carries the fields of the source's `SharedState`, its storage included, and three
groups of fields the source has elsewhere: the lock words of the account mutexes, the counters
that say how often the node has read the clock, drawn an id and called its storage, and two
history variables (`minted`, `issued`) that no program reads.

What the outside world answers is in `Env`: the `n`-th reading of the clock, the `n`-th id that
`Event::generate_id` returns, and what becomes of the `n`-th storage call.  A theorem about every
`env` is a theorem about every clock, every supply of ids and every pattern of storage failures.

Programs are `NodeM`: suspendable programs whose suspension points are the `.await`s of the
source.  A storage call has two, one before the statement takes effect and one before its answer
is seen, so that other calls may run in between.
-/

namespace Shardd

/-! ## The world of a node -/

/-- The rolling digest: `prefix_digest[n] = SHA256(prefix_digest[n-1] || SHA256(canonical))`. -/
structure Hasher (D : Type) where
  zero : D
  chain : D → String → D

/-- What becomes of a storage call.  A call that is answered with an error may still have taken
effect, as when the connection is lost after the commit. -/
inductive StorageOutcome
  | ok
  | failed
  | failedAfterEffect
  deriving DecidableEq, Repr

structure Env (D : Type) where
  nodeId : String
  hold : HoldConfig
  hasher : Hasher D
  clock : ℕ → ℕ
  freshId : ℕ → String
  storageOutcome : ℕ → StorageOutcome

/-! ## Allocator entries -/

/-- One bucket's counter.  The source's `u64` sequence counter is a natural number: it advances
by one for each event of the bucket, so it does not come near `2^64`. -/
structure BucketAllocator where
  currentEpoch : ℕ
  nextSeq : ℕ
  needsBump : Bool
  /-- Who is inside the lazy-bump critical section. -/
  bumpLock : Option ℕ
  deriving DecidableEq, Repr

def BucketAllocator.new (currentEpoch nextSeq : ℕ) (needsBump : Bool) : BucketAllocator where
  currentEpoch := currentEpoch
  nextSeq := nextSeq
  needsBump := needsBump
  bumpLock := none

/-- The entry of one bucket in `BucketAllocators.map`.  The source shares allocators by `Arc`, so
a call can go on using one that the map has since replaced: `objects` are all the allocators made
for the bucket in this process, and `current` is the one the map holds. -/
structure AllocatorSlot where
  objects : List BucketAllocator
  current : Option ℕ
  current_lt : ∀ i, current = some i → i < objects.length

namespace AllocatorSlot

def empty : AllocatorSlot where
  objects := []
  current := none
  current_lt := by simp

/-- The slot of a bucket that has been loaded from its row. -/
def single (a : BucketAllocator) : AllocatorSlot where
  objects := [a]
  current := some 0
  current_lt := by simp

def modify (slot : AllocatorSlot) (i : ℕ) (f : BucketAllocator → BucketAllocator) :
    AllocatorSlot where
  objects := slot.objects.modify i f
  current := slot.current
  current_lt := by simpa using slot.current_lt

/-- `map.insert(bucket, Arc::new(allocator))`, whatever the map held before. -/
def install (slot : AllocatorSlot) (a : BucketAllocator) : AllocatorSlot where
  objects := slot.objects ++ [a]
  current := some slot.objects.length
  current_lt := by simp

def forget (slot : AllocatorSlot) : AllocatorSlot where
  objects := slot.objects
  current := none
  current_lt := by simp

/-- The allocator the map holds. -/
def entry (slot : AllocatorSlot) : Option BucketAllocator :=
  slot.current.bind fun i => slot.objects[i]?

end AllocatorSlot

/-! ## The node -/

structure SharedState (D : Type) where
  storage : Storage D
  bucketAllocators : String → AllocatorSlot
  accounts : Map BalanceKey AccountState
  /-- Who holds an account's mutex. -/
  accountLocks : Map BalanceKey ℕ
  heads : Map EpochKey ℕ
  pendingSeqs : Map EpochKey (Finset ℕ)
  accountOriginEpochs : Map BalanceKey (Finset EpochKey)
  maxKnownSeqs : Map EpochKey ℕ
  eventBuffer : Map OriginKey Event
  unpersisted : Map OriginKey ℕ
  idempotencyCache : Map IdemKey Event
  /-- What has been sent to the batch writer. -/
  batchQueue : List Event
  /-- What has been sent to the correction broadcaster. -/
  correctionQueue : List Event
  totalEventCount : ℕ
  digests : Map EpochKey (ℕ × D)
  deletedBuckets : Map String ℕ
  clockReads : ℕ
  idsDrawn : ℕ
  storageCalls : ℕ
  /-- The call that is running. -/
  running : ℕ
  /-- History: the events this node has built. -/
  minted : List Event
  /-- History: the identities this node has allocated. -/
  issued : List OriginKey

/-! ## Programs -/

/-- What a storage call asks for, as far as a suspended call shows it.  `bucket` is the bucket on
whose behalf the allocator rows are read. -/
inductive StorageOp
  | findByIdempotencyKey
  | bumpBucketEpoch (bucket : String)
  | loadBucketAllocators (bucket : String)
  | saveDigest
  | deleteBucketCascade
  | insertEventsBulk
  | startUp
  deriving DecidableEq, Repr

/-- The suspension points of a node's programs. -/
inductive Wait
  | start
  | account (key : BalanceKey)
  | bumpLock (bucket : String) (i : ℕ)
  | request (op : StorageOp)
  | response (op : StorageOp) (ok : Bool)
  deriving DecidableEq, Repr

/-- A mutex can be taken when nobody holds it; every other wait can end at any time. -/
def Wait.ready {D : Type} : Wait → SharedState D → Bool
  | .account key, s => (s.accountLocks key).isNone
  | .bumpLock bucket i, s =>
      ((s.bucketAllocators bucket).objects[i]?).all fun a => a.bumpLock.isNone
  | _, _ => true

abbrev NodeM (D : Type) := Proc (SharedState D) Wait

/-- Run a program of a node with no other call running. -/
abbrev NodeM.exec {D : Type} {α : Type} (t : NodeM D α) (s : SharedState D) :
    Option α × SharedState D :=
  Proc.exec Wait.ready t s

variable {D : Type}

/-! ## Clock and storage -/

variable (env : Env D)

def nowMs : NodeM D ℕ :=
  .readUpdate fun s => (env.clock s.clockReads, { s with clockReads := s.clockReads + 1 })

/-- An `anyhow::Error` of the storage. -/
inductive StorageError
  | failed
  deriving DecidableEq, Repr

/-- The state once `calls` storage calls have left the storage `st`. -/
def SharedState.setStorage (s : SharedState D) (st : Storage D) (calls : ℕ) : SharedState D :=
  { s with storage := st, storageCalls := calls }

/-- The effect of a storage call, and its answer. -/
def SharedState.callStorage {α : Type} (s : SharedState D) (f : Storage D → α × Storage D) :
    Except StorageError α × SharedState D :=
  match env.storageOutcome s.storageCalls with
  | .ok => (.ok (f s.storage).1, s.setStorage (f s.storage).2 (s.storageCalls + 1))
  | .failed => (.error .failed, s.setStorage s.storage (s.storageCalls + 1))
  | .failedAfterEffect => (.error .failed, s.setStorage (f s.storage).2 (s.storageCalls + 1))

def storageCall {α : Type} (op : StorageOp) (f : Storage D → α × Storage D) :
    ExceptT StorageError (NodeM D) α := ExceptT.mk do
  Proc.suspend (.request op)
  let r ← Proc.readUpdate fun s => s.callStorage env f
  Proc.suspend (.response op r.isOk)
  return r

/-! ## Accounts -/

namespace SharedState

variable (s : SharedState D)

/-- An absent account is an empty one. -/
def account (key : BalanceKey) : AccountState := (s.accounts key).getD .new

def ensureAccount (key : BalanceKey) : SharedState D :=
  { s with
    accounts :=
      if s.accounts.containsKey key then s.accounts else s.accounts.insert key .new }

def modifyAccount (key : BalanceKey) (f : AccountState → AccountState) : SharedState D :=
  { s with accounts := s.accounts.insert key (f (s.account key)) }

def lockAccount (key : BalanceKey) : SharedState D :=
  { s with accountLocks := s.accountLocks.insert key s.running }

def unlockAccount (key : BalanceKey) : SharedState D :=
  { s with accountLocks := s.accountLocks.remove key }

def cacheEvent (e : Event) : SharedState D :=
  { s with idempotencyCache := s.idempotencyCache.insert e.idempotencyKey e }

end SharedState

/-- `entry(key).or_insert_with(AccountState::new)`, then the mutex, then `body`, then the guard
is dropped, on every way out. -/
def withAccount {α : Type} (key : BalanceKey) (body : NodeM D α) : NodeM D α := do
  Proc.update fun s => s.ensureAccount key
  Proc.suspend (.account key)
  Proc.update fun s => s.lockAccount key
  let r ← body
  Proc.update fun s => s.unlockAccount key
  return r

end Shardd
