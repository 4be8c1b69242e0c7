import Shardd.Lib.Interleave
import Shardd.Node.Replicate

/-!
# The programs of a node, one map operation at a time

A node's maps are concurrent: between two operations on them any other call may run, not only at an
`.await`.  The programs here are those of `Node/Heads.lean` and `Node/Replicate.lean` again, written
so that every operation on a map, a counter, a queue or a lock is an action of its own, and
interrupted before each (`step`).  What is one action there and several here are the presence check,
the section of `advance_head` under the epoch's mutex, and `mark_persisted`.

`FineState.log` is a history: which call has taken the slot of an event, added its amount to an
account, counted it.
-/

namespace Shardd

variable {D : Type}

/-! ## States and programs -/

/-- What the history records. -/
inductive Deed
  /-- `insert_event` has taken the event's slot in the buffer. -/
  | claimed (e : Event)
  /-- `insert_event` has added the event's amount to its account. -/
  | posted (e : Event)
  /-- `insert_event` has added the event to the total. -/
  | counted (e : Event)
  /-- `apply_correction_event` has added the event's amount to its account. -/
  | corrected (e : Event)
  /-- `apply_correction_event` has added the event to the total. -/
  | countedCorrection (e : Event)
  /-- The conflict check has put `winner` into the cache, and is to void `loser`. -/
  | decided (winner : Event) (loser : Option Event)
  /-- The conflict check has built the void of `loser`. -/
  | voided (loser : Event)
  deriving DecidableEq, Repr

structure FineState (D : Type) where
  node : SharedState D
  /-- Who holds an epoch's mutex. -/
  headLocks : Map EpochKey ℕ
  /-- History: what the calls have done. -/
  log : List (ℕ × Deed)

/-- The suspension points: those of the node's programs, the epoch mutexes, and the points between
two operations.  Two of these are named: before the slot of an event is taken, and before an entry
of the idempotency cache is written by a call that has read it. -/
inductive FineWait
  | start
  | step
  | claim (e : Event)
  | install (key : IdemKey) (seen : Option Event)
  | head (key : EpochKey)
  | node (l : Wait)
  deriving DecidableEq, Repr

def FineWait.ready : FineWait → FineState D → Bool
  | .head key, S => (S.headLocks key).isNone
  | .node l, S => l.ready S.node
  | _, _ => true

abbrev FineM (D : Type) := Proc (FineState D) FineWait

/-- The node of a fine state. -/
def nodeLens (D : Type) : Lens (FineState D) (SharedState D) where
  get S := S.node
  set s S := { S with node := s }
  get_set _ _ := rfl
  set_get _ := rfl
  set_set _ _ _ := rfl

/-- Record what the running call has done. -/
def FineState.note (S : FineState D) (deed : Deed) : FineState D :=
  { S with log := S.log ++ [(S.node.running, deed)] }

/-- A program of the node, interrupted before every action. -/
abbrev step {α : Type} (t : NodeM D α) : FineM D α :=
  (t.zoom (nodeLens D) FineWait.node).interleave .step

/-- One operation that is recorded. -/
def deed (d : Deed) (f : SharedState D → SharedState D) : FineM D PUnit := do
  Proc.suspend .step
  Proc.update fun S => ({ S with node := f S.node } : FineState D).note d

variable (env : Env D)

/-! ## Heads -/

section Heads

variable (key : EpochKey)

/-- `update_digest`: one look-up in the buffer for each seq. -/
def chainFine (digest : D) : List ℕ → FineM D D
  | [] => return digest
  | seq :: rest => do
      let digest' ← step (Proc.read fun s => s.digestStep env.hasher key digest seq)
      chainFine digest' rest

def updateDigestFine (oldHead newHead : ℕ) : FineM D D := do
  let start ← step (Proc.read fun s => ((s.digests key).map Prod.snd).getD env.hasher.zero)
  let digest ← chainFine env key start (List.range' (oldHead + 1) (newHead - oldHead))
  step (Proc.update fun s => { s with digests := s.digests.insert key (newHead, digest) })
  return digest

/-- `prune_persisted_buffer_range`, seq by seq. -/
def pruneFine : List ℕ → FineM D PUnit
  | [] => return ⟨⟩
  | seq :: rest => do
      if !(← step (Proc.read fun s => s.unpersisted.containsKey (key.at seq))) then
        step (Proc.update fun s => { s with eventBuffer := s.eventBuffer.remove (key.at seq) })
      pruneFine rest

/-- The section of `advance_head` under the mutex of the epoch. -/
def advanceHeadSection (seq : ℕ) : FineM D (Option (ℕ × D)) := do
  let current ← step (Proc.read fun s => s.head key)
  if seq = current + 1 then
    let newHead ← step (Proc.readUpdate fun s => s.drainPending key seq)
    let digest ← updateDigestFine env key current newHead
    step (Proc.update fun s => { s with heads := s.heads.insert key newHead })
    pruneFine key (List.range' (current + 1) (newHead - current))
    return some (newHead, digest)
  else if current + 1 < seq then
    step (Proc.update fun s =>
      { s with pendingSeqs := s.pendingSeqs.insert key (insert seq (s.pending key)) })
    step (Proc.update fun s =>
      { s with heads := if s.heads.containsKey key then s.heads else s.heads.insert key current })
    return none
  else return none

/-- The mutex of an epoch around `body`. -/
def withHeadLock {α : Type} (body : FineM D α) : FineM D α := do
  Proc.suspend (.head key)
  Proc.update fun S => { S with headLocks := S.headLocks.insert key S.node.running }
  let r ← body
  Proc.suspend .step
  Proc.update fun S => { S with headLocks := S.headLocks.remove key }
  return r

def advanceHeadFine (seq : ℕ) : FineM D Unit := do
  match ← withHeadLock key (advanceHeadSection env key seq) with
  | some (head, digest) =>
      let _ ← step (storageCall env .saveDigest fun st => ((), st.saveDigest key head digest)).run
      return ()
  | none => return ()

end Heads

def updateOriginTrackingFine (e : Event) : FineM D PUnit := do
  step (Proc.update fun s => { s with
    accountOriginEpochs := s.accountOriginEpochs.insert e.balanceKey
      (insert e.epochKey ((s.accountOriginEpochs e.balanceKey).getD ∅)) })
  step (Proc.update fun s => { s with
    maxKnownSeqs := s.maxKnownSeqs.insert e.epochKey
      (match s.maxKnownSeqs e.epochKey with
        | some m => if m < e.originSeq then e.originSeq else m
        | none => e.originSeq) })

def eventIsPresentFine (e : Event) : FineM D Bool := do
  match ← step (Proc.read fun s => s.eventBuffer e.originKey) with
  | some existing => return existing.eventId == e.eventId
  | none =>
      if ← step (Proc.read fun s => decide (e.originSeq ∈ s.pending e.epochKey)) then
        return true
      else
        step (Proc.read fun s => decide (e.originSeq ≤ s.head e.epochKey))

/-! ## Persistence -/

def markPersistedFine : List OriginKey → FineM D PUnit
  | [] => return ⟨⟩
  | key :: rest => do
      step (Proc.update fun s => { s with unpersisted := s.unpersisted.remove key })
      let head ← step (Proc.read fun s => s.head key.epoch)
      let stillPending ← step (Proc.read fun s => decide (key.2.2.2 ∈ s.pending key.epoch))
      if key.2.2.2 ≤ head ∧ stillPending = false then
        step (Proc.update fun s => { s with eventBuffer := s.eventBuffer.remove key })
      markPersistedFine rest

def doFlushFine (events : List Event) : FineM D Unit := do
  match ← step (storageCall env .insertEventsBulk
    fun st => ((), st.insertEventsBulk events)).run with
  | .ok () => markPersistedFine (events.map Event.originKey)
  | .error _ => return ()

/-! ## Corrections -/

/-- A section under an account's mutex. -/
def accountFine (key : BalanceKey) (d : Deed) (f : AccountState → AccountState) :
    FineM D PUnit := do
  step (Proc.update fun s => s.ensureAccount key)
  Proc.suspend (.node (.account key))
  Proc.update fun S => { S with node := S.node.lockAccount key }
  deed d fun s => s.modifyAccount key f
  step (Proc.update fun s => s.unlockAccount key)

def applyCorrectionEventFine (e : Event) : FineM D Unit := do
  step (Proc.update fun s => { s with eventBuffer := s.eventBuffer.insert e.originKey e })
  step (Proc.update fun s =>
    { s with unpersisted := s.unpersisted.insert e.originKey e.createdAtUnixMs })
  accountFine e.balanceKey (.corrected e) fun acc => (acc.post e.amount).applyReleaseOf e
  advanceHeadFine env e.epochKey e.originSeq
  updateOriginTrackingFine e
  deed (.countedCorrection e) SharedState.countEvent
  step (Proc.update fun s => s.cacheEvent e)
  step (Proc.update fun s => s.queueForBatch e)
  step (Proc.update fun s => s.queueCorrection e)

def emitHoldReleaseFine (winner loser : Event) : FineM D Unit := do
  if loser.hasHold then
    if ← step (Proc.read fun s => s.idempotencyCache.containsKey (releaseIdemKey loser)) then
      return ()
    match ← step (allocate env loser.bucket).run with
    | .error _ => return ()
    | .ok id =>
        let now ← step (nowMs env)
        let release ← step (buildEvent env id now (holdReleaseDraft winner loser))
        applyCorrectionEventFine env release

/-- An event literal of a void is recorded as its loser's. -/
def buildVoid (id : ℕ × ℕ) (now : ℕ) (winner loser : Event) : FineM D Event := do
  Proc.suspend .step
  Proc.readUpdate fun S =>
    let e := (voidDraft winner loser).event (env.freshId S.node.idsDrawn) env.nodeId id now
    (e, ({ S with
      node := { S.node with
        idsDrawn := S.node.idsDrawn + 1
        minted := S.node.minted ++ [e] } } : FineState D).note (.voided loser))

def emitCorrectionsFine (winner loser : Event) : FineM D Unit := do
  if ← step (Proc.read fun s => s.idempotencyCache.containsKey (voidIdemKey loser)) then
    return ()
  match ← step (storageCall env .findByIdempotencyKey
    fun st => (st.findByIdempotencyKey (voidIdemKey loser), st)).run with
  | .ok (_ :: _) => return ()
  | _ =>
      match ← step (allocate env loser.bucket).run with
      | .error _ => return ()
      | .ok id =>
          let now ← step (nowMs env)
          let void ← buildVoid env id now winner loser
          applyCorrectionEventFine env void
          emitHoldReleaseFine env winner loser

/-- The entry is read in one operation and written in another. -/
def checkIdempotencyConflictFine (e : Event) : FineM D Unit := do
  let seen ← step (Proc.read fun s => s.idempotencyCache e.idempotencyKey)
  Proc.suspend (.install e.idempotencyKey seen)
  match seen.filter fun existing => existing.eventId ≠ e.eventId with
  | none =>
      Proc.update fun S =>
        ({ S with node := S.node.cacheEvent e } : FineState D).note (.decided e none)
  | some existing =>
      let (winner, loser) := idempotencyWinner existing e
      Proc.update fun S => ({ S with
        node := { S.node with
          idempotencyCache := S.node.idempotencyCache.insert e.idempotencyKey winner } } :
            FineState D).note (.decided winner (some loser))
      emitCorrectionsFine env winner loser

/-! ## Replicated events -/

/-- `event_buffer.entry(key)`: a vacant slot is taken, an occupied one left as it is. -/
def claimSlot (e : Event) : FineM D Bool := do
  Proc.suspend (.claim e)
  Proc.readUpdate fun S =>
    match S.node.eventBuffer e.originKey with
    | some _ => (true, S)
    | none =>
        (false, ({ S with
          node := { S.node with eventBuffer := S.node.eventBuffer.insert e.originKey e } } :
            FineState D).note (.claimed e))

def insertEventFine (e : Event) : FineM D Bool := do
  if ← step (Proc.read fun s => s.deletedBuckets.containsKey e.bucket) then
    return false
  if ← eventIsPresentFine e then
    return false
  if ← claimSlot e then
    return false
  step (cascadeOf env e)
  accountFine e.balanceKey (.posted e) fun acc => acc.applyEvent e
  step (Proc.update fun s =>
    { s with unpersisted := s.unpersisted.insert e.originKey e.createdAtUnixMs })
  advanceHeadFine env e.epochKey e.originSeq
  updateOriginTrackingFine e
  deed (.counted e) SharedState.countEvent
  step (Proc.update fun s => s.queueForBatch e)
  checkIdempotencyConflictFine env e
  return true

/-! ## Calls -/

inductive FineCall
  | insert (e : Event)
  | flush (events : List Event)
  | persist (keys : List OriginKey)
  | advance (key : EpochKey) (seq : ℕ)
  deriving DecidableEq, Repr

def FineCall.program : FineCall → FineM D Unit
  | .insert e => do
      let _ ← insertEventFine env e
      return ()
  | .flush events => doFlushFine env events
  | .persist keys => markPersistedFine keys
  | .advance key seq => advanceHeadFine env key seq

/-- Call `i` is resumed. -/
def FineState.resumed (i : ℕ) (S : FineState D) : FineState D :=
  { S with node := { S.node with running := i } }

/-- A node that runs calls of the kinds `kinds`. -/
def fineScheduler (kinds : FineCall → Prop) : Scheduler (FineState D) FineWait Unit where
  ready := FineWait.ready
  enter := FineState.resumed
  starts l t := l = .start ∧ ∃ c, kinds c ∧ t = c.program env

/-- A node that nobody has called. -/
def FineState.idle (s : SharedState D) : FineState D where
  node := s
  headLocks := fun _ => none
  log := []

/-- Start the calls, numbered from zero, and resume them in the given order. -/
def playFine (kinds : FineCall → Prop) (C : FineWait → FineState D → Prop)
    [∀ l S, Decidable (C l S)] (s : SharedState D) (calls : List FineCall) (order : List ℕ) :
    Pool (FineState D) FineWait Unit :=
  Pool.play (fineScheduler env kinds) C ⟨.idle s, fun _ => .absent⟩
    ((calls.zipIdx.map fun c => .start c.2 .start (c.1.program env)) ++ order.map .resume)

lemma reach_playFine {kinds : FineCall → Prop} {C : FineWait → FineState D → Prop}
    [∀ l S, Decidable (C l S)] {s : SharedState D} {calls : List FineCall} {order : List ℕ}
    (h : ∀ c ∈ calls, kinds c) :
    Pool.Reach (fineScheduler env kinds) C (.idle s) (playFine env kinds C s calls order) := by
  apply Pool.Reach.init.play
  intro m hm
  rcases List.mem_append.1 hm with hm | hm
  · obtain ⟨c, hc, rfl⟩ := List.mem_map.1 hm
    exact ⟨rfl, c.1, h c.1 (List.fst_mem_of_mem_zipIdx hc), rfl⟩
  · obtain ⟨i, -, rfl⟩ := List.mem_map.1 hm
    trivial

end Shardd
