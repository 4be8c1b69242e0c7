import Shardd.Node.Replicate

/-!
# What the programs of a node do when they run alone

One lemma for each primitive program: its result and the state it leaves, when no other call is
running.  The programs of a node are built from these, so later proofs rewrite with them and do
not unfold the primitives.
-/

namespace Shardd

variable {D : Type} (env : Env D)

/-! ## Storage calls -/

@[simp] theorem Wait.ready_request (op : StorageOp) (s : SharedState D) :
    Wait.ready (.request op) s = true := rfl

@[simp] theorem Wait.ready_response (op : StorageOp) (ok : Bool) (s : SharedState D) :
    Wait.ready (.response op ok) s = true := rfl

@[simp] theorem exec_storageCall {α : Type} (op : StorageOp) (f : Storage D → α × Storage D)
    (s : SharedState D) :
    NodeM.exec (storageCall env op f).run s =
      (some (s.callStorage env f).1, (s.callStorage env f).2) := by
  rfl

namespace SharedState

variable (s : SharedState D)

@[simp] lemma setStorage_storage (st : Storage D) (n : ℕ) : (s.setStorage st n).storage = st := rfl

@[simp] lemma setStorage_storageCalls (st : Storage D) (n : ℕ) :
    (s.setStorage st n).storageCalls = n := rfl

@[simp] lemma setStorage_setStorage (st st' : Storage D) (n n' : ℕ) :
    (s.setStorage st n).setStorage st' n' = s.setStorage st' n' := rfl

/-- A storage call succeeds, or it fails with or without its effect. -/
lemma callStorage_cases {α : Type} (f : Storage D → α × Storage D) :
    (env.storageOutcome s.storageCalls = .ok ∧
      s.callStorage env f =
        (.ok (f s.storage).1, s.setStorage (f s.storage).2 (s.storageCalls + 1))) ∨
    env.storageOutcome s.storageCalls ≠ .ok ∧
      ∃ st, (st = s.storage ∨ st = (f s.storage).2) ∧
        s.callStorage env f = (.error .failed, s.setStorage st (s.storageCalls + 1)) := by
  unfold callStorage
  rcases env.storageOutcome s.storageCalls with _ | _ | _
  · exact .inl ⟨rfl, rfl⟩
  · exact .inr ⟨by simp, _, .inl rfl, rfl⟩
  · exact .inr ⟨by simp, _, .inr rfl, rfl⟩

/-- The storage a call leaves. -/
def storageAfter {α : Type} (f : Storage D → α × Storage D) : Storage D :=
  if env.storageOutcome s.storageCalls = .failed then s.storage else (f s.storage).2

lemma callStorage_snd {α : Type} (f : Storage D → α × Storage D) :
    (s.callStorage env f).2 = s.setStorage (s.storageAfter env f) (s.storageCalls + 1) := by
  unfold callStorage storageAfter
  cases env.storageOutcome s.storageCalls <;> rfl

end SharedState

/-! ## Locks -/

theorem exec_withAccount {α : Type} (key : BalanceKey) (body : NodeM D α) (s : SharedState D) :
    NodeM.exec (withAccount key body) s =
      if s.accountLocks key = none then
        Proc.andThen (fun r s' => (some r, s'.unlockAccount key))
          (NodeM.exec body ((s.ensureAccount key).lockAccount key))
      else (none, s.ensureAccount key) := by
  have hlocks : (s.ensureAccount key).accountLocks = s.accountLocks := rfl
  by_cases h : s.accountLocks key = none
  · have hready : Wait.ready (.account key) (s.ensureAccount key) = true := by
      simp [Wait.ready, hlocks, h]
    simp [withAccount, NodeM.exec, Proc.exec_bind, hready, h]
    rfl
  · have hready : Wait.ready (.account key) (s.ensureAccount key) = false := by
      simpa [Wait.ready, hlocks, Option.isSome_iff_ne_none] using h
    simp [withAccount, NodeM.exec, Proc.exec_bind, hready, h]

/-! ## Ids and events -/

/-- The state after an event has been built. -/
def SharedState.built (s : SharedState D) (e : Event) : SharedState D :=
  { s with idsDrawn := s.idsDrawn + 1, minted := s.minted ++ [e] }

@[simp] theorem exec_buildEvent (id : ℕ × ℕ) (createdAtUnixMs : ℕ) (d : EventDraft)
    (s : SharedState D) :
    NodeM.exec (buildEvent env id createdAtUnixMs d) s =
      let e := d.event (env.freshId s.idsDrawn) env.nodeId id createdAtUnixMs
      (some e, s.built e) := rfl

@[simp] theorem exec_nowMs (s : SharedState D) :
    NodeM.exec (nowMs env) s =
      (some (env.clock s.clockReads), { s with clockReads := s.clockReads + 1 }) := rfl

/-! ## Heads -/

/-- The state `advance_head` leaves. -/
def SharedState.advanceHead (s : SharedState D) (key : EpochKey) (seq : ℕ) : SharedState D :=
  match s.advanceHeadLocked env.hasher key seq with
  | (some (head, digest), s') =>
      s'.setStorage (s'.storageAfter env fun st => ((), st.saveDigest key head digest))
        (s'.storageCalls + 1)
  | (none, s') => s'

@[simp] theorem exec_advanceHead (key : EpochKey) (seq : ℕ) (s : SharedState D) :
    NodeM.exec (Shardd.advanceHead env key seq) s = (some (), s.advanceHead env key seq) := by
  have hcall := fun head digest s' => exec_storageCall env .saveDigest
    (fun st : Storage D => ((), st.saveDigest key head digest)) s'
  simp only [NodeM.exec] at hcall
  rcases h : s.advanceHeadLocked env.hasher key seq with ⟨_ | ⟨head, digest⟩, s'⟩
  · simp [Shardd.advanceHead, NodeM.exec, Proc.exec_bind, SharedState.advanceHead, h]
  · simp [Shardd.advanceHead, NodeM.exec, Proc.exec_bind, SharedState.advanceHead, h, hcall,
      SharedState.callStorage_snd]

/-- The section under the lock of the epoch touches the log and the digests, and nothing else. -/
lemma SharedState.advanceHeadLocked_frame (hasher : Hasher D) (s : SharedState D) (key : EpochKey)
    (seq : ℕ) :
    let s' := (s.advanceHeadLocked hasher key seq).2
    s' = { s with
      heads := s'.heads
      pendingSeqs := s'.pendingSeqs
      digests := s'.digests
      eventBuffer := s'.eventBuffer } := by
  have hdrain : ∀ head, (s.drainPending key head).2 =
      { s with pendingSeqs := (s.drainPending key head).2.pendingSeqs } := by
    intro head
    unfold drainPending
    split <;> rfl
  unfold advanceHeadLocked
  dsimp only
  split
  · rw [hdrain]
    rfl
  · split <;> rfl

/-- Advancing a head touches the log and the digests, and nothing else. -/
lemma SharedState.advanceHead_frame (s : SharedState D) (key : EpochKey) (seq : ℕ) :
    let s' := s.advanceHead env key seq
    s' = { s with
      storage := { s.storage with digests := s'.storage.digests }
      storageCalls := s'.storageCalls
      heads := s'.heads
      pendingSeqs := s'.pendingSeqs
      digests := s'.digests
      eventBuffer := s'.eventBuffer } := by
  have hlocked := advanceHeadLocked_frame env.hasher s key seq
  have hafter : ∀ (s' : SharedState D) (head : ℕ) (digest : D),
      s'.storageAfter env (fun st => ((), st.saveDigest key head digest)) =
        { s'.storage with digests :=
          (s'.storageAfter env fun st => ((), st.saveDigest key head digest)).digests } := by
    intro s' head digest
    unfold storageAfter
    split <;> rfl
  dsimp only
  unfold advanceHead
  rcases h : s.advanceHeadLocked env.hasher key seq with ⟨_ | ⟨head, digest⟩, s'⟩
  · rw [h] at hlocked
    dsimp only at hlocked ⊢
    rw [hlocked]
  · rw [h] at hlocked
    dsimp only at hlocked ⊢
    rw [hafter, hlocked]
    rfl

/-- The state `record_new_local_event` leaves. -/
def SharedState.recordLocal (s : SharedState D) (e : Event) : SharedState D :=
  (((s.storeEventBuffer e).advanceHead env e.epochKey e.originSeq).updateOriginTracking
    e).countAndQueue e

/-- Recording an event touches the log, the origin tracking, the queue of the batch writer and the
digests, and nothing else. -/
lemma SharedState.recordLocal_frame (s : SharedState D) (e : Event) :
    let s' := s.recordLocal env e
    s' = { s with
      storage := { s.storage with digests := s'.storage.digests }
      storageCalls := s'.storageCalls
      heads := s'.heads
      pendingSeqs := s'.pendingSeqs
      digests := s'.digests
      eventBuffer := s'.eventBuffer
      unpersisted := s.unpersisted.insert e.originKey e.createdAtUnixMs
      accountOriginEpochs := s'.accountOriginEpochs
      maxKnownSeqs := s'.maxKnownSeqs
      totalEventCount := s.totalEventCount + 1
      batchQueue := s.batchQueue ++ [e] } := by
  dsimp only
  unfold recordLocal
  rw [SharedState.advanceHead_frame]
  rfl

@[simp] theorem exec_recordNewLocalEvent (e : Event) (s : SharedState D) :
    NodeM.exec (recordNewLocalEvent env e) s = (some (), s.recordLocal env e) := by
  have h := exec_advanceHead env e.epochKey e.originSeq (s.storeEventBuffer e)
  simp only [NodeM.exec] at h
  simp [recordNewLocalEvent, NodeM.exec, Proc.exec_bind, h, SharedState.recordLocal]

@[simp] theorem exec_flushLocalEvents (es : List Event) (s : SharedState D) :
    NodeM.exec (flushLocalEvents env es) s =
      (some (), es.foldl (SharedState.recordLocal env) s) := by
  induction es generalizing s with
  | nil => rfl
  | cons e es ih =>
    have h := exec_recordNewLocalEvent env e s
    simp only [NodeM.exec] at h ih
    simp [flushLocalEvents, NodeM.exec, Proc.exec_bind, h, ih]

@[simp] lemma SharedState.account_recordLocal (s : SharedState D) (e : Event)
    (key : BalanceKey) : (s.recordLocal env e).account key = s.account key := by
  rw [recordLocal_frame]
  rfl

@[simp] lemma SharedState.account_foldl_recordLocal (es : List Event) (s : SharedState D)
    (key : BalanceKey) : (es.foldl (recordLocal env) s).account key = s.account key := by
  induction es generalizing s with
  | nil => rfl
  | cons e es ih => rw [List.foldl_cons, ih, account_recordLocal]

/-- The sweep strips an account, unless its lock is taken; an absent one it leaves empty. -/
lemma SharedState.account_sweepExpired {s : SharedState D} (now : ℕ) (key : BalanceKey) :
    (s.sweepExpired now).account key = s.account key ∨
      (s.sweepExpired now).account key = (s.account key).sweepExpired now := by
  unfold account sweepExpired
  dsimp only
  split
  · rcases s.accounts key with _ | acc
    · exact .inl rfl
    · exact .inr rfl
  · exact .inl rfl

end Shardd
