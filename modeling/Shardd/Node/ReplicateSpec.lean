import Shardd.Node.CreateSpec
import Shardd.Node.HeadSpec

/-!
# What a replicated event does

`Inserted` lists what becomes of an event that `insert_event` is given, `Corrected` and `Released`
what becomes of the two corrections of a conflict.  As for requests, the cases keep the facts about
the state before that lead to them.  The programs are run with no account locked.
-/

namespace Shardd

variable {D : Type} (env : Env D)

namespace SharedState

variable (s : SharedState D)

/-- No account is locked. -/
def Unlocked : Prop := ∀ key, s.accountLocks key = none

/-- The state after a correction of this node has been applied. -/
def corrected (e : Event) : SharedState D :=
  (((((((s.storeEventBuffer e).modifyAccount e.balanceKey
    fun acc => (acc.post e.amount).applyReleaseOf e).advanceHead env e.epochKey
      e.originSeq).updateOriginTracking e).countEvent).cacheEvent e).queueForBatch
        e).queueCorrection e

/-- The state after a correction has been minted and applied. -/
def mintCorrection (d : EventDraft) : SharedState D :=
  let e := s.draftEvent env (env.clock s.clockReads) d
  (((s.takeNext d.key.1 env).tick).built e).corrected env e

/-- The state of `insert_event` when the head of a new event is advanced. -/
def applied (e : Event) : SharedState D :=
  { ({ s with eventBuffer := s.eventBuffer.insert e.originKey e } : SharedState D).modifyAccount
      e.balanceKey fun acc => acc.applyEvent e with
    unpersisted := s.unpersisted.insert e.originKey e.createdAtUnixMs }

/-- The state after a new replicated event, up to the conflict check. -/
def accepted (e : Event) : SharedState D :=
  ((((s.applied e).advanceHead env e.epochKey e.originSeq).updateOriginTracking
    e).countEvent).queueForBatch e

/-- The cache holds an event under this key. -/
def Knows (key : IdemKey) : Prop := s.idempotencyCache key ≠ none

/-- The storage answers with an event under this key. -/
def Stores (key : IdemKey) : Prop :=
  env.storageOutcome s.storageCalls = .ok ∧ s.storage.findByIdempotencyKey key ≠ []

variable {s} in
lemma containsKey_iff_knows {key : IdemKey} :
    s.idempotencyCache.containsKey key = true ↔ s.Knows key := by
  simp [Map.containsKey, Knows, Option.isSome_iff_ne_none]

variable {s} in
lemma containsKey_eq_false_iff {key : IdemKey} :
    s.idempotencyCache.containsKey key = false ↔ ¬ s.Knows key := by
  simp [Map.containsKey, Knows]

end SharedState

/-! ## The cases -/

/-- What becomes of the hold release of a loser. -/
inductive Released (winner loser : Event) (s : SharedState D) : Option Unit → SharedState D → Prop
  | noHold : loser.hasHold = false → Released winner loser s (some ()) s
  | known : loser.hasHold = true → s.Knows (releaseIdemKey loser) →
      Released winner loser s (some ()) s
  | unallocated {r : Option (Except StorageError Unit)} {s₁ : SharedState D} :
      loser.hasHold = true → ¬ s.Knows (releaseIdemKey loser) →
      Prepared env loser.bucket s r s₁ → r ≠ some (.ok ()) →
      Released winner loser s (r.map fun _ => ()) s₁
  | released {s₁ : SharedState D} :
      loser.hasHold = true → ¬ s.Knows (releaseIdemKey loser) →
      Prepared env loser.bucket s (some (.ok ())) s₁ →
      Released winner loser s (some ()) (s₁.mintCorrection env (holdReleaseDraft winner loser))

/-- What becomes of the corrections of a conflict. -/
inductive Corrected (winner loser : Event) (s : SharedState D) : Option Unit → SharedState D → Prop
  | known : s.Knows (voidIdemKey loser) → Corrected winner loser s (some ()) s
  | stored : ¬ s.Knows (voidIdemKey loser) → s.Stores env (voidIdemKey loser) →
      Corrected winner loser s (some ()) s.asked
  | unallocated {r : Option (Except StorageError Unit)} {s₁ : SharedState D} :
      ¬ s.Knows (voidIdemKey loser) → ¬ s.Stores env (voidIdemKey loser) →
      Prepared env loser.bucket s.asked r s₁ → r ≠ some (.ok ()) →
      Corrected winner loser s (r.map fun _ => ()) s₁
  | voided {s₁ s' : SharedState D} {r : Option Unit} :
      ¬ s.Knows (voidIdemKey loser) → ¬ s.Stores env (voidIdemKey loser) →
      Prepared env loser.bucket s.asked (some (.ok ())) s₁ →
      Released env winner loser (s₁.mintCorrection env (voidDraft winner loser)) r s' →
      Corrected winner loser s r s'

/-- What becomes of a replicated event. -/
inductive Inserted (e : Event) (s : SharedState D) : Option Bool → SharedState D → Prop
  | deleted : s.deletedBuckets.containsKey e.bucket = true → Inserted e s (some false) s
  | present : s.deletedBuckets.containsKey e.bucket = false → s.eventIsPresent e = true →
      Inserted e s (some false) s
  /-- Another event has the same origin key. -/
  | occupied : s.deletedBuckets.containsKey e.bucket = false → s.eventIsPresent e = false →
      s.eventBuffer e.originKey ≠ none → Inserted e s (some false) s
  | filed : s.deletedBuckets.containsKey e.bucket = false → s.eventIsPresent e = false →
      s.eventBuffer e.originKey = none → s.conflicting e = none →
      Inserted e s (some true) ((s.accepted env e).cacheEvent e)
  | conflict {existing : Event} {r : Option Unit} {s' : SharedState D} :
      s.deletedBuckets.containsKey e.bucket = false → s.eventIsPresent e = false →
      s.eventBuffer e.originKey = none → s.conflicting e = some existing →
      Corrected env (idempotencyWinner existing e).1 (idempotencyWinner existing e).2
        ((s.accepted env e).remember e.idempotencyKey (idempotencyWinner existing e).1) r s' →
      Inserted e s (r.map fun _ => true) s'

/-! ## Frames -/

namespace SharedState

variable {env} {s : SharedState D} {e : Event}

variable (env) in
lemma corrected_frame (s : SharedState D) (e : Event) :
    let s' := s.corrected env e
    s' = { s with
      storage := { s.storage with digests := s'.storage.digests }
      storageCalls := s'.storageCalls
      heads := s'.heads
      pendingSeqs := s'.pendingSeqs
      digests := s'.digests
      eventBuffer := s'.eventBuffer
      unpersisted := s'.unpersisted
      accounts := s'.accounts
      accountOriginEpochs := s'.accountOriginEpochs
      maxKnownSeqs := s'.maxKnownSeqs
      totalEventCount := s'.totalEventCount
      idempotencyCache := s.idempotencyCache.insert e.idempotencyKey e
      batchQueue := s.batchQueue ++ [e]
      correctionQueue := s.correctionQueue ++ [e] } := by
  dsimp only
  unfold corrected
  rw [advanceHead_frame]
  rfl

variable (env) in
lemma accepted_frame (s : SharedState D) (e : Event) :
    let s' := s.accepted env e
    s' = { s with
      storage := { s.storage with digests := s'.storage.digests }
      storageCalls := s'.storageCalls
      heads := s'.heads
      pendingSeqs := s'.pendingSeqs
      digests := s'.digests
      eventBuffer := s'.eventBuffer
      unpersisted := s'.unpersisted
      accounts := s'.accounts
      accountOriginEpochs := s'.accountOriginEpochs
      maxKnownSeqs := s'.maxKnownSeqs
      totalEventCount := s'.totalEventCount
      batchQueue := s.batchQueue ++ [e] } := by
  dsimp only
  unfold accepted
  rw [advanceHead_frame]
  rfl

lemma Unlocked.asked (h : s.Unlocked) : s.asked.Unlocked := h

lemma Unlocked.prepared {bucket : String} {r : Option (Except StorageError Unit)}
    {s' : SharedState D} (h : s.Unlocked) (hp : Prepared env bucket s r s') : s'.Unlocked :=
  fun key => by
    rw [hp.accountLocks]
    exact h key

lemma accountLocks_mintCorrection (d : EventDraft) :
    (s.mintCorrection env d).accountLocks = s.accountLocks := by
  unfold mintCorrection
  dsimp only
  rw [corrected_frame]
  rfl

lemma accountLocks_accepted : (s.accepted env e).accountLocks = s.accountLocks := by
  rw [accepted_frame]

variable (env) in
lemma accountLocks_mintDrafts (now : ℕ) (ds : List EventDraft) (s : SharedState D) :
    (mintDrafts env now ds s).2.accountLocks = s.accountLocks := by
  induction ds generalizing s with
  | nil => rfl
  | cons d ds ih =>
      rw [mintDrafts, ih]
      simp only [mint, applyLocal, modifyAccount, cacheEvent, built, takeNext, modifyEntry, setSlot]

lemma accountLocks_foldl_recordLocal (es : List Event) (s : SharedState D) :
    (es.foldl (recordLocal env) s).accountLocks = s.accountLocks := by
  induction es generalizing s with
  | nil => rfl
  | cons e es ih => rw [List.foldl_cons, ih, recordLocal_frame]

lemma accountLocks_recorded {now : ℕ} {ds : List EventDraft} {es : List Event}
    {s' : SharedState D} (h : mintDrafts env now ds s = (es, s')) :
    (es.foldl (recordLocal env) s').accountLocks = s.accountLocks := by
  have hlocks := accountLocks_mintDrafts env now ds s
  rw [h] at hlocks
  rw [accountLocks_foldl_recordLocal]
  exact hlocks

end SharedState

/-! ## Locks -/

section Locks

variable {env} {s s' : SharedState D}

/-- A branch that ends has given back the lock of the receiving account. -/
lemma Emitted.accountLocks {input : LocalCreateInput} {now : ℕ} {mode : LocalCreateMode}
    {r : Except CreateLocalEventError LocalCreateResult}
    (h : Emitted env input now mode s (some r) s') : s'.accountLocks = s.accountLocks := by
  generalize hr : some r = o at h
  cases h with
  | refused _ => rfl
  | unallocated _ hp _ => exact hp.accountLocks
  | minted _ hp _ heq _ =>
      exact (SharedState.accountLocks_recorded heq).trans hp.accountLocks
  | creditBlocked _ _ _ _ => cases hr
  | overflowed _ hp _ _ _ =>
      exact (SharedState.accountLocks_mintDrafts env now _ _).trans hp.accountLocks
  | transferred _ hp _ _ _ heq _ =>
      exact (SharedState.accountLocks_recorded heq).trans hp.accountLocks

namespace SharedState.Unlocked

variable (h : s.Unlocked)

include h

/-- A request that ends leaves no lock taken. -/
lemma created {input : LocalCreateInput} {r : Except CreateLocalEventError LocalCreateResult}
    (hc : Created env input s (some r) s') : s'.Unlocked := by
  cases hc with
  | rejected _ => exact h
  | malformed _ _ => exact h
  | cachedRetry _ _ _ _ => exact h
  | storedRetry _ _ _ _ _ => exact h
  | @emitted _ _ s'' _ _ hfree _ _ hemitted =>
      intro key
      have hlocks : s''.accountLocks = s.accountLocks.insert input.balanceKey s.running :=
        hemitted.accountLocks
      change (s''.accountLocks.remove input.balanceKey) key = none
      rw [hlocks, Map.remove_insert_of_none _ _ _ hfree]
      exact h key

lemma mintCorrection (d : EventDraft) : (s.mintCorrection env d).Unlocked := by
  intro key
  rw [accountLocks_mintCorrection]
  exact h key

lemma released {winner loser : Event} {r : Option Unit} (hr : Released env winner loser s r s') :
    s'.Unlocked := by
  cases hr with
  | noHold _ => exact h
  | known _ _ => exact h
  | unallocated _ _ hp _ => exact h.prepared hp
  | released _ _ hp => exact (h.prepared hp).mintCorrection _

lemma corrected {winner loser : Event} {r : Option Unit} (hc : Corrected env winner loser s r s') :
    s'.Unlocked := by
  cases hc with
  | known _ => exact h
  | stored _ _ => exact h.asked
  | unallocated _ _ hp _ => exact h.asked.prepared hp
  | voided _ _ hp hr => exact ((h.asked.prepared hp).mintCorrection _).released hr

lemma accepted (e : Event) : (s.accepted env e).Unlocked := by
  intro key
  rw [accountLocks_accepted]
  exact h key

lemma inserted {e : Event} {r : Option Bool} (hi : Inserted env e s r s') : s'.Unlocked := by
  cases hi with
  | deleted _ => exact h
  | present _ _ => exact h
  | occupied _ _ _ => exact h
  | filed _ _ _ _ => exact h.accepted e
  | conflict _ _ _ _ hc =>
      apply corrected _ hc
      exact h.accepted e

end SharedState.Unlocked

end Locks

/-! ## The log and the accounts -/

section Accepted

variable {env} {A : Finset Event} {s : SharedState D} {e : Event}

lemma LogOf.accepted (h : LogOf env.hasher A s) (hpos : 1 ≤ e.originSeq)
    (hnew : ∀ e' ∈ A, e'.originKey ≠ e.originKey) :
    LogOf env.hasher (insert e A) (s.accepted env e) :=
  (h.accept (s.applied e) hpos hnew rfl rfl rfl rfl).of_sameLog ⟨rfl, rfl, rfl, rfl⟩

variable (env) in
lemma SharedState.account_advanceHead (key : EpochKey) (seq : ℕ) (k : BalanceKey) :
    (s.advanceHead env key seq).account k = s.account k := by
  rw [advanceHead_frame]
  rfl

variable (env) in
lemma SharedState.account_accepted (k : BalanceKey) :
    (s.accepted env e).account k =
      if k = e.balanceKey then (s.account k).applyEvent e else s.account k :=
  (account_advanceHead env (s := s.applied e) e.epochKey e.originSeq k).trans
    (account_modifyAccount e.balanceKey k fun acc => acc.applyEvent e)

/-- The largest seq seen of each epoch after one more event. -/
lemma SharedState.maxKnownSeqs_accepted :
    (s.accepted env e).maxKnownSeqs = s.maxKnownSeqs.insert e.epochKey
      (match s.maxKnownSeqs e.epochKey with
        | some m => if m < e.originSeq then e.originSeq else m
        | none => e.originSeq) := by
  have h : ((s.applied e).advanceHead env e.epochKey e.originSeq).maxKnownSeqs =
      s.maxKnownSeqs := by
    rw [advanceHead_frame]
    rfl
  rw [← h]
  rfl

end Accepted

/-! ## The programs -/

section Programs

variable {env} {s : SharedState D}

/-- An update of one account under its lock. -/
lemma exec_withAccount_modify (key : BalanceKey) (f : AccountState → AccountState)
    (h : s.accountLocks key = none) :
    NodeM.exec (withAccount key <| Proc.update fun s => s.modifyAccount key f) s =
      (some (), s.modifyAccount key f) := by
  have hrun := exec_withAccount key
    (Proc.update fun s => s.modifyAccount key f : NodeM D Unit) s
  simp only [NodeM.exec] at hrun
  simp only [NodeM.exec, hrun, if_pos h, Proc.exec_update, Proc.andThen_some]
  have hlocks := Map.remove_insert_of_none s.accountLocks key s.running h
  have hacc := SharedState.modifyAccount_ensureAccount (s := s) key f
  have heq : ((((s.ensureAccount key).lockAccount key).modifyAccount key f).unlockAccount key) =
      { s with
        accounts := ((s.ensureAccount key).modifyAccount key f).accounts
        accountLocks := (s.accountLocks.insert key s.running).remove key } := rfl
  rw [heq, hacc, hlocks]
  rfl

variable (env) in
lemma exec_applyCorrectionEvent (e : Event) (h : s.accountLocks e.balanceKey = none) :
    NodeM.exec (applyCorrectionEvent env e) s = (some (), s.corrected env e) := by
  have hlock := exec_withAccount_modify (s := s.storeEventBuffer e) e.balanceKey
    (fun acc => (acc.post e.amount).applyReleaseOf e) h
  have hhead := fun s => exec_advanceHead env e.epochKey e.originSeq s
  simp only [NodeM.exec] at hlock hhead
  simp only [applyCorrectionEvent, NodeM.exec, Proc.exec_bind, Proc.exec_update,
    Proc.andThen_some, hlock, hhead]
  rfl

/-- What an allocation that goes through leads to in a correction. -/
lemma exec_mintCorrection (d : EventDraft) (h : s.accountLocks d.key = none) :
    NodeM.exec (do
        let now ← nowMs env
        let e ← buildEvent env (s.nextId d.key.1) now d
        applyCorrectionEvent env e) (s.takeNext d.key.1 env) =
      (some (), s.mintCorrection env d) := by
  have happly := exec_applyCorrectionEvent env
    (s := ((s.takeNext d.key.1 env).tick).built (s.draftEvent env (env.clock s.clockReads) d))
    (s.draftEvent env (env.clock s.clockReads) d) h
  simp only [NodeM.exec] at happly
  exact happly

variable (env) in
lemma exec_emitHoldRelease (winner loser : Event) (h : s.Unlocked) :
    ∃ r s', Released env winner loser s r s' ∧
      NodeM.exec (emitHoldRelease env winner loser) s = (r, s') := by
  rcases hhold : loser.hasHold with _ | _
  · refine ⟨_, _, .noHold hhold, ?_⟩
    simp only [emitHoldRelease, hhold]
    rfl
  by_cases hknown : s.Knows (releaseIdemKey loser)
  · refine ⟨_, _, .known hhold hknown, ?_⟩
    have hcontains := SharedState.containsKey_iff_knows.2 hknown
    simp only [emitHoldRelease, hhold, if_true, NodeM.exec, Proc.exec_bind, Proc.exec_read,
      Proc.andThen_some, hcontains]
    rfl
  · have hcontains := SharedState.containsKey_eq_false_iff.2 hknown
    obtain ⟨r, s₁, hp, hrun⟩ := exec_allocate env loser.bucket s
    simp only [NodeM.exec] at hrun
    simp only [emitHoldRelease, hhold, if_true, NodeM.exec, Proc.exec_bind, Proc.exec_read,
      Proc.andThen_some, hcontains, Bool.false_eq_true, if_false, hrun]
    rcases r with _ | _ | _
    · exact ⟨_, _, .unallocated hhold hknown hp (by simp), rfl⟩
    · exact ⟨_, _, .unallocated hhold hknown hp (by simp), rfl⟩
    · refine ⟨_, _, .released hhold hknown hp, ?_⟩
      exact exec_mintCorrection (holdReleaseDraft winner loser) (h.prepared hp _)

variable (env) in
/-- The look-up of `emit_corrections` in the storage. -/
lemma callStorage_find (key : IdemKey) :
    (s.callStorage env fun st => (st.findByIdempotencyKey key, st)).2 = s.asked ∧
      ((s.Stores env key ∧ ∃ e es,
          (s.callStorage env fun st => (st.findByIdempotencyKey key, st)).1 = .ok (e :: es)) ∨
        ¬ s.Stores env key ∧ ∀ e es,
          (s.callStorage env fun st => (st.findByIdempotencyKey key, st)).1 ≠ .ok (e :: es)) := by
  rcases s.callStorage_cases env (fun st => (st.findByIdempotencyKey key, st)) with
    ⟨ho, h⟩ | ⟨ho, st, hst, h⟩
  · rw [h]
    refine ⟨rfl, ?_⟩
    rcases hfind : s.storage.findByIdempotencyKey key with _ | ⟨e, es⟩
    · exact .inr ⟨fun hs => hs.2 hfind, by simp⟩
    · exact .inl ⟨⟨ho, by simp [hfind]⟩, e, es, rfl⟩
  · have hst' : st = s.storage := by simpa using hst
    rw [h, hst']
    exact ⟨rfl, .inr ⟨fun hs => ho hs.1, by simp⟩⟩

variable (env) in
lemma exec_emitCorrections (winner loser : Event) (h : s.Unlocked) :
    ∃ r s', Corrected env winner loser s r s' ∧
      NodeM.exec (emitCorrections env winner loser) s = (r, s') := by
  by_cases hknown : s.Knows (voidIdemKey loser)
  · refine ⟨_, _, .known hknown, ?_⟩
    have hcontains := SharedState.containsKey_iff_knows.2 hknown
    simp only [emitCorrections, NodeM.exec, Proc.exec_bind, Proc.exec_read, Proc.andThen_some,
      hcontains]
    rfl
  have hcontains := SharedState.containsKey_eq_false_iff.2 hknown
  have hcall := exec_storageCall env .findByIdempotencyKey
    (fun st => (st.findByIdempotencyKey (voidIdemKey loser), st)) s
  obtain ⟨hasked, hfind⟩ := callStorage_find env (s := s) (voidIdemKey loser)
  rw [hasked] at hcall
  simp only [NodeM.exec] at hcall
  simp only [emitCorrections, NodeM.exec, Proc.exec_bind, Proc.exec_read, Proc.andThen_some,
    hcontains, Bool.false_eq_true, if_false, hcall]
  rcases hfind with ⟨hstored, e, es, hfound⟩ | ⟨hstored, hmissing⟩
  · refine ⟨_, _, .stored hknown hstored, ?_⟩
    rw [hfound]
    rfl
  · obtain ⟨r, s₁, hp, hrun⟩ := exec_allocate env loser.bucket s.asked
    simp only [NodeM.exec] at hrun
    split
    · rename_i e es hfound
      exact absurd hfound (hmissing e es)
    · simp only [Proc.exec_bind, hrun]
      rcases r with _ | _ | ⟨⟩
      · exact ⟨_, _, .unallocated hknown hstored hp (by simp), rfl⟩
      · exact ⟨_, _, .unallocated hknown hstored hp (by simp), rfl⟩
      · have hfree : s₁.Unlocked := h.asked.prepared hp
        have happly := exec_applyCorrectionEvent env
          (s := ((s₁.takeNext loser.bucket env).tick).built
            (s₁.draftEvent env (env.clock s₁.clockReads) (voidDraft winner loser)))
          (s₁.draftEvent env (env.clock s₁.clockReads) (voidDraft winner loser)) (hfree _)
        obtain ⟨r, s', hreleased, hrun'⟩ := exec_emitHoldRelease env winner loser
          (s := s₁.mintCorrection env (voidDraft winner loser)) (fun key => by
            rw [SharedState.accountLocks_mintCorrection]
            exact hfree key)
        refine ⟨_, _, .voided hknown hstored hp hreleased, ?_⟩
        have hclock := exec_nowMs env (s₁.takeNext loser.bucket env)
        have hbuild := exec_buildEvent env (s₁.nextId loser.bucket) (env.clock s₁.clockReads)
          (voidDraft winner loser) (s₁.takeNext loser.bucket env).tick
        simp only [NodeM.exec] at happly hrun' hclock hbuild
        rw [Proc.andThen_some, Proc.exec_bind, hclock, Proc.andThen_some, Proc.exec_bind]
        refine (congrArg (Proc.andThen _) hbuild).trans ?_
        rw [Proc.andThen_some, Proc.exec_bind]
        exact (congrArg (Proc.andThen fun _ => Proc.exec Wait.ready
          (emitHoldRelease env winner loser)) happly).trans hrun'

variable (env) in
/-- What `insert_event` does with a new event once its buffer slot is taken and no bucket is left to
delete. -/
def acceptEvent (e : Event) : NodeM D Bool := do
  withAccount e.balanceKey <| Proc.update fun s =>
    s.modifyAccount e.balanceKey fun acc => acc.applyEvent e
  Proc.update fun s =>
    { s with unpersisted := s.unpersisted.insert e.originKey e.createdAtUnixMs }
  advanceHead env e.epochKey e.originSeq
  Proc.update fun s => (s.updateOriginTracking e).countEvent
  Proc.update fun s => s.queueForBatch e
  checkIdempotencyConflict env e
  return true

variable (env) in
/-- A new event is applied under the lock of its account, and filed or met with a conflict. -/
lemma exec_acceptEvent (e : Event) (h : s.Unlocked)
    (hdeleted : s.deletedBuckets.containsKey e.bucket = false)
    (hpresent : s.eventIsPresent e = false) (hbuffer : s.eventBuffer e.originKey = none) :
    ∃ r s', Inserted env e s r s' ∧
      NodeM.exec (acceptEvent env e)
        { s with eventBuffer := s.eventBuffer.insert e.originKey e } = (r, s') := by
  set s₁ : SharedState D := { s with eventBuffer := s.eventBuffer.insert e.originKey e } with hs₁
  have hlock := exec_withAccount_modify (s := s₁) e.balanceKey (fun acc => acc.applyEvent e) (h _)
  have hhead := exec_advanceHead env e.epochKey e.originSeq (s.applied e)
  have hconflicting : (s.accepted env e).conflicting e = s.conflicting e := by
    rw [SharedState.conflicting, SharedState.accepted_frame, SharedState.conflicting]
  simp only [NodeM.exec] at hlock hhead
  have hfront : NodeM.exec (acceptEvent env e) s₁ =
      Proc.andThen (fun _ s => (some true, s))
        (Proc.exec Wait.ready (checkIdempotencyConflict env e) (s.accepted env e)) := by
    simp only [acceptEvent, NodeM.exec, Proc.exec_bind, hlock, Proc.exec_update, Proc.andThen_some]
    rw [show ({ s₁.modifyAccount e.balanceKey fun acc => acc.applyEvent e with
      unpersisted := (s₁.modifyAccount e.balanceKey fun acc => acc.applyEvent e).unpersisted.insert
        e.originKey e.createdAtUnixMs } : SharedState D) = s.applied e from rfl, hhead]
    simp only [Proc.andThen_some, Proc.exec_bind, Proc.exec_update]
    rfl
  rw [hfront]
  rcases hconflict : s.conflicting e with _ | existing
  · refine ⟨_, _, .filed hdeleted hpresent hbuffer hconflict, ?_⟩
    simp only [checkIdempotencyConflict, Proc.exec_bind, Proc.exec_read, Proc.andThen_some,
      hconflicting, hconflict, Proc.exec_update]
  · obtain ⟨r, s', hcorrected, hrun⟩ := exec_emitCorrections env
      (idempotencyWinner existing e).1 (idempotencyWinner existing e).2
      (s := (s.accepted env e).remember e.idempotencyKey (idempotencyWinner existing e).1)
      (fun key => by
        rw [SharedState.remember, SharedState.accepted_frame]
        exact h key)
    simp only [NodeM.exec] at hrun
    refine ⟨_, _, .conflict hdeleted hpresent hbuffer hconflict hcorrected, ?_⟩
    simp only [checkIdempotencyConflict, Proc.exec_bind, Proc.exec_read, Proc.andThen_some,
      hconflicting, hconflict, Proc.exec_update]
    rw [show ({ s.accepted env e with
      idempotencyCache := (s.accepted env e).idempotencyCache.insert e.idempotencyKey
        (idempotencyWinner existing e).1 } : SharedState D) =
          (s.accepted env e).remember e.idempotencyKey (idempotencyWinner existing e).1 from rfl,
      hrun]
    rcases r with _ | _ <;> rfl

/-- The three checks of `insert_event` are passed, and the event takes its buffer slot. -/
structure SharedState.Admits (s : SharedState D) (e : Event) : Prop where
  deleted : s.deletedBuckets.containsKey e.bucket = false
  present : s.eventIsPresent e = false
  buffer : s.eventBuffer e.originKey = none

variable (env) in
/-- An event that is not admitted changes nothing. -/
lemma exec_insertEvent_of_not_admits (e : Event) (h : ¬ s.Admits e) :
    Inserted env e s (some false) s ∧ NodeM.exec (insertEvent env e) s = (some false, s) := by
  rcases hdeleted : s.deletedBuckets.containsKey e.bucket with _ | _
  swap
  · refine ⟨.deleted hdeleted, ?_⟩
    simp only [insertEvent, NodeM.exec, Proc.exec_bind, Proc.exec_read, Proc.andThen_some, hdeleted]
    rfl
  rcases hpresent : s.eventIsPresent e with _ | _
  swap
  · refine ⟨.present hdeleted hpresent, ?_⟩
    simp only [insertEvent, NodeM.exec, Proc.exec_bind, Proc.exec_read, Proc.andThen_some, hdeleted,
      Bool.false_eq_true, if_false, hpresent]
    rfl
  rcases hbuffer : s.eventBuffer e.originKey with _ | e'
  · exact absurd ⟨hdeleted, hpresent, hbuffer⟩ h
  · refine ⟨.occupied hdeleted hpresent (by simp [hbuffer]), ?_⟩
    simp only [insertEvent, NodeM.exec, Proc.exec_bind, Proc.exec_read, Proc.andThen_some, hdeleted,
      hpresent, Bool.false_eq_true, if_false, Proc.exec_readUpdate, hbuffer]
    rfl

variable (env) in
/-- An event that is admitted takes its buffer slot, deletes a bucket if it is to, and is
accepted. -/
lemma exec_insertEvent_of_admits (e : Event) (h : s.Admits e) :
    NodeM.exec (insertEvent env e) s =
      Proc.andThen (fun _ => NodeM.exec (acceptEvent env e))
        (NodeM.exec (cascadeOf env e)
          { s with eventBuffer := s.eventBuffer.insert e.originKey e }) := by
  simp only [insertEvent, NodeM.exec, Proc.exec_bind, Proc.exec_read, Proc.andThen_some, h.deleted,
    h.present, Bool.false_eq_true, if_false, Proc.exec_readUpdate, h.buffer, acceptEvent]

variable (env) in
/-- The cases of `Inserted` are all that can become of an event that deletes no bucket. -/
theorem exec_insertEvent (e : Event) (hmeta : e.metaTargetBucket = none) (h : s.Unlocked) :
    ∃ r s', Inserted env e s r s' ∧ NodeM.exec (insertEvent env e) s = (r, s') := by
  by_cases hadmits : s.Admits e
  · obtain ⟨r, s', hinserted, hrun⟩ :=
      exec_acceptEvent env e h hadmits.deleted hadmits.present hadmits.buffer
    have hcascade : NodeM.exec (cascadeOf env e)
        { s with eventBuffer := s.eventBuffer.insert e.originKey e } =
          (some (), { s with eventBuffer := s.eventBuffer.insert e.originKey e }) := by
      simp only [cascadeOf, hmeta]
      rfl
    refine ⟨r, s', hinserted, ?_⟩
    rw [exec_insertEvent_of_admits env e hadmits, hcascade, Proc.andThen_some, hrun]
  · exact ⟨_, _, exec_insertEvent_of_not_admits env e hadmits⟩

end Programs

end Shardd
