import Shardd.Node.StartupSpec
import Shardd.Recovery.Booked
import Shardd.Recovery.Rebuild

/-!
# The books after a start

A start whose storage calls succeed leaves a node whose books are those of the stored events.
-/

namespace Shardd

variable {D : Type}

/-- The node comes up over the storage `st` in the state `s`, and every storage call of its start
succeeds. -/
structure Starts (env : Env D) (st : Storage D) (s : SharedState D) : Prop where
  run : NodeM.exec (newSharedState env) (.blank st) = (some (), s)
  ok : ∀ n < s.storageCalls, env.storageOutcome n = .ok

/-- A storage of events with identities of their own, whose allocator rows count from one. -/
structure Storage.WellFormed (E : Set Event) (nodeId : String) (st : Storage D) : Prop where
  world : ∀ e ∈ st.events, e ∈ E
  nodup : st.events.Nodup
  pos : ∀ e ∈ st.events, 1 ≤ e.originSeq
  row : ∀ bucket row, st.bucketAllocators (bucket, nodeId) = some row → 1 ≤ row.nextSeq

/-! ## The programs of a start -/

section Programs

variable {env : Env D} {s s' : SharedState D}

/-- The loading of the allocator rows. -/
lemma exec_loadFromStorage {r : Except StorageError Unit}
    (hrun : NodeM.exec (loadFromStorage env).run s = (some r, s')) :
    s.storageCalls < s'.storageCalls ∧
    (env.storageOutcome s.storageCalls = .ok →
      s.storageCalls + 2 ≤ s'.storageCalls ∧
      (env.storageOutcome (s.storageCalls + 1) = .ok →
        s' = { (s.setStorage (s.storage.markBucketAllocatorsPending env.nodeId)
            (s.storageCalls + 2)) with
          bucketAllocators := fun bucket =>
            match (s.storage.markBucketAllocatorsPending env.nodeId).loadBucketAllocators
              env.nodeId bucket with
            | some row => .single (.new row.currentEpoch row.nextSeq row.needsBump)
            | none => s.bucketAllocators bucket })) := by
  have hmark := exec_storageCall env .startUp
    (fun st => ((), st.markBucketAllocatorsPending env.nodeId)) s
  have hload := fun s => exec_storageCall env .startUp
    (fun st => (st.loadBucketAllocators env.nodeId, st)) s
  simp only [NodeM.exec] at hmark hload hrun
  simp only [loadFromStorage, Proc.exec_run_bind, hmark] at hrun
  rcases s.callStorage_cases env (fun st => ((), st.markBucketAllocatorsPending env.nodeId)) with
    ⟨ho, h⟩ | ⟨ho, st, -, h⟩
  · rw [h] at hrun
    simp only [Proc.andThenOk_ok, Proc.exec_run_bind, hload] at hrun
    rcases SharedState.callStorage_cases env
      (s.setStorage (s.storage.markBucketAllocatorsPending env.nodeId) (s.storageCalls + 1))
      (fun st => (st.loadBucketAllocators env.nodeId, st)) with ⟨ho', h'⟩ | ⟨ho', st, -, h'⟩
    · rw [h'] at hrun
      simp only [Proc.andThenOk_ok, Proc.exec_run_lift, Proc.exec_update, Option.map_some,
        Prod.mk.injEq] at hrun
      obtain ⟨-, rfl⟩ := hrun
      exact ⟨by change s.storageCalls < s.storageCalls + 2; omega,
        fun _ => ⟨le_refl _, fun _ => rfl⟩⟩
    · rw [h'] at hrun
      simp only [Proc.andThenOk_error, Prod.mk.injEq] at hrun
      obtain ⟨-, rfl⟩ := hrun
      exact ⟨by change s.storageCalls < s.storageCalls + 2; omega,
        fun _ => ⟨le_refl _, fun hok => absurd hok ho'⟩⟩
  · rw [h] at hrun
    simp only [Proc.andThenOk_error, Prod.mk.injEq] at hrun
    obtain ⟨-, rfl⟩ := hrun
    exact ⟨Nat.lt_succ_self _, fun hok => absurd hok ho⟩

/-- A query that is answered is followed by its rebuild. -/
lemma exec_startUpQuery_ok {α : Type} {query : Storage D → α} {rebuild : α → NodeM D Unit}
    (hrun : NodeM.exec (startUpQuery env query rebuild) s = (some (), s'))
    (hok : env.storageOutcome s.storageCalls = .ok) :
    NodeM.exec (rebuild (query s.storage)) (s.setStorage s.storage (s.storageCalls + 1)) =
      (some (), s') := by
  rw [exec_startUpQuery, if_pos hok] at hrun
  exact hrun

/-- A query counts as a storage call, whatever becomes of it. -/
lemma exec_startUpQuery_calls {α : Type} {query : Storage D → α} {rebuild : α → NodeM D Unit}
    (hrun : NodeM.exec (startUpQuery env query rebuild) s = (some (), s'))
    (hrebuild : ∀ a s s', NodeM.exec (rebuild a) s = (some (), s') →
      s.storageCalls ≤ s'.storageCalls) : s.storageCalls < s'.storageCalls := by
  rw [exec_startUpQuery] at hrun
  split at hrun
  · exact hrebuild _ _ _ hrun
  · cases hrun
    exact Nat.lt_succ_self _

/-- The digests are kept, and saved as far as the storage allows. -/
lemma exec_saveDigests (env : Env D) (computed : Map EpochKey (ℕ × D)) (keys : List EpochKey)
    (s : SharedState D) :
    ∃ s', NodeM.exec (saveDigests env computed keys) s = (some (), s') ∧
      s' = { s with
        storage := { s.storage with digests := s'.storage.digests }
        storageCalls := s'.storageCalls
        digests := s'.digests } ∧
      s.storageCalls ≤ s'.storageCalls ∧
      ∀ key, s'.digests key =
        if key ∈ keys ∧ computed key ≠ none then computed key else s.digests key := by
  induction keys generalizing s with
  | nil =>
      refine ⟨s, rfl, rfl, le_refl _, fun key => ?_⟩
      simp
  | cons k keys ih =>
      rcases hk : computed k with _ | ⟨head, digest⟩
      · obtain ⟨s', hrun, hframe, hcalls, hdigests⟩ := ih s
        refine ⟨s', ?_, hframe, hcalls, fun key => ?_⟩
        · simp only [NodeM.exec] at hrun
          simp only [saveDigests, NodeM.exec, hk]
          exact hrun
        · rw [hdigests]
          by_cases hkey : key = k
          · subst hkey
            simp [hk]
          · simp [hkey]
      · set s₁ : SharedState D := { s with digests := s.digests.insert k (head, digest) } with hs₁
        have hcall := exec_storageCall env .saveDigest
          (fun st => ((), st.saveDigest k head digest)) s₁
        rw [SharedState.callStorage_snd] at hcall
        obtain ⟨s', hrun, hframe, hcalls, hdigests⟩ := ih (s₁.setStorage
          (s₁.storageAfter env fun st => ((), st.saveDigest k head digest)) (s₁.storageCalls + 1))
        refine ⟨s', ?_, ?_, ?_, fun key => ?_⟩
        · simp only [NodeM.exec] at hrun hcall
          simp only [saveDigests, NodeM.exec, Proc.exec_bind, hk, Proc.exec_update,
            Proc.andThen_some, ← hs₁, hcall, hrun]
        · have hafter : s₁.storageAfter env (fun st => ((), st.saveDigest k head digest)) =
              { s.storage with digests := (s₁.storageAfter env fun st =>
                ((), st.saveDigest k head digest)).digests } := by
            unfold SharedState.storageAfter
            split <;> rfl
          refine hframe.trans ?_
          rw [hafter]
          rfl
        · exact (Nat.le_succ _).trans hcalls
        · rw [hdigests]
          change (if key ∈ keys ∧ computed key ≠ none then computed key else
            s.digests.insert k (head, digest) key) = _
          rw [Map.insert_apply]
          by_cases hkey : key = k
          · subst hkey
            simp [hk]
          · simp [hkey]

/-- The rebuild of the per-event caches. -/
lemma exec_rebuildFromEvents (env : Env D) (now : ℕ) (events : List Event) (s : SharedState D) :
    ∃ s', NodeM.exec (rebuildFromEvents env now events) s = (some (), s') ∧
      s.storageCalls ≤ s'.storageCalls ∧
      (let accounts := events.foldl (fun s e => s.rebuildAccount now e) s
       let cached := accounts.rebuildIdempotencyCache events
       let out := (events.insertionSort byOriginKey).foldl
         (SharedState.rebuildDigest env.hasher) ((fun _ => none), cached)
       s' = { s with
          storage := { s.storage with digests := s'.storage.digests }
          storageCalls := s'.storageCalls
          accounts := accounts.accounts
          idempotencyCache := cached.idempotencyCache
          eventBuffer := out.2.eventBuffer
          digests := s'.digests } ∧
        ∀ key, s'.digests key =
          if key ∈ (events.map Event.epochKey).dedup ∧ out.1 key ≠ none then out.1 key
          else s.digests key) := by
  set accounts := events.foldl (fun s e => s.rebuildAccount now e) s with haccounts
  set cached := accounts.rebuildIdempotencyCache events with hcached
  set out := (events.insertionSort byOriginKey).foldl
    (SharedState.rebuildDigest env.hasher) ((fun _ => none), cached) with hout
  have haccounts' := SharedState.foldl_rebuildAccount_frame now events s
  have hout' := SharedState.foldl_rebuildDigest_frame env.hasher
    (events.insertionSort byOriginKey) ((fun _ => none), cached)
  dsimp only at haccounts' hout'
  rw [← haccounts] at haccounts'
  rw [← hout] at hout'
  obtain ⟨s', hrun, hframe, hcalls, hdigests⟩ :=
    exec_saveDigests env out.1 (events.map Event.epochKey).dedup out.2
  have hstate : out.2 = { s with
      accounts := accounts.accounts
      idempotencyCache := cached.idempotencyCache
      eventBuffer := out.2.eventBuffer } := by
    refine hout'.trans ?_
    rw [hcached, haccounts']
    rfl
  refine ⟨s', ?_, ?_, ?_, fun key => ?_⟩
  · simp only [NodeM.exec] at hrun
    simp only [rebuildFromEvents, NodeM.exec, Proc.exec_bind, Proc.exec_update,
      Proc.andThen_some, Proc.exec_readUpdate]
    exact hrun
  · rw [hstate] at hcalls
    exact hcalls
  · refine hframe.trans ?_
    rw [hstate]
  · rw [hdigests, hstate]

end Programs

/-! ## The state after a start -/

/-- The state after a start over `st`, field by field. -/
structure Rebuilt (env : Env D) (st : Storage D) (s : SharedState D) : Prop where
  events : s.storage.events = st.events
  rows : s.storage.bucketAllocators =
    (st.markBucketAllocatorsPending env.nodeId).bucketAllocators
  bucketAllocators : s.bucketAllocators = fun bucket =>
    match (st.markBucketAllocatorsPending env.nodeId).loadBucketAllocators env.nodeId bucket with
    | some row => .single (.new row.currentEpoch row.nextSeq row.needsBump)
    | none => .empty
  account : ∀ key, s.account key =
    (st.queryAllEventsSorted.filter fun e => e.balanceKey = key).foldl
      (AccountState.rebuild (env.clock 0))
      { AccountState.new with balance := (st.aggregateBalances key).getD 0 }
  accountLocks : s.accountLocks = fun _ => none
  heads : s.heads = fun key => (st.sequencesByOriginEpoch key).map computeContiguousHead
  pendingSeqs : s.pendingSeqs = fun key => (st.sequencesByOriginEpoch key).bind fun seqs =>
    let pending := seqs.toFinset.filter fun seq => computeContiguousHead seqs < seq
    if pending = ∅ then none else some pending
  maxKnownSeqs : s.maxKnownSeqs = fun key => (st.sequencesByOriginEpoch key).bind List.getLast?
  accountOriginEpochs : ∀ key, s.accountOriginEpochs key = epochsOf st.events key
  idempotencyCache : s.idempotencyCache =
    ((SharedState.blank st).rebuildIdempotencyCache st.queryAllEventsSorted).idempotencyCache
  logs : ∃ s₀ : SharedState D, (∀ key, s₀.head key = s.head key) ∧
    (∀ key, s₀.eventBuffer key = none) ∧
    s.eventBuffer = ((st.queryAllEventsSorted.insertionSort byOriginKey).foldl
      (SharedState.rebuildDigest env.hasher) ((fun _ => none), s₀)).2.eventBuffer ∧
    ∀ key, s.digests key =
      if key ∈ (st.queryAllEventsSorted.map Event.epochKey).dedup then
        ((st.queryAllEventsSorted.insertionSort byOriginKey).foldl
          (SharedState.rebuildDigest env.hasher) ((fun _ => none), s₀)).1 key
      else none
  batchQueue : s.batchQueue = []
  minted : s.minted = []
  issued : s.issued = []
  deletedBuckets : ∀ bucket, s.deletedBuckets.containsKey bucket = true ↔
    ∃ e ∈ st.events, e.metaTargetBucket = some bucket

/-- The tombstones among the stored events. -/
lemma containsKey_foldl_tombstones (es : List Event) (bucket : String) :
    (es.foldl (fun (m : Map String ℕ) e =>
      match e.metaTargetBucket with
      | some target => m.insert target e.createdAtUnixMs
      | none => m) fun _ => none).containsKey bucket = true ↔
        ∃ e ∈ es, e.metaTargetBucket = some bucket := by
  induction es using List.reverseRecOn with
  | nil => simp [Map.containsKey]
  | append_singleton es e ih =>
      rw [List.foldl_append, List.foldl_cons, List.foldl_nil]
      rcases htarget : e.metaTargetBucket with _ | target
      · dsimp only
        rw [ih]
        simp [htarget]
      · dsimp only
        rw [Map.containsKey, Map.insert_apply]
        by_cases hb : bucket = target
        · simp [hb, htarget]
        · rw [if_neg hb, ← Map.containsKey, ih]
          simp [htarget, Ne.symm hb]

/-- The tombstones among the events of the bucket of tombstones are all there are. -/
lemma exists_queryEventsByBucket_metaBucket (st : Storage D) (bucket : String) :
    (∃ e ∈ st.queryEventsByBucket metaBucket, e.metaTargetBucket = some bucket) ↔
      ∃ e ∈ st.events, e.metaTargetBucket = some bucket := by
  constructor
  · rintro ⟨e, he, htarget⟩
    exact ⟨e, List.mem_of_mem_filter he, htarget⟩
  · rintro ⟨e, he, htarget⟩
    refine ⟨e, List.mem_filter.2 ⟨he, ?_⟩, htarget⟩
    unfold Event.metaTargetBucket at htarget
    split at htarget
    · rename_i h
      simpa using h.2
    · cases htarget

/-- The state of a start over `st` when it comes to the stored events. -/
structure Loaded (env : Env D) (st : Storage D) (s : SharedState D) : Prop where
  events : s.storage.events = st.events
  rows : s.storage.bucketAllocators =
    (st.markBucketAllocatorsPending env.nodeId).bucketAllocators
  bucketAllocators : s.bucketAllocators = fun bucket =>
    match (st.markBucketAllocatorsPending env.nodeId).loadBucketAllocators env.nodeId bucket with
    | some row => .single (.new row.currentEpoch row.nextSeq row.needsBump)
    | none => .empty
  accounts : s.accounts = fun key => (st.aggregateBalances key).map fun sum =>
    { AccountState.new with balance := sum }
  accountLocks : s.accountLocks = fun _ => none
  heads : s.heads = fun key => (st.sequencesByOriginEpoch key).map computeContiguousHead
  pendingSeqs : s.pendingSeqs = fun key => (st.sequencesByOriginEpoch key).bind fun seqs =>
    let pending := seqs.toFinset.filter fun seq => computeContiguousHead seqs < seq
    if pending = ∅ then none else some pending
  maxKnownSeqs : s.maxKnownSeqs = fun key => (st.sequencesByOriginEpoch key).bind List.getLast?
  accountOriginEpochs : ∀ key, s.accountOriginEpochs key = epochsOf st.events key
  idempotencyCache : s.idempotencyCache = fun _ => none
  eventBuffer : s.eventBuffer = fun _ => none
  digests : s.digests = fun _ => none
  batchQueue : s.batchQueue = []
  minted : s.minted = []
  issued : s.issued = []

/-- A start whose storage calls succeed loads everything, then goes through the stored events, and
last looks for tombstones. -/
lemma Starts.loaded {env : Env D} {st : Storage D} {s : SharedState D} (h : Starts env st s) :
    ∃ s₅ s₆ : SharedState D, Loaded env st s₅ ∧
      NodeM.exec (rebuildFromEvents env (env.clock 0) st.queryAllEventsSorted) s₅ =
        (some (), s₆) ∧
      s = { s₆.setStorage s₆.storage (s₆.storageCalls + 1) with
        deletedBuckets := (s₆.storage.queryEventsByBucket metaBucket).foldl
          (fun m e => match e.metaTargetBucket with
            | some target => m.insert target e.createdAtUnixMs
            | none => m) fun _ => none } := by
  obtain ⟨hrun, hok⟩ := h
  simp only [newSharedState, NodeM.exec] at hrun
  obtain ⟨r, s₁, h₁, hrun⟩ := Proc.exec_bind_eq_some Wait.ready hrun
  obtain ⟨⟨⟩, s₂, h₂, hrun⟩ := Proc.exec_bind_eq_some Wait.ready hrun
  obtain ⟨⟨⟩, s₃, h₃, hrun⟩ := Proc.exec_bind_eq_some Wait.ready hrun
  obtain ⟨⟨⟩, s₄, h₄, hrun⟩ := Proc.exec_bind_eq_some Wait.ready hrun
  obtain ⟨now, s₅, h₅, hrun⟩ := Proc.exec_bind_eq_some Wait.ready hrun
  obtain ⟨⟨⟩, s₆, h₆, h₇⟩ := Proc.exec_bind_eq_some Wait.ready hrun
  obtain ⟨rfl, hs₅⟩ : now = env.clock s₄.clockReads ∧
      s₅ = { s₄ with clockReads := s₄.clockReads + 1 } := by
    cases h₅
    exact ⟨rfl, rfl⟩
  -- the count of storage calls goes up, so all of them are among those that succeed
  have hcalls₁ := exec_loadFromStorage h₁
  have hcalls₂ := exec_startUpQuery_calls h₂ fun _ s s' h => by cases h; exact le_refl _
  have hcalls₃ := exec_startUpQuery_calls h₃ fun _ s s' h => by cases h; exact le_refl _
  have hcalls₄ := exec_startUpQuery_calls h₄ fun _ s s' h => by cases h; exact le_refl _
  have hcalls₆ := exec_startUpQuery_calls h₆ fun events s s' h => by
    obtain ⟨s'', hrun, hle, -⟩ := exec_rebuildFromEvents env (env.clock s₄.clockReads) events s
    simp only [NodeM.exec] at hrun h
    rw [hrun] at h
    cases h
    exact hle
  have hcalls₇ := exec_startUpQuery_calls h₇ fun _ s s' h => by cases h; exact le_refl _
  have hcalls₅ : s₅.storageCalls = s₄.storageCalls := by rw [hs₅]
  have hzero : (SharedState.blank st : SharedState D).storageCalls = 0 := rfl
  rw [hzero] at hcalls₁
  obtain ⟨hpos, hload⟩ := hcalls₁
  obtain ⟨htwo, hload⟩ := hload (hok 0 (by omega))
  have hs₁ := hload (hok 1 (by omega))
  set st' := st.markBucketAllocatorsPending env.nodeId with hst'
  have hs₂ : s₂ = (s₁.setStorage s₁.storage (s₁.storageCalls + 1)).rebuildBalances
      s₁.storage.aggregateBalances :=
    (congrArg Prod.snd (exec_startUpQuery_ok h₂ (hok _ (by omega)))).symm
  have hs₃ : s₃ = (s₂.setStorage s₂.storage (s₂.storageCalls + 1)).rebuildHeads
      s₂.storage.sequencesByOriginEpoch s₂.storage.events.length :=
    (congrArg Prod.snd (exec_startUpQuery_ok h₃ (hok _ (by omega)))).symm
  have hs₄ : s₄ = (s₃.setStorage s₃.storage (s₃.storageCalls + 1)).rebuildOriginTracking
      s₃.storage.events :=
    (congrArg Prod.snd (exec_startUpQuery_ok h₄ (hok _ (by omega)))).symm
  have hs₇ : s = { s₆.setStorage s₆.storage (s₆.storageCalls + 1) with
      deletedBuckets := (s₆.storage.queryEventsByBucket metaBucket).foldl
        (fun m e => match e.metaTargetBucket with
          | some target => m.insert target e.createdAtUnixMs
          | none => m) fun _ => none } :=
    (congrArg Prod.snd (exec_startUpQuery_ok h₇ (hok _ (by omega)))).symm
  have hs₆ := exec_startUpQuery_ok h₆ (hok _ (by omega))
  have hstorage : s₅.storage = st' := by
    rw [hs₅, hs₄, hs₃, hs₂, hs₁]
    rfl
  have hclock : s₄.clockReads = 0 := by
    rw [hs₄, hs₃, hs₂, hs₁]
    rfl
  rw [hclock, hstorage] at hs₆
  refine ⟨s₅.setStorage st' (s₅.storageCalls + 1), s₆, ?_, hs₆, hs₇⟩
  rw [hs₅, hs₄, hs₃, hs₂, hs₁]
  exact ⟨rfl, rfl, rfl, rfl, rfl, rfl, rfl, rfl, fun key => foldl_origins _ key, rfl, rfl, rfl, rfl,
    rfl, rfl⟩

namespace Loaded

variable {env : Env D} {st : Storage D} {s₅ s₆ : SharedState D}

/-- The accounts, once the stored events have been gone through. -/
lemma account (h : Loaded env st s₅) (now : ℕ) (events : List Event) (key : BalanceKey) :
    (events.foldl (fun s e => s.rebuildAccount now e) s₅).account key =
      (events.filter fun e => e.balanceKey = key).foldl (AccountState.rebuild now)
        { AccountState.new with balance := (st.aggregateBalances key).getD 0 } := by
  have hstart : s₅.account key =
      { AccountState.new with balance := (st.aggregateBalances key).getD 0 } := by
    rw [SharedState.account, h.accounts]
    dsimp only
    rcases st.aggregateBalances key with _ | sum <;> rfl
  rw [← hstart]
  exact SharedState.account_foldl_rebuildAccount now events s₅ key

/-- The digests, once the stored events have been gone through: an epoch has one when it has
events. -/
lemma digests_eq (h : Loaded env st s₅) {keys : List EpochKey} {computed : Map EpochKey (ℕ × D)}
    {key : EpochKey}
    (hdigests : s₆.digests key =
      if key ∈ keys ∧ computed key ≠ none then computed key else s₅.digests key) :
    s₆.digests key = if key ∈ keys then computed key else none := by
  rw [h.digests] at hdigests
  refine hdigests.trans ?_
  by_cases hmem : key ∈ keys
  · rw [if_pos hmem]
    split
    · rfl
    · rename_i h
      by_contra hne
      exact h ⟨hmem, fun hnone => hne hnone.symm⟩
  · rw [if_neg hmem, if_neg fun h => hmem h.1]

end Loaded

/-- A start whose storage calls succeed rebuilds everything. -/
theorem Starts.rebuilt {env : Env D} {st : Storage D} {s : SharedState D} (h : Starts env st s) :
    Rebuilt env st s := by
  obtain ⟨s₅, s₆, hloaded, hrun, hs⟩ := h.loaded
  obtain ⟨s', hrun', -, hframe, hdigests⟩ := exec_rebuildFromEvents env (env.clock 0)
    st.queryAllEventsSorted s₅
  obtain rfl : s' = s₆ := congrArg Prod.snd (hrun'.symm.trans hrun)
  clear hrun hrun'
  set events := st.queryAllEventsSorted with hevents
  set accounts := events.foldl (fun s e => s.rebuildAccount (env.clock 0) e) s₅ with haccounts
  have hframe' := SharedState.foldl_rebuildAccount_frame (env.clock 0) events s₅
  dsimp only at hframe'
  rw [← haccounts] at hframe'
  constructor
  · rw [hs, hframe]
    exact hloaded.events
  · rw [hs, hframe]
    exact hloaded.rows
  · rw [hs, hframe]
    exact hloaded.bucketAllocators
  · intro key
    rw [hs, hframe]
    exact hloaded.account (env.clock 0) events key
  · rw [hs, hframe]
    exact hloaded.accountLocks
  · rw [hs, hframe]
    exact hloaded.heads
  · rw [hs, hframe]
    exact hloaded.pendingSeqs
  · rw [hs, hframe]
    exact hloaded.maxKnownSeqs
  · rw [hs, hframe]
    exact hloaded.accountOriginEpochs
  · rw [hs, hframe]
    have hcache : accounts.idempotencyCache = fun _ => none := by
      rw [hframe']
      exact hloaded.idempotencyCache
    dsimp only [SharedState.setStorage, SharedState.rebuildIdempotencyCache]
    rw [hcache]
    rfl
  · refine ⟨accounts.rebuildIdempotencyCache events, fun key => ?_, fun key => ?_, ?_,
      fun key => ?_⟩
    · rw [hs, hframe, SharedState.head, SharedState.rebuildIdempotencyCache, hframe']
      rfl
    · rw [SharedState.rebuildIdempotencyCache, hframe']
      exact congrFun hloaded.eventBuffer key
    · rw [hs, hframe]
      rfl
    · rw [hs]
      exact hloaded.digests_eq (hdigests key)
  · rw [hs, hframe]
    exact hloaded.batchQueue
  · rw [hs, hframe]
    exact hloaded.minted
  · rw [hs, hframe]
    exact hloaded.issued
  · intro bucket
    have hbucket : s'.storage.queryEventsByBucket metaBucket =
        st.queryEventsByBucket metaBucket := by
      rw [hframe]
      exact congrArg (List.filter fun e => e.bucket = metaBucket) hloaded.events
    rw [hs]
    dsimp only
    rw [hbucket, containsKey_foldl_tombstones, exists_queryEventsByBucket_metaBucket]

/-! ## The order of the digest loop -/

lemma pairwise_insertionSort_byOriginKey (es : List Event) :
    (es.insertionSort byOriginKey).Pairwise byOriginKey := by
  have htotal : Std.Total byOriginKey := ⟨fun a b => le_total _ _⟩
  have htrans : IsTrans Event byOriginKey := ⟨fun _ _ _ hab hbc => le_trans hab hbc⟩
  exact List.pairwise_insertionSort _ _

lemma originSeq_le_of_byOriginKey {a b : Event} (h : byOriginKey a b)
    (hkey : a.epochKey = b.epochKey) : a.originSeq ≤ b.originSeq := by
  simp only [Event.epochKey, Prod.mk.injEq] at hkey
  obtain ⟨hbucket, hnode, hepoch⟩ := hkey
  unfold byOriginKey at h
  rw [hbucket, hnode, hepoch] at h
  simpa [Prod.Lex.toLex_le_toLex] using h

/-! ## The books after a start -/

namespace Rebuilt

variable {env : Env D} {st : Storage D} {s : SharedState D} {E : Set Event}

lemma acceptedSince (h : Rebuilt env st s) : s.acceptedSince st.events = st.events := by
  rw [SharedState.acceptedSince, h.batchQueue, List.append_nil]

lemma isHead (h : Rebuilt env st s) (key : EpochKey) :
    IsHead (seqsOf st.events.toFinset key) (s.head key) (s.pending key) := by
  rw [SharedState.head, SharedState.pending, h.heads, h.pendingSeqs]
  rcases st.sequencesByOriginEpoch_spec key with ⟨hnone, hempty⟩ | ⟨seqs, hsome, hsorted, hmem⟩
  · simp only [hnone, hempty]
    exact IsHead.empty
  · have hpending := isHead_computeContiguousHead (fun n => hmem n) hsorted
    simp only [hsome, Option.map_some, Option.getD_some, Option.bind_some]
    split
    · rename_i hempty
      rw [hempty] at hpending
      exact hpending
    · exact hpending

/-- The events of one epoch, in the order of the digest loop. -/
lemma epochEvents (hE : Identified E) (hst : st.WellFormed E env.nodeId) (key : EpochKey) :
    (((st.queryAllEventsSorted.insertionSort byOriginKey).filter fun e => e.epochKey = key).Pairwise
      fun a b => a.originSeq < b.originSeq) ∧
    ∀ e, e ∈ (st.queryAllEventsSorted.insertionSort byOriginKey).filter
      (fun e => e.epochKey = key) ↔ e ∈ st.events ∧ e.epochKey = key := by
  have hmem : ∀ e, e ∈ (st.queryAllEventsSorted.insertionSort byOriginKey).filter
      (fun e => e.epochKey = key) ↔ e ∈ st.events ∧ e.epochKey = key := by
    intro e
    rw [List.mem_filter, List.mem_insertionSort, Storage.queryAllEventsSorted,
      List.mem_insertionSort, decide_eq_true_iff]
  refine ⟨?_, hmem⟩
  have hnodup : ((st.queryAllEventsSorted.insertionSort byOriginKey).filter
      fun e => e.epochKey = key).Nodup := by
    apply List.Nodup.filter
    rw [(List.perm_insertionSort _ _).nodup_iff, Storage.queryAllEventsSorted,
      (List.perm_insertionSort _ _).nodup_iff]
    exact hst.nodup
  have hsorted : ((st.queryAllEventsSorted.insertionSort byOriginKey).filter
      fun e => e.epochKey = key).Pairwise byOriginKey := by
    apply List.Pairwise.filter
    exact pairwise_insertionSort_byOriginKey _
  refine (hsorted.and hnodup).imp_of_mem ?_
  rintro a b ha hb ⟨hle, hne⟩
  obtain ⟨ha, hka⟩ := (hmem a).1 ha
  obtain ⟨hb, hkb⟩ := (hmem b).1 hb
  have hle' : a.originSeq ≤ b.originSeq := originSeq_le_of_byOriginKey hle (hka.trans hkb.symm)
  refine lt_of_le_of_ne hle' fun heq => hne ?_
  apply hE.originKey a (hst.world a ha) b (hst.world b hb)
  exact Event.originKey_eq_iff.2 ⟨hka.trans hkb.symm, heq⟩

lemma digest (h : Rebuilt env st s) (hE : Identified E) (hst : st.WellFormed E env.nodeId)
    (key : EpochKey) :
    ∃ d, Chains env.hasher st.events.toFinset key (s.head key) d ∧
      s.digests key = if s.head key = 0 then none else some (s.head key, d) := by
  obtain ⟨s₀, hhead, -, -, hdigests⟩ := h.logs
  obtain ⟨hsorted, hmem⟩ := epochEvents hE hst key
  have hfold := SharedState.foldl_rebuildDigest env.hasher
    (st.queryAllEventsSorted.insertionSort byOriginKey) (fun _ => none) s₀ key
  rw [hhead] at hfold
  obtain ⟨es, hes, hseqs, hchain⟩ := SharedState.foldl_digestOf env.hasher
    ((st.queryAllEventsSorted.insertionSort byOriginKey).filter fun e => e.epochKey = key) 0
    env.hasher.zero (Nat.zero_le (s.head key)) hsorted
    (fun e he => hst.pos e ((hmem e).1 he).1) fun n hn hn' => by
      have hn₁ := (h.isHead key).mem n hn hn'
      rw [seqsOf, Finset.mem_image] at hn₁
      obtain ⟨e, he, hseq⟩ := hn₁
      rw [Finset.mem_filter, List.mem_toFinset] at he
      exact ⟨e, (hmem e).2 he, hseq⟩
  refine ⟨es.foldl (fun d e => env.hasher.chain d e.canonical) env.hasher.zero, ?_, ?_⟩
  · refine ⟨es, fun e he => ?_, ?_, rfl⟩
    · rw [List.mem_toFinset]
      exact ((hmem e).1 (hes e he)).1
    · rw [Nat.sub_zero, Nat.zero_add] at hseqs
      rw [← hseqs, List.map_map]
      apply List.map_congr_left
      intro e he
      rw [Event.originKey_eq_at, ((hmem e).1 (hes e he)).2]
      rfl
  · rw [hdigests, hfold]
    simp only [if_true] at hchain
    rw [hchain]
    by_cases hzero : s.head key = 0
    · simp [hzero]
    · rw [if_neg hzero, if_pos]
      have hone := (h.isHead key).mem 1 (le_refl 1) (by omega)
      rw [seqsOf, Finset.mem_image] at hone
      obtain ⟨e, he, -⟩ := hone
      rw [Finset.mem_filter, List.mem_toFinset] at he
      rw [List.mem_dedup, List.mem_map]
      refine ⟨e, ?_, he.2⟩
      rw [Storage.queryAllEventsSorted, List.mem_insertionSort]
      exact he.1

lemma log (h : Rebuilt env st s) (hE : Identified E) (hst : st.WellFormed E env.nodeId) :
    LogOf env.hasher st.events.toFinset s := by
  obtain ⟨s₀, hhead, hempty, hbuffer, -⟩ := h.logs
  have hmem : ∀ e, e ∈ st.queryAllEventsSorted.insertionSort byOriginKey ↔ e ∈ st.events := by
    intro e
    rw [List.mem_insertionSort, Storage.queryAllEventsSorted, List.mem_insertionSort]
  have hkeys : ∀ e ∈ st.events, ∀ e' ∈ st.events, e.originKey = e'.originKey → e = e' :=
    fun e he e' he' => hE.originKey e (hst.world e he) e' (hst.world e' he')
  obtain ⟨hin, hout⟩ := SharedState.eventBuffer_foldl_rebuildDigest env.hasher
    (st.queryAllEventsSorted.insertionSort byOriginKey) (fun _ => none) s₀
    (fun e he e' he' => hkeys e ((hmem e).1 he) e' ((hmem e').1 he'))
    (fun e _ e' he' => by rw [hempty] at he'; cases he')
  rw [← hbuffer] at hin hout
  constructor
  · intro e he
    exact hst.pos e (List.mem_toFinset.1 he)
  · intro e he e' he'
    exact hkeys e (List.mem_toFinset.1 he) e' (List.mem_toFinset.1 he')
  · exact h.isHead
  · exact h.digest hE hst
  · intro k e hk
    rcases hin k e hk with hk' | ⟨he, hkey⟩
    · rw [hempty] at hk'
      cases hk'
    · exact ⟨List.mem_toFinset.2 ((hmem e).1 he), hkey⟩
  · intro e he hbeyond
    apply hout e
    left
    rw [hhead]
    exact ⟨(hmem e).2 (List.mem_toFinset.1 he), hbeyond⟩

lemma shows (h : Rebuilt env st s) (hE : Identified E) (hst : st.WellFormed E env.nodeId)
    (key : BalanceKey) :
    AccountState.Shows (env.clock 0) (s.account key)
      (AccountState.replay (st.events.filter fun e => e.balanceKey = key)) := by
  have hperm : (st.queryAllEventsSorted.filter fun e => e.balanceKey = key).Perm
      (st.events.filter fun e => e.balanceKey = key) :=
    (List.perm_insertionSort _ _).filter _
  have hids : (st.events.filter fun e => e.balanceKey = key).Pairwise
      fun a b => a.eventId ≠ b.eventId := by
    apply hE.pairwise
    · intro e he
      exact hst.world e (List.mem_of_mem_filter he)
    · exact hst.nodup.filter _
  have hids' : (st.queryAllEventsSorted.filter fun e => e.balanceKey = key).Pairwise
      fun a b => a.eventId ≠ b.eventId := hperm.symm.pairwise hids fun hne => hne.symm
  have hsame := AccountState.replay_perm hids hperm.symm
  rw [h.account, Storage.aggregateBalances_eq, hsame]
  exact AccountState.shows_rebuild hids' _

lemma maxKnownSeqs_eq (h : Rebuilt env st s) (key : EpochKey) (m : ℕ) :
    s.maxKnownSeqs key = some m ↔ IsGreatest (seqsOf st.events.toFinset key : Set ℕ) m := by
  rw [h.maxKnownSeqs]
  rcases st.sequencesByOriginEpoch_spec key with ⟨hnone, hempty⟩ | ⟨seqs, hsome, hsorted, hmem⟩
  · simp only [hnone, hempty, Option.bind_none]
    constructor
    · rintro ⟨⟩
    · intro hgreatest
      exact absurd hgreatest.1 (by simp)
  · simp only [hsome, Option.bind_some]
    exact isGreatest_getLast? hmem hsorted m

/-- **Starts.**  The books after a start are those of the stored events. -/
theorem books (h : Rebuilt env st s) (hE : Identified E) (hst : st.WellFormed E env.nodeId) :
    BooksOf E env.hasher (env.clock 0) st.events [] s := by
  have haccepted := h.acceptedSince
  constructor
  · rw [haccepted, List.append_nil]
    exact hst.world
  · rw [haccepted, List.append_nil]
    exact hst.nodup
  · rw [haccepted]
    exact h.log hE hst
  · intro key
    rw [haccepted, List.append_nil]
    exact h.shows hE hst key
  · rw [haccepted]
    exact h.maxKnownSeqs_eq
  · rw [haccepted]
    exact h.accountOriginEpochs
  · rw [haccepted, h.events]
    exact fun e he => he
  · rw [h.events]
    exact hst.nodup

/-- Every row is flagged. -/
lemma row_eq (h : Rebuilt env st s) (bucket : String) :
    s.storage.bucketAllocators (bucket, env.nodeId) =
      (st.bucketAllocators (bucket, env.nodeId)).map fun row => { row with needsBump := true } := by
  rw [h.rows]
  simp [Storage.markBucketAllocatorsPending]

/-- An entry is that of a row. -/
lemma exists_row (h : Rebuilt env st s) {bucket : String} {a : BucketAllocator}
    (ha : s.entry bucket = some a) : ∃ row,
      st.bucketAllocators (bucket, env.nodeId) = some row ∧
        a = .new row.currentEpoch row.nextSeq true := by
  rw [SharedState.entry, h.bucketAllocators] at ha
  dsimp only [Storage.loadBucketAllocators] at ha
  rw [← h.rows, h.row_eq] at ha
  rcases hrow : st.bucketAllocators (bucket, env.nodeId) with _ | row
  · rw [hrow] at ha
    cases ha
  · rw [hrow] at ha
    exact ⟨row, rfl, by simpa [eq_comm] using ha⟩

lemma unused (h : Rebuilt env st s) (bucket : String) : s.Unused bucket := by
  intro a ha
  obtain ⟨row, -, rfl⟩ := h.exists_row ha
  rfl

lemma bumpLock (h : Rebuilt env st s) {bucket : String} {a : BucketAllocator}
    (ha : s.entry bucket = some a) : a.bumpLock = none := by
  obtain ⟨row, -, rfl⟩ := h.exists_row ha
  rfl

lemma positiveSeqs (h : Rebuilt env st s) (hst : st.WellFormed E env.nodeId) :
    PositiveSeqs env s := by
  constructor
  · intro bucket a ha
    obtain ⟨row, hrow, rfl⟩ := h.exists_row ha
    exact hst.row bucket row hrow
  · intro bucket row hrow
    rw [h.row_eq, Option.map_eq_some_iff] at hrow
    obtain ⟨row', hrow', rfl⟩ := hrow
    exact hst.row bucket row' hrow'

lemma unlocked (h : Rebuilt env st s) : s.Unlocked := by
  intro key
  rw [h.accountLocks]

end Rebuilt

end Shardd
