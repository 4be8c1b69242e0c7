import Shardd.Lib.Compartment
import Shardd.Node.DeleteSpec

/-!
# What a node keeps of one bucket

`SameBucket bucket` says that two states of a node agree on everything the node keeps of a bucket.
The buckets are the compartments of a node, and every primitive step of its programs is confined to
one of them.
-/

namespace Shardd

variable {D : Type}

/-- The tables agree on a bucket. -/
structure Storage.SameBucket (bucket : String) (st st' : Storage D) : Prop where
  events : st.events.filter (fun e => e.bucket = bucket) =
    st'.events.filter fun e => e.bucket = bucket
  digests : ∀ key, key.1 = bucket → st.digests key = st'.digests key
  bucketAllocators : ∀ key, key.1 = bucket → st.bucketAllocators key = st'.bucketAllocators key

/-- The nodes agree on a bucket. -/
structure SameBucket (bucket : String) (s s' : SharedState D) : Prop where
  running : s.running = s'.running
  storage : s.storage.SameBucket bucket s'.storage
  bucketAllocators : s.bucketAllocators bucket = s'.bucketAllocators bucket
  accounts : ∀ key, key.1 = bucket → s.accounts key = s'.accounts key
  accountLocks : ∀ key, key.1 = bucket → s.accountLocks key = s'.accountLocks key
  heads : ∀ key, key.1 = bucket → s.heads key = s'.heads key
  pendingSeqs : ∀ key, key.1 = bucket → s.pendingSeqs key = s'.pendingSeqs key
  accountOriginEpochs : ∀ key, key.1 = bucket →
    s.accountOriginEpochs key = s'.accountOriginEpochs key
  maxKnownSeqs : ∀ key, key.1 = bucket → s.maxKnownSeqs key = s'.maxKnownSeqs key
  eventBuffer : ∀ key, key.1 = bucket → s.eventBuffer key = s'.eventBuffer key
  unpersisted : ∀ key, key.1 = bucket → s.unpersisted key = s'.unpersisted key
  idempotencyCache : ∀ key, key.2.1 = bucket → s.idempotencyCache key = s'.idempotencyCache key
  digests : ∀ key, key.1 = bucket → s.digests key = s'.digests key
  deletedBuckets : s.deletedBuckets bucket = s'.deletedBuckets bucket
  batchQueue : s.batchQueue.filter (fun e => e.bucket = bucket) =
    s'.batchQueue.filter fun e => e.bucket = bucket
  correctionQueue : s.correctionQueue.filter (fun e => e.bucket = bucket) =
    s'.correctionQueue.filter fun e => e.bucket = bucket
  minted : s.minted.filter (fun e => e.bucket = bucket) =
    s'.minted.filter fun e => e.bucket = bucket
  issued : s.issued.filter (fun key => key.1 = bucket) =
    s'.issued.filter fun key => key.1 = bucket

lemma Storage.SameBucket.refl (bucket : String) (st : Storage D) : st.SameBucket bucket st :=
  ⟨rfl, fun _ _ => rfl, fun _ _ => rfl⟩

namespace SameBucket

variable {bucket : String} {s s' s'' : SharedState D}

lemma refl (bucket : String) (s : SharedState D) : SameBucket bucket s s := by
  constructor
  case storage => exact .refl bucket _
  all_goals intros; rfl

lemma trans (h : SameBucket bucket s s') (h' : SameBucket bucket s' s'') :
    SameBucket bucket s s'' where
  running := h.running.trans h'.running
  storage := ⟨h.storage.events.trans h'.storage.events,
    fun k hk => (h.storage.digests k hk).trans (h'.storage.digests k hk),
    fun k hk => (h.storage.bucketAllocators k hk).trans (h'.storage.bucketAllocators k hk)⟩
  bucketAllocators := h.bucketAllocators.trans h'.bucketAllocators
  accounts k hk := (h.accounts k hk).trans (h'.accounts k hk)
  accountLocks k hk := (h.accountLocks k hk).trans (h'.accountLocks k hk)
  heads k hk := (h.heads k hk).trans (h'.heads k hk)
  pendingSeqs k hk := (h.pendingSeqs k hk).trans (h'.pendingSeqs k hk)
  accountOriginEpochs k hk := (h.accountOriginEpochs k hk).trans (h'.accountOriginEpochs k hk)
  maxKnownSeqs k hk := (h.maxKnownSeqs k hk).trans (h'.maxKnownSeqs k hk)
  eventBuffer k hk := (h.eventBuffer k hk).trans (h'.eventBuffer k hk)
  unpersisted k hk := (h.unpersisted k hk).trans (h'.unpersisted k hk)
  idempotencyCache k hk := (h.idempotencyCache k hk).trans (h'.idempotencyCache k hk)
  digests k hk := (h.digests k hk).trans (h'.digests k hk)
  deletedBuckets := h.deletedBuckets.trans h'.deletedBuckets
  batchQueue := h.batchQueue.trans h'.batchQueue
  correctionQueue := h.correctionQueue.trans h'.correctionQueue
  minted := h.minted.trans h'.minted
  issued := h.issued.trans h'.issued

lemma symm (h : SameBucket bucket s s') : SameBucket bucket s' s where
  running := h.running.symm
  storage := ⟨h.storage.events.symm, fun k hk => (h.storage.digests k hk).symm,
    fun k hk => (h.storage.bucketAllocators k hk).symm⟩
  bucketAllocators := h.bucketAllocators.symm
  accounts k hk := (h.accounts k hk).symm
  accountLocks k hk := (h.accountLocks k hk).symm
  heads k hk := (h.heads k hk).symm
  pendingSeqs k hk := (h.pendingSeqs k hk).symm
  accountOriginEpochs k hk := (h.accountOriginEpochs k hk).symm
  maxKnownSeqs k hk := (h.maxKnownSeqs k hk).symm
  eventBuffer k hk := (h.eventBuffer k hk).symm
  unpersisted k hk := (h.unpersisted k hk).symm
  idempotencyCache k hk := (h.idempotencyCache k hk).symm
  digests k hk := (h.digests k hk).symm
  deletedBuckets := h.deletedBuckets.symm
  batchQueue := h.batchQueue.symm
  correctionQueue := h.correctionQueue.symm
  minted := h.minted.symm
  issued := h.issued.symm

lemma account (h : SameBucket bucket s s') {key : BalanceKey} (hkey : key.1 = bucket) :
    s.account key = s'.account key := by
  rw [SharedState.account, SharedState.account, h.accounts key hkey]

lemma head (h : SameBucket bucket s s') {key : EpochKey} (hkey : key.1 = bucket) :
    s.head key = s'.head key := by
  rw [SharedState.head, SharedState.head, h.heads key hkey]

lemma pending (h : SameBucket bucket s s') {key : EpochKey} (hkey : key.1 = bucket) :
    s.pending key = s'.pending key := by
  rw [SharedState.pending, SharedState.pending, h.pendingSeqs key hkey]

lemma allocator (h : SameBucket bucket s s') (i : ℕ) :
    s.allocator bucket i = s'.allocator bucket i := by
  rw [SharedState.allocator, SharedState.allocator, h.bucketAllocators]

end SameBucket

/-! ## The compartments of a node -/

namespace SharedState

variable (s : SharedState D)

/-- The cache files events under their own keys. -/
def Filed : Prop := ∀ key e, s.idempotencyCache key = some e → e.idempotencyKey = key

/-- The states have read the clock, drawn ids and called the storage equally often. -/
structure SameCounters (s s' : SharedState D) : Prop where
  clockReads : s.clockReads = s'.clockReads
  idsDrawn : s.idsDrawn = s'.idsDrawn
  storageCalls : s.storageCalls = s'.storageCalls

end SharedState

/-- The buckets of a node. -/
def buckets (D : Type) : Compartments (SharedState D) String where
  inv := SharedState.Filed
  same := SameBucket
  sync := SharedState.SameCounters
  refl := SameBucket.refl
  trans _ _ _ _ := SameBucket.trans

/-- The program of a node is confined to a bucket, and its answers satisfy `Q`. -/
abbrev ConfinedTo (bucket : String) {α : Type} (Q : α → Prop) (t : NodeM D α) : Prop :=
  t.Confined Wait.ready (buckets D) bucket Q

section Acts

variable {b : String}

/-- An update of the entries of a bucket. -/
lemma confinedTo_update {f : SharedState D → SharedState D}
    (hinv : ∀ s, s.Filed → (f s).Filed) (hspares : ∀ c, c ≠ b → ∀ s, SameBucket c s (f s))
    (htracks : ∀ s s', SameBucket b s s' → SameBucket b (f s) (f s'))
    (hcounters : ∀ s s' : SharedState D, s.SameCounters s' → (f s).SameCounters (f s')) :
    ConfinedTo b (fun _ => True) (Proc.update f : NodeM D PUnit) :=
  Proc.confined_update
    { inv := hinv
      post := fun _ _ => trivial
      spares := fun c hc s _ => hspares c hc s
      tracks := fun s s' _ _ hsame hsync => ⟨htracks s s' hsame, hcounters s s' hsync, rfl⟩ }

variable (b) in
lemma confinedTo_nowMs (env : Env D) : ConfinedTo b (fun _ => True) (nowMs env) :=
  Proc.confined_readUpdate
    { inv := fun _ hs => hs
      post := fun _ _ => trivial
      spares := fun c _ s _ => { SameBucket.refl c s with }
      tracks := fun _ _ _ _ hsame hsync =>
        ⟨{ hsame with }, { hsync with clockReads := congrArg (· + 1) hsync.clockReads },
          congrArg env.clock hsync.clockReads⟩ }

/-- A storage call on behalf of a bucket. -/
lemma confinedTo_storageCall (env : Env D) {α : Type} {Q : α → Prop} (op : StorageOp)
    {f : Storage D → α × Storage D} (hpost : ∀ st, Q (f st).1)
    (hspares : ∀ c, c ≠ b → ∀ st : Storage D, st.SameBucket c (f st).2)
    (htracks : ∀ st st' : Storage D, st.SameBucket b st' →
      (f st).2.SameBucket b (f st').2 ∧ (f st).1 = (f st').1) :
    ConfinedTo b (Proc.Succeeds Q) (storageCall env op f).run := by
  have hcall : ConfinedTo b (Proc.Succeeds Q)
      (Proc.readUpdate fun s => s.callStorage env f : NodeM D _) := by
    refine Proc.confined_readUpdate ⟨fun s hs => ?_, fun s _ => ?_, fun c hc s _ => ?_,
      fun s s' _ _ hsame hsync => ?_⟩
    · rw [SharedState.callStorage_snd]
      exact hs
    · unfold SharedState.callStorage
      cases env.storageOutcome s.storageCalls with
      | ok => exact Proc.succeeds_ok.2 (hpost _)
      | failed => exact Proc.succeeds_error
      | failedAfterEffect => exact Proc.succeeds_error
    · have hst : s.storage.SameBucket c (s.storageAfter env f) := by
        unfold SharedState.storageAfter
        split
        · exact .refl c _
        · exact hspares c hc _
      rw [SharedState.callStorage_snd]
      exact { SameBucket.refl c s with storage := hst }
    · obtain ⟨hst, hanswer⟩ := htracks _ _ hsame.storage
      have houtcome : env.storageOutcome s.storageCalls = env.storageOutcome s'.storageCalls :=
        congrArg env.storageOutcome hsync.storageCalls
      have hcalls : s.storageCalls + 1 = s'.storageCalls + 1 := congrArg (· + 1) hsync.storageCalls
      unfold SharedState.callStorage
      rw [houtcome]
      cases env.storageOutcome s'.storageCalls with
      | ok =>
          exact ⟨{ hsame with storage := hst }, { hsync with storageCalls := hcalls },
            congrArg Except.ok hanswer⟩
      | failed =>
          refine ⟨{ hsame with storage := hsame.storage }, ?_, rfl⟩
          exact { hsync with storageCalls := hcalls }
      | failedAfterEffect =>
          exact ⟨{ hsame with storage := hst }, { hsync with storageCalls := hcalls }, rfl⟩
  have hready : ∀ l : Wait, (∀ s : SharedState D, l.ready s = true) →
      ConfinedTo b (fun _ => True) (Proc.suspend l : NodeM D PUnit) := fun l hl =>
    Proc.confined_suspend fun s s' _ => (hl s).trans (hl s').symm
  refine (hready _ fun _ => rfl).bind fun _ _ => hcall.bind fun r hr => ?_
  exact (hready _ fun _ => rfl).bind fun _ _ => Proc.confined_pure hr

/-- A query on behalf of a bucket. -/
lemma confinedTo_query (env : Env D) {α : Type} {Q : α → Prop} (op : StorageOp)
    {f : Storage D → α} (hpost : ∀ st, Q (f st))
    (h : ∀ st st' : Storage D, st.SameBucket b st' → f st = f st') :
    ConfinedTo b (Proc.Succeeds Q) (storageCall env op fun st => (f st, st)).run :=
  confinedTo_storageCall env op hpost (fun c _ st => .refl c st)
    fun st st' hst => ⟨hst, h st st' hst⟩

/-! ### Accounts -/

lemma confinedTo_readAccount {key : BalanceKey} (hkey : key.1 = b) :
    ConfinedTo b (fun _ => True) (readAccount key : NodeM D AccountState) :=
  Proc.confined_read (fun _ _ => trivial) fun _ _ _ _ hsame => hsame.account hkey

lemma sameBucket_modifyAccount {c : String} {key : BalanceKey} (hc : c ≠ key.1)
    (f : AccountState → AccountState) (s : SharedState D) :
    SameBucket c s (s.modifyAccount key f) :=
  { SameBucket.refl c s with
    accounts := fun _ hk =>
      (Map.insert_of_ne _ _ _ fun h => hc (hk.symm.trans (congrArg Prod.fst h))).symm }

lemma SameBucket.modifyAccount {s s' : SharedState D} (h : SameBucket b s s') {key : BalanceKey}
    (hkey : key.1 = b) (f : AccountState → AccountState) :
    SameBucket b (s.modifyAccount key f) (s'.modifyAccount key f) :=
  { h with
    accounts := fun k hk => by
      rw [SharedState.modifyAccount, SharedState.modifyAccount, h.account hkey]
      exact Map.insert_congr _ (h.accounts k hk) }

lemma confinedTo_modifyAccount {key : BalanceKey} (hkey : key.1 = b)
    (f : AccountState → AccountState) :
    ConfinedTo b (fun _ => True)
      (Proc.update fun s => s.modifyAccount key f : NodeM D PUnit) :=
  confinedTo_update (fun _ hs => hs)
    (fun _ hc s => sameBucket_modifyAccount (fun h => hc (h.trans hkey)) f s)
    (fun _ _ h => h.modifyAccount hkey f) fun _ _ h => { h with }

lemma confinedTo_withAccount {α : Type} {Q : α → Prop} {key : BalanceKey} (hkey : key.1 = b)
    {body : NodeM D α} (h : ConfinedTo b Q body) : ConfinedTo b Q (withAccount key body) := by
  have hne : ∀ {c : String} {k : BalanceKey}, c ≠ b → k.1 = c → k ≠ key := by
    rintro c k hc hk rfl
    exact hc (hk.symm.trans hkey)
  have hensure : ConfinedTo b (fun _ => True)
      (Proc.update fun s => s.ensureAccount key : NodeM D PUnit) := by
    refine confinedTo_update (fun _ hs => hs) (fun c hc s => ?_) (fun s s' h => ?_)
      fun _ _ h => { h with }
    · refine { SameBucket.refl c s with accounts := fun k hk => ?_ }
      unfold SharedState.ensureAccount
      dsimp only
      split
      · rfl
      · exact (Map.insert_of_ne _ _ _ (hne hc hk)).symm
    · refine { h with accounts := fun k hk => ?_ }
      unfold SharedState.ensureAccount
      dsimp only
      rw [Map.containsKey, Map.containsKey, h.accounts key hkey]
      split
      · exact h.accounts k hk
      · exact Map.insert_congr _ (h.accounts k hk)
  have hsuspend : ConfinedTo b (fun _ => True) (Proc.suspend (.account key) : NodeM D PUnit) :=
    Proc.confined_suspend fun s s' h => congrArg Option.isNone (h.accountLocks key hkey)
  have hlock : ConfinedTo b (fun _ => True)
      (Proc.update fun s => s.lockAccount key : NodeM D PUnit) := by
    refine confinedTo_update (fun _ hs => hs) (fun c hc s => ?_) (fun s s' h => ?_)
      fun _ _ h => { h with }
    · exact { SameBucket.refl c s with
        accountLocks := fun k hk => (Map.insert_of_ne _ _ _ (hne hc hk)).symm }
    · refine { h with accountLocks := fun k hk => ?_ }
      rw [SharedState.lockAccount, SharedState.lockAccount, h.running]
      exact Map.insert_congr _ (h.accountLocks k hk)
  have hunlock : ConfinedTo b (fun _ => True)
      (Proc.update fun s => s.unlockAccount key : NodeM D PUnit) := by
    refine confinedTo_update (fun _ hs => hs) (fun c hc s => ?_) (fun s s' h => ?_)
      fun _ _ h => { h with }
    · exact { SameBucket.refl c s with
        accountLocks := fun k hk => (Map.remove_of_ne _ _ (hne hc hk)).symm }
    · exact { h with accountLocks := fun k hk => Map.remove_congr (h.accountLocks k hk) }
  refine hensure.bind fun _ _ => hsuspend.bind fun _ _ => hlock.bind fun _ _ => ?_
  refine h.bind fun r hr => ?_
  exact hunlock.bind fun _ _ => Proc.confined_pure hr

/-! ### Allocators -/

lemma sameBucket_setSlot {c : String} (hc : c ≠ b) (slot : AllocatorSlot) (s : SharedState D) :
    SameBucket c s (s.setSlot b slot) :=
  { SameBucket.refl c s with
    bucketAllocators := (SharedState.setSlot_bucketAllocators_of_ne slot hc).symm }

lemma SameBucket.setSlot {s s' : SharedState D} (h : SameBucket b s s')
    {slot slot' : AllocatorSlot} (hslot : slot = slot') :
    SameBucket b (s.setSlot b slot) (s'.setSlot b slot') :=
  { h with
    bucketAllocators := by
      rw [SharedState.setSlot_bucketAllocators, SharedState.setSlot_bucketAllocators, hslot] }

variable (b) in
lemma confinedTo_modifyAllocator (i : ℕ)
    (f : SharedState D → BucketAllocator → BucketAllocator)
    (hf : ∀ s s' : SharedState D, s.running = s'.running → f s = f s') :
    ConfinedTo b (fun _ => True)
      (Proc.update fun s => s.modifyAllocator b i (f s) : NodeM D PUnit) := by
  refine confinedTo_update (fun _ hs => hs) (fun c hc s => sameBucket_setSlot hc _ s)
    (fun s s' h => h.setSlot ?_) fun _ _ h => { h with }
  rw [h.bucketAllocators, hf s s' h.running]

variable (b) in
lemma confinedTo_readAllocator {α : Type} (i : ℕ) (f : BucketAllocator → α) :
    ConfinedTo b (fun _ => True)
      (Proc.read fun s => f (s.allocator b i) : NodeM D α) :=
  Proc.confined_read (fun _ _ => trivial) fun _ _ _ _ h => congrArg f (h.allocator i)

variable (b) in
lemma confinedTo_bumpBucketEpoch (env : Env D) :
    ConfinedTo b (Proc.Succeeds fun _ => True) (bumpBucketEpoch env b).run := by
  refine confinedTo_storageCall env _ (fun _ => trivial) (fun c hc st => ?_) fun st st' hst => ?_
  · refine { Storage.SameBucket.refl c st with bucketAllocators := fun k hk => ?_ }
    exact (Map.insert_of_ne _ _ _ fun h => hc (hk.symm.trans (congrArg Prod.fst h))).symm
  · have hrow := hst.bucketAllocators (b, env.nodeId) rfl
    unfold Storage.bumpBucketEpoch
    rw [hrow]
    refine ⟨{ hst with bucketAllocators := fun k hk => ?_ }, rfl⟩
    exact Map.insert_congr _ (hst.bucketAllocators k hk)

/-- A query of which only a part is used is as good as a query for that part. -/
lemma exec_query_bind (env : Env D) {α β γ : Type} (op : StorageOp) (f : Storage D → α)
    (part : α → β) (whole : β → α) {k : α → ExceptT StorageError (NodeM D) γ}
    (hk : ∀ a, k a = k (whole (part a))) :
    NodeM.exec (storageCall env op (fun st => (f st, st)) >>= k).run =
      NodeM.exec
        (storageCall env op (fun st => (part (f st), st)) >>= fun a => k (whole a)).run := by
  funext s
  have hf := exec_storageCall env op (fun st => (f st, st)) s
  have hpart := exec_storageCall env op (fun st => (part (f st), st)) s
  simp only [NodeM.exec] at hf hpart ⊢
  rw [Proc.exec_run_bind, Proc.exec_run_bind, hf, hpart]
  unfold SharedState.callStorage
  cases env.storageOutcome s.storageCalls with
  | ok =>
      simp only [Proc.andThenOk_ok]
      rw [hk]
  | failed => rfl
  | failedAfterEffect => rfl

variable (b) in
/-- A start of a bucket loads the rows of all buckets and uses its own. -/
lemma confinedTo_lookupAllocator (env : Env D) :
    ConfinedTo b (Proc.Succeeds fun _ => True) (lookupAllocator env b).run := by
  have hcurrent : ConfinedTo b (fun _ => True)
      (Proc.read fun s => (s.bucketAllocators b).current : NodeM D (Option ℕ)) :=
    Proc.confined_read (fun _ _ => trivial) fun _ _ _ _ h =>
      congrArg AllocatorSlot.current h.bucketAllocators
  have hinstall : ∀ a, ConfinedTo b (fun _ => True)
      (Proc.readUpdate fun s => s.installAllocator b a : NodeM D ℕ) := fun a =>
    Proc.confined_readUpdate
      { inv := fun _ hs => hs
        post := fun _ _ => trivial
        spares := fun c hc s _ => sameBucket_setSlot hc _ s
        tracks := fun s s' _ _ h hsync =>
          ⟨h.setSlot (congrArg (·.install a) h.bucketAllocators), { hsync with },
            congrArg (·.objects.length) h.bucketAllocators⟩ }
  refine (Proc.Confined.run_lift hcurrent).run_bind fun r _ => ?_
  cases r with
  | some i => exact Proc.confined_run_pure trivial
  | none =>
      refine (confinedTo_bumpBucketEpoch b env).run_bind fun epoch _ => ?_
      unfold loadBucketAllocators Proc.Confined
      change (buckets D).Confined b _ (NodeM.exec _)
      rw [exec_query_bind env _ _ (fun rows => rows b) (fun row _ => row)]
      swap
      · exact fun _ => rfl
      have hrow : ∀ st st' : Storage D, st.SameBucket b st' →
          st.loadBucketAllocators env.nodeId b = st'.loadBucketAllocators env.nodeId b :=
        fun st st' hst => hst.bucketAllocators (b, env.nodeId) rfl
      have hquery := confinedTo_query (Q := fun _ => True) env (.loadBucketAllocators b)
        (fun _ => trivial) hrow
      exact hquery.run_bind fun row _ =>
        Proc.Confined.run_lift (hinstall _)

end Acts

end Shardd
