import Shardd.Node.StartupSpec
import Shardd.Recovery.Books

/-!
# The books within an operation

The steps an operation is made of keep the books: preparing an allocation, minting, recording and
correcting.  The identities a node mints are taken to be new; that they are is the business of the
allocator.
-/

namespace Shardd

variable {D : Type}

/-! ## Seqs count from one -/

/-- The allocators of a node hand out positive seqs. -/
structure PositiveSeqs (env : Env D) (s : SharedState D) : Prop where
  entry : ∀ bucket a, s.entry bucket = some a → 1 ≤ a.nextSeq
  row : ∀ bucket row, s.storage.bucketAllocators (bucket, env.nodeId) = some row → 1 ≤ row.nextSeq

namespace PositiveSeqs

variable {env : Env D} {s s' : SharedState D} {bucket : String}

lemma congr (h : PositiveSeqs env s) (halloc : s'.bucketAllocators = s.bucketAllocators)
    (hrows : s'.storage.bucketAllocators = s.storage.bucketAllocators) : PositiveSeqs env s' where
  entry b a ha := by
    rw [SharedState.entry, halloc] at ha
    exact h.entry b a ha
  row b row hrow := by
    rw [hrows] at hrow
    exact h.row b row hrow

lemma bumped (h : PositiveSeqs env s) (bucket : String) : 1 ≤ (s.bumped bucket env).nextSeq := by
  unfold SharedState.bumped Storage.bumpedRow
  rcases hr : s.storage.bucketAllocators (bucket, env.nodeId) with _ | row
  · exact le_refl 1
  · dsimp only
    split
    · exact le_refl 1
    · exact h.row bucket row hr

lemma bumpedStorage (h : PositiveSeqs env s) (bucket : String) :
    ∀ b row, (s.bumpedStorage bucket env).bucketAllocators (b, env.nodeId) = some row →
      1 ≤ row.nextSeq := by
  intro b row hrow
  have hrows : (s.bumpedStorage bucket env).bucketAllocators =
      s.storage.bucketAllocators.insert (bucket, env.nodeId) (s.bumped bucket env) := rfl
  rw [hrows, Map.insert_apply] at hrow
  split at hrow
  · cases hrow
    exact h.bumped bucket
  · exact h.row b row hrow

lemma prepared (h : PositiveSeqs env s) {r : Option (Except StorageError Unit)}
    (hp : Prepared env bucket s r s') : PositiveSeqs env s' := by
  have hother : ∀ b, b ≠ bucket → ∀ a, s'.entry b = some a → 1 ≤ a.nextSeq := by
    intro b hb a ha
    rw [SharedState.entry, hp.bucketAllocators_of_ne hb] at ha
    exact h.entry b a ha
  cases hp with
  | hit _ => exact h
  | @bumped a ha _ _ =>
      refine ⟨fun b x hx => ?_, h.bumpedStorage bucket⟩
      by_cases hb : b = bucket
      · subst hb
        rw [SharedState.entry_modifyEntry] at hx
        obtain ⟨y, -, rfl⟩ := Option.map_eq_some_iff.1 hx
        exact le_refl 1
      · exact hother b hb x hx
  | installed _ _ =>
      refine ⟨fun b x hx => ?_, h.bumpedStorage bucket⟩
      by_cases hb : b = bucket
      · subst hb
        have hnew : x = .new (s.bumped b env).currentEpoch (s.bumped b env).nextSeq false := by
          simpa [SharedState.entry, SharedState.installAllocator, eq_comm] using hx
        rw [hnew]
        exact h.bumped b
      · exact hother b hb x hx
  | failed _ hst =>
      refine ⟨h.entry, ?_⟩
      rcases hst with rfl | rfl
      · exact h.row
      · exact h.bumpedStorage bucket
  | blocked _ _ _ => exact h

lemma takeNext (h : PositiveSeqs env s) (bucket : String) :
    PositiveSeqs env (s.takeNext bucket env) := by
  refine ⟨fun b a ha => ?_, h.row⟩
  by_cases hb : b = bucket
  · subst hb
    rw [SharedState.entry_takeNext] at ha
    obtain ⟨y, hy, rfl⟩ := Option.map_eq_some_iff.1 ha
    exact (h.entry b y hy).trans (Nat.le_succ _)
  · rw [SharedState.entry_takeNext_of_ne env hb] at ha
    exact h.entry b a ha

lemma nextId (h : PositiveSeqs env s) (husable : s.Usable bucket) : 1 ≤ (s.nextId bucket).2 := by
  obtain ⟨a, ha, -⟩ := husable
  simpa [SharedState.nextId, ha] using h.entry bucket a ha

end PositiveSeqs

/-! ## Frames -/

section Frames

variable {env : Env D} {s : SharedState D} {e : Event}

lemma LogOf.corrected {A : Finset Event} (h : LogOf env.hasher A s) (hpos : 1 ≤ e.originSeq)
    (hnew : ∀ e' ∈ A, e'.originKey ≠ e.originKey) :
    LogOf env.hasher (insert e A) (s.corrected env e) := by
  have haccept := h.accept ((s.storeEventBuffer e).modifyAccount e.balanceKey
    fun acc => (acc.post e.amount).applyReleaseOf e) hpos hnew rfl rfl rfl rfl
  apply haccept.of_sameLog
  constructor <;>
    simp only [SharedState.corrected, SharedState.updateOriginTracking, SharedState.countEvent,
      SharedState.cacheEvent, SharedState.queueForBatch, SharedState.queueCorrection]

namespace SharedState

/-- What is kept of the seqs and the epochs of an event, whichever way it is recorded. -/
structure Tracks (s s' : SharedState D) (e : Event) : Prop where
  maxKnownSeqs : s'.maxKnownSeqs = s.maxKnownSeqs.insert e.epochKey
    (match s.maxKnownSeqs e.epochKey with
      | some m => if m < e.originSeq then e.originSeq else m
      | none => e.originSeq)
  accountOriginEpochs : s'.accountOriginEpochs = s.accountOriginEpochs.insert e.balanceKey
    (insert e.epochKey ((s.accountOriginEpochs e.balanceKey).getD ∅))

lemma tracks_updateOriginTracking (a : SharedState D) (hmax : a.maxKnownSeqs = s.maxKnownSeqs)
    (horigins : a.accountOriginEpochs = s.accountOriginEpochs) :
    s.Tracks (a.updateOriginTracking e) e := by
  constructor
  · rw [← hmax]
    rfl
  · rw [← horigins]
    rfl

variable (env) in
lemma tracks_advanceHead (a : SharedState D) (hmax : a.maxKnownSeqs = s.maxKnownSeqs)
    (horigins : a.accountOriginEpochs = s.accountOriginEpochs) :
    s.Tracks ((a.advanceHead env e.epochKey e.originSeq).updateOriginTracking e) e := by
  apply tracks_updateOriginTracking
  · rw [advanceHead_frame]
    exact hmax
  · rw [advanceHead_frame]
    exact horigins

variable (env) in
lemma tracks_recordLocal (s : SharedState D) (e : Event) : s.Tracks (s.recordLocal env e) e := by
  have h := tracks_advanceHead env (e := e) (s.storeEventBuffer e)
    (show _ = s.maxKnownSeqs from rfl) (show _ = s.accountOriginEpochs from rfl)
  exact ⟨h.maxKnownSeqs, h.accountOriginEpochs⟩

variable (env) in
lemma tracks_corrected (s : SharedState D) (e : Event) : s.Tracks (s.corrected env e) e := by
  have h := tracks_advanceHead env (e := e) ((s.storeEventBuffer e).modifyAccount
    e.balanceKey fun acc => (acc.post e.amount).applyReleaseOf e)
    (show _ = s.maxKnownSeqs from rfl) (show _ = s.accountOriginEpochs from rfl)
  exact ⟨h.maxKnownSeqs, h.accountOriginEpochs⟩

variable (env) in
lemma tracks_accepted (s : SharedState D) (e : Event) : s.Tracks (s.accepted env e) e := by
  have h := tracks_advanceHead env (e := e) (s.applied e)
    (show _ = s.maxKnownSeqs from rfl) (show _ = s.accountOriginEpochs from rfl)
  exact ⟨h.maxKnownSeqs, h.accountOriginEpochs⟩

/-- A correction carries no hold, so it is applied like any other event. -/
lemma account_corrected (hhold : e.hasHold = false) (k : BalanceKey) :
    (s.corrected env e).account k =
      if k = e.balanceKey then (s.account k).applyEvent e else s.account k := by
  have hadvance := account_advanceHead env (s := (s.storeEventBuffer e).modifyAccount
    e.balanceKey fun acc => (acc.post e.amount).applyReleaseOf e) e.epochKey e.originSeq k
  have hmodify := account_modifyAccount (s := s.storeEventBuffer e) e.balanceKey k
    fun acc => (acc.post e.amount).applyReleaseOf e
  have htrack : (s.account k).applyEvent e = ((s.account k).post e.amount).applyReleaseOf e := by
    simp [AccountState.applyEvent, AccountState.trackReservation, hhold]
  have hafter : (s.corrected env e).account k = (((s.storeEventBuffer e).modifyAccount
      e.balanceKey fun acc => (acc.post e.amount).applyReleaseOf e).advanceHead env e.epochKey
        e.originSeq).account k := by
    simp only [account, corrected, updateOriginTracking, countEvent, cacheEvent, queueForBatch,
      queueCorrection]
  rw [htrack, hafter, hadvance]
  exact hmodify

end SharedState

end Frames

/-! ## The rules -/

/-- What an operation may mint: events of the world, each once, and none that is known already. -/
structure Mints (E : Set Event) (known before after : List Event) : Prop where
  nodup : after.Nodup
  world : ∀ e ∈ after, e ∈ E
  fresh : ∀ e ∈ after, e ∉ before → e ∉ known

/-- The next event to be minted is new. -/
lemma Mints.next {E : Set Event} {known before now after : List Event} {e : Event}
    (h : Mints E known before after) (hgrown : before <+: now) (hnext : now ++ [e] <+: after) :
    e ∈ E ∧ e ∉ known ∧ e ∉ now := by
  have hmem : e ∈ after := hnext.subset (by simp)
  have hnow : e ∉ now := by
    intro hmem
    have hnodup := hnext.sublist.nodup h.nodup
    rw [List.nodup_append] at hnodup
    exact hnodup.2.2 e hmem e (by simp) rfl
  exact ⟨h.world e hmem, h.fresh e hmem fun hbefore => hnow (hgrown.subset hbefore), hnow⟩

/-- The invariant within an operation that began with `before` minted, `known` known and `lost`
minted without a record. -/
structure Booked (env : Env D) (E : Set Event) (t : ℕ) (base lost known before u : List Event)
    (s : SharedState D) : Prop where
  books : BooksOf E env.hasher t base (u ++ lost) s
  seqs : PositiveSeqs env s
  grown : before <+: s.minted
  origin : ∀ e ∈ s.acceptedSince base ++ (u ++ lost), e ∈ known ∨ e ∈ s.minted
  own : ∀ e ∈ u ++ lost, e ∈ s.minted
  pos : ∀ e ∈ u, 1 ≤ e.originSeq

namespace Booked

variable {env : Env D} {E : Set Event} {t : ℕ} {base lost known before u : List Event}
  {s s' : SharedState D} {e : Event}

/-- A change of state that the books do not show. -/
lemma congr (h : Booked env E t base lost known before u s) (hbooks : s.SameBooks s')
    (hseqs : PositiveSeqs env s') (hminted : s'.minted = s.minted) :
    Booked env E t base lost known before u s' := by
  have haccepted : s'.acceptedSince base = s.acceptedSince base := by
    rw [SharedState.acceptedSince, hbooks.batchQueue, SharedState.acceptedSince]
  constructor
  · exact h.books.congr hbooks
  · exact hseqs
  · rw [hminted]
    exact h.grown
  · rw [haccepted, hminted]
    exact h.origin
  · rw [hminted]
    exact h.own
  · exact h.pos

lemma prepared (h : Booked env E t base lost known before u s) {bucket : String}
    {r : Option (Except StorageError Unit)} (hp : Prepared env bucket s r s') :
    Booked env E t base lost known before u s' := by
  refine h.congr ?_ (h.seqs.prepared hp) hp.minted
  rw [hp.frame]
  exact ⟨⟨rfl, rfl, rfl, rfl⟩, fun _ => rfl, rfl, rfl, rfl, rfl⟩

/-- What the next event has to be. -/
lemma next (h : Booked env E t base lost known before u s) {after : List Event}
    (hM : Mints E known before after) (hnext : s.minted ++ [e] <+: after) :
    e ∈ E ∧ e ∉ s.acceptedSince base ++ (u ++ lost) := by
  obtain ⟨he, hknown, hminted⟩ := hM.next h.grown hnext
  refine ⟨he, fun hmem => ?_⟩
  rcases h.origin e hmem with h' | h'
  · exact hknown h'
  · exact hminted h'

lemma mint (hE : Identified E) (h : Booked env E t base lost known before u s)
    {after : List Event} (hM : Mints E known before after) (now : ℕ) {d : EventDraft}
    (husable : s.Usable d.key.1) (hnext : s.minted ++ [s.draftEvent env now d] <+: after) :
    Booked env E t base lost known before (u ++ [s.draftEvent env now d])
      (s.mint env (s.draftEvent env now d)) := by
  obtain ⟨he, hnew⟩ := h.next hM hnext
  generalize hdraft : s.draftEvent env now d = e at he hnew
  have hbucket : e.bucket = d.key.1 := by
    rw [← hdraft]
    rfl
  have hbooks : BooksOf E env.hasher t base (u ++ lost ++ [e]) (s.mint env e) :=
    h.books.applied hE he hnew ⟨rfl, rfl, rfl, rfl⟩ (fun key => SharedState.account_mint env key)
      rfl rfl rfl rfl
  have hperm : (u ++ lost ++ [e]).Perm (u ++ [e] ++ lost) := by
    rw [List.append_assoc, List.append_assoc]
    exact List.perm_append_comm.append_left u
  constructor
  · exact hbooks.perm hE hperm
  · exact (h.seqs.takeNext e.bucket).congr rfl rfl
  · rw [SharedState.minted_mint]
    exact h.grown.trans (List.prefix_append _ _)
  · intro x hx
    rw [SharedState.minted_mint, List.mem_append, List.mem_singleton]
    have hx' : x ∈ s.acceptedSince base ++ (u ++ lost) ∨ x = e := by
      have hx'' : x ∈ s.acceptedSince base ++ (u ++ [e] ++ lost) := hx
      simp only [List.mem_append, List.mem_singleton] at hx'' ⊢
      tauto
    rcases hx' with hx' | rfl
    · rcases h.origin x hx' with hk | hk
      · exact .inl hk
      · exact .inr (.inl hk)
    · exact .inr (.inr rfl)
  · intro x hx
    rw [SharedState.minted_mint, List.mem_append]
    have hx' : x ∈ u ++ lost ∨ x ∈ [e] := by
      simp only [List.mem_append] at hx ⊢
      tauto
    exact hx'.imp (h.own x) id
  · intro x hx
    rcases List.mem_append.1 hx with hx | hx
    · exact h.pos x hx
    · rw [List.mem_singleton.1 hx, ← hdraft]
      exact h.seqs.nextId husable

lemma record (hE : Identified E) (h : Booked env E t base lost known before (e :: u) s) :
    Booked env E t base lost known before u (s.recordLocal env e) := by
  have hframe := SharedState.recordLocal_frame env s e
  have hqueue : (s.recordLocal env e).batchQueue = s.batchQueue ++ [e] := by rw [hframe]
  have hminted : (s.recordLocal env e).minted = s.minted := by rw [hframe]
  have htracks := SharedState.tracks_recordLocal env s e
  have hlog := h.books.log.recordLocal (h.pos e List.mem_cons_self) (h.books.originKey_ne hE)
  constructor
  · refine h.books.recorded hlog (fun key => ?_) htracks.maxKnownSeqs
      htracks.accountOriginEpochs ?_ hqueue
    · exact SharedState.account_recordLocal env s e key
    · rw [hframe]
  · apply h.seqs.congr <;> rw [hframe]
  · rw [hminted]
    exact h.grown
  · intro x hx
    rw [hminted]
    apply h.origin x
    rw [SharedState.acceptedSince, hqueue] at hx
    simpa [SharedState.acceptedSince, List.append_assoc] using hx
  · intro x hx
    rw [hminted]
    exact h.own x (List.mem_cons_of_mem _ hx)
  · exact fun x hx => h.pos x (List.mem_cons_of_mem _ hx)

/-- A correction is minted, applied and recorded at once. -/
lemma mintCorrection (hE : Identified E) (h : Booked env E t base lost known before [] s)
    {after : List Event} (hM : Mints E known before after) {d : EventDraft}
    (husable : s.Usable d.key.1) (hhold : d.type = .void ∨ d.type = .holdRelease)
    (hnext : s.minted ++ [s.draftEvent env (env.clock s.clockReads) d] <+: after) :
    Booked env E t base lost known before [] (s.mintCorrection env d) := by
  obtain ⟨he, hnew⟩ := h.next hM hnext
  have hminted := SharedState.minted_mintCorrection env (s := s) d
  unfold SharedState.mintCorrection at hminted ⊢
  dsimp only at hminted ⊢
  generalize hdraft : s.draftEvent env (env.clock s.clockReads) d = e at he hnew hminted ⊢
  have hpos : 1 ≤ e.originSeq := by
    rw [← hdraft]
    exact h.seqs.nextId husable
  have htype : e.type = .void ∨ e.type = .holdRelease := by
    rw [← hdraft]
    exact hhold
  -- taking the identity does not show in the books
  generalize hs₁ : ((s.takeNext d.key.1 env).tick).built e = s₁ at hminted ⊢
  have hbooks : BooksOf E env.hasher t base lost s₁ := by
    refine h.books.congr ?_
    rw [← hs₁]
    exact ⟨⟨rfl, rfl, rfl, rfl⟩, fun _ => rfl, rfl, rfl, rfl, rfl⟩
  have hseqs : PositiveSeqs env s₁ := by
    rw [← hs₁]
    exact (h.seqs.takeNext d.key.1).congr rfl rfl
  have haccepted : s₁.acceptedSince base = s.acceptedSince base := by rw [← hs₁]; rfl
  have hnew₁ : e ∉ s₁.acceptedSince base ++ lost := by
    rw [haccepted]
    exact hnew
  have hframe := SharedState.corrected_frame env s₁ e
  have hqueue : (s₁.corrected env e).batchQueue = s₁.batchQueue ++ [e] := by rw [hframe]
  have htracks := SharedState.tracks_corrected env s₁ e
  have hkeys : ∀ x ∈ (s₁.acceptedSince base).toFinset, x.originKey ≠ e.originKey := by
    intro x hx hkey
    rw [List.mem_toFinset] at hx
    have hxe : x = e := hE.originKey x (hbooks.known x (List.mem_append_left _ hx)) e he hkey
    exact hnew₁ (List.mem_append_left _ (hxe ▸ hx))
  constructor
  · refine hbooks.booked hE he hnew₁ (hbooks.log.corrected hpos hkeys) (fun key => ?_)
      htracks.maxKnownSeqs htracks.accountOriginEpochs ?_ hqueue
    · exact SharedState.account_corrected (Event.hasHold_of_type htype) key
    · rw [hframe]
  · apply hseqs.congr <;> rw [hframe]
  · rw [hminted]
    exact h.grown.trans (List.prefix_append _ _)
  · intro x hx
    rw [hminted, List.mem_append, List.mem_singleton]
    rw [SharedState.acceptedSince, hqueue] at hx
    have hx' : x ∈ s.acceptedSince base ++ lost ∨ x = e := by
      have hbase : base ++ s₁.batchQueue = base ++ s.batchQueue := haccepted
      simp only [List.mem_append, List.mem_singleton, List.nil_append, SharedState.acceptedSince]
        at hx ⊢
      have hmem : x ∈ s₁.batchQueue → x ∈ s.batchQueue := by
        rw [List.append_cancel_left hbase]
        exact id
      tauto
    rcases hx' with hx' | rfl
    · rcases h.origin x hx' with hk | hk
      · exact .inl hk
      · exact .inr (.inl hk)
    · exact .inr (.inr rfl)
  · intro x hx
    rw [hminted]
    exact List.mem_append_left _ (h.own x hx)
  · exact fun x hx => absurd hx List.not_mem_nil

/-- A new replicated event is applied and recorded. -/
lemma accepted (hE : Identified E) (h : Booked env E t base lost known before [] s)
    (he : e ∈ E) (hknown : e ∈ known) (hpos : 1 ≤ e.originSeq)
    (hnew : e ∉ s.acceptedSince base ++ lost) :
    Booked env E t base lost known before [] (s.accepted env e) := by
  have hframe := SharedState.accepted_frame env s e
  have hqueue : (s.accepted env e).batchQueue = s.batchQueue ++ [e] := by rw [hframe]
  have hminted : (s.accepted env e).minted = s.minted := by rw [hframe]
  have htracks := SharedState.tracks_accepted env s e
  have hkeys : ∀ x ∈ (s.acceptedSince base).toFinset, x.originKey ≠ e.originKey := by
    intro x hx hkey
    rw [List.mem_toFinset] at hx
    have hxe : x = e := hE.originKey x (h.books.known x (List.mem_append_left _ hx)) e he hkey
    exact hnew (List.mem_append_left _ (hxe ▸ hx))
  constructor
  · refine h.books.booked hE he hnew (h.books.log.accepted hpos hkeys) (fun key => ?_)
      htracks.maxKnownSeqs htracks.accountOriginEpochs ?_ hqueue
    · exact SharedState.account_accepted env key
    · rw [hframe]
  · apply h.seqs.congr <;> rw [hframe]
  · rw [hminted]
    exact h.grown
  · intro x hx
    rw [hminted]
    have hx' : x ∈ s.acceptedSince base ++ ([] ++ lost) ∨ x = e := by
      rw [SharedState.acceptedSince, hqueue] at hx
      simp only [List.mem_append, List.mem_singleton, List.nil_append, SharedState.acceptedSince]
        at hx ⊢
      tauto
    rcases hx' with hx' | rfl
    · exact h.origin x hx'
    · exact .inl hknown
  · rw [hminted]
    exact h.own
  · exact h.pos

lemma keepsBranch (hE : Identified E) {after : List Event} (hM : Mints E known before after)
    (input : LocalCreateInput) (mode : LocalCreateMode) :
    KeepsBranch env input mode after (Booked env E t base lost known before) where
  prepared h hp := h.prepared hp
  mint now _ h husable hd hnext := by
    rw [← hd.bucket] at husable
    exact h.mint hE hM now husable hnext
  record h := h.record hE
  ensure key h := by
    refine h.congr ?_ (h.seqs.congr rfl rfl) rfl
    exact ⟨⟨rfl, rfl, rfl, rfl⟩, fun k => SharedState.account_ensureAccount k, rfl, rfl, rfl, rfl⟩

lemma keepsCorrections (hE : Identified E) {after : List Event} (hM : Mints E known before after)
    (winner loser : Event) :
    KeepsCorrections env winner loser after (Booked env E t base lost known before []) where
  asked h := by
    refine h.congr ?_ (h.seqs.congr rfl rfl) rfl
    exact ⟨⟨rfl, rfl, rfl, rfl⟩, fun _ => rfl, rfl, rfl, rfl, rfl⟩
  prepared h hp := h.prepared hp
  void h husable _ hnext := h.mintCorrection hE hM husable (.inl rfl) hnext
  release h husable _ _ hnext := h.mintCorrection hE hM husable (.inr rfl) hnext

end Booked

end Shardd
