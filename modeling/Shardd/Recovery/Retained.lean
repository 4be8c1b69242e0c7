import Shardd.Recovery.Lifetime

/-!
# What a node has accepted it still has

Through the whole life of a node an accepted event whose bucket has not been deleted is in the
buffer or in the storage.  The buffer gives an event up when the head passes it, if it is no longer
unpersisted, or when it is marked as persisted; in both cases it is a row already.
-/

namespace Shardd

variable {D : Type}

/-! ## The head and the buffer -/

section Heads

variable (env : Env D) {s : SharedState D} {k : OriginKey} {e : Event}

lemma SharedState.of_eventBuffer_advanceHead {key : EpochKey} {seq : ℕ}
    (h : (s.advanceHead env key seq).eventBuffer k = some e) : s.eventBuffer k = some e := by
  rcases lt_trichotomy (s.head key + 1) seq with hgap | hnext | hold
  · rw [SharedState.advanceHead_gap env hgap] at h
    exact h
  · obtain ⟨_, _, -, -, -, -, -, -, -, hbuffer⟩ :=
      SharedState.advanceHead_next env key hnext.symm
    rw [hbuffer] at h
    exact (Map.of_retain h).1
  · rw [SharedState.advanceHead_old env (by omega)] at h
    exact h

/-- The head leaves unpersisted events in the buffer. -/
lemma SharedState.eventBuffer_advanceHead {key : EpochKey} {seq : ℕ}
    (h : s.eventBuffer k = some e) (hmarked : (s.unpersisted k).isSome = true) :
    (s.advanceHead env key seq).eventBuffer k = some e := by
  rcases lt_trichotomy (s.head key + 1) seq with hgap | hnext | hold
  · rw [SharedState.advanceHead_gap env hgap]
    exact h
  · obtain ⟨_, _, -, -, -, -, -, -, -, hbuffer⟩ :=
      SharedState.advanceHead_next env key hnext.symm
    have hnone : (s.unpersisted k).isNone = false := by
      rw [← Option.not_isSome, hmarked]
      rfl
    rw [hbuffer, Map.retain_apply, hnone]
    simpa using h
  · rw [SharedState.advanceHead_old env (by omega)]
    exact h

end Heads

/-! ## The invariant -/

/-- Accepted events of buckets that are still there are buffered or stored, and what is buffered is
unpersisted or stored.  The events `u` have been minted and are yet to be recorded; `known` had been
accepted earlier. -/
structure Retains (E : Set Event) (base known u : List Event) (s : SharedState D) : Prop where
  grown : ∀ e ∈ known, e ∈ s.acceptedSince base
  world : ∀ e ∈ s.acceptedSince base ++ u, e ∈ E
  rows : ∀ e ∈ s.storage.events, e ∈ E
  nodup : s.storage.events.Nodup
  slot : ∀ k e, s.eventBuffer k = some e → e ∈ E ∧ e.originKey = k
  kept : ∀ e ∈ s.acceptedSince base, s.deletedBuckets.containsKey e.bucket = true ∨
    s.eventBuffer e.originKey = some e ∨ e ∈ s.storage.events
  marked : ∀ k e, s.eventBuffer k = some e →
    (s.unpersisted k).isSome = true ∨ e ∈ s.storage.events

/-- The event goes into its slot and into the queue; the other slots lose only what is no longer
unpersisted. -/
structure SharedState.Files (e : Event) (s s' : SharedState D) : Prop where
  queue : s'.batchQueue = s.batchQueue ++ [e]
  events : s'.storage.events = s.storage.events
  deletedBuckets : s'.deletedBuckets = s.deletedBuckets
  own : s'.eventBuffer e.originKey = some e ∧ (s'.unpersisted e.originKey).isSome = true
  buffered : ∀ k x, k ≠ e.originKey → s'.eventBuffer k = some x → s.eventBuffer k = some x
  kept : ∀ k x, k ≠ e.originKey → s.eventBuffer k = some x → (s.unpersisted k).isSome = true →
    s'.eventBuffer k = some x
  unpersisted : ∀ k, k ≠ e.originKey → s'.unpersisted k = s.unpersisted k

section Files

variable (env : Env D) {s : SharedState D} {e : Event}

/-- An event that has been stored in the buffer, once its head is advanced. -/
lemma SharedState.Files.of_stored {t s' : SharedState D}
    (hbuffer : t.eventBuffer = s.eventBuffer.insert e.originKey e)
    (hmarked : t.unpersisted = s.unpersisted.insert e.originKey e.createdAtUnixMs)
    (hqueue : s'.batchQueue = s.batchQueue ++ [e]) (hevents : s'.storage.events = s.storage.events)
    (hdeleted : s'.deletedBuckets = s.deletedBuckets)
    (hbuffer' : s'.eventBuffer = (t.advanceHead env e.epochKey e.originSeq).eventBuffer)
    (hmarked' : s'.unpersisted = t.unpersisted) : SharedState.Files e s s' where
  queue := hqueue
  events := hevents
  deletedBuckets := hdeleted
  own := by
    have hown : (t.unpersisted e.originKey).isSome = true := by
      rw [hmarked, Map.insert_self]
      rfl
    refine ⟨?_, hmarked' ▸ hown⟩
    rw [hbuffer']
    refine SharedState.eventBuffer_advanceHead env ?_ hown
    rw [hbuffer, Map.insert_self]
  buffered k x hk hx := by
    rw [hbuffer'] at hx
    have hx := SharedState.of_eventBuffer_advanceHead env hx
    rwa [hbuffer, Map.insert_of_ne _ _ _ hk] at hx
  kept k x hk hx hsome := by
    rw [hbuffer']
    refine SharedState.eventBuffer_advanceHead env ?_ ?_
    · rwa [hbuffer, Map.insert_of_ne _ _ _ hk]
    · rwa [hmarked, Map.insert_of_ne _ _ _ hk]
  unpersisted k hk := by rw [hmarked', hmarked, Map.insert_of_ne _ _ _ hk]

lemma SharedState.files_recordLocal : SharedState.Files e s (s.recordLocal env e) := by
  have hframe := SharedState.recordLocal_frame env s e
  have hbuffer : (s.recordLocal env e).eventBuffer =
      ((s.storeEventBuffer e).advanceHead env e.epochKey e.originSeq).eventBuffer := by
    unfold SharedState.recordLocal
    rfl
  refine .of_stored env (t := s.storeEventBuffer e) rfl rfl ?_ ?_ ?_ hbuffer ?_
  all_goals rw [hframe]
  rfl

lemma SharedState.files_corrected : SharedState.Files e s (s.corrected env e) := by
  have hframe := SharedState.corrected_frame env s e
  obtain ⟨t, ht⟩ : ∃ t, t = (s.storeEventBuffer e).modifyAccount e.balanceKey
    fun acc => (acc.post e.amount).applyReleaseOf e := ⟨_, rfl⟩
  have hhead := SharedState.advanceHead_frame env t e.epochKey e.originSeq
  have hbuffer : (s.corrected env e).eventBuffer =
      (t.advanceHead env e.epochKey e.originSeq).eventBuffer := by
    unfold SharedState.corrected
    rw [← ht]
    generalize t.advanceHead env e.epochKey e.originSeq = t'
    rfl
  have hmarked : (s.corrected env e).unpersisted =
      (t.advanceHead env e.epochKey e.originSeq).unpersisted := by
    unfold SharedState.corrected
    rw [← ht]
    generalize t.advanceHead env e.epochKey e.originSeq = t'
    rfl
  refine .of_stored env (t := t) ?_ ?_ ?_ ?_ ?_ hbuffer ?_
  · rw [ht]
    rfl
  · rw [ht]
    rfl
  · rw [hframe]
  · rw [hframe]
  · rw [hframe]
  · rw [hmarked, hhead]

lemma SharedState.files_accepted : SharedState.Files e s (s.accepted env e) := by
  have hframe := SharedState.accepted_frame env s e
  obtain ⟨t, ht⟩ : ∃ t, t = s.applied e := ⟨_, rfl⟩
  have hhead := SharedState.advanceHead_frame env t e.epochKey e.originSeq
  have hbuffer : (s.accepted env e).eventBuffer =
      (t.advanceHead env e.epochKey e.originSeq).eventBuffer := by
    rw [ht]
    unfold SharedState.accepted
    rfl
  have hmarked : (s.accepted env e).unpersisted =
      (t.advanceHead env e.epochKey e.originSeq).unpersisted := by
    rw [ht]
    unfold SharedState.accepted
    rfl
  refine .of_stored env (t := t) ?_ ?_ ?_ ?_ ?_ hbuffer ?_
  · rw [ht]
    rfl
  · rw [ht]
    rfl
  · rw [hframe]
  · rw [hframe]
  · rw [hframe]
  · rw [hmarked, hhead]

end Files

namespace Retains

variable {env : Env D} {E : Set Event} {base known u : List Event} {s s' : SharedState D}
  {e : Event}

lemma congr (h : Retains E base known u s) (hs : s.SameRecords s')
    (hmarked : s'.unpersisted = s.unpersisted) : Retains E base known u s' where
  grown := by
    rw [SharedState.acceptedSince, hs.batchQueue]
    exact h.grown
  world := by
    rw [SharedState.acceptedSince, hs.batchQueue]
    exact h.world
  rows := by
    rw [hs.events]
    exact h.rows
  nodup := by
    rw [hs.events]
    exact h.nodup
  slot := by
    rw [hs.log.eventBuffer]
    exact h.slot
  kept := by
    rw [SharedState.acceptedSince, hs.batchQueue, hs.deletedBuckets, hs.log.eventBuffer, hs.events]
    exact h.kept
  marked := by
    rw [hmarked, hs.log.eventBuffer, hs.events]
    exact h.marked

/-- An event that has been minted is recorded, or one from another node accepted. -/
lemma files (hE : Identified E) (h : Retains E base known (e :: u) s)
    (hs : SharedState.Files e s s') : Retains E base known u s' where
  grown x hx := by
    rw [SharedState.acceptedSince, hs.queue, ← List.append_assoc]
    exact List.mem_append_left _ (h.grown x hx)
  world x hx := by
    apply h.world x
    rw [SharedState.acceptedSince, hs.queue] at hx
    simpa [SharedState.acceptedSince, List.append_assoc] using hx
  rows := by
    rw [hs.events]
    exact h.rows
  nodup := by
    rw [hs.events]
    exact h.nodup
  slot k x hx := by
    by_cases hk : k = e.originKey
    · rw [hk, hs.own.1] at hx
      rw [hk, ← Option.some.inj hx]
      exact ⟨h.world e (by simp), rfl⟩
    · exact h.slot k x (hs.buffered k x hk hx)
  kept x hx := by
    rw [SharedState.acceptedSince, hs.queue, ← List.append_assoc, List.mem_append,
      List.mem_singleton] at hx
    rw [hs.deletedBuckets, hs.events]
    rcases hx with hx | rfl
    · by_cases hkey : x.originKey = e.originKey
      · have hxe : x = e := hE.originKey x (h.world x (List.mem_append_left _ hx)) e
          (h.world e (by simp)) hkey
        exact .inr (.inl (hxe ▸ hs.own.1))
      · rcases h.kept x hx with hgone | hslot | hrow
        · exact .inl hgone
        · rcases h.marked _ _ hslot with hmarked | hrow
          · exact .inr (.inl (hs.kept _ _ hkey hslot hmarked))
          · exact .inr (.inr hrow)
        · exact .inr (.inr hrow)
    · exact .inr (.inl hs.own.1)
  marked k x hx := by
    by_cases hk : k = e.originKey
    · exact .inl (hk ▸ hs.own.2)
    · rw [hs.unpersisted k hk, hs.events]
      exact h.marked k x (hs.buffered k x hk hx)

/-- The next event is minted. -/
lemma unrecorded (h : Retains E base known u s) (he : e ∈ E) : Retains E base known (u ++ [e]) s :=
  { h with
    world := fun x hx => by
      rw [← List.append_assoc] at hx
      rcases List.mem_append.1 hx with hx | hx
      · exact h.world x hx
      · exact List.mem_singleton.1 hx ▸ he }

/-- What has been minted without a record is forgotten. -/
lemma forget (h : Retains E base known u s) : Retains E base known [] s :=
  { h with
    world := fun x hx => h.world x (List.mem_append_left _ (by simpa using hx)) }

lemma prepared (h : Retains E base known u s) {bucket : String}
    {r : Option (Except StorageError Unit)} (hp : Prepared env bucket s r s') :
    Retains E base known u s' := by
  refine h.congr ?_ ?_
  · rw [hp.frame]
    exact ⟨⟨rfl, rfl, rfl, rfl⟩, rfl, rfl, rfl, rfl⟩
  · rw [hp.frame]

lemma mintCorrection (hE : Identified E) (h : Retains E base known [] s) {d : EventDraft}
    (he : s.draftEvent env (env.clock s.clockReads) d ∈ E) :
    Retains E base known [] (s.mintCorrection env d) := by
  have hminted := h.unrecorded he
  rw [List.nil_append] at hminted
  unfold SharedState.mintCorrection
  dsimp only
  generalize s.draftEvent env (env.clock s.clockReads) d = e at hminted ⊢
  have hbuilt : Retains E base known [e] (((s.takeNext d.key.1 env).tick).built e) :=
    hminted.congr ⟨⟨rfl, rfl, rfl, rfl⟩, rfl, rfl, rfl, rfl⟩ rfl
  exact hbuilt.files hE (SharedState.files_corrected env)

lemma keepsBranch (hE : Identified E) {M : List Event} (hM : ∀ e ∈ M, e ∈ E)
    (input : LocalCreateInput) (mode : LocalCreateMode) :
    KeepsBranch env input mode M (Retains E base known) where
  prepared h hp := h.prepared hp
  mint now d h _ _ hnext :=
    (h.unrecorded (hM _ (hnext.subset (by simp)))).congr
      ⟨⟨rfl, rfl, rfl, rfl⟩, rfl, rfl, rfl, rfl⟩ rfl
  record h := h.files hE (SharedState.files_recordLocal env)
  ensure _ h := h.congr ⟨⟨rfl, rfl, rfl, rfl⟩, rfl, rfl, rfl, rfl⟩ rfl

lemma keepsCorrections (hE : Identified E) {M : List Event} (hM : ∀ e ∈ M, e ∈ E)
    (winner loser : Event) : KeepsCorrections env winner loser M (Retains E base known []) where
  asked h := h.congr ⟨⟨rfl, rfl, rfl, rfl⟩, rfl, rfl, rfl, rfl⟩ rfl
  prepared h hp := h.prepared hp
  void h _ _ hnext := h.mintCorrection hE (hM _ (hnext.subset (by simp)))
  release h _ _ _ hnext := h.mintCorrection hE (hM _ (hnext.subset (by simp)))

/-- A bucket is deleted. -/
lemma deleted (h : Retains E base known u s) (target : String) (time : ℕ) :
    Retains E base known u (s.deleted env target time) := by
  have hframe := SharedState.deleted_frame env s target time
  have hqueue : (s.deleted env target time).batchQueue = s.batchQueue := by
    rw [hframe]
    rfl
  have hbuffer : (s.deleted env target time).eventBuffer =
      s.eventBuffer.retain fun k => k.1 != target := by
    rw [hframe]
    rfl
  have hmarked : (s.deleted env target time).unpersisted =
      s.unpersisted.retain fun k => k.1 != target := by
    rw [hframe]
    rfl
  have htombs : (s.deleted env target time).deletedBuckets =
      s.deletedBuckets.insert target time := by
    rw [hframe]
    rfl
  have hsub : (s.deleted env target time).storage.events.Sublist s.storage.events := by
    rcases SharedState.storage_deleted env (s := s) target time with heq | heq
    · rw [heq]
    · rw [heq]
      exact List.filter_sublist
  have hrow : ∀ e ∈ s.storage.events, e.bucket ≠ target →
      e ∈ (s.deleted env target time).storage.events := by
    intro e he hne
    rcases SharedState.storage_deleted env (s := s) target time with heq | heq
    · rwa [heq]
    · rw [heq]
      exact List.mem_filter.2 ⟨he, decide_eq_true hne⟩
  constructor
  · rw [SharedState.acceptedSince, hqueue]
    exact h.grown
  · rw [SharedState.acceptedSince, hqueue]
    exact h.world
  · exact fun e he => h.rows e (hsub.subset he)
  · exact h.nodup.sublist hsub
  · rw [hbuffer]
    exact fun k e he => h.slot k e (Map.of_retain he).1
  · rw [SharedState.acceptedSince, hqueue]
    intro e he
    by_cases hne : e.bucket = target
    · left
      rw [htombs, hne, Map.containsKey, Map.insert_self]
      rfl
    have hkey : e.originKey.1 ≠ target := hne
    rw [htombs, hbuffer, Map.containsKey, Map.insert_of_ne _ _ _ hne,
      Map.retain_ne_apply s.eventBuffer e.originKey Prod.fst, if_neg hkey]
    exact (h.kept e he).imp id (Or.imp id fun hstored => hrow e hstored hne)
  · rw [hbuffer, hmarked]
    intro k e he
    obtain ⟨he, hk⟩ := Map.of_retain he
    have hne : k.1 ≠ target := bne_iff_ne.1 hk
    rw [Map.retain_ne_apply s.unpersisted k Prod.fst, if_neg hne]
    refine (h.marked k e he).imp id fun hstored => hrow e hstored ?_
    rw [← (h.slot k e he).2] at hne
    exact hne

/-! ## Persistence -/

/-- What is buffered under one of the keys is a row. -/
def StoredAt (keys : List OriginKey) (s : SharedState D) : Prop :=
  ∀ k ∈ keys, ∀ e, s.eventBuffer k = some e → e ∈ s.storage.events

lemma persistKey {key : OriginKey} (h : Retains E base known u s)
    (hstored : ∀ e, s.eventBuffer key = some e → e ∈ s.storage.events) :
    Retains E base known u (s.markPersistedKey key) := by
  have hmarked : (s.markPersistedKey key).unpersisted = s.unpersisted.remove key := by
    unfold SharedState.markPersistedKey
    dsimp only
    split <;> rfl
  have hbuffer : (s.markPersistedKey key).eventBuffer = s.eventBuffer ∨
      (s.markPersistedKey key).eventBuffer = s.eventBuffer.remove key := by
    unfold SharedState.markPersistedKey
    dsimp only
    split
    · exact .inr rfl
    · exact .inl rfl
  have hframe := s.markPersisted_frame [key]
  change s.markPersistedKey key = _ at hframe
  have hof : ∀ k e, (s.markPersistedKey key).eventBuffer k = some e →
      s.eventBuffer k = some e := by
    intro k e he
    rcases hbuffer with heq | heq
    · rwa [heq] at he
    · rw [heq] at he
      exact Map.of_remove he
  have hevents : (s.markPersistedKey key).storage.events = s.storage.events := by rw [hframe]
  have haccepted : (s.markPersistedKey key).acceptedSince base = s.acceptedSince base := by
    rw [SharedState.acceptedSince, hframe]
    rfl
  have htombs : (s.markPersistedKey key).deletedBuckets = s.deletedBuckets := by rw [hframe]
  constructor
  · rw [haccepted]
    exact h.grown
  · rw [haccepted]
    exact h.world
  · rw [hevents]
    exact h.rows
  · rw [hevents]
    exact h.nodup
  · exact fun k e he => h.slot k e (hof k e he)
  · rw [haccepted, hevents, htombs]
    intro e he
    rcases h.kept e he with hgone | hslot | hrow
    · exact .inl hgone
    · by_cases hkey : e.originKey = key
      · exact .inr (.inr (hstored e (hkey ▸ hslot)))
      · refine .inr (.inl ?_)
        rcases hbuffer with heq | heq
        · rwa [heq]
        · rwa [heq, Map.remove_of_ne _ _ hkey]
    · exact .inr (.inr hrow)
  · rw [hevents, hmarked]
    intro k e he
    have hslot := hof k e he
    by_cases hk : k = key
    · exact .inr (hstored e (hk ▸ hslot))
    · rw [Map.remove_of_ne _ _ hk]
      exact h.marked k e hslot

/-- Events that are rows are marked as persisted. -/
lemma persist {keys : List OriginKey} (h : Retains E base known u s) (hstored : StoredAt keys s) :
    Retains E base known u (s.markPersisted keys) := by
  induction keys generalizing s with
  | nil => exact h
  | cons key keys ih =>
      have hframe := s.markPersisted_frame [key]
      change s.markPersistedKey key = _ at hframe
      have hevents : (s.markPersistedKey key).storage.events = s.storage.events := by rw [hframe]
      refine ih (h.persistKey (hstored key List.mem_cons_self)) fun k hk e he => ?_
      rw [hevents]
      exact hstored k (List.mem_cons_of_mem _ hk) e (s.eventBuffer_markPersisted [key] k e he)

/-- Storing an event of the world makes it a row: no other event stands in its way. -/
lemma mem_insertEvent (hE : Identified E) {st : Storage D} (hrows : ∀ e ∈ st.events, e ∈ E)
    (he : e ∈ E) : e ∈ (st.insertEvent e).2.events := by
  unfold Storage.insertEvent
  split
  · rename_i hid
    simp only [Storage.keyOfId, Option.any_map, Option.any_eq_true_iff_get] at hid
    obtain ⟨hsome, hne⟩ := hid
    obtain ⟨row, hrow⟩ := Option.isSome_iff_exists.1 hsome
    have hmem := List.mem_of_find?_eq_some hrow
    have hsame : row.eventId = e.eventId := by simpa using List.find?_some hrow
    have heq := hE.eventId row (hrows row hmem) e he hsame
    exact heq ▸ hmem
  · split
    · rename_i row hrow
      have hmem := List.mem_of_find?_eq_some hrow
      have hsame : row.originKey = e.originKey := by simpa using List.find?_some hrow
      have heq := hE.originKey row (hrows row hmem) e he hsame
      exact heq ▸ hmem
    · simp

lemma mem_insertEventsBulk (hE : Identified E) {st : Storage D} {batch : List Event}
    (hrows : ∀ e ∈ st.events, e ∈ E) (hbatch : ∀ e ∈ batch, e ∈ E) :
    ∀ e, e ∈ st.events ∨ e ∈ batch → e ∈ (st.insertEventsBulk batch).events := by
  induction batch generalizing st with
  | nil => exact fun e he => he.resolve_right List.not_mem_nil
  | cons x batch ih =>
      intro e he
      have hx := hbatch x List.mem_cons_self
      have hgrown : ∀ y ∈ st.events, y ∈ (st.insertEvent x).2.events := by
        intro y hy
        rcases st.insertEvent_events x with heq | ⟨-, heq⟩
        · rwa [heq]
        · rw [heq]
          exact List.mem_append_left _ hy
      have hrows' : ∀ y ∈ (st.insertEvent x).2.events, y ∈ E := by
        intro y hy
        rcases st.insertEvent_events x with heq | ⟨-, heq⟩
        · exact hrows y (heq ▸ hy)
        · rw [heq, List.mem_append, List.mem_singleton] at hy
          rcases hy with hy | rfl
          · exact hrows y hy
          · exact hx
      refine ih hrows' (fun y hy => hbatch y (List.mem_cons_of_mem _ hy)) e ?_
      rcases he with he | he
      · exact .inl (hgrown e he)
      · rcases List.mem_cons.1 he with rfl | he
        · exact .inl (mem_insertEvent hE hrows hx)
        · exact .inr he

/-- A batch is flushed. -/
lemma flush (hE : Identified E) (h : Retains E base known [] s) {batch : List Event}
    (hstep : LifeStep env E base (.node (.flush batch)) s s') : Retains E base known [] s' := by
  obtain ⟨hrun, hallowed, -⟩ := hstep
  have hbatch : ∀ e ∈ batch, e ∈ E := fun e he =>
    h.world e (List.mem_append_left _ (hallowed e he))
  obtain rfl := congrArg Prod.snd ((exec_doFlush_eq env batch s).symm.trans hrun)
  obtain ⟨st, hst⟩ : ∃ st, st = s.storageAfter env fun st => ((), st.insertEventsBulk batch) :=
    ⟨_, rfl⟩
  have hcases : st = s.storage ∧ env.storageOutcome s.storageCalls ≠ .ok ∨
      st = s.storage.insertEventsBulk batch := by
    rw [hst]
    unfold SharedState.storageAfter
    cases env.storageOutcome s.storageCalls with
    | ok => exact .inr rfl
    | failed => exact .inl ⟨rfl, StorageOutcome.noConfusion⟩
    | failedAfterEffect => exact .inr rfl
  have hmem := mem_insertEventsBulk hE h.rows hbatch
  have hstored : Retains E base known [] (s.setStorage st (s.storageCalls + 1)) := by
    rcases hcases with ⟨rfl, -⟩ | rfl
    · exact h.congr ⟨⟨rfl, rfl, rfl, rfl⟩, rfl, rfl, rfl, rfl⟩ rfl
    · refine ⟨h.grown, h.world, fun e he => ?_, Storage.nodup_insertEventsBulk batch h.nodup,
        h.slot, fun e he => ?_, fun k e he => ?_⟩
      · rcases Storage.mem_insertEventsBulk he with he | he
        · exact h.rows e he
        · exact hbatch e he
      · exact (h.kept e he).imp id (Or.imp id fun hrow => hmem e (.inl hrow))
      · exact (h.marked k e he).imp id fun hrow => hmem e (.inl hrow)
  dsimp only
  rw [← hst]
  refine hstored.persist fun k hk e he => ?_
  split at hk
  · rename_i hok
    obtain ⟨x, hx, rfl⟩ := List.mem_map.1 hk
    have hslot : s.eventBuffer x.originKey = some e := he
    obtain ⟨heE, hkey⟩ := h.slot _ _ hslot
    have hex : e = x := hE.originKey e heE x (hbatch x hx) hkey
    rcases hcases with ⟨-, hnot⟩ | rfl
    · exact absurd hok hnot
    · exact hmem e (.inr (hex ▸ hx))
  · cases hk

/-! ## Every operation -/

lemma create (hE : Identified E) (h : Retains E base known [] s) {input : LocalCreateInput}
    (hstep : LifeStep env E base (.node (.create input)) s s') : Retains E base known [] s' := by
  obtain ⟨hrun, -, hmints⟩ := hstep
  obtain ⟨r, t, hcreated, hexec⟩ := exec_createLocalEvents env input s
  simp only [LifeOp.program, NodeOp.program, NodeM.exec, Proc.exec_bind] at hrun hexec
  rw [hexec] at hrun
  rcases r with _ | r
  · cases hrun
  obtain rfl : t = s' := congrArg Prod.snd hrun
  cases hcreated with
  | rejected _ => exact h
  | malformed _ _ => exact h.congr ⟨⟨rfl, rfl, rfl, rfl⟩, rfl, rfl, rfl, rfl⟩ rfl
  | cachedRetry _ _ _ _ => exact h.congr ⟨⟨rfl, rfl, rfl, rfl⟩, rfl, rfl, rfl, rfl⟩ rfl
  | storedRetry _ _ _ _ _ => exact h.congr ⟨⟨rfl, rfl, rfl, rfl⟩, rfl, rfl, rfl, rfl⟩ rfl
  | @emitted mode _ s₂ _ _ _ _ _ hemitted =>
      have hopened : Retains E base known [] (s.opened input.balanceKey) :=
        h.congr ⟨⟨rfl, rfl, rfl, rfl⟩, rfl, rfl, rfl, rfl⟩ rfl
      obtain ⟨u, hu, -⟩ := (keepsBranch hE hmints.world input mode).emitted hemitted
        (List.prefix_refl _) hopened
      exact hu.forget.congr ⟨⟨rfl, rfl, rfl, rfl⟩, rfl, rfl, rfl, rfl⟩ rfl

lemma cleared (h : Retains E base known u s) (e : Event) :
    Retains E base known u (s.cleared env e) := by
  unfold SharedState.cleared
  split
  · split
    · exact h.deleted _ _
    · exact h
  · exact h

lemma insert (hE : Identified E) (h : Retains E base known [] s) (hfree : s.Unlocked)
    (hstep : LifeStep env E base (.node (.insert e)) s s') : Retains E base known [] s' := by
  obtain ⟨hrun, he, hmints⟩ := hstep
  obtain ⟨r, t, hexec, hcases⟩ := exec_insertEvent_cleared env e hfree
  simp only [LifeOp.program, NodeOp.program, NodeM.exec, Proc.exec_bind] at hrun hexec
  rw [hexec] at hrun
  rcases r with _ | r
  · cases hrun
  obtain rfl : t = s' := congrArg Prod.snd hrun
  rcases hcases with ⟨-, -, rfl⟩ | ⟨-, hinserted⟩
  · exact h
  have hcleared : Retains E base known [] (s.cleared env e) := h.cleared e
  have haccepted : Retains E base known [] ((s.cleared env e).accepted env e) :=
    (hcleared.unrecorded he).files hE (SharedState.files_accepted env)
  generalize some r = o at hinserted
  cases hinserted with
  | deleted _ => exact hcleared
  | present _ _ => exact hcleared
  | occupied _ _ _ => exact hcleared
  | filed _ _ _ _ => exact haccepted.congr ⟨⟨rfl, rfl, rfl, rfl⟩, rfl, rfl, rfl, rfl⟩ rfl
  | @conflict existing _ _ _ _ _ _ hcorrected =>
      have hremembered : Retains E base known [] (((s.cleared env e).accepted env e).remember
          e.idempotencyKey (idempotencyWinner existing e).1) :=
        haccepted.congr ⟨⟨rfl, rfl, rfl, rfl⟩, rfl, rfl, rfl, rfl⟩ rfl
      exact (keepsCorrections hE hmints.world _ _).corrected hcorrected (List.prefix_refl _)
        hremembered

lemma delete (hE : Identified E) (h : Retains E base known [] s) {target : String}
    {reason : Option String} (hstep : LifeStep env E base (.delete target reason) s s') :
    Retains E base known [] s' := by
  obtain ⟨hrun, -, hmints⟩ := hstep
  obtain ⟨r, t, htombstoned, hexec⟩ := exec_createMetaBucketDelete env target reason s
  simp only [LifeOp.program, NodeM.exec, Proc.exec_bind] at hrun hexec
  rw [hexec] at hrun
  rcases r with _ | r
  · cases hrun
  obtain rfl : t = s' := congrArg Prod.snd hrun
  generalize some r = o at htombstoned
  cases htombstoned with
  | reserved _ => exact h
  | again _ _ => exact h
  | unallocated _ _ hp _ => exact h.prepared hp
  | @deleted t e _ _ hp he =>
      obtain ⟨t', ht'⟩ : ∃ t', t' = ((t.takeNext metaBucket env).tick).built e := ⟨_, rfl⟩
      rw [← ht'] at hmints ⊢
      have hdeleted := SharedState.deleted_frame env t' target (env.clock t.clockReads)
      have hrecord := SharedState.recordLocal_frame env
        (t'.deleted env target (env.clock t.clockReads)) e
      have hminted : e ∈ ((t'.deleted env target (env.clock t.clockReads)).recordLocal env
          e).minted := by
        rw [hrecord, hdeleted, ht']
        exact List.mem_append_right _ (List.mem_singleton.2 rfl)
      have hbuilt : Retains E base known [e] t' := by
        rw [ht']
        exact ((h.prepared hp).unrecorded (hmints.world e hminted)).congr
          ⟨⟨rfl, rfl, rfl, rfl⟩, rfl, rfl, rfl, rfl⟩ rfl
      exact (hbuilt.deleted target _).files hE (SharedState.files_recordLocal env)

end Retains

/-- The keys an operation marks are those of rows; a flush stores its batch first. -/
def LifeOp.MarksStored (s : SharedState D) : LifeOp → Prop
  | .node (.persist keys) => Retains.StoredAt keys s
  | _ => True

/-- The step lemma. -/
theorem Retains.step {env : Env D} {E : Set Event} {base known : List Event} {s s' : SharedState D}
    {op : LifeOp} (hE : Identified E) (h : Retains E base known [] s) (hfree : s.Unlocked)
    (hmarks : op.MarksStored s) (hstep : LifeStep env E base op s s') :
    Retains E base known [] s' := by
  cases op with
  | delete target reason => exact h.delete hE hstep
  | node op =>
      cases op with
      | create input => exact h.create hE hstep
      | insert e => exact h.insert hE hfree hstep
      | flush batch => exact h.flush hE hstep
      | persist keys =>
          obtain rfl : s.markPersisted keys = s' := congrArg Prod.snd hstep.run
          exact h.persist hmarks
      | sweep =>
          obtain rfl : _ = s' := congrArg Prod.snd hstep.run
          exact h.congr ⟨⟨rfl, rfl, rfl, rfl⟩, rfl, rfl, rfl, rfl⟩ rfl

/-- The lives in which nothing is marked as persisted that is not stored. -/
abbrev SafeLife (E : Set Event) (env : Env D) (base : List Event) (s : SharedState D) : Prop :=
  Lifetime (fun _ op s => op.MarksStored s) E env base s

/-- What a node buffers when it starts are rows. -/
lemma Retains.of_starts {E : Set Event} {env : Env D} {st : Storage D} {s : SharedState D}
    (hE : Identified E) (hst : st.WellFormed E env.nodeId) (hs : Starts env st s) :
    Retains E st.events [] [] s := by
  have hlogged := Lifetime.logged_of_starts hE hst hs
  have haccepted : s.acceptedSince st.events = st.events := by
    rw [SharedState.acceptedSince, hs.rebuilt.batchQueue, List.append_nil]
  have hevents := hs.rebuilt.events
  refine ⟨by simp, hlogged.known, fun e he => hst.world e (hevents ▸ he), hlogged.stored_nodup,
    fun k e he => ?_, fun e he => ?_, fun k e he => ?_⟩
  · obtain ⟨hmem, hkey⟩ := hlogged.log.buffered k e he
    exact ⟨hst.world e (List.mem_toFinset.1 hmem), hkey⟩
  · rw [haccepted] at he
    exact .inr (.inr (hevents ▸ he))
  · obtain ⟨hmem, -⟩ := hlogged.log.buffered k e he
    exact .inr (hevents ▸ List.mem_toFinset.1 hmem)

/-- The run lemma. -/
theorem SafeLife.retains {E : Set Event} {env : Env D} {base : List Event} {s : SharedState D}
    (hE : Identified E) (h : SafeLife E env base s) : Retains E base [] [] s := by
  induction h with
  | start hst hs => exact .of_starts hE hst hs
  | step hlife hmarks hstep ih =>
      obtain ⟨hfree, -⟩ := Lifetime.logged hE hlife
      exact ih.step hE hfree hmarks hstep
  | restart hlife hnode hs _ =>
      obtain ⟨-, A, gone, hlogged⟩ := Lifetime.logged hE hlife
      have hst := Lifetime.wellFormed hlogged
      rw [← hnode] at hst
      exact .of_starts hE hst hs

end Shardd
