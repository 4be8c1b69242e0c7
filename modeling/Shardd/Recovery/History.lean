import Shardd.Ledger.FailedWrite
import Shardd.Recovery.Start

/-!
# Histories of a node

A history begins with a start over a storage, goes on with requests, replicated events, flushes,
marks of persistence and sweeps in any order, and may restart whenever the storage has everything
the node has accepted.  No bucket is deleted in it, and identities are unique: every event that is
delivered or minted is one of a set of events with identities of their own, and what is minted is
new.

The run lemma is `History.books`: along every history the state is what the accepted events make
it, but for expired holds.
-/

namespace Shardd

variable {D : Type}

/-! ## Operations -/

/-- What a node can be asked to do. -/
inductive NodeOp
  | create (input : LocalCreateInput)
  | insert (e : Event)
  | flush (batch : List Event)
  | persist (keys : List OriginKey)
  | sweep

namespace NodeOp

def program (env : Env D) : NodeOp → NodeM D Unit
  | .create input => do
      let _ ← (createLocalEvents env input).run
      return ()
  | .insert e => do
      let _ ← insertEvent env e
      return ()
  | .flush batch => doFlush env batch
  | .persist keys => Proc.update fun s => s.markPersisted keys
  | .sweep => sweepExpiredHolds env

/-- The events that come from other nodes. -/
def delivered : NodeOp → List Event
  | .insert e => [e]
  | _ => []

/-- What the rest of the node and the other nodes see to: a delivered event is one of the world and
deletes no bucket, and an event of the node itself comes back only after it has been recorded; the
batch writer flushes events that have been sent to it. -/
def Allowed (E : Set Event) (base : List Event) (s : SharedState D) : NodeOp → Prop
  | .insert e => e ∈ E ∧ e.metaTargetBucket = none ∧ (e ∈ s.minted → e ∈ s.acceptedSince base)
  | .flush batch => ∀ e ∈ batch, e ∈ s.acceptedSince base
  | _ => True

/-- The operation records what it mints: it is no transfer that fails at its credit. -/
def Completes (env : Env D) (s : SharedState D) : NodeOp → Prop
  | .create input => ¬ s.TransferOverflows env input
  | _ => True

/-- The instant up to which a node may have dropped expired holds, after the operation. -/
def instant (env : Env D) (t : ℕ) (s : SharedState D) : NodeOp → ℕ
  | .sweep => max t (env.clock s.clockReads)
  | _ => t

end NodeOp

/-- The operation runs to its end, with a success or with an error. -/
structure NodeStep (env : Env D) (E : Set Event) (base : List Event) (op : NodeOp)
    (s s' : SharedState D) : Prop where
  run : NodeM.exec (op.program env) s = (some (), s')
  allowed : op.Allowed E base s
  mints : Mints E (s.acceptedSince base ++ op.delivered) s.minted s'.minted

/-! ## Histories -/

/-- The storage has everything the node has accepted. -/
def SharedState.Flushed (base : List Event) (s : SharedState D) : Prop :=
  ∀ e ∈ s.acceptedSince base, e ∈ s.storage.events

/-- The states of a node over its starts.  `base` is what it has loaded at the last one, and `t`
the latest instant at which it may have dropped expired holds. -/
inductive History (E : Set Event) : Env D → List Event → ℕ → SharedState D → Prop
  | start {env : Env D} {st : Storage D} {s : SharedState D} :
      st.WellFormed E env.nodeId → Starts env st s → History E env st.events (env.clock 0) s
  | step {env : Env D} {base : List Event} {t : ℕ} {s s' : SharedState D} {op : NodeOp} :
      History E env base t s → NodeStep env E base op s s' →
      History E env base (op.instant env t s) s'
  | restart {env env' : Env D} {base : List Event} {t : ℕ} {s s' : SharedState D} :
      History E env base t s → s.Flushed base → env'.nodeId = env.nodeId →
      env'.hasher = env.hasher → Starts env' s.storage s' →
      History E env' s.storage.events (max t (env'.clock 0)) s'

/-- The histories in which no transfer fails at its credit. -/
inductive CompleteHistory (E : Set Event) : Env D → List Event → ℕ → SharedState D → Prop
  | start {env : Env D} {st : Storage D} {s : SharedState D} :
      st.WellFormed E env.nodeId → Starts env st s → CompleteHistory E env st.events (env.clock 0) s
  | step {env : Env D} {base : List Event} {t : ℕ} {s s' : SharedState D} {op : NodeOp} :
      CompleteHistory E env base t s → op.Completes env s → NodeStep env E base op s s' →
      CompleteHistory E env base (op.instant env t s) s'
  | restart {env env' : Env D} {base : List Event} {t : ℕ} {s s' : SharedState D} :
      CompleteHistory E env base t s → s.Flushed base → env'.nodeId = env.nodeId →
      env'.hasher = env.hasher → Starts env' s.storage s' →
      CompleteHistory E env' s.storage.events (max t (env'.clock 0)) s'

lemma CompleteHistory.history {E : Set Event} {env : Env D} {base : List Event} {t : ℕ}
    {s : SharedState D} (h : CompleteHistory E env base t s) : History E env base t s := by
  induction h with
  | start hst hs => exact .start hst hs
  | step _ _ hstep ih => exact .step ih hstep
  | restart _ hflushed hnode hhasher hs ih => exact .restart ih hflushed hnode hhasher hs

/-- What holds between two operations. -/
structure Kept (env : Env D) (E : Set Event) (t : ℕ) (base lost : List Event)
    (s : SharedState D) : Prop where
  books : BooksOf E env.hasher t base lost s
  seqs : PositiveSeqs env s
  unlocked : s.Unlocked
  lost_minted : ∀ e ∈ lost, e ∈ s.minted

lemma BooksOf.mono {E : Set Event} {hasher : Hasher D} {t t' : ℕ} {base u : List Event}
    {s : SharedState D} (h : BooksOf E hasher t base u s) (hle : t ≤ t') :
    BooksOf E hasher t' base u s :=
  { h with account := fun key => (h.account key).mono hle }

namespace Kept

variable {env : Env D} {E : Set Event} {t : ℕ} {base lost : List Event} {s s' : SharedState D}

/-- The invariant at the beginning of an operation. -/
lemma booked (h : Kept env E t base lost s) (known : List Event)
    (hknown : ∀ e ∈ s.acceptedSince base, e ∈ known) :
    Booked env E t base lost known s.minted [] s where
  books := h.books
  seqs := h.seqs
  grown := List.prefix_refl _
  origin e he := by
    rcases List.mem_append.1 he with he | he
    · exact .inl (hknown e he)
    · exact .inr (h.lost_minted e he)
  own := h.lost_minted
  pos e he := by cases he

/-- The invariant at its end. -/
lemma of_booked {known before u : List Event} (h : Booked env E t base lost known before u s)
    (hfree : s.Unlocked) : Kept env E t base (u ++ lost) s where
  books := h.books
  seqs := h.seqs
  unlocked := hfree
  lost_minted := h.own

lemma congr (h : Kept env E t base lost s) (hbooks : s.SameBooks s') (hseqs : PositiveSeqs env s')
    (hlocks : s'.accountLocks = s.accountLocks) (hminted : s'.minted = s.minted) :
    Kept env E t base lost s' where
  books := h.books.congr hbooks
  seqs := hseqs
  unlocked key := by
    rw [hlocks]
    exact h.unlocked key
  lost_minted := by
    rw [hminted]
    exact h.lost_minted

/-! ## Operations -/

lemma create (hE : Identified E) (h : Kept env E t base lost s) {input : LocalCreateInput}
    (hstep : NodeStep env E base (.create input) s s') :
    ∃ u, Kept env E t base (u ++ lost) s' ∧ (¬ s.TransferOverflows env input → u = []) := by
  obtain ⟨hrun, -, hmints⟩ := hstep
  obtain ⟨r, s₁, hcreated, hexec⟩ := exec_createLocalEvents env input s
  simp only [NodeOp.program, NodeM.exec, Proc.exec_bind] at hrun hexec
  rw [hexec] at hrun
  rcases r with _ | r
  · cases hrun
  obtain rfl : s₁ = s' := congrArg Prod.snd hrun
  have hfree := h.unlocked.created hcreated
  -- looking a request up does not show in the books
  have hopened : ∀ s₂ : SharedState D, s.SameLog s₂ → (∀ key, s₂.account key = s.account key) →
      s₂.maxKnownSeqs = s.maxKnownSeqs → s₂.accountOriginEpochs = s.accountOriginEpochs →
      s₂.storage = s.storage → s₂.batchQueue = s.batchQueue →
      s₂.bucketAllocators = s.bucketAllocators → s₂.minted = s.minted →
      Booked env E t base lost (s.acceptedSince base ++ NodeOp.delivered (.create input)) s.minted
        [] s₂ := by
    intro s₂ hlog hacc hmax horigins hstorage hqueue halloc hminted
    have hbooked := h.booked (s.acceptedSince base ++ NodeOp.delivered (.create input))
      fun e he => List.mem_append_left _ he
    refine hbooked.congr ⟨hlog, hacc, hmax, horigins, ?_, hqueue⟩ (h.seqs.congr halloc ?_) hminted
    · rw [hstorage]
    · rw [hstorage]
  have hensured : ∀ key, (s.tick.ensureAccount input.balanceKey).account key = s.account key :=
    fun key => SharedState.account_ensureAccount key
  cases hcreated with
  | rejected _ => exact ⟨[], h, fun _ => rfl⟩
  | malformed _ _ =>
      have hbooked := hopened s.tick ⟨rfl, rfl, rfl, rfl⟩ (fun _ => rfl) rfl rfl rfl rfl rfl rfl
      exact ⟨[], of_booked hbooked hfree, fun _ => rfl⟩
  | cachedRetry _ _ _ _ =>
      have hbooked := hopened (s.tick.ensureAccount input.balanceKey) ⟨rfl, rfl, rfl, rfl⟩ hensured
        rfl rfl rfl rfl rfl rfl
      exact ⟨[], of_booked hbooked hfree, fun _ => rfl⟩
  | @storedRetry _ e _ _ _ _ _ =>
      have hbooked := hopened
        ((s.tick.ensureAccount input.balanceKey).asked.remember input.idempotencyKey e)
        ⟨rfl, rfl, rfl, rfl⟩ hensured rfl rfl rfl rfl rfl rfl
      exact ⟨[], of_booked hbooked hfree, fun _ => rfl⟩
  | @emitted mode _ s₂ hgate hmode hunlocked hcache hstored hemitted =>
      have hbefore : Booked env E t base lost
          (s.acceptedSince base ++ NodeOp.delivered (.create input)) s.minted []
            (s.opened input.balanceKey) :=
        hopened _ ⟨rfl, rfl, rfl, rfl⟩ hensured rfl rfl rfl rfl rfl rfl
      obtain ⟨u, hu, hempty⟩ := (Booked.keepsBranch hE hmints input mode).emitted hemitted
        (List.prefix_refl _) hbefore
      refine ⟨u, of_booked (hu.congr ?_ (hu.seqs.congr rfl rfl) rfl) hfree, fun hno => hempty ?_⟩
      · exact ⟨⟨rfl, rfl, rfl, rfl⟩, fun _ => rfl, rfl, rfl, rfl, rfl⟩
      · exact fun hoverflows => hno
          (hoverflows.transferOverflows hgate hmode hunlocked hcache hstored)

lemma insert (hE : Identified E) (h : Kept env E t base lost s) {e : Event}
    (hstep : NodeStep env E base (.insert e) s s') : Kept env E t base lost s' := by
  obtain ⟨hrun, ⟨he, hmeta, hback⟩, hmints⟩ := hstep
  obtain ⟨r, s₁, hinserted, hexec⟩ := exec_insertEvent env e hmeta h.unlocked
  simp only [NodeOp.program, NodeM.exec, Proc.exec_bind] at hrun hexec
  rw [hexec] at hrun
  rcases r with _ | r
  · cases hrun
  obtain rfl : s₁ = s' := congrArg Prod.snd hrun
  have hfree := h.unlocked.inserted hinserted
  have hknown : e ∈ s.acceptedSince base ++ NodeOp.delivered (.insert e) := by
    simp [NodeOp.delivered]
  -- an event that is not taken for present is new
  have haccepted : s.eventIsPresent e = false → s.eventBuffer e.originKey = none →
      Booked env E t base lost (s.acceptedSince base ++ NodeOp.delivered (.insert e)) s.minted []
        (s.accepted env e) := by
    intro hpresent hbuffer
    have hnew : e ∉ s.acceptedSince base := by
      intro hmem
      rw [h.books.log.isPresent (List.mem_toFinset.2 hmem)] at hpresent
      cases hpresent
    have hpos : 1 ≤ e.originSeq := by
      simp only [SharedState.eventIsPresent, hbuffer, Bool.or_eq_false_iff, decide_eq_false_iff_not]
        at hpresent
      omega
    refine (h.booked _ fun x hx => List.mem_append_left _ hx).accepted hE he hknown hpos ?_
    intro hmem
    rcases List.mem_append.1 hmem with hmem | hmem
    · exact hnew hmem
    · exact hnew (hback (h.lost_minted e hmem))
  generalize some r = o at hinserted
  cases hinserted with
  | deleted _ => exact h
  | present _ _ => exact h
  | occupied _ _ _ => exact h
  | filed _ hpresent hbuffer _ =>
      have hbooked := haccepted hpresent hbuffer
      have hfiled : Booked env E t base lost
          (s.acceptedSince base ++ NodeOp.delivered (.insert e)) s.minted []
            ((s.accepted env e).cacheEvent e) := by
        refine hbooked.congr ?_ (hbooked.seqs.congr rfl rfl) rfl
        exact ⟨⟨rfl, rfl, rfl, rfl⟩, fun _ => rfl, rfl, rfl, rfl, rfl⟩
      exact of_booked hfiled hfree
  | @conflict existing _ _ _ hpresent hbuffer _ hcorrected =>
      have hbooked := haccepted hpresent hbuffer
      have hremembered : Booked env E t base lost
          (s.acceptedSince base ++ NodeOp.delivered (.insert e)) s.minted []
            ((s.accepted env e).remember e.idempotencyKey (idempotencyWinner existing e).1) := by
        refine hbooked.congr ?_ (hbooked.seqs.congr rfl rfl) rfl
        exact ⟨⟨rfl, rfl, rfl, rfl⟩, fun _ => rfl, rfl, rfl, rfl, rfl⟩
      exact of_booked ((Booked.keepsCorrections hE hmints _ _).corrected hcorrected
        (List.prefix_refl _) hremembered) hfree

lemma persist (h : Kept env E t base lost s) (keys : List OriginKey) :
    Kept env E t base lost (s.markPersisted keys) := by
  have hframe := s.markPersisted_frame keys
  have haccepted : (s.markPersisted keys).acceptedSince base = s.acceptedSince base := by
    rw [hframe]
    rfl
  have haccount : ∀ key, (s.markPersisted keys).account key = s.account key := by
    intro key
    rw [hframe]
    rfl
  constructor
  · constructor
    · rw [haccepted]
      exact h.books.known
    · rw [haccepted]
      exact h.books.nodup
    · rw [haccepted]
      exact h.books.log.markPersisted keys
    · intro key
      rw [haccepted, haccount]
      exact h.books.account key
    · rw [haccepted, hframe]
      exact h.books.maxKnownSeqs
    · rw [haccepted, hframe]
      exact h.books.origins
    · rw [haccepted, hframe]
      exact h.books.stored
    · rw [hframe]
      exact h.books.stored_nodup
  · apply h.seqs.congr <;> rw [hframe]
  · intro key
    rw [hframe]
    exact h.unlocked key
  · rw [hframe]
    exact h.lost_minted

lemma flush (h : Kept env E t base lost s) {batch : List Event}
    (hstep : NodeStep env E base (.flush batch) s s') : Kept env E t base lost s' := by
  obtain ⟨hrun, hbatch, -⟩ := hstep
  obtain ⟨s₁, ⟨st, calls, hst, rfl⟩, hexec⟩ := exec_doFlush env batch s
  simp only [NodeOp.program] at hrun
  have hnodup := Storage.nodup_insertEventsBulk batch h.books.stored_nodup
  have hmem : ∀ e ∈ (s.storage.insertEventsBulk batch).events, e ∈ s.storage.events ∨ e ∈ batch :=
    fun e he => Storage.mem_insertEventsBulk he
  have hstored : Kept env E t base lost (s.setStorage st calls) := by
    refine ⟨⟨h.books.known, h.books.nodup, h.books.log.of_sameLog ⟨rfl, rfl, rfl, rfl⟩,
      h.books.account, h.books.maxKnownSeqs, h.books.origins, ?_, ?_⟩, h.seqs.congr rfl ?_,
      h.unlocked, h.lost_minted⟩
    · rcases hst with rfl | rfl
      · exact h.books.stored
      · intro e he
        rcases hmem e he with he | he
        · exact h.books.stored e he
        · exact hbatch e he
    · rcases hst with rfl | rfl
      · exact h.books.stored_nodup
      · exact hnodup
    · rcases hst with rfl | rfl
      · rfl
      · exact s.storage.bucketAllocators_insertEventsBulk batch
  rcases hexec with hexec | hexec
  · obtain rfl : _ = s' := congrArg Prod.snd (hexec.symm.trans hrun)
    exact hstored.persist _
  · obtain rfl : _ = s' := congrArg Prod.snd (hexec.symm.trans hrun)
    exact hstored

lemma sweep (h : Kept env E t base lost s) (now : ℕ) :
    Kept env E (max t now) base lost (s.sweepExpired now) where
  books :=
    { h.books.mono (le_max_left t now) with
      account := fun key => by
        rcases SharedState.account_sweepExpired (s := s) now key with heq | heq
        · rw [heq]
          exact (h.books.account key).mono (le_max_left t now)
        · rw [heq]
          exact (h.books.account key).sweepExpired now
      log := h.books.log.of_sameLog ⟨rfl, rfl, rfl, rfl⟩ }
  seqs := h.seqs.congr rfl rfl
  unlocked := h.unlocked
  lost_minted := h.lost_minted

/-- The step lemma.  What is minted is recorded, unless the credit of a transfer overflows. -/
theorem step (hE : Identified E) (h : Kept env E t base lost s) {op : NodeOp}
    (hstep : NodeStep env E base op s s') :
    ∃ u, Kept env E (op.instant env t s) base (u ++ lost) s' ∧ (op.Completes env s → u = []) := by
  cases op with
  | create input => exact h.create hE hstep
  | insert e => exact ⟨[], h.insert hE hstep, fun _ => rfl⟩
  | flush batch => exact ⟨[], h.flush hstep, fun _ => rfl⟩
  | persist keys =>
      obtain rfl : _ = s' := congrArg Prod.snd hstep.run
      exact ⟨[], h.persist keys, fun _ => rfl⟩
  | sweep =>
      obtain rfl : _ = s' := congrArg Prod.snd hstep.run
      have hswept := h.sweep (env.clock s.clockReads)
      refine ⟨[], hswept.congr ?_ (hswept.seqs.congr rfl rfl) rfl rfl, fun _ => rfl⟩
      exact ⟨⟨rfl, rfl, rfl, rfl⟩, fun _ => rfl, rfl, rfl, rfl, rfl⟩

end Kept

namespace History

variable {env : Env D} {E : Set Event} {t : ℕ} {base : List Event} {s : SharedState D}

/-- What a flushed node has stored can be started on. -/
lemma wellFormed {lost : List Event} (h : Kept env E t base lost s) :
    s.storage.WellFormed E env.nodeId where
  world e he := h.books.known e (List.mem_append_left _ (h.books.stored e he))
  nodup := h.books.stored_nodup
  pos e he := h.books.log.pos e (List.mem_toFinset.2 (h.books.stored e he))
  row := h.seqs.row

lemma kept_of_starts {st : Storage D} (hE : Identified E) (hst : st.WellFormed E env.nodeId)
    (hs : Starts env st s) : Kept env E (env.clock 0) st.events [] s where
  books := hs.rebuilt.books hE hst
  seqs := hs.rebuilt.positiveSeqs hst
  unlocked := hs.rebuilt.unlocked
  lost_minted e he := by cases he

lemma kept_of_restart {env' : Env D} {lost : List Event} {s' : SharedState D} (hE : Identified E)
    (h : Kept env E t base lost s) (hnode : env'.nodeId = env.nodeId)
    (hs : Starts env' s.storage s') :
    Kept env' E (max t (env'.clock 0)) s.storage.events [] s' := by
  have hst := wellFormed h
  rw [← hnode] at hst
  have hstart := kept_of_starts hE hst hs
  exact { hstart with books := hstart.books.mono (le_max_right _ _) }

/-- The run lemma. -/
theorem kept (hE : Identified E) (h : History E env base t s) :
    ∃ lost, Kept env E t base lost s := by
  induction h with
  | start hst hs => exact ⟨[], kept_of_starts hE hst hs⟩
  | step _ hstep ih =>
      obtain ⟨lost, hkept⟩ := ih
      obtain ⟨u, hkept', -⟩ := hkept.step hE hstep
      exact ⟨u ++ lost, hkept'⟩
  | restart _ _ hnode _ hs ih =>
      obtain ⟨lost, hkept⟩ := ih
      exact ⟨[], kept_of_restart hE hkept hnode hs⟩

end History

/-- The run lemma: nothing is missing from the log. -/
theorem CompleteHistory.kept {E : Set Event} (hE : Identified E) {env : Env D} {base : List Event}
    {t : ℕ} {s : SharedState D} (h : CompleteHistory E env base t s) :
    Kept env E t base [] s := by
  induction h with
  | start hst hs => exact History.kept_of_starts hE hst hs
  | step _ hcompletes hstep ih =>
      obtain ⟨u, hkept, hu⟩ := ih.step hE hstep
      obtain rfl := hu hcompletes
      exact hkept
  | restart _ _ hnode _ hs ih => exact History.kept_of_restart hE ih hnode hs

/-! ## Short histories -/

section Short

variable {env : Env D} {E : Set Event} {base : List Event} {s : SharedState D}

lemma exec_of_fst {t : NodeM D Unit} (h : (NodeM.exec t s).1 = some ()) :
    NodeM.exec t s = (some (), (NodeM.exec t s).2) := Prod.ext h rfl

lemma identified_of_list {es : List Event}
    (h : ∀ e ∈ es, ∀ e' ∈ es, e.eventId = e'.eventId ∨ e.originKey = e'.originKey → e = e') :
    Identified {e | e ∈ es} where
  eventId e he e' he' hid := h e he e' he' (.inl hid)
  originKey e he e' he' hkey := h e he e' he' (.inr hkey)

/-- The first start of a node whose storage never fails. -/
lemma CompleteHistory.first (hok : ∀ n, env.storageOutcome n = .ok) :
    CompleteHistory E env [] (env.clock 0)
      (NodeM.exec (newSharedState env) (.blank .empty)).2 := by
  have hrun : NodeM.exec (newSharedState env) (.blank .empty) =
      (some (), (NodeM.exec (newSharedState env) (.blank .empty)).2) := by
    obtain ⟨calls, h⟩ := exec_newSharedState_empty env
    rw [h]
  have hst : (Storage.empty : Storage D).WellFormed E env.nodeId := by
    constructor <;> simp [Storage.empty]
  exact .start hst ⟨hrun, fun n _ => hok n⟩

lemma History.first (hok : ∀ n, env.storageOutcome n = .ok) :
    History E env [] (env.clock 0) (NodeM.exec (newSharedState env) (.blank .empty)).2 :=
  (CompleteHistory.first hok).history

/-- An operation that mints nothing. -/
lemma NodeStep.of_not_minting {op : NodeOp}
    (hrun : (NodeM.exec (op.program env) s).1 = some ()) (hallowed : op.Allowed E base s)
    (hminted : (NodeM.exec (op.program env) s).2.minted = []) :
    NodeStep env E base op s (NodeM.exec (op.program env) s).2 := by
  refine ⟨exec_of_fst hrun, hallowed, ?_⟩
  rw [hminted]
  exact ⟨List.nodup_nil, by simp, by simp⟩

end Short

end Shardd
