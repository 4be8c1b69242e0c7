import Shardd.Lib.Contiguous
import Shardd.Node.Exec

/-!
# The log of a node

`LogOf hasher A s` says that the bookkeeping of `s` is that of a node that has accepted the events
`A`: heads and pending seqs are those of the seqs of `A`, the digests chain the events up to the
heads, the buffer holds events of `A` only, and among them all that lie beyond a head.  A node that
accepts one more event keeps this up, whichever event it is, and so does persistence.  From it
follows what the duplicate check of `insert_event` answers.
-/

namespace Shardd

/-! ## The drain loop -/

lemma drainLoop_spec (rounds head : ℕ) (pending : Finset ℕ) (hcard : pending.card ≤ rounds) :
    head ≤ (drainLoop rounds head pending).1 ∧
    (∀ m, head < m → m ≤ (drainLoop rounds head pending).1 → m ∈ pending) ∧
    (drainLoop rounds head pending).1 + 1 ∉ (drainLoop rounds head pending).2 ∧
    ∀ m, m ∈ (drainLoop rounds head pending).2 ↔
      m ∈ pending ∧ (m ≤ head ∨ (drainLoop rounds head pending).1 < m) := by
  induction rounds generalizing head pending with
  | zero =>
      obtain rfl : pending = ∅ := Finset.card_eq_zero.1 (by omega)
      simp only [drainLoop]
      exact ⟨le_refl _, fun m hm hm' => by omega, by simp, by simp⟩
  | succ rounds ih =>
      unfold drainLoop
      split
      · rename_i hmem
        have hcard' : (pending.erase (head + 1)).card ≤ rounds := by
          rw [Finset.card_erase_of_mem hmem]
          omega
        obtain ⟨hle, hrun, hstop, hrest⟩ := ih (head + 1) (pending.erase (head + 1)) hcard'
        refine ⟨by omega, fun m hm hm' => ?_, hstop, fun m => ?_⟩
        · by_cases heq : m = head + 1
          · exact heq ▸ hmem
          · exact Finset.mem_of_mem_erase (hrun m (by omega) hm')
        · rw [hrest, Finset.mem_erase]
          constructor
          · rintro ⟨⟨hne, hm⟩, hm'⟩
            exact ⟨hm, by omega⟩
          · rintro ⟨hm, hm'⟩
            exact ⟨⟨by omega, hm⟩, by omega⟩
      · rename_i hmem
        refine ⟨le_refl _, fun m hm hm' => by omega, hmem, fun m => ?_⟩
        dsimp only
        constructor
        · exact fun hm => ⟨hm, by omega⟩
        · exact fun hm => hm.1

/-! ## Advancing a head -/

variable {D : Type} (env : Env D)

namespace SharedState

variable {s : SharedState D} {key : EpochKey} {seq : ℕ}

/-- The next seq of an epoch moves its head to the end of the run behind it. -/
lemma advanceHead_next (key : EpochKey) (hseq : seq = s.head key + 1) :
    ∃ h' p', s.head key < h' ∧ (∀ m, seq < m → m ≤ h' → m ∈ s.pending key) ∧ h' + 1 ∉ p' ∧
      (∀ m, m ∈ p' ↔ m ∈ s.pending key ∧ (m ≤ seq ∨ h' < m)) ∧
      (s.advanceHead env key seq).heads = s.heads.insert key h' ∧
      (∀ k, (s.advanceHead env key seq).pending k = if k = key then p' else s.pending k) ∧
      (s.advanceHead env key seq).digests = s.digests.insert key (h',
        (List.range' seq (h' - s.head key)).foldl (s.digestStep env.hasher key)
          (((s.digests key).map Prod.snd).getD env.hasher.zero)) ∧
      (s.advanceHead env key seq).eventBuffer = s.eventBuffer.retain fun k =>
        !(decide (k.epoch = key) && decide (seq ≤ k.2.2.2) && decide (k.2.2.2 ≤ h') &&
          (s.unpersisted k).isNone) := by
  have hlocked : ∀ h' pendingSeqs,
      s.drainPending key seq = (h', { s with pendingSeqs := pendingSeqs }) →
      (s.advanceHead env key seq).heads = s.heads.insert key h' ∧
      (s.advanceHead env key seq).pendingSeqs = pendingSeqs ∧
      (s.advanceHead env key seq).digests = s.digests.insert key (h',
        (List.range' seq (h' - s.head key)).foldl (s.digestStep env.hasher key)
          (((s.digests key).map Prod.snd).getD env.hasher.zero)) ∧
      (s.advanceHead env key seq).eventBuffer = s.eventBuffer.retain fun k =>
        !(decide (k.epoch = key) && decide (seq ≤ k.2.2.2) && decide (k.2.2.2 ≤ h') &&
          (s.unpersisted k).isNone) := by
    intro h' pendingSeqs hdrain
    unfold advanceHead advanceHeadLocked
    dsimp only
    rw [if_pos hseq, hdrain, ← hseq]
    refine ⟨rfl, rfl, ?_, rfl⟩
    rw [hseq]
    rfl
  rcases hp : s.pendingSeqs key with _ | pending
  · have hdrain : s.drainPending key seq = (seq, s) := by
      unfold drainPending
      rw [hp]
    obtain ⟨hheads, hpending, hdigests, hbuffer⟩ := hlocked seq s.pendingSeqs hdrain
    refine ⟨seq, ∅, by omega, fun m _ _ => by omega, by simp, fun m => ?_, hheads, fun k => ?_,
      hdigests, hbuffer⟩
    · simp [SharedState.pending, hp]
    · unfold SharedState.pending
      rw [hpending]
      split
      · rename_i hk
        rw [hk, hp]
        rfl
      · rfl
  · have hpend : s.pending key = pending := by simp [SharedState.pending, hp]
    set out := drainLoop pending.card seq pending with hout
    have hdrain : s.drainPending key seq =
        (out.1, { s with pendingSeqs := s.pendingSeqs.insert key out.2 }) := by
      unfold drainPending
      rw [hp]
    obtain ⟨hheads, hpending, hdigests, hbuffer⟩ := hlocked _ _ hdrain
    obtain ⟨hle, hrun, hstop, hrest⟩ := drainLoop_spec pending.card seq pending le_rfl
    rw [← hout] at hle hrun hstop hrest
    refine ⟨out.1, out.2, by omega, ?_, hstop, ?_, hheads, fun k => ?_, hdigests, hbuffer⟩
    · rw [hpend]
      exact hrun
    · rw [hpend]
      exact hrest
    · unfold SharedState.pending
      rw [hpending, Map.insert_apply]
      split <;> rfl

/-- A seq beyond the next one waits. -/
lemma advanceHead_gap (hseq : s.head key + 1 < seq) :
    s.advanceHead env key seq =
      { s with
        pendingSeqs := s.pendingSeqs.insert key (insert seq (s.pending key))
        heads := s.heads.insert key (s.head key) } := by
  unfold advanceHead advanceHeadLocked
  dsimp only
  rw [if_neg (by omega), if_pos hseq]

/-- A seq that the head has passed changes nothing. -/
lemma advanceHead_old (hseq : seq ≤ s.head key) : s.advanceHead env key seq = s := by
  unfold advanceHead advanceHeadLocked
  dsimp only
  rw [if_neg (by omega), if_neg (by omega)]

/-- The other epochs when a head is advanced. -/
lemma advanceHead_of_ne {k : EpochKey} (hk : k ≠ key) :
    (s.advanceHead env key seq).head k = s.head k ∧
      (s.advanceHead env key seq).pending k = s.pending k ∧
      (s.advanceHead env key seq).digests k = s.digests k := by
  rcases lt_trichotomy (s.head key + 1) seq with hgap | hnext | hold
  · rw [advanceHead_gap env hgap]
    simp [head, pending, hk]
  · obtain ⟨h', p', -, -, -, -, hheads, hpend, hdigests, -⟩ := advanceHead_next env key hnext.symm
    refine ⟨?_, by rw [hpend, if_neg hk], by rw [hdigests, Map.insert_of_ne _ _ _ hk]⟩
    rw [head, hheads, Map.insert_of_ne _ _ _ hk, head]
  · rw [advanceHead_old env (by omega)]
    exact ⟨rfl, rfl, rfl⟩

end SharedState

/-! ## The log of a set of events -/

/-- The seqs of an epoch among some events. -/
def seqsOf (A : Finset Event) (key : EpochKey) : Finset ℕ :=
  (A.filter fun e => e.epochKey = key).image Event.originSeq

lemma Event.originKey_eq_at (e : Event) : e.originKey = e.epochKey.at e.originSeq := rfl

lemma mem_seqsOf {A : Finset Event} {key : EpochKey} {n : ℕ} :
    n ∈ seqsOf A key ↔ ∃ e ∈ A, e.originKey = key.at n := by
  simp only [seqsOf, Finset.mem_image, Finset.mem_filter, and_assoc]
  refine exists_congr fun e => and_congr_right fun _ => ?_
  obtain ⟨bucket, node, epoch⟩ := key
  simp [Event.epochKey, Event.originKey, EpochKey.at, and_assoc]

lemma seqsOf_insert (A : Finset Event) (e : Event) (key : EpochKey) :
    seqsOf (insert e A) key =
      if e.epochKey = key then insert e.originSeq (seqsOf A key) else seqsOf A key := by
  unfold seqsOf
  rw [Finset.filter_insert]
  split
  · rw [Finset.image_insert]
  · rfl

/-- `digest` chains the events of `A` at the seqs `1, …, head` of an epoch. -/
def Chains (hasher : Hasher D) (A : Finset Event) (key : EpochKey) (head : ℕ) (digest : D) : Prop :=
  ∃ es : List Event, (∀ e ∈ es, e ∈ A) ∧
    es.map Event.originKey = (List.range' 1 head).map key.at ∧
    digest = es.foldl (fun d e => hasher.chain d e.canonical) hasher.zero

/-- The bookkeeping of a node that has accepted `A`. -/
structure LogOf (hasher : Hasher D) (A : Finset Event) (s : SharedState D) : Prop where
  pos : ∀ e ∈ A, 1 ≤ e.originSeq
  eq_of_originKey : ∀ e ∈ A, ∀ e' ∈ A, e.originKey = e'.originKey → e = e'
  head : ∀ key, IsHead (seqsOf A key) (s.head key) (s.pending key)
  digest : ∀ key, ∃ d, Chains hasher A key (s.head key) d ∧
    s.digests key = if s.head key = 0 then none else some (s.head key, d)
  buffered : ∀ k e, s.eventBuffer k = some e → e ∈ A ∧ e.originKey = k
  waiting : ∀ e ∈ A, s.head e.epochKey < e.originSeq → s.eventBuffer e.originKey = some e

/-- The two states keep the same log. -/
structure SharedState.SameLog (s s' : SharedState D) : Prop where
  heads : s'.heads = s.heads
  pendingSeqs : s'.pendingSeqs = s.pendingSeqs
  digests : s'.digests = s.digests
  eventBuffer : s'.eventBuffer = s.eventBuffer

section Chains

variable {hasher : Hasher D} {A : Finset Event} {key : EpochKey}

lemma EpochKey.at_injective (key : EpochKey) : Function.Injective key.at := by
  intro m n h
  simpa [EpochKey.at] using h

/-- The events at the seqs determine the digest. -/
lemma Chains.unique {h : ℕ} {d d' : D}
    (hinj : ∀ e ∈ A, ∀ e' ∈ A, e.originKey = e'.originKey → e = e')
    (hd : Chains hasher A key h d) (hd' : Chains hasher A key h d') : d = d' := by
  obtain ⟨es, hA, hkeys, rfl⟩ := hd
  obtain ⟨es', hA', hkeys', rfl⟩ := hd'
  rw [← hkeys'] at hkeys
  clear hkeys'
  suffices es = es' by rw [this]
  induction es generalizing es' with
  | nil => exact (List.map_eq_nil_iff.1 hkeys.symm).symm
  | cons e es ih =>
      rcases es' with _ | ⟨e', es'⟩
      · cases hkeys
      · simp only [List.map_cons, List.cons.injEq] at hkeys
        rw [hinj e (hA e List.mem_cons_self) e' (hA' e' List.mem_cons_self) hkeys.1,
          ih (fun x hx => hA x (List.mem_cons_of_mem _ hx)) es' hkeys.2
            fun x hx => hA' x (List.mem_cons_of_mem _ hx)]

lemma Chains.mono {A' : Finset Event} {h : ℕ} {d : D} (hd : Chains hasher A key h d)
    (hsub : A ⊆ A') : Chains hasher A' key h d := by
  obtain ⟨es, hA, hkeys, rfl⟩ := hd
  exact ⟨es, fun e he => hsub (hA e he), hkeys, rfl⟩

variable (hasher key) in
/-- The digest over a run of seqs whose events are all in the buffer. -/
lemma exists_chain_of_buffered {s : SharedState D} (seqs : List ℕ) (d : D)
    (hbuf : ∀ n ∈ seqs, ∃ e ∈ A, e.originKey = key.at n ∧ s.eventBuffer (key.at n) = some e) :
    ∃ es : List Event, (∀ e ∈ es, e ∈ A) ∧ es.map Event.originKey = seqs.map key.at ∧
      seqs.foldl (s.digestStep hasher key) d =
        es.foldl (fun d e => hasher.chain d e.canonical) d := by
  induction seqs generalizing d with
  | nil => exact ⟨[], by simp, rfl, rfl⟩
  | cons n seqs ih =>
      obtain ⟨e, he, hkey, hb⟩ := hbuf n List.mem_cons_self
      obtain ⟨es, hes, hkeys, hfold⟩ := ih (hasher.chain d e.canonical)
        fun m hm => hbuf m (List.mem_cons_of_mem _ hm)
      refine ⟨e :: es, ?_, ?_, ?_⟩
      · intro x hx
        rcases List.mem_cons.1 hx with rfl | hx
        · exact he
        · exact hes x hx
      · rw [List.map_cons, List.map_cons, hkey, hkeys]
      · rw [List.foldl_cons, List.foldl_cons, ← hfold, SharedState.digestStep, hb]

end Chains

namespace LogOf

variable {env} {hasher : Hasher D} {A : Finset Event} {s s' : SharedState D} {e : Event}

lemma of_sameLog (h : LogOf hasher A s) (hs : s.SameLog s') : LogOf hasher A s' := by
  obtain ⟨hheads, hpending, hdigests, hbuffer⟩ := hs
  have hhead : ∀ key, s'.head key = s.head key := fun key => by
    rw [SharedState.head, hheads, SharedState.head]
  have hpend : ∀ key, s'.pending key = s.pending key := fun key => by
    rw [SharedState.pending, hpending, SharedState.pending]
  constructor
  · exact h.pos
  · exact h.eq_of_originKey
  · intro key
    rw [hhead, hpend]
    exact h.head key
  · intro key
    rw [hhead, hdigests]
    exact h.digest key
  · rw [hbuffer]
    exact h.buffered
  · intro e he
    rw [hhead, hbuffer]
    exact h.waiting e he

/-- A seq is at most the head or pending exactly when its event has been accepted. -/
lemma accepted_iff (h : LogOf hasher A s) (key : EpochKey) {n : ℕ} (hn : 1 ≤ n) :
    (∃ e ∈ A, e.originKey = key.at n) ↔ n ≤ s.head key ∨ n ∈ s.pending key := by
  rw [← mem_seqsOf]
  exact (h.head key).mem_iff hn

lemma isPresent (h : LogOf hasher A s) (he : e ∈ A) : s.eventIsPresent e = true := by
  unfold SharedState.eventIsPresent
  rcases hb : s.eventBuffer e.originKey with _ | e'
  · have hacc := (h.accepted_iff e.epochKey (h.pos e he)).1 ⟨e, he, rfl⟩
    simpa [or_comm] using hacc
  · obtain ⟨he', hkey⟩ := h.buffered _ _ hb
    rw [h.eq_of_originKey e' he' e he hkey]
    simp

/-- An origin key that no accepted event has is neither in the buffer nor taken for present. -/
lemma not_isPresent (h : LogOf hasher A s) (hpos : 1 ≤ e.originSeq)
    (hnew : ∀ e' ∈ A, e'.originKey ≠ e.originKey) :
    s.eventBuffer e.originKey = none ∧ s.eventIsPresent e = false := by
  have hb : s.eventBuffer e.originKey = none := by
    rcases hb : s.eventBuffer e.originKey with _ | e'
    · rfl
    · obtain ⟨he', hkey⟩ := h.buffered _ _ hb
      exact absurd hkey (hnew e' he')
  refine ⟨hb, ?_⟩
  have hacc := (h.accepted_iff e.epochKey hpos).not.1 fun ⟨e', he', hkey⟩ =>
    hnew e' he' hkey
  simp only [SharedState.eventIsPresent, hb]
  simpa [not_or, and_comm] using hacc

/-- `s'` is `s` with the event in the buffer, and the log of `s` has no event of this identity. -/
structure Buffers (hasher : Hasher D) (A : Finset Event) (s s' : SharedState D) (e : Event) :
    Prop where
  log : LogOf hasher A s
  pos : 1 ≤ e.originSeq
  new : ∀ e' ∈ A, e'.originKey ≠ e.originKey
  heads : s'.heads = s.heads
  pendingSeqs : s'.pendingSeqs = s.pendingSeqs
  digests : s'.digests = s.digests
  eventBuffer : s'.eventBuffer = s.eventBuffer.insert e.originKey e

namespace Buffers

lemma head (h : Buffers hasher A s s' e) (key : EpochKey) : s'.head key = s.head key := by
  rw [SharedState.head, h.heads, SharedState.head]

lemma pending (h : Buffers hasher A s s' e) (key : EpochKey) : s'.pending key = s.pending key := by
  rw [SharedState.pending, h.pendingSeqs, SharedState.pending]

/-- The event has not been accepted yet. -/
lemma notin (h : Buffers hasher A s s' e) :
    ¬ e.originSeq ≤ s.head e.epochKey ∧ e.originSeq ∉ s.pending e.epochKey :=
  not_or.1 ((h.log.accepted_iff e.epochKey h.pos).not.1 fun ⟨e', he', hkey⟩ => h.new e' he' hkey)

/-- What the buffer holds before the head moves. -/
lemma buffered (h : Buffers hasher A s s' e) (k : OriginKey) (x : Event)
    (hx : s'.eventBuffer k = some x) : x ∈ insert e A ∧ x.originKey = k := by
  rw [h.eventBuffer, Map.insert_apply] at hx
  split at hx
  · rename_i hk
    cases hx
    exact ⟨Finset.mem_insert_self _ _, hk.symm⟩
  · obtain ⟨hxA, hxk⟩ := h.log.buffered k x hx
    exact ⟨Finset.mem_insert_of_mem hxA, hxk⟩

lemma waiting (h : Buffers hasher A s s' e) : ∀ x ∈ insert e A, s.head x.epochKey < x.originSeq →
    s'.eventBuffer x.originKey = some x := by
  intro x hx hlt
  rw [h.eventBuffer]
  rcases Finset.mem_insert.1 hx with rfl | hxA
  · rw [Map.insert_self]
  · rw [Map.insert_of_ne _ _ _ (h.new x hxA)]
    exact h.log.waiting x hxA hlt

lemma seqsOf_of_ne {k : EpochKey} (hk : k ≠ e.epochKey) : seqsOf (insert e A) k = seqsOf A k := by
  rw [seqsOf_insert, if_neg (Ne.symm hk)]

lemma pos_insert (h : Buffers hasher A s s' e) : ∀ x ∈ insert e A, 1 ≤ x.originSeq := by
  intro x hx
  rcases Finset.mem_insert.1 hx with rfl | hxA
  · exact h.pos
  · exact h.log.pos x hxA

lemma eq_of_originKey_insert (h : Buffers hasher A s s' e) :
    ∀ x ∈ insert e A, ∀ y ∈ insert e A, x.originKey = y.originKey → x = y := by
  intro x hx y hy hkey
  rcases Finset.mem_insert.1 hx with rfl | hxA <;> rcases Finset.mem_insert.1 hy with rfl | hyA
  · rfl
  · exact absurd hkey.symm (h.new y hyA)
  · exact absurd hkey (h.new x hxA)
  · exact h.log.eq_of_originKey x hxA y hyA hkey

/-- The event waits for those before it. -/
lemma gap (h : Buffers env.hasher A s s' e) (hgap : s'.head e.epochKey + 1 < e.originSeq) :
    LogOf env.hasher (insert e A) (s'.advanceHead env e.epochKey e.originSeq) := by
  have hadv := SharedState.advanceHead_gap env hgap
  have hhead' : ∀ key, (s'.advanceHead env e.epochKey e.originSeq).head key = s.head key := by
    intro key
    rw [hadv, ← h.head, SharedState.head, SharedState.head]
    dsimp only
    rw [Map.insert_apply]
    split
    · rename_i hk
      rw [hk]
      rfl
    · rfl
  refine ⟨h.pos_insert, h.eq_of_originKey_insert, fun key => ?_, fun key => ?_, ?_, ?_⟩
  · rw [hhead']
    by_cases hk : key = e.epochKey
    · subst hk
      have hset : (s'.advanceHead env e.epochKey e.originSeq).pending e.epochKey =
          insert e.originSeq (s.pending e.epochKey) := by
        rw [hadv, SharedState.pending, ← h.pending]
        simp
      rw [hset, seqsOf_insert, if_pos rfl]
      exact (h.log.head _).insert_pending (by rw [← h.head]; exact hgap)
    · rw [seqsOf_of_ne hk, (SharedState.advanceHead_of_ne env hk).2.1, h.pending]
      exact h.log.head key
  · obtain ⟨d, hd, hdig⟩ := h.log.digest key
    rw [hhead']
    refine ⟨d, hd.mono (Finset.subset_insert _ _), ?_⟩
    rw [hadv, ← hdig, ← h.digests]
  · rw [hadv]
    exact h.buffered
  · intro x hx hxlt
    rw [hhead'] at hxlt
    rw [hadv]
    exact h.waiting x hx hxlt

/-- The head moves to `h'`, over events that the buffer holds: their chain continues the digest. -/
lemma chains (h : Buffers hasher A s s' e) {h' : ℕ} (hgt : s.head e.epochKey < h')
    (hseq : e.originSeq = s.head e.epochKey + 1)
    (hrun : ∀ m, e.originSeq < m → m ≤ h' → m ∈ s.pending e.epochKey) :
    Chains hasher (insert e A) e.epochKey h'
      ((List.range' e.originSeq (h' - s'.head e.epochKey)).foldl
        (s'.digestStep hasher e.epochKey)
          (((s'.digests e.epochKey).map Prod.snd).getD hasher.zero)) := by
  obtain ⟨d, ⟨es, hes, hkeys, hd⟩, hdig⟩ := h.log.digest e.epochKey
  have hstart : (((s'.digests e.epochKey).map Prod.snd).getD hasher.zero) = d := by
    rw [h.digests, hdig]
    split
    · rename_i hzero
      rw [hzero] at hkeys
      rw [List.map_eq_nil_iff.1 hkeys] at hd
      exact hd.symm
    · rfl
  have hbuf : ∀ n ∈ List.range' e.originSeq (h' - s'.head e.epochKey),
      ∃ x ∈ insert e A, x.originKey = e.epochKey.at n ∧
        s'.eventBuffer (e.epochKey.at n) = some x := by
    intro n hn
    have hn' := List.mem_range'_1.1 hn
    rw [h.head] at hn'
    obtain ⟨x, hx, hxkey⟩ : ∃ x ∈ insert e A, x.originKey = e.epochKey.at n := by
      by_cases heq : n = e.originSeq
      · exact ⟨e, Finset.mem_insert_self _ _, by rw [heq]; rfl⟩
      · obtain ⟨x, hx, hxkey⟩ :=
          (h.log.accepted_iff e.epochKey (n := n) (by omega)).2
            (.inr (hrun n (by omega) (by omega)))
        exact ⟨x, Finset.mem_insert_of_mem hx, hxkey⟩
    refine ⟨x, hx, hxkey, ?_⟩
    rw [← hxkey]
    refine h.waiting x hx ?_
    obtain ⟨hepoch, hxn⟩ :=
      Event.originKey_eq_iff.1 (hxkey.trans (Event.originKey_eq_at
        { e with originSeq := n }).symm)
    have hxn' : x.originSeq = n := hxn
    have hepoch' : x.epochKey = e.epochKey := hepoch
    rw [hepoch', hxn']
    omega
  obtain ⟨es', hes', hkeys', hfold⟩ := exists_chain_of_buffered hasher e.epochKey
    (A := insert e A) (s := s') (List.range' e.originSeq (h' - s'.head e.epochKey)) d hbuf
  refine ⟨es ++ es', ?_, ?_, ?_⟩
  · intro x hx
    rcases List.mem_append.1 hx with hx | hx
    · exact Finset.mem_insert_of_mem (hes x hx)
    · exact hes' x hx
  · rw [List.map_append, hkeys, hkeys', ← List.map_append, h.head, hseq,
      Nat.add_comm (s.head e.epochKey) 1, List.range'_append_1]
    congr 2
    omega
  · rw [hstart, hfold, List.foldl_append, ← hd]

/-- The event moves the head. -/
lemma next (h : Buffers env.hasher A s s' e) (hnext : s'.head e.epochKey + 1 = e.originSeq) :
    LogOf env.hasher (insert e A) (s'.advanceHead env e.epochKey e.originSeq) := by
  obtain ⟨h', p', hgt, hrun, hstop, hrest, hheads', hpend', hdigests', hbuffer'⟩ :=
    SharedState.advanceHead_next env e.epochKey hnext.symm
  rw [h.head] at hgt
  rw [h.pending] at hrun hrest
  have hhead' : ∀ key, (s'.advanceHead env e.epochKey e.originSeq).head key =
      if key = e.epochKey then h' else s.head key := by
    intro key
    rw [SharedState.head, hheads', Map.insert_apply]
    split
    · rfl
    · exact h.head key
  have hseq : e.originSeq = s.head e.epochKey + 1 := by
    rw [← h.head]
    exact hnext.symm
  refine ⟨h.pos_insert, h.eq_of_originKey_insert, fun key => ?_, fun key => ?_, ?_, ?_⟩
  · rw [hhead', hpend']
    by_cases hk : key = e.epochKey
    · subst hk
      rw [if_pos rfl, if_pos rfl, seqsOf_insert, if_pos rfl, hseq]
      refine (h.log.head _).insert_next hgt (by rw [← hseq]; exact hrun) hstop fun m => ?_
      rw [hrest]
      have := (h.log.head e.epochKey).mem_pending m
      refine and_congr_right fun hm => ?_
      have := (this.1 hm).2
      constructor
      · rintro (hle | hgt')
        · obtain rfl : m = e.originSeq := by omega
          exact absurd hm h.notin.2
        · exact hgt'
      · exact .inr
    · rw [if_neg hk, if_neg hk, seqsOf_of_ne hk, h.pending]
      exact h.log.head key
  · rw [hhead', hdigests', Map.insert_apply]
    by_cases hk : key = e.epochKey
    · subst hk
      rw [if_pos rfl, if_pos rfl]
      refine ⟨_, h.chains hgt hseq hrun, ?_⟩
      rw [if_neg (by omega)]
    · obtain ⟨d, hd, hdig⟩ := h.log.digest key
      rw [if_neg hk, if_neg hk]
      refine ⟨d, hd.mono (Finset.subset_insert _ _), ?_⟩
      rw [h.digests, hdig]
  · intro k x hx
    rw [hbuffer', Map.retain_apply] at hx
    split at hx
    · exact h.buffered k x hx
    · cases hx
  · intro x hx hxlt
    rw [hhead'] at hxlt
    have hxlt' : s.head x.epochKey < x.originSeq := by
      split at hxlt
      · rename_i hk
        rw [hk]
        omega
      · exact hxlt
    rw [hbuffer', Map.retain_apply, if_pos]
    · exact h.waiting x hx hxlt'
    · -- what is pruned is at most the new head
      have hepoch : x.originKey.epoch = x.epochKey := rfl
      have hxseq : x.originKey.2.2.2 = x.originSeq := rfl
      by_cases hk : x.epochKey = e.epochKey
      · rw [if_pos hk] at hxlt
        have : ¬ x.originSeq ≤ h' := by omega
        simp [hxseq, this]
      · simp [hepoch, hk]

end Buffers

/-- One more event: a node that has put it into its buffer and advances its head has accepted
it. -/
theorem accept (s' : SharedState D) (h : LogOf env.hasher A s) (hpos : 1 ≤ e.originSeq)
    (hnew : ∀ e' ∈ A, e'.originKey ≠ e.originKey) (hheads : s'.heads = s.heads)
    (hpending : s'.pendingSeqs = s.pendingSeqs) (hdigests : s'.digests = s.digests)
    (hbuffer : s'.eventBuffer = s.eventBuffer.insert e.originKey e) :
    LogOf env.hasher (insert e A) (s'.advanceHead env e.epochKey e.originSeq) := by
  have hbuffers : Buffers env.hasher A s s' e :=
    ⟨h, hpos, hnew, hheads, hpending, hdigests, hbuffer⟩
  have hlt : s'.head e.epochKey < e.originSeq := by
    rw [hbuffers.head]
    exact not_le.1 hbuffers.notin.1
  rcases Nat.lt_or_eq_of_le (Nat.succ_le_of_lt hlt) with hgap | hnext
  · exact hbuffers.gap hgap
  · exact hbuffers.next hnext

/-- An empty node has accepted nothing. -/
lemma empty (hheads : ∀ key, s.heads key = none) (hpending : ∀ key, s.pendingSeqs key = none)
    (hdigests : ∀ key, s.digests key = none) (hbuffer : ∀ key, s.eventBuffer key = none) :
    LogOf hasher ∅ s where
  pos e he := by simp at he
  eq_of_originKey e he := by simp at he
  head key := by
    simpa [SharedState.head, SharedState.pending, hheads, hpending, seqsOf] using IsHead.empty
  digest key := ⟨hasher.zero, ⟨[], by simp, by simp [SharedState.head, hheads], rfl⟩, by
    simp [SharedState.head, hheads, hdigests]⟩
  buffered k e hb := by simp [hbuffer] at hb
  waiting e he := by simp at he

/-- Only events at most the head are dropped once they are persisted. -/
lemma markPersisted (h : LogOf hasher A s) (keys : List OriginKey) :
    LogOf hasher A (s.markPersisted keys) := by
  induction keys generalizing s with
  | nil => exact h
  | cons key keys ih =>
      refine ih ?_
      unfold SharedState.markPersistedKey
      dsimp only
      split
      · rename_i hold
        refine { h with buffered := fun k e hb => ?_, waiting := fun e he hlt => ?_ }
        · dsimp only at hb
          rw [Map.remove_apply] at hb
          split at hb
          · cases hb
          · exact h.buffered k e hb
        · have hne : e.originKey ≠ key := by
            rintro rfl
            exact absurd hold.1 (not_le.2 hlt)
          exact (Map.remove_of_ne _ _ hne).trans (h.waiting e he hlt)
      · exact { h with }

/-- Recording a local event accepts it. -/
lemma recordLocal (h : LogOf env.hasher A s) (hpos : 1 ≤ e.originSeq)
    (hnew : ∀ e' ∈ A, e'.originKey ≠ e.originKey) :
    LogOf env.hasher (insert e A) (s.recordLocal env e) :=
  (h.accept (s.storeEventBuffer e) hpos hnew rfl rfl rfl rfl).of_sameLog ⟨rfl, rfl, rfl, rfl⟩

end LogOf

/-! ## Flushes -/

namespace SharedState

/-- Persistence touches the marks and the buffer, and nothing else. -/
lemma markPersisted_frame (s : SharedState D) (keys : List OriginKey) :
    let s' := s.markPersisted keys
    s' = { s with
      unpersisted := s'.unpersisted
      eventBuffer := s'.eventBuffer } := by
  have hstep : ∀ (s : SharedState D) key, s.markPersistedKey key = { s with
      unpersisted := (s.markPersistedKey key).unpersisted
      eventBuffer := (s.markPersistedKey key).eventBuffer } := by
    intro s key
    unfold markPersistedKey
    dsimp only
    split <;> rfl
  induction keys generalizing s with
  | nil => rfl
  | cons key keys ih =>
      dsimp only
      rw [markPersisted, List.foldl_cons]
      change (s.markPersistedKey key).markPersisted keys = _
      rw [ih, hstep]
      rfl

/-- Persistence only takes events off the buffer. -/
lemma eventBuffer_markPersisted (s : SharedState D) (keys : List OriginKey) (k : OriginKey)
    (e : Event) (h : (s.markPersisted keys).eventBuffer k = some e) :
    s.eventBuffer k = some e := by
  induction keys generalizing s with
  | nil => exact h
  | cons key keys ih =>
      have hrest := ih _ h
      unfold markPersistedKey at hrest
      dsimp only at hrest
      split at hrest
      · exact Map.of_remove hrest
      · exact hrest

end SharedState

/-- A flush stores events and leaves the other tables. -/
lemma Storage.insertEventsBulk_frame (st : Storage D) (es : List Event) :
    st.insertEventsBulk es = { st with events := (st.insertEventsBulk es).events } := by
  have hstep : ∀ (st : Storage D) e,
      (st.insertEvent e).2 = { st with events := (st.insertEvent e).2.events } := by
    intro st e
    unfold insertEvent
    split
    · rfl
    · split <;> rfl
  unfold insertEventsBulk
  induction es generalizing st with
  | nil => rfl
  | cons e es ih =>
      rw [List.foldl_cons, ih, hstep]

lemma Storage.bucketAllocators_insertEventsBulk (st : Storage D) (es : List Event) :
    (st.insertEventsBulk es).bucketAllocators = st.bucketAllocators := by
  rw [Storage.insertEventsBulk_frame]

lemma Storage.eventAt_eq_none {st : Storage D} {e : Event} (h : st.eventAt e.originKey = none) :
    e ∉ st.events := by
  intro he
  have hne := List.find?_eq_none.1 h e he
  simp at hne

/-- What storing one event does to the stored events. -/
lemma Storage.insertEvent_events (st : Storage D) (e : Event) :
    (st.insertEvent e).2.events = st.events ∨
      e ∉ st.events ∧ (st.insertEvent e).2.events = st.events ++ [e] := by
  unfold insertEvent
  split
  · exact .inl rfl
  · split
    · exact .inl rfl
    · rename_i hnone
      exact .inr ⟨eventAt_eq_none hnone, rfl⟩

/-- A flush stores events of its batch only. -/
lemma Storage.mem_insertEventsBulk {st : Storage D} {es : List Event} {x : Event}
    (hx : x ∈ (st.insertEventsBulk es).events) : x ∈ st.events ∨ x ∈ es := by
  induction es generalizing st with
  | nil => exact .inl hx
  | cons e es ih =>
      change x ∈ ((st.insertEvent e).2.insertEventsBulk es).events at hx
      rcases ih hx with hx | hx
      · rcases st.insertEvent_events e with heq | ⟨-, heq⟩
        · rw [heq] at hx
          exact .inl hx
        · rw [heq, List.mem_append, List.mem_singleton] at hx
          rcases hx with hx | rfl
          · exact .inl hx
          · exact .inr List.mem_cons_self
      · exact .inr (List.mem_cons_of_mem _ hx)

/-- A flush keeps what is stored. -/
lemma Storage.events_subset_insertEventsBulk (st : Storage D) (es : List Event) :
    st.events ⊆ (st.insertEventsBulk es).events := by
  induction es generalizing st with
  | nil => exact List.Subset.refl _
  | cons e es ih =>
      change st.events ⊆ ((st.insertEvent e).2.insertEventsBulk es).events
      refine List.Subset.trans ?_ (ih _)
      rcases st.insertEvent_events e with heq | ⟨-, heq⟩
      · rw [heq]
        exact List.Subset.refl _
      · rw [heq]
        exact List.subset_append_left _ _

/-- A flush stores no event twice. -/
lemma Storage.nodup_insertEventsBulk {st : Storage D} (es : List Event) (h : st.events.Nodup) :
    (st.insertEventsBulk es).events.Nodup := by
  induction es generalizing st with
  | nil => exact h
  | cons e es ih =>
      change ((st.insertEvent e).2.insertEventsBulk es).events.Nodup
      apply ih
      rcases st.insertEvent_events e with heq | ⟨hnew, heq⟩
      · rw [heq]
        exact h
      · rw [heq, List.nodup_append]
        refine ⟨h, List.nodup_singleton e, fun x hx y hy hxy => ?_⟩
        rw [List.mem_singleton.1 hy] at hxy
        exact hnew (hxy ▸ hx)

/-- A flush marks its events as persisted when it has succeeded. -/
lemma exec_doFlush_eq (es : List Event) (s : SharedState D) :
    NodeM.exec (doFlush env es) s =
      (some (), (s.setStorage (s.storageAfter env fun st => ((), st.insertEventsBulk es))
        (s.storageCalls + 1)).markPersisted
          (if env.storageOutcome s.storageCalls = .ok then es.map Event.originKey else [])) := by
  have hcall := exec_storageCall env .insertEventsBulk (fun st => ((), st.insertEventsBulk es)) s
  simp only [NodeM.exec] at hcall
  simp only [doFlush, NodeM.exec, Proc.exec_bind, hcall, Proc.andThen_some]
  unfold SharedState.callStorage SharedState.storageAfter
  cases env.storageOutcome s.storageCalls <;> rfl

/-- A flush marks its events as persisted, or fails and leaves them. -/
lemma exec_doFlush (es : List Event) (s : SharedState D) :
    ∃ s₁, (∃ st calls, (st = s.storage ∨ st = s.storage.insertEventsBulk es) ∧
        s₁ = s.setStorage st calls) ∧
      (NodeM.exec (doFlush env es) s = (some (), s₁.markPersisted (es.map Event.originKey)) ∨
        NodeM.exec (doFlush env es) s = (some (), s₁)) := by
  have hcall := exec_storageCall env .insertEventsBulk (fun st => ((), st.insertEventsBulk es)) s
  simp only [NodeM.exec] at hcall
  simp only [doFlush, NodeM.exec, Proc.exec_bind, hcall, Proc.andThen_some]
  rcases s.callStorage_cases env (fun st => ((), st.insertEventsBulk es)) with
    ⟨-, hr⟩ | ⟨-, st, hst, hr⟩
  · rw [hr]
    exact ⟨_, ⟨_, _, .inr rfl, rfl⟩, .inl rfl⟩
  · rw [hr]
    exact ⟨_, ⟨st, _, hst, rfl⟩, .inr rfl⟩

end Shardd
