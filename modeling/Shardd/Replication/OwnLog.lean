import Shardd.Ledger.FailedWrite
import Shardd.Node.Rules
import Shardd.Recovery.Start

/-!
# A node's own log has no gaps

Every identity a node allocates is the next one of its epoch, and every event that is minted is
recorded before the operation ends.  So the node's own head is the largest seq it has allocated, in
every state between two operations, unless a transfer overflows: that operation allocates an
identity for the debit, applies it, and ends without recording it.

A restart flags the rows of all buckets, and the first write to a bucket gives it a new epoch.  The
epochs of earlier lives keep their heads as long as a restart finds stored what the node has
allocated.
-/

namespace Shardd

variable {D : Type}

/-- The epoch key of the node itself. -/
def Env.own (env : Env D) (bucket : String) (epoch : ℕ) : EpochKey := (bucket, env.nodeId, epoch)

/-- The seqs among some events that belong to an epoch. -/
def seqsAt (key : EpochKey) (es : List Event) : List ℕ :=
  (es.filter fun e => e.epochKey = key).map Event.originSeq

/-- What the node has allocated over all its lives; `past` are the identities of earlier ones. -/
def SharedState.allocated (past : List OriginKey) (s : SharedState D) : List OriginKey :=
  past ++ s.issued

/-- The allocations and the log of a node agree, up to some minted events that are yet to be
recorded: the seqs allocated in an epoch are those up to the head and, right behind it, those of the
events to come; an entry in use hands out the seq behind them, and a bucket whose entry is not in
use gets an epoch in which nothing has been allocated.  All epochs are below `limit`. -/
structure OwnLog (env : Env D) (limit : ℕ) (past : List OriginKey) (unrecorded : List Event)
    (s : SharedState D) : Prop where
  allocated : ∀ bucket epoch seq, (env.own bucket epoch).at seq ∈ s.allocated past ↔
    1 ≤ seq ∧ seq ≤ s.head (env.own bucket epoch) +
      (seqsAt (env.own bucket epoch) unrecorded).length
  seqs : ∀ bucket epoch, seqsAt (env.own bucket epoch) unrecorded =
    List.range' (s.head (env.own bucket epoch) + 1)
      (seqsAt (env.own bucket epoch) unrecorded).length
  pending : ∀ bucket epoch, s.pending (env.own bucket epoch) = ∅
  unlocked : ∀ bucket a, s.entry bucket = some a → a.bumpLock = none
  used : ∀ bucket a, s.entry bucket = some a → a.needsBump = false →
    a.nextSeq = s.head (env.own bucket a.currentEpoch) +
      (seqsAt (env.own bucket a.currentEpoch) unrecorded).length + 1 ∧
    ∃ row, s.storage.bucketAllocators (bucket, env.nodeId) = some row ∧
      row.currentEpoch = a.currentEpoch
  unused : ∀ bucket row, s.Unused bucket →
    s.storage.bucketAllocators (bucket, env.nodeId) = some row →
      row.needsBump = true ∨ row.nextSeq = 1 ∧
        ∀ epoch seq, (env.own bucket epoch).at seq ∈ s.allocated past → epoch < row.currentEpoch
  row : ∀ bucket epoch seq, (env.own bucket epoch).at seq ∈ s.allocated past →
    ∃ row, s.storage.bucketAllocators (bucket, env.nodeId) = some row ∧ epoch ≤ row.currentEpoch
  bound : ∀ bucket row, s.storage.bucketAllocators (bucket, env.nodeId) = some row →
    row.currentEpoch + (if row.needsBump then 1 else 0) < limit
  /-- An epoch is a `u32`. -/
  limits : 1 < limit ∧ limit ≤ 2 ^ 32
  recorded : ∀ e ∈ s.batchQueue ++ s.storage.events, e.originNodeId = env.nodeId →
    e.originKey ∈ s.allocated past
  stored : ∀ k ∈ past, k.2.1 = env.nodeId → ∃ e ∈ s.storage.events, e.originKey = k

/-- The node's own part of the log and of the allocations is the same, and what has been sent to
the batch writer or stored since has allocated identities. -/
structure SharedState.SameOwnLog (env : Env D) (past : List OriginKey) (s s' : SharedState D) :
    Prop where
  issued : s'.issued = s.issued
  head : ∀ bucket epoch, s'.head (env.own bucket epoch) = s.head (env.own bucket epoch)
  pending : ∀ bucket epoch, s'.pending (env.own bucket epoch) = s.pending (env.own bucket epoch)
  entry : ∀ bucket, s'.entry bucket = s.entry bucket
  rows : s'.storage.bucketAllocators = s.storage.bucketAllocators
  recorded : ∀ e ∈ s'.batchQueue ++ s'.storage.events, e.originNodeId = env.nodeId →
    e ∈ s.batchQueue ++ s.storage.events ∨ e.originKey ∈ s.allocated past
  stored : ∀ e ∈ s.storage.events, e ∈ s'.storage.events

lemma SharedState.SameOwnLog.of_eq {env : Env D} {past : List OriginKey} {s s' : SharedState D}
    (hissued : s'.issued = s.issued) (hheads : s'.heads = s.heads)
    (hpending : s'.pendingSeqs = s.pendingSeqs)
    (halloc : s'.bucketAllocators = s.bucketAllocators)
    (hrows : s'.storage.bucketAllocators = s.storage.bucketAllocators)
    (hevents : s'.storage.events = s.storage.events) (hqueue : s'.batchQueue = s.batchQueue) :
    s.SameOwnLog env past s' where
  issued := hissued
  head bucket epoch := by rw [SharedState.head, hheads, SharedState.head]
  pending bucket epoch := by rw [SharedState.pending, hpending, SharedState.pending]
  entry bucket := by rw [SharedState.entry, halloc, SharedState.entry]
  rows := hrows
  recorded e he _ := .inl (by rwa [hqueue, hevents] at he)
  stored e he := hevents ▸ he

/-- An event is sent to the batch writer. -/
lemma SharedState.SameOwnLog.sent {env : Env D} {past : List OriginKey} {s s' : SharedState D}
    {e : Event} (hissued : s'.issued = s.issued) (hheads : s'.heads = s.heads)
    (hpending : s'.pendingSeqs = s.pendingSeqs)
    (halloc : s'.bucketAllocators = s.bucketAllocators)
    (hrows : s'.storage.bucketAllocators = s.storage.bucketAllocators)
    (hevents : s'.storage.events = s.storage.events)
    (hqueue : s'.batchQueue = s.batchQueue ++ [e])
    (he : e.originNodeId = env.nodeId → e.originKey ∈ s.allocated past) :
    s.SameOwnLog env past s' where
  issued := hissued
  head bucket epoch := by rw [SharedState.head, hheads, SharedState.head]
  pending bucket epoch := by rw [SharedState.pending, hpending, SharedState.pending]
  entry bucket := by rw [SharedState.entry, halloc, SharedState.entry]
  rows := hrows
  recorded x hx hown := by
    rw [hqueue, hevents, List.append_assoc] at hx
    rcases List.mem_append.1 hx with hx | hx
    · exact .inl (List.mem_append_left _ hx)
    rcases List.mem_cons.1 hx with rfl | hx
    · exact .inr (he hown)
    · exact .inl (List.mem_append_right _ hx)
  stored x hx := hevents ▸ hx

namespace OwnLog

variable {env : Env D} {limit : ℕ} {past : List OriginKey} {u : List Event} {s s' : SharedState D}

/-- A change of state that none of the fields shows. -/
lemma congr (h : OwnLog env limit past u s) (hs : s.SameOwnLog env past s') : OwnLog env limit past u s' := by
  have hallocated : s'.allocated past = s.allocated past := by
    rw [SharedState.allocated, hs.issued, SharedState.allocated]
  have hunused : ∀ b, s'.Unused b → s.Unused b :=
    fun b hb a ha => hb a ((hs.entry b).trans ha)
  constructor
  · intro bucket epoch seq
    rw [hallocated, hs.head]
    exact h.allocated bucket epoch seq
  · intro bucket epoch
    rw [hs.head]
    exact h.seqs bucket epoch
  · intro bucket epoch
    rw [hs.pending]
    exact h.pending bucket epoch
  · intro bucket a ha
    exact h.unlocked bucket a (hs.entry bucket ▸ ha)
  · intro bucket a ha
    rw [hs.head, hs.rows]
    exact h.used bucket a (hs.entry bucket ▸ ha)
  · intro bucket row hb
    rw [hs.rows, hallocated]
    exact h.unused bucket row (hunused bucket hb)
  · rw [hs.rows, hallocated]
    exact h.row
  · rw [hs.rows]
    exact h.bound
  · exact h.limits
  · intro e he hown
    rw [hallocated]
    rcases hs.recorded e he hown with he | hkey
    · exact h.recorded e he hown
    · exact hkey
  · intro k hk hown
    obtain ⟨e, he, hkey⟩ := h.stored k hk hown
    exact ⟨e, hs.stored e he, hkey⟩

/-- A change of state that none of the fields shows, field by field. -/
lemma of_eq (h : OwnLog env limit past u s) (hissued : s'.issued = s.issued)
    (hheads : s'.heads = s.heads) (hpending : s'.pendingSeqs = s.pendingSeqs)
    (halloc : s'.bucketAllocators = s.bucketAllocators)
    (hrows : s'.storage.bucketAllocators = s.storage.bucketAllocators)
    (hevents : s'.storage.events = s.storage.events) (hqueue : s'.batchQueue = s.batchQueue) :
    OwnLog env limit past u s' :=
  h.congr (.of_eq hissued hheads hpending halloc hrows hevents hqueue)

/-! ### Allocations -/

/-- The bumped row of an entry that is not in use has an epoch in which nothing has been
allocated. -/
lemma bumped (h : OwnLog env limit past u s) {bucket : String} (hunused : s.Unused bucket) :
    (s.bumped bucket env).nextSeq = 1 ∧ (s.bumped bucket env).currentEpoch < limit ∧
      ∀ epoch seq, (env.own bucket epoch).at seq ∈ s.allocated past →
        epoch < (s.bumped bucket env).currentEpoch := by
  unfold SharedState.bumped Storage.bumpedRow
  rcases hrow : s.storage.bucketAllocators (bucket, env.nodeId) with _ | row
  · refine ⟨rfl, h.limits.1, fun epoch seq hmem => ?_⟩
    obtain ⟨row, hrow', -⟩ := h.row bucket epoch seq hmem
    rw [hrow] at hrow'
    cases hrow'
  · have hbound := h.bound bucket row hrow
    dsimp only
    by_cases hbump : row.needsBump = true
    · rw [if_pos hbump] at hbound ⊢
      rw [Nat.mod_eq_of_lt (hbound.trans_le h.limits.2)]
      refine ⟨rfl, hbound, fun epoch seq hmem => ?_⟩
      obtain ⟨row', hrow', hle⟩ := h.row bucket epoch seq hmem
      rw [hrow] at hrow'
      cases hrow'
      exact Nat.lt_succ_of_le hle
    · rw [if_neg hbump] at hbound ⊢
      obtain ⟨hseq, hfresh⟩ := (h.unused bucket row hunused hrow).resolve_left hbump
      exact ⟨hseq, hbound, hfresh⟩

/-- A preparation issues nothing. -/
lemma prepared (h : OwnLog env limit past u s) {bucket : String} {r : Option (Except StorageError Unit)}
    (hp : Prepared env bucket s r s') : OwnLog env limit past u s' := by
  have hframe := hp.frame
  rcases hp.bumps with ⟨halloc, hrows⟩ | ⟨hunused, hrows, hother, hentry⟩
  · apply h.of_eq _ _ _ halloc hrows <;> rw [hframe]
  obtain ⟨hseq, hepoch, hfresh⟩ := h.bumped hunused
  have hallocated : s'.allocated past = s.allocated past := by
    rw [hframe]
    rfl
  have hhead : ∀ key, s'.head key = s.head key := fun key => by
    rw [hframe]
    rfl
  have hrow : ∀ b, s'.storage.bucketAllocators (b, env.nodeId) =
      if b = bucket then some (s.bumped bucket env)
      else s.storage.bucketAllocators (b, env.nodeId) := by
    intro b
    rw [hrows, Map.insert_apply]
    by_cases hb : b = bucket
    · rw [if_pos hb, if_pos (by rw [hb])]
    · rw [if_neg hb, if_neg (by simp [hb])]
  constructor
  · intro b epoch seq
    rw [hallocated, hhead]
    exact h.allocated b epoch seq
  · intro b epoch
    rw [hhead]
    exact h.seqs b epoch
  · intro b epoch
    rw [hframe]
    exact h.pending b epoch
  · intro b a ha
    by_cases hb : b = bucket
    · subst hb
      rcases hentry a ha with hold | ⟨-, -, hlock⟩
      · exact h.unlocked b a hold
      · rcases hlock with hlock | ⟨a₀, ha₀, hlock⟩
        · exact hlock
        · exact hlock.trans (h.unlocked b a₀ ha₀)
    · exact h.unlocked b a (hother b hb ▸ ha)
  · intro b a ha hbump
    rw [hhead, hrow]
    by_cases hb : b = bucket
    · subst hb
      rw [if_pos rfl]
      rcases hentry a ha with hold | ⟨hcurrent, hnext, -⟩
      · rw [hunused a hold] at hbump
        cases hbump
      refine ⟨?_, _, rfl, hcurrent.symm⟩
      -- nothing has been allocated in the new epoch
      have hzero : s.head (env.own b a.currentEpoch) +
          (seqsAt (env.own b a.currentEpoch) u).length = 0 := by
        by_contra hne
        have hlt := hfresh a.currentEpoch 1 ((h.allocated _ _ 1).2 ⟨le_refl _, by omega⟩)
        omega
      omega
    · rw [if_neg hb]
      exact h.used b a (hother b hb ▸ ha) hbump
  · intro b row hb' hrow'
    rw [hrow] at hrow'
    rw [hallocated]
    by_cases hb : b = bucket
    · subst hb
      rw [if_pos rfl] at hrow'
      cases hrow'
      exact .inr ⟨hseq, hfresh⟩
    · rw [if_neg hb] at hrow'
      exact h.unused b row (fun a ha => hb' a ((hother b hb).trans ha)) hrow'
  · intro b epoch seq hmem
    rw [hallocated] at hmem
    rw [hrow]
    by_cases hb : b = bucket
    · subst hb
      rw [if_pos rfl]
      exact ⟨_, rfl, (hfresh epoch seq hmem).le⟩
    · rw [if_neg hb]
      exact h.row b epoch seq hmem
  · intro b row hrow'
    rw [hrow] at hrow'
    by_cases hb : b = bucket
    · rw [if_pos hb] at hrow'
      cases hrow'
      have hbump : (s.bumped bucket env).needsBump = false := Storage.bumpedRow_needsBump _
      simpa [hbump] using hepoch
    · rw [if_neg hb] at hrow'
      exact h.bound b row hrow'
  · exact h.limits
  · rw [hframe]
    exact h.recorded
  · rw [hframe]
    exact h.stored

lemma seqsAt_append (key : EpochKey) (es es' : List Event) :
    seqsAt key (es ++ es') = seqsAt key es ++ seqsAt key es' := by
  simp [seqsAt]

lemma seqsAt_singleton (key : EpochKey) (e : Event) :
    seqsAt key [e] = if key = e.epochKey then [e.originSeq] else [] := by
  by_cases hk : key = e.epochKey
  · simp [seqsAt, hk]
  · simp [seqsAt, hk, Ne.symm hk]

/-- Taking the next identity of a bucket for an event that is yet to be recorded. -/
lemma taken (h : OwnLog env limit past u s) {bucket : String} (husable : s.Usable bucket) {e : Event}
    (hkey : e.originKey =
      (bucket, env.nodeId, (s.nextId bucket).1, (s.nextId bucket).2)) :
    OwnLog env limit past (u ++ [e]) (s.takeNext bucket env) := by
  obtain ⟨a, ha, hbump⟩ := husable
  have hid : s.nextId bucket = (a.currentEpoch, a.nextSeq) := by
    simp [SharedState.nextId, ha]
  obtain ⟨hnext, row, hrow, hcurrent⟩ := h.used bucket a ha hbump
  rw [hid] at hkey
  have hepoch : e.epochKey = env.own bucket a.currentEpoch ∧ e.originSeq = a.nextSeq := by
    simpa [Event.originKey, Event.epochKey, Env.own, and_assoc] using hkey
  -- the event adds its seq to its own epoch and to no other
  have hseqs : ∀ key, seqsAt key (u ++ [e]) =
      seqsAt key u ++ if key = env.own bucket a.currentEpoch then [a.nextSeq] else [] := by
    intro key
    rw [seqsAt_append, seqsAt_singleton, hepoch.1, hepoch.2]
  have hallocated : (s.takeNext bucket env).allocated past =
      s.allocated past ++ [(env.own bucket a.currentEpoch).at a.nextSeq] := by
    change past ++ (s.issued ++ [(bucket, env.nodeId, (s.nextId bucket).1, (s.nextId bucket).2)]) =
      past ++ s.issued ++ _
    rw [hid, List.append_assoc]
    rfl
  have hmem : ∀ b epoch seq, (env.own b epoch).at seq ∈ (s.takeNext bucket env).allocated past →
      (env.own b epoch).at seq ∈ s.allocated past ∨ b = bucket ∧ epoch = a.currentEpoch := by
    intro b epoch seq hmem
    rw [hallocated, List.mem_append, List.mem_singleton] at hmem
    refine hmem.imp id fun heq => ?_
    simp only [EpochKey.at, Env.own, Prod.mk.injEq] at heq
    exact ⟨heq.1, heq.2.2.1⟩
  have hentry : (s.takeNext bucket env).entry bucket =
      some { a with nextSeq := a.nextSeq + 1 } := by
    rw [SharedState.entry_takeNext, ha]
    rfl
  have hhead : ∀ key, (s.takeNext bucket env).head key = s.head key := fun _ => rfl
  constructor
  · intro b epoch seq
    rw [hallocated, List.mem_append, List.mem_singleton, h.allocated, hseqs, hhead]
    by_cases hk : env.own b epoch = env.own bucket a.currentEpoch
    · rw [hk, if_pos rfl, List.length_append, List.length_singleton,
        (EpochKey.at_injective _).eq_iff]
      omega
    · rw [if_neg hk, List.append_nil]
      have hne : (env.own b epoch).at seq ≠ (env.own bucket a.currentEpoch).at a.nextSeq := by
        intro heq
        simp only [EpochKey.at, Env.own, Prod.mk.injEq] at heq
        exact hk (by simp [Env.own, heq.1, heq.2.2.1])
      simp [hne]
  · intro b epoch
    rw [hseqs, hhead]
    by_cases hk : env.own b epoch = env.own bucket a.currentEpoch
    · rw [hk, if_pos rfl, h.seqs, List.length_append, List.length_singleton, List.length_range',
        List.range'_concat, hnext]
      congr 2
      omega
    · rw [if_neg hk, List.append_nil]
      exact h.seqs b epoch
  · exact h.pending
  · intro b x hx
    by_cases hb : b = bucket
    · subst hb
      rw [hentry] at hx
      cases hx
      exact h.unlocked b a ha
    · rw [SharedState.entry_takeNext_of_ne env hb] at hx
      exact h.unlocked b x hx
  · intro b x hx hbump'
    rw [hseqs, hhead]
    by_cases hb : b = bucket
    · subst hb
      rw [hentry] at hx
      cases hx
      refine ⟨?_, row, hrow, hcurrent⟩
      rw [if_pos rfl, List.length_append, List.length_singleton]
      change a.nextSeq + 1 = s.head (env.own b a.currentEpoch) +
        ((seqsAt (env.own b a.currentEpoch) u).length + 1) + 1
      omega
    · rw [SharedState.entry_takeNext_of_ne env hb] at hx
      rw [if_neg, List.append_nil]
      · exact h.used b x hx hbump'
      · intro heq
        simp only [Env.own, Prod.mk.injEq] at heq
        exact hb heq.1
  · intro b row' hunused hrow'
    have hne : b ≠ bucket := by
      rintro rfl
      have hflag := hunused _ hentry
      rw [show ({ a with nextSeq := a.nextSeq + 1 } : BucketAllocator).needsBump = a.needsBump
        from rfl, hbump] at hflag
      cases hflag
    have hunused' : s.Unused b :=
      fun x hx => hunused x ((SharedState.entry_takeNext_of_ne env hne).trans hx)
    rcases h.unused b row' hunused' hrow' with hflag | ⟨hone, hfresh⟩
    · exact .inl hflag
    · exact .inr ⟨hone, fun epoch seq hk => hfresh epoch seq ((hmem b epoch seq hk).resolve_right
        fun heq => hne heq.1)⟩
  · intro b epoch seq hk
    rcases hmem b epoch seq hk with hk | ⟨rfl, rfl⟩
    · exact h.row b epoch seq hk
    · exact ⟨row, hrow, hcurrent.ge⟩
  · exact h.bound
  · exact h.limits
  · intro x hx hown
    rw [hallocated]
    exact List.mem_append_left _ (h.recorded x hx hown)
  · exact h.stored

/-! ### Recording -/

/-- The first of the events to come has the next identity of its epoch. -/
lemma next {e : Event} (h : OwnLog env limit past (e :: u) s) (hown : e.originNodeId = env.nodeId) :
    e.originSeq = s.head e.epochKey + 1 ∧ e.originKey ∈ s.allocated past := by
  have hepoch : e.epochKey = env.own e.bucket e.originEpoch := by
    simp [Event.epochKey, Env.own, hown]
  have hseqs : seqsAt e.epochKey (e :: u) = e.originSeq :: seqsAt e.epochKey u := by
    simp [seqsAt]
  have hrange := h.seqs e.bucket e.originEpoch
  rw [← hepoch, hseqs, List.length_cons, List.range'_succ, List.cons.injEq] at hrange
  refine ⟨hrange.1, ?_⟩
  have hkey : e.originKey = (env.own e.bucket e.originEpoch).at e.originSeq := by
    rw [Event.originKey_eq_at, hepoch]
  rw [hkey, h.allocated, ← hepoch, hseqs, List.length_cons]
  omega

/-- Recording the first of the events to come. -/
lemma advanced {e : Event} (h : OwnLog env limit past (e :: u) s) (hown : e.originNodeId = env.nodeId)
    (hs : s.SameOwnLog env past s') :
    OwnLog env limit past u (s'.advanceHead env e.epochKey e.originSeq) := by
  have h' := h.congr hs
  have hepoch : e.epochKey = env.own e.bucket e.originEpoch := by
    simp [Event.epochKey, Env.own, hown]
  have hseqs : ∀ key, seqsAt key (e :: u) =
      (if key = e.epochKey then [e.originSeq] else []) ++ seqsAt key u := by
    intro key
    rw [← List.singleton_append, seqsAt_append, seqsAt_singleton]
  obtain ⟨hnext, -⟩ := h'.next hown
  obtain ⟨h₁, p₁, hlt, hrun, -, hrest, hheads₁, hpend₁, -, -⟩ :=
    SharedState.advanceHead_next env e.epochKey hnext
  have hempty : s'.pending e.epochKey = ∅ := hepoch ▸ h'.pending _ _
  have hto : h₁ = e.originSeq := by
    by_contra hne
    have hmem := hrun (e.originSeq + 1) (by omega) (by omega)
    rw [hempty] at hmem
    simp at hmem
  have hp₁ : p₁ = ∅ := by
    ext m
    rw [hrest, hempty]
    simp
  have hhead : ∀ key, (s'.advanceHead env e.epochKey e.originSeq).head key =
      if key = e.epochKey then s'.head key + 1 else s'.head key := by
    intro key
    rw [SharedState.head, hheads₁, Map.insert_apply]
    split
    · rename_i hk
      rw [hk, hto, hnext]
      rfl
    · rfl
  have hframe := SharedState.advanceHead_frame env s' e.epochKey e.originSeq
  have hallocated : (s'.advanceHead env e.epochKey e.originSeq).allocated past =
      s'.allocated past := by
    rw [hframe]
    rfl
  have hentry : ∀ b, (s'.advanceHead env e.epochKey e.originSeq).entry b = s'.entry b := by
    intro b
    rw [hframe]
    rfl
  have hlen : ∀ key, (seqsAt key (e :: u)).length =
      (if key = e.epochKey then 1 else 0) + (seqsAt key u).length := by
    intro key
    rw [hseqs]
    split
    · simp [Nat.add_comm]
    · simp
  constructor
  · intro b epoch seq
    rw [hallocated, h'.allocated, hhead, hlen]
    split <;> omega
  · intro b epoch
    rw [hhead]
    have hrange := h'.seqs b epoch
    rw [hseqs] at hrange
    by_cases hk : env.own b epoch = e.epochKey
    · rw [if_pos hk] at hrange ⊢
      rw [List.singleton_append, List.length_cons, List.range'_succ, List.cons.injEq] at hrange
      exact hrange.2
    · rw [if_neg hk] at hrange ⊢
      rwa [List.nil_append] at hrange
  · intro b epoch
    rw [hpend₁]
    split
    · exact hp₁
    · exact h'.pending b epoch
  · intro b a ha
    exact h'.unlocked b a (hentry b ▸ ha)
  · intro b a ha hbump
    obtain ⟨hseq, hrow⟩ := h'.used b a (hentry b ▸ ha) hbump
    refine ⟨?_, by rw [hframe]; exact hrow⟩
    rw [hlen] at hseq
    rw [hhead]
    by_cases hk : env.own b a.currentEpoch = e.epochKey
    · rw [if_pos hk] at hseq ⊢
      omega
    · rw [if_neg hk] at hseq ⊢
      omega
  · intro b row hunused
    rw [hallocated, hframe]
    exact h'.unused b row fun a ha => hunused a ((hentry b).trans ha)
  · rw [hallocated, hframe]
    exact h'.row
  · rw [hframe]
    exact h'.bound
  · exact h'.limits
  · rw [hallocated, hframe]
    exact h'.recorded
  · rw [hframe]
    exact h'.stored

lemma mem_allocated_advanced {e : Event} (h : OwnLog env limit past (e :: u) s)
    (hown : e.originNodeId = env.nodeId) (hs : s.SameOwnLog env past s') :
    e.originKey ∈ (s'.advanceHead env e.epochKey e.originSeq).allocated past := by
  rw [SharedState.advanceHead_frame]
  exact ((h.congr hs).next hown).2

lemma recordLocal {e : Event} (h : OwnLog env limit past (e :: u) s)
    (hown : e.originNodeId = env.nodeId) : OwnLog env limit past u (s.recordLocal env e) := by
  have hs : s.SameOwnLog env past (s.storeEventBuffer e) := .of_eq rfl rfl rfl rfl rfl rfl rfl
  have hrecorded := h.advanced hown hs
  have hkey := h.mem_allocated_advanced hown hs
  unfold SharedState.recordLocal
  generalize (s.storeEventBuffer e).advanceHead env e.epochKey e.originSeq = s₁
    at hrecorded hkey ⊢
  exact hrecorded.congr (.sent rfl rfl rfl rfl rfl rfl rfl fun _ => hkey)

lemma corrected {e : Event} (h : OwnLog env limit past [e] s) (hown : e.originNodeId = env.nodeId) :
    OwnLog env limit past [] (s.corrected env e) := by
  have hs : s.SameOwnLog env past ((s.storeEventBuffer e).modifyAccount e.balanceKey
    fun acc => (acc.post e.amount).applyReleaseOf e) := .of_eq rfl rfl rfl rfl rfl rfl rfl
  have hrecorded := h.advanced hown hs
  have hkey := h.mem_allocated_advanced hown hs
  unfold SharedState.corrected
  generalize ((s.storeEventBuffer e).modifyAccount e.balanceKey
    fun acc => (acc.post e.amount).applyReleaseOf e).advanceHead env e.epochKey e.originSeq = s₁
    at hrecorded hkey ⊢
  refine hrecorded.congr (.sent (e := e) ?_ ?_ ?_ ?_ ?_ ?_ ?_ fun _ => hkey) <;>
    simp only [SharedState.updateOriginTracking, SharedState.countEvent, SharedState.cacheEvent,
      SharedState.queueForBatch, SharedState.queueCorrection]

lemma mintCorrection (h : OwnLog env limit past [] s) {d : EventDraft} (husable : s.Usable d.key.1) :
    OwnLog env limit past [] (s.mintCorrection env d) := by
  have htaken := h.taken husable (e := s.draftEvent env (env.clock s.clockReads) d) rfl
  refine corrected ?_ rfl
  apply htaken.of_eq <;> simp only [SharedState.built, SharedState.tick]

/-- The rules for the branches of a request: what is minted is an event of the node. -/
lemma keepsBranch (input : LocalCreateInput) (mode : LocalCreateMode) (M : List Event) :
    KeepsBranch env input mode M fun u s =>
      OwnLog env limit past u s ∧ ∀ e ∈ u, e.originNodeId = env.nodeId where
  prepared h hp := ⟨h.1.prepared hp, h.2⟩
  mint {u s} now d h husable hd _ := by
    have htaken := h.1.taken husable (e := s.draftEvent env now d) (by rw [← hd.bucket]; rfl)
    refine ⟨?_, fun e he => ?_⟩
    · rw [SharedState.mint, show (s.draftEvent env now d).bucket = input.bucket from hd.bucket]
      apply htaken.of_eq <;>
        simp only [SharedState.applyLocal, SharedState.modifyAccount, SharedState.cacheEvent,
          SharedState.built]
    · rcases List.mem_append.1 he with he | he
      · exact h.2 e he
      · rw [List.mem_singleton.1 he]
        rfl
  record h := ⟨h.1.recordLocal (h.2 _ List.mem_cons_self),
    fun e he => h.2 e (List.mem_cons_of_mem _ he)⟩
  ensure _ h := ⟨h.1.of_eq rfl rfl rfl rfl rfl rfl rfl, h.2⟩

/-- The rules for the corrections of a conflict. -/
lemma keepsCorrections (winner loser : Event) (M : List Event) :
    KeepsCorrections env winner loser M (OwnLog env limit past []) where
  asked h := h.of_eq rfl rfl rfl rfl rfl rfl rfl
  prepared h hp := h.prepared hp
  void h husable _ _ := h.mintCorrection husable
  release h husable _ _ _ := h.mintCorrection husable

/-! ### Operations -/

/-- An event of another node leaves the node's own epochs alone. -/
lemma accepted {e : Event} (h : OwnLog env limit past [] s) (hforeign : e.originNodeId ≠ env.nodeId) :
    OwnLog env limit past [] (s.accepted env e) := by
  have hne : ∀ bucket epoch, env.own bucket epoch ≠ e.epochKey := by
    intro bucket epoch heq
    simp only [Env.own, Event.epochKey, Prod.mk.injEq] at heq
    exact hforeign heq.2.1.symm
  have hadvanced : ∀ bucket epoch,
      ((s.applied e).advanceHead env e.epochKey e.originSeq).head (env.own bucket epoch) =
          (s.applied e).head (env.own bucket epoch) ∧
        ((s.applied e).advanceHead env e.epochKey e.originSeq).pending (env.own bucket epoch) =
          (s.applied e).pending (env.own bucket epoch) ∧ _ :=
    fun bucket epoch => SharedState.advanceHead_of_ne env (hne bucket epoch)
  have hframe := SharedState.accepted_frame env s e
  refine h.congr ⟨?_, fun bucket epoch => (hadvanced bucket epoch).1,
    fun bucket epoch => (hadvanced bucket epoch).2.1, fun bucket => ?_, ?_, fun x hx hown => ?_,
    fun x hx => ?_⟩
  · rw [hframe]
  · rw [hframe]
    rfl
  · rw [hframe]
  · rw [hframe] at hx
    dsimp only at hx
    rw [List.append_assoc] at hx
    rcases List.mem_append.1 hx with hx | hx
    · exact .inl (List.mem_append_left _ hx)
    rcases List.mem_cons.1 hx with rfl | hx
    · exact absurd hown hforeign
    · exact .inl (List.mem_append_right _ hx)
  · rw [hframe]
    exact hx

/-- A node takes an event with an identity it has allocated for present. -/
lemma isPresent {e : Event} (h : OwnLog env limit past [] s) (hown : e.originNodeId = env.nodeId)
    (hallocated : e.originKey ∈ s.allocated past) (hbuffer : s.eventBuffer e.originKey = none) :
    s.eventIsPresent e = true := by
  have hkey : e.originKey = (env.own e.bucket e.originEpoch).at e.originSeq := by
    simp [Event.originKey, EpochKey.at, Env.own, hown]
  have hepoch : e.epochKey = env.own e.bucket e.originEpoch := by
    simp [Event.epochKey, Env.own, hown]
  rw [hkey, h.allocated] at hallocated
  have hle : e.originSeq ≤ s.head e.epochKey := by
    rw [hepoch]
    simpa [seqsAt] using hallocated.2
  simp [SharedState.eventIsPresent, hbuffer, hle]

lemma inserted {e : Event} {r : Option Bool} (h : OwnLog env limit past [] s)
    (he : e.originNodeId = env.nodeId → e.originKey ∈ s.allocated past)
    (hi : Inserted env e s r s') : OwnLog env limit past [] s' := by
  have hforeign : s.eventIsPresent e = false → s.eventBuffer e.originKey = none →
      e.originNodeId ≠ env.nodeId := by
    intro hpresent hbuffer hown
    rw [h.isPresent hown (he hown) hbuffer] at hpresent
    cases hpresent
  cases hi with
  | deleted _ => exact h
  | present _ _ => exact h
  | occupied _ _ _ => exact h
  | filed _ hp hb _ =>
      exact (h.accepted (hforeign hp hb)).of_eq rfl rfl rfl rfl rfl rfl rfl
  | @conflict existing _ _ _ hp hb _ hc =>
      have hremembered : OwnLog env limit past []
          ((s.accepted env e).remember e.idempotencyKey (idempotencyWinner existing e).1) :=
        (h.accepted (hforeign hp hb)).of_eq rfl rfl rfl rfl rfl rfl rfl
      exact (keepsCorrections _ _ _).corrected hc (List.prefix_refl _) hremembered

/-- A request that ends, and does not overflow, keeps the log. -/
lemma created {input : LocalCreateInput} {r : Except CreateLocalEventError LocalCreateResult}
    (h : OwnLog env limit past [] s) (hno : ¬ s.TransferOverflows env input)
    (hc : Created env input s (some r) s') : OwnLog env limit past [] s' := by
  cases hc with
  | rejected _ => exact h
  | malformed _ _ => exact h.of_eq rfl rfl rfl rfl rfl rfl rfl
  | cachedRetry _ _ _ _ => exact h.of_eq rfl rfl rfl rfl rfl rfl rfl
  | storedRetry _ _ _ _ _ => exact h.of_eq rfl rfl rfl rfl rfl rfl rfl
  | @emitted mode _ s₂ hgate hmode hfree hcache hstored hemitted =>
      have hopened : OwnLog env limit past [] (s.opened input.balanceKey) :=
        h.of_eq rfl rfl rfl rfl rfl rfl rfl
      obtain ⟨u, hs₂, hu⟩ := (keepsBranch input mode s₂.minted).emitted hemitted
        (List.prefix_refl _) ⟨hopened, List.forall_mem_nil _⟩
      obtain rfl := hu fun hoverflows => hno
        (hoverflows.transferOverflows hgate hmode hfree hcache hstored)
      exact hs₂.1.of_eq rfl rfl rfl rfl rfl rfl rfl

lemma flushed (h : OwnLog env limit past [] s) {es : List Event} (hes : ∀ e ∈ es, e ∈ s.batchQueue)
    (hrun : NodeM.exec (doFlush env es) s = (some (), s')) : OwnLog env limit past [] s' := by
  obtain ⟨s₁, ⟨st, calls, hst, rfl⟩, hexec⟩ := exec_doFlush env es s
  have hset : OwnLog env limit past [] (s.setStorage st calls) := by
    rcases hst with rfl | rfl
    · exact h.of_eq rfl rfl rfl rfl rfl rfl rfl
    · refine h.congr ⟨rfl, fun _ _ => rfl, fun _ _ => rfl, fun _ => rfl,
        s.storage.bucketAllocators_insertEventsBulk es, fun e he _ => .inl ?_,
        s.storage.events_subset_insertEventsBulk es⟩
      rcases List.mem_append.1 he with he | he
      · exact List.mem_append_left _ he
      · rcases Storage.mem_insertEventsBulk he with he | he
        · exact List.mem_append_right _ he
        · exact List.mem_append_left _ (hes e he)
  rcases hexec with hexec | hexec
  · obtain rfl : _ = s' := congrArg Prod.snd (hexec.symm.trans hrun)
    apply hset.of_eq <;> rw [SharedState.markPersisted_frame]
  · obtain rfl : _ = s' := congrArg Prod.snd (hexec.symm.trans hrun)
    exact hset

/-- A node that has just been started over the empty storage has allocated nothing. -/
lemma fresh (hlimit : 1 < limit ∧ limit ≤ 2 ^ 32) (clockReads calls : ℕ) :
    OwnLog env limit [] [] (.fresh clockReads calls) where
  allocated bucket epoch seq := by
    simp only [SharedState.allocated, SharedState.fresh, SharedState.blank, SharedState.head,
      seqsAt, List.filter_nil, List.map_nil, List.length_nil, Option.getD_none, List.append_nil,
      List.not_mem_nil, false_iff]
    omega
  seqs _ _ := rfl
  pending _ _ := rfl
  unlocked _ _ ha := by cases ha
  used _ _ ha := by cases ha
  unused _ _ _ hrow := by cases hrow
  row _ _ _ hmem := by cases hmem
  bound _ _ hrow := by cases hrow
  limits := hlimit
  recorded _ he := by cases he
  stored _ hk := by cases hk

end OwnLog

/-! ## Restarts -/

/-- The storage has the log of a node that has allocated `past`: the node's own events have these
identities, without gaps, and no epoch is beyond that of the row. -/
structure Storage.HoldsLog (nodeId : String) (past : List OriginKey) (st : Storage D) : Prop where
  stored : ∀ k, k.2.1 = nodeId → (k ∈ past ↔ ∃ e ∈ st.events, e.originKey = k)
  gapless : ∀ bucket epoch, ∃ n, ∀ seq,
    EpochKey.at (bucket, nodeId, epoch) seq ∈ past ↔ 1 ≤ seq ∧ seq ≤ n
  row : ∀ bucket epoch seq, EpochKey.at (bucket, nodeId, epoch) seq ∈ past →
    ∃ row, st.bucketAllocators (bucket, nodeId) = some row ∧ epoch ≤ row.currentEpoch
  /-- There is a next epoch. -/
  bound : ∀ bucket row, st.bucketAllocators (bucket, nodeId) = some row →
    row.currentEpoch + 1 < 2 ^ 32

/-- The identities allocated in this life are stored, and every bucket has a next epoch. -/
structure SharedState.LogSaved (env : Env D) (s : SharedState D) : Prop where
  stored : ∀ k ∈ s.issued, ∃ e ∈ s.storage.events, e.originKey = k
  bound : ∀ bucket row, s.storage.bucketAllocators (bucket, env.nodeId) = some row →
    row.currentEpoch + 1 < 2 ^ 32

section Restart

variable {env : Env D} {limit : ℕ} {past : List OriginKey} {s : SharedState D} {st : Storage D}

/-- What a node leaves to its next life. -/
lemma OwnLog.holdsLog (h : OwnLog env limit past [] s) (hs : s.LogSaved env) :
    s.storage.HoldsLog env.nodeId (s.allocated past) where
  stored k hown := by
    constructor
    · intro hk
      rcases List.mem_append.1 hk with hk | hk
      · exact h.stored k hk hown
      · exact hs.stored k hk
    · rintro ⟨e, he, rfl⟩
      exact h.recorded e (List.mem_append_right _ he) hown
  gapless bucket epoch := ⟨s.head (env.own bucket epoch), h.allocated bucket epoch⟩
  row := h.row
  bound := hs.bound

/-- A start finds the log as the node has left it. -/
lemma OwnLog.of_starts (hst : st.HoldsLog env.nodeId past) (hs : Starts env st s) :
    OwnLog env (2 ^ 32) past [] s := by
  have hrebuilt := hs.rebuilt
  have hallocated : s.allocated past = past := by
    rw [SharedState.allocated, hrebuilt.issued, List.append_nil]
  -- the stored seqs of an epoch have no gap, so the head is the last of them
  have hlog : ∀ bucket epoch, s.pending (env.own bucket epoch) = ∅ ∧
      ∀ seq, (env.own bucket epoch).at seq ∈ past ↔
        1 ≤ seq ∧ seq ≤ s.head (env.own bucket epoch) := by
    intro bucket epoch
    obtain ⟨n, hn⟩ := hst.gapless bucket epoch
    have hseqs : seqsOf st.events.toFinset (env.own bucket epoch) = Finset.Icc 1 n := by
      ext seq
      rw [mem_seqsOf, Finset.mem_Icc, ← hn, hst.stored _ rfl]
      simp only [List.mem_toFinset]
      rfl
    have hhead := hrebuilt.isHead (env.own bucket epoch)
    rw [hseqs] at hhead
    refine ⟨hhead.pending_unique (.Icc n), fun seq => ?_⟩
    rw [hhead.head_unique (.Icc n)]
    exact hn seq
  constructor
  · intro bucket epoch seq
    rw [hallocated]
    exact (hlog bucket epoch).2 seq
  · exact fun _ _ => rfl
  · exact fun bucket epoch => (hlog bucket epoch).1
  · exact fun bucket a ha => hrebuilt.bumpLock ha
  · intro bucket a ha hbump
    rw [hrebuilt.unused bucket a ha] at hbump
    cases hbump
  · intro bucket row _ hrow
    rw [hrebuilt.row_eq, Option.map_eq_some_iff] at hrow
    obtain ⟨row', -, rfl⟩ := hrow
    exact .inl rfl
  · intro bucket epoch seq hmem
    rw [hallocated] at hmem
    obtain ⟨row, hrow, hle⟩ := hst.row bucket epoch seq hmem
    exact ⟨{ row with needsBump := true }, by rw [hrebuilt.row_eq, hrow]; rfl, hle⟩
  · intro bucket row hrow
    rw [hrebuilt.row_eq, Option.map_eq_some_iff] at hrow
    obtain ⟨row', hrow', rfl⟩ := hrow
    exact hst.bound bucket row' hrow'
  · exact ⟨by decide, le_refl _⟩
  · intro e he hown
    rw [hrebuilt.batchQueue, List.nil_append, hrebuilt.events] at he
    rw [hallocated]
    exact (hst.stored e.originKey hown).2 ⟨e, he, rfl⟩
  · intro k hk hown
    rw [hrebuilt.events]
    exact (hst.stored k hown).1 hk

end Restart

/-! ## Runs -/

/-- What a node can do between two states in which no request is in flight.  A request ends, with
a success or with an error; an event of the node itself comes back only after the node has allocated
its identity; the batch writer flushes what has been sent to it. -/
inductive LogStep (env : Env D) (past : List OriginKey) (s : SharedState D) :
    SharedState D → Prop
  | request {input : LocalCreateInput} {r : Except CreateLocalEventError LocalCreateResult}
      {s' : SharedState D} :
      NodeM.exec (createLocalEvents env input).run s = (some r, s') →
      ¬ s.TransferOverflows env input → LogStep env past s s'
  | replicated {e : Event} {new : Bool} {s' : SharedState D} :
      NodeM.exec (insertEvent env e) s = (some new, s') → e.metaTargetBucket = none →
      (e.originNodeId = env.nodeId → e.originKey ∈ s.allocated past) → LogStep env past s s'
  | flush {es : List Event} {s' : SharedState D} :
      NodeM.exec (doFlush env es) s = (some (), s') → (∀ e ∈ es, e ∈ s.batchQueue) →
      LogStep env past s s'
  | sweep {s' : SharedState D} :
      NodeM.exec (sweepExpiredHolds env) s = (some (), s') → LogStep env past s s'

/-- The states of a node over its lives; `past` are the identities of the earlier ones. -/
inductive LogRun : Env D → List OriginKey → SharedState D → Prop
  /-- The first start. -/
  | first {env : Env D} : LogRun env [] (NodeM.exec (newSharedState env) (.blank .empty)).2
  | start {env : Env D} {past : List OriginKey} {st : Storage D} {s : SharedState D} :
      st.HoldsLog env.nodeId past → Starts env st s → LogRun env past s
  | step {env : Env D} {past : List OriginKey} {s s' : SharedState D} :
      LogRun env past s → LogStep env past s s' → LogRun env past s'
  | restart {env env' : Env D} {past : List OriginKey} {s s' : SharedState D} :
      LogRun env past s → s.LogSaved env → env'.nodeId = env.nodeId → Starts env' s.storage s' →
      LogRun env' (s.allocated past) s'

section Run

variable {env : Env D} {limit : ℕ} {past : List OriginKey} {s s' : SharedState D}

/-- The step lemma. -/
lemma OwnLog.step (h : OwnLog env limit past [] s) (hfree : s.Unlocked)
    (hstep : LogStep env past s s') : OwnLog env limit past [] s' ∧ s'.Unlocked := by
  cases hstep with
  | @request input _ _ hrun hno =>
      obtain ⟨r, s₁, hcreated, hrun'⟩ := exec_createLocalEvents env input s
      rw [hrun] at hrun'
      cases hrun'
      exact ⟨h.created hno hcreated, hfree.created hcreated⟩
  | @replicated e _ _ hrun hmeta hown =>
      obtain ⟨r, s₁, hinserted, hrun'⟩ := exec_insertEvent env e hmeta hfree
      rw [hrun] at hrun'
      cases hrun'
      exact ⟨h.inserted hown hinserted, hfree.inserted hinserted⟩
  | @flush es _ hrun hes =>
      refine ⟨h.flushed hes hrun, ?_⟩
      obtain ⟨s₁, ⟨st, calls, -, rfl⟩, hexec⟩ := exec_doFlush env es s
      rcases hexec with hexec | hexec
      · obtain rfl : _ = s' := congrArg Prod.snd (hexec.symm.trans hrun)
        intro key
        rw [SharedState.markPersisted_frame]
        exact hfree key
      · obtain rfl : _ = s' := congrArg Prod.snd (hexec.symm.trans hrun)
        exact hfree
  | sweep hrun =>
      cases hrun
      exact ⟨h.of_eq rfl rfl rfl rfl rfl rfl rfl, hfree⟩

/-- The run lemma. -/
lemma OwnLog.run (hrun : LogRun env past s) : OwnLog env (2 ^ 32) past [] s ∧ s.Unlocked := by
  induction hrun with
  | @first env =>
      obtain ⟨calls, hstart⟩ := exec_newSharedState_empty env
      rw [hstart]
      exact ⟨.fresh ⟨by decide, le_refl _⟩ 1 calls, fun key => rfl⟩
  | start hst hs => exact ⟨.of_starts hst hs, hs.rebuilt.unlocked⟩
  | step _ hstep ih => exact ih.1.step ih.2 hstep
  | restart _ hsaved hnode hs ih =>
      have hst := ih.1.holdsLog hsaved
      rw [← hnode] at hst
      exact ⟨.of_starts hst hs, hs.rebuilt.unlocked⟩

/-- **No gaps.**  As long as no transfer overflows and every restart finds stored what the node has
allocated, the own head of every epoch a node has written in is the largest seq it has allocated
there. -/
theorem isGreatest_head_of_run (hrun : LogRun env past s) {bucket : String} {epoch : ℕ}
    (hwritten : ∃ seq, (env.own bucket epoch).at seq ∈ s.allocated past) :
    IsGreatest {seq | (env.own bucket epoch).at seq ∈ s.allocated past}
      (s.head (env.own bucket epoch)) := by
  obtain ⟨hlog, -⟩ := OwnLog.run hrun
  have hallocated : ∀ seq, (env.own bucket epoch).at seq ∈ s.allocated past ↔
      1 ≤ seq ∧ seq ≤ s.head (env.own bucket epoch) := hlog.allocated bucket epoch
  constructor
  · obtain ⟨seq, hseq⟩ := hwritten
    have hseq' := (hallocated seq).1 hseq
    exact (hallocated _).2 ⟨by omega, le_refl _⟩
  · intro seq hseq
    exact ((hallocated seq).1 hseq).2

end Run

/-- A node writes two deposits, is flushed and restarted, and writes a third one: the second epoch
of the bucket begins at `1`, and the first one still ends at `2`. -/
theorem isGreatest_head_of_run_restart :
    let env := Env.plain "node" 1000
    let env' := { env with freshId := fun n => "second-" ++ toString n }
    let deposit := fun nonce => LocalCreateInput.legacy "bucket" "alice" 5 none 0 nonce false
    let s := (NodeM.exec (newSharedState env) (.blank .empty)).2
    let s₁ := (NodeM.exec (createLocalEvents env (deposit "n1")).run s).2
    let s₂ := (NodeM.exec (createLocalEvents env (deposit "n2")).run s₁).2
    let s₃ := (NodeM.exec (doFlush env s₂.batchQueue) s₂).2
    let s₄ := (NodeM.exec (newSharedState env') (.blank s₃.storage)).2
    let s₅ := (NodeM.exec (createLocalEvents env' (deposit "n3")).run s₄).2
    IsGreatest {seq | (env.own "bucket" 1).at seq ∈ s₅.allocated s₃.issued} 2 ∧
      IsGreatest {seq | (env.own "bucket" 2).at seq ∈ s₅.allocated s₃.issued} 1 := by
  intro env env' deposit s s₁ s₂ s₃ s₄ s₅
  have hfacts : ((NodeM.exec (createLocalEvents env (deposit "n1")).run s).1.isSome = true ∧
      (NodeM.exec (createLocalEvents env (deposit "n2")).run s₁).1.isSome = true ∧
      (NodeM.exec (doFlush env s₂.batchQueue) s₂).1 = some () ∧
      (NodeM.exec (newSharedState env') (.blank s₃.storage)).1 = some () ∧
      (NodeM.exec (createLocalEvents env' (deposit "n3")).run s₄).1.isSome = true) ∧
      (∀ k ∈ s₃.issued, ∃ e ∈ s₃.storage.events, e.originKey = k) ∧
      (env.own "bucket" 1).at 1 ∈ s₅.allocated s₃.issued ∧
      (env.own "bucket" 2).at 1 ∈ s₅.allocated s₃.issued ∧
      s₅.head (env.own "bucket" 1) = 2 ∧ s₅.head (env.own "bucket" 2) = 1 := by decide +kernel
  obtain ⟨⟨hrun₁, hrun₂, hrun₃, hrun₄, hrun₅⟩, hstored, hfirst, hsecond, hhead, hhead'⟩ := hfacts
  have hstep : ∀ {env : Env Unit} {past : List OriginKey} {s : SharedState Unit} {nonce : String},
      (NodeM.exec (createLocalEvents env (deposit nonce)).run s).1.isSome = true →
      LogStep env past s (NodeM.exec (createLocalEvents env (deposit nonce)).run s).2 := by
    intro env past s nonce hsome
    obtain ⟨r, hr⟩ := Option.isSome_iff_exists.1 hsome
    refine .request (Prod.ext hr rfl) ?_
    rintro ⟨_, _, _, -, -, -, -, -, -, -, -, -, hmin⟩
    have hne : (5 : Int64) ≠ Int64.minValue := by decide
    exact hne hmin
  have hflush : LogStep env [] s₂ s₃ := .flush (Prod.ext hrun₃ rfl) fun _ he => he
  have hrun : LogRun env [] s₃ := .step (.step (.step .first (hstep hrun₁)) (hstep hrun₂)) hflush
  -- the first life has one epoch
  have hlog : OwnLog env 2 [] [] s₃ := by
    obtain ⟨calls, hstart⟩ := exec_newSharedState_empty env
    have hfresh : OwnLog env 2 [] [] s ∧ s.Unlocked := by
      rw [show s = .fresh 1 calls from congrArg Prod.snd hstart]
      exact ⟨.fresh (by decide) 1 calls, fun key => rfl⟩
    have hfirst := hfresh.1.step hfresh.2 (hstep hrun₁)
    have hsecond := hfirst.1.step hfirst.2 (hstep hrun₂)
    exact (hsecond.1.step hsecond.2 hflush).1
  have hbound : ∀ bucket row, s₃.storage.bucketAllocators (bucket, env.nodeId) = some row →
      row.currentEpoch + 1 < 2 ^ 32 := by
    intro bucket row hrow
    have hlimit := hlog.bound bucket row hrow
    split at hlimit <;> omega
  have hrestarted : LogRun env' (s₃.allocated []) s₄ :=
    .restart hrun ⟨hstored, hbound⟩ rfl ⟨by rw [← hrun₄], fun _ _ => rfl⟩
  rw [SharedState.allocated, List.nil_append] at hrestarted
  have hrun' : LogRun env' s₃.issued s₅ := .step hrestarted (hstep hrun₅)
  have hgreatest := isGreatest_head_of_run hrun' ⟨1, hfirst⟩
  have hgreatest' := isGreatest_head_of_run hrun' ⟨1, hsecond⟩
  clear_value s₅ s₃
  have hown : ∀ epoch, env'.own "bucket" epoch = env.own "bucket" epoch := fun _ => rfl
  rw [hown, hhead] at hgreatest
  rw [hown, hhead'] at hgreatest'
  exact ⟨hgreatest, hgreatest'⟩

/-- After a deposit of `1`, a transfer of `i64::MIN` takes the second seq and leaves the head at
the first. -/
theorem not_isGreatest_head_of_overflow :
    let env := Env.plain "node" 1000
    let deposit := LocalCreateInput.legacy "bucket" "alice" 1 none 0 "n1" false
    let transfer :=
      { LocalCreateInput.legacy "bucket" "alice" Int64.minValue none 9223372036854775807 "n2" false
        with transferTo := some "bob" }
    let s := (NodeM.exec (newSharedState env) (.blank .empty)).2
    let s' := (NodeM.exec (createLocalEvents env deposit).run s).2
    let out := NodeM.exec (createLocalEvents env transfer).run s'
    out.1 = some (.error (.invalidRequest "transfer amount overflows i64")) ∧
      out.2.head (env.own "bucket" 1) = 1 ∧
      ¬ IsGreatest {seq | (env.own "bucket" 1).at seq ∈ out.2.issued}
        (out.2.head (env.own "bucket" 1)) := by
  intro env deposit transfer s s' out
  have hhead : out.2.head (env.own "bucket" 1) = 1 := by decide +kernel
  refine ⟨by decide +kernel, hhead, ?_⟩
  intro hgreatest
  have hissued : (env.own "bucket" 1).at 2 ∈ out.2.issued := by decide +kernel
  have hle : 2 ≤ out.2.head (env.own "bucket" 1) := hgreatest.2 hissued
  omega

end Shardd
