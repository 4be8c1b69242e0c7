import Shardd.Node.DeleteSpec
import Shardd.Recovery.History

/-!
# The life of a node, deletions included

A life begins with a start over a storage and goes on with requests, replicated events, deletions of
buckets, flushes, marks of persistence, sweeps and restarts in any order.  Identities are unique,
as in a history.  `Logged` says that the log of the node is that of the events it has accepted and
that no deletion has taken away; the run lemma is `Lifetime.logged`.
-/

namespace Shardd

variable {D : Type}

/-! ## Logs that lose a bucket -/

/-- A node that has been stripped of a bucket keeps the log of the other events. -/
lemma LogOf.strip {hasher : Hasher D} {A : Finset Event} {s s' : SharedState D} {target : String}
    (h : LogOf hasher A s) (hheads : s'.heads = s.heads.retain fun k => k.1 != target)
    (hpending : s'.pendingSeqs = s.pendingSeqs.retain fun k => k.1 != target)
    (hdigests : s'.digests = s.digests.retain fun k => k.1 != target)
    (hbuffer : s'.eventBuffer = s.eventBuffer.retain fun k => k.1 != target) :
    LogOf hasher (A.filter fun e => e.bucket ≠ target) s' := by
  have hseqs : ∀ key : EpochKey, seqsOf (A.filter fun e => e.bucket ≠ target) key =
      if key.1 = target then ∅ else seqsOf A key := by
    intro key
    ext n
    rw [mem_seqsOf]
    split
    · rename_i hkey
      simp only [Finset.mem_filter, Finset.notMem_empty, iff_false]
      rintro ⟨e, ⟨-, hne⟩, heq⟩
      exact hne ((congrArg Prod.fst heq).trans hkey)
    · rename_i hkey
      rw [mem_seqsOf]
      simp only [Finset.mem_filter]
      constructor
      · rintro ⟨e, ⟨he, -⟩, heq⟩
        exact ⟨e, he, heq⟩
      · rintro ⟨e, he, heq⟩
        exact ⟨e, ⟨he, fun hb => hkey ((congrArg Prod.fst heq).symm.trans hb)⟩, heq⟩
  have hhead : ∀ key, s'.head key = if key.1 = target then 0 else s.head key := by
    intro key
    rw [SharedState.head, hheads, Map.retain_ne_apply s.heads key Prod.fst]
    split <;> rfl
  have hpend : ∀ key, s'.pending key = if key.1 = target then ∅ else s.pending key := by
    intro key
    rw [SharedState.pending, hpending, Map.retain_ne_apply s.pendingSeqs key Prod.fst]
    split <;> rfl
  refine ⟨fun e he => ?_, fun e he e' he' => ?_, fun key => ?_, fun key => ?_, fun k e hk => ?_,
    fun e he hlt => ?_⟩
  · exact h.pos e (Finset.mem_of_mem_filter e he)
  · exact h.eq_of_originKey e (Finset.mem_of_mem_filter e he) e' (Finset.mem_of_mem_filter e' he')
  · rw [hseqs, hhead, hpend]
    split
    · exact IsHead.empty
    · exact h.head key
  · rw [hhead, hdigests, Map.retain_ne_apply s.digests key Prod.fst]
    by_cases hkey : key.1 = target
    · rw [if_pos hkey, if_pos hkey]
      exact ⟨hasher.zero, ⟨[], by simp, by simp, rfl⟩, (if_pos rfl).symm⟩
    · obtain ⟨d, ⟨es, hes, hkeys, hd⟩, hdigest⟩ := h.digest key
      rw [if_neg hkey, if_neg hkey]
      refine ⟨d, ⟨es, fun e he => ?_, hkeys, hd⟩, hdigest⟩
      obtain ⟨n, -, hn⟩ := List.mem_map.1 (hkeys ▸ List.mem_map_of_mem he)
      have hbucket : key.1 = e.bucket := congrArg Prod.fst hn
      exact Finset.mem_filter.2 ⟨hes e he, fun hb => hkey (hbucket.trans hb)⟩
  · rw [hbuffer] at hk
    obtain ⟨hk, hne⟩ := Map.of_retain hk
    obtain ⟨he, rfl⟩ := h.buffered k e hk
    exact ⟨Finset.mem_filter.2 ⟨he, bne_iff_ne.1 hne⟩, rfl⟩
  · obtain ⟨he, hne⟩ := Finset.mem_filter.1 he
    have hkey : e.epochKey.1 ≠ target := hne
    rw [hhead, if_neg hkey] at hlt
    have hkept : e.originKey.1 ≠ target := hne
    rw [hbuffer, Map.retain_ne_apply s.eventBuffer e.originKey Prod.fst, if_neg hkept]
    exact h.waiting e he hlt

/-! ## Operations -/

/-- What a node can be asked to do. -/
inductive LifeOp
  | node (op : NodeOp)
  | delete (target : String) (reason : Option String)

namespace LifeOp

def program (env : Env D) : LifeOp → NodeM D Unit
  | .node op => op.program env
  | .delete target reason => do
      let _ ← (createMetaBucketDelete env target reason).run
      return ()

/-- The events that come from other nodes. -/
def delivered : LifeOp → List Event
  | .node op => op.delivered
  | .delete _ _ => []

/-- A delivered event is one of the world; the batch writer flushes events that have been sent to
it. -/
def Allowed (E : Set Event) (base : List Event) (s : SharedState D) : LifeOp → Prop
  | .node (.insert e) => e ∈ E
  | .node (.flush batch) => ∀ e ∈ batch, e ∈ s.acceptedSince base
  | _ => True

/-- The operation deletes the bucket `target`. -/
def Deletes (env : Env D) (s : SharedState D) (target : String) : LifeOp → Prop
  | .node (.insert e) => s.Admits e ∧ e.metaTargetBucket = some target ∧ target ≠ metaBucket
  | .delete bucket _ => bucket = target ∧
      ¬ (bucket = metaBucket ∨ isReservedBucketName bucket = true) ∧
      s.deletedBuckets.containsKey bucket = false ∧ s.CanAllocate env metaBucket
  | _ => False

end LifeOp

/-- The operation runs to its end, with a success or with an error. -/
structure LifeStep (env : Env D) (E : Set Event) (base : List Event) (op : LifeOp)
    (s s' : SharedState D) : Prop where
  run : NodeM.exec (op.program env) s = (some (), s')
  allowed : op.Allowed E base s
  mints : Mints E (s.acceptedSince base ++ op.delivered) s.minted s'.minted

/-- The states of a node over its starts, in which every operation meets the condition `C`.  `base`
is what the node has loaded at the last start. -/
inductive Lifetime (C : Env D → LifeOp → SharedState D → Prop) (E : Set Event) :
    Env D → List Event → SharedState D → Prop
  | start {env : Env D} {st : Storage D} {s : SharedState D} :
      st.WellFormed E env.nodeId → Starts env st s → Lifetime C E env st.events s
  | step {env : Env D} {base : List Event} {s s' : SharedState D} {op : LifeOp} :
      Lifetime C E env base s → C env op s → LifeStep env E base op s s' →
      Lifetime C E env base s'
  | restart {env env' : Env D} {base : List Event} {s s' : SharedState D} :
      Lifetime C E env base s → env'.nodeId = env.nodeId → Starts env' s.storage s' →
      Lifetime C E env' s.storage.events s'

/-! ## The invariant -/

/-- The log is that of the accepted events `A`; the accepted events `gone` went with their buckets,
and `u` has been minted and is yet to be recorded. -/
structure Logged (env : Env D) (E : Set Event) (base : List Event) (A gone : Finset Event)
    (u : List Event) (s : SharedState D) : Prop where
  known : ∀ e ∈ s.acceptedSince base ++ u, e ∈ E
  nodup : (s.acceptedSince base ++ u).Nodup
  log : LogOf env.hasher A s
  split : ∀ e, e ∈ s.acceptedSince base ↔ e ∈ A ∨ e ∈ gone
  buried : ∀ e ∈ gone, s.deletedBuckets.containsKey e.bucket = true
  count : s.totalEventCount = (s.acceptedSince base).length
  stored : ∀ e ∈ s.storage.events, e ∈ s.acceptedSince base
  stored_nodup : s.storage.events.Nodup
  seqs : PositiveSeqs env s
  pos : ∀ e ∈ s.acceptedSince base ++ u, 1 ≤ e.originSeq

/-- The two states have accepted the same events. -/
structure SharedState.SameRecords (s s' : SharedState D) : Prop where
  log : s.SameLog s'
  events : s'.storage.events = s.storage.events
  batchQueue : s'.batchQueue = s.batchQueue
  totalEventCount : s'.totalEventCount = s.totalEventCount
  deletedBuckets : s'.deletedBuckets = s.deletedBuckets

namespace Logged

variable {env : Env D} {E : Set Event} {base u : List Event} {A gone : Finset Event}
  {s s' : SharedState D} {e : Event}

lemma congr (h : Logged env E base A gone u s) (hs : s.SameRecords s')
    (hseqs : PositiveSeqs env s') : Logged env E base A gone u s' := by
  have haccepted : s'.acceptedSince base = s.acceptedSince base := by
    rw [SharedState.acceptedSince, hs.batchQueue, SharedState.acceptedSince]
  constructor
  · rw [haccepted]
    exact h.known
  · rw [haccepted]
    exact h.nodup
  · exact h.log.of_sameLog hs.log
  · rw [haccepted]
    exact h.split
  · rw [hs.deletedBuckets]
    exact h.buried
  · rw [haccepted, hs.totalEventCount]
    exact h.count
  · rw [haccepted, hs.events]
    exact h.stored
  · rw [hs.events]
    exact h.stored_nodup
  · exact hseqs
  · rw [haccepted]
    exact h.pos

lemma prepared (h : Logged env E base A gone u s) {bucket : String}
    {r : Option (Except StorageError Unit)} (hp : Prepared env bucket s r s') :
    Logged env E base A gone u s' := by
  refine h.congr ?_ (h.seqs.prepared hp)
  rw [hp.frame]
  exact ⟨⟨rfl, rfl, rfl, rfl⟩, rfl, rfl, rfl, rfl⟩

/-- A new event is minted. -/
lemma unrecorded (h : Logged env E base A gone u s) (he : e ∈ E)
    (hnew : e ∉ s.acceptedSince base ++ u) (hpos : 1 ≤ e.originSeq) :
    Logged env E base A gone (u ++ [e]) s := by
  refine { h with known := fun x hx => ?_, nodup := ?_, pos := fun x hx => ?_ }
  · rw [← List.append_assoc] at hx
    rcases List.mem_append.1 hx with hx | hx
    · exact h.known x hx
    · rw [List.mem_singleton.1 hx]
      exact he
  · rw [← List.append_assoc]
    refine h.nodup.append (List.nodup_singleton e) fun x hx hx' => ?_
    exact hnew (List.mem_singleton.1 hx' ▸ hx)
  · rw [← List.append_assoc] at hx
    rcases List.mem_append.1 hx with hx | hx
    · exact h.pos x hx
    · rw [List.mem_singleton.1 hx]
      exact hpos

/-- An event that is yet to be recorded is new to the log. -/
lemma originKey_ne (hE : Identified E) (h : Logged env E base A gone (e :: u) s) :
    ∀ x ∈ A, x.originKey ≠ e.originKey := by
  intro x hx hkey
  have hx' : x ∈ s.acceptedSince base := (h.split x).2 (.inl hx)
  have hxe : x = e := hE.originKey x (h.known x (List.mem_append_left _ hx')) e
    (h.known e (by simp)) hkey
  have hnodup := h.nodup
  rw [List.nodup_append] at hnodup
  exact hnodup.2.2 x hx' e List.mem_cons_self hxe

/-- What has been minted is recorded. -/
lemma recorded (h : Logged env E base A gone (e :: u) s) (hlog : LogOf env.hasher (insert e A) s')
    (hevents : s'.storage.events = s.storage.events)
    (hqueue : s'.batchQueue = s.batchQueue ++ [e])
    (hcount : s'.totalEventCount = s.totalEventCount + 1)
    (hdeleted : s'.deletedBuckets = s.deletedBuckets) (hseqs : PositiveSeqs env s') :
    Logged env E base (insert e A) gone u s' := by
  have haccepted : s'.acceptedSince base = s.acceptedSince base ++ [e] := by
    rw [SharedState.acceptedSince, hqueue, SharedState.acceptedSince, List.append_assoc]
  have hlist : s'.acceptedSince base ++ u = s.acceptedSince base ++ e :: u := by
    rw [haccepted, List.append_assoc, List.singleton_append]
  constructor
  · rw [hlist]
    exact h.known
  · rw [hlist]
    exact h.nodup
  · exact hlog
  · intro x
    rw [haccepted, List.mem_append, List.mem_singleton, h.split, Finset.mem_insert]
    tauto
  · rw [hdeleted]
    exact h.buried
  · rw [haccepted, hcount, h.count, List.length_append, List.length_singleton]
  · intro x hx
    rw [hevents] at hx
    rw [haccepted]
    exact List.mem_append_left _ (h.stored x hx)
  · rw [hevents]
    exact h.stored_nodup
  · exact hseqs
  · rw [hlist]
    exact h.pos

lemma recordLocal (hE : Identified E) (h : Logged env E base A gone (e :: u) s) :
    Logged env E base (insert e A) gone u (s.recordLocal env e) := by
  have hlog := h.log.recordLocal (h.pos e (by simp)) (h.originKey_ne hE)
  have hframe := SharedState.recordLocal_frame env s e
  refine h.recorded hlog ?_ ?_ ?_ ?_ (h.seqs.congr ?_ ?_)
  all_goals rw [hframe]

/-- A correction is applied and recorded at once. -/
lemma corrected (hE : Identified E) (h : Logged env E base A gone (e :: u) s) :
    Logged env E base (insert e A) gone u (s.corrected env e) := by
  have hlog := h.log.corrected (h.pos e (by simp)) (h.originKey_ne hE)
  have hframe := SharedState.corrected_frame env s e
  have hcount : (s.corrected env e).totalEventCount = s.totalEventCount + 1 := by
    have hhead := SharedState.advanceHead_frame env ((s.storeEventBuffer e).modifyAccount
      e.balanceKey fun acc => (acc.post e.amount).applyReleaseOf e) e.epochKey e.originSeq
    rw [SharedState.corrected, hhead]
    rfl
  refine h.recorded hlog ?_ ?_ hcount ?_ (h.seqs.congr ?_ ?_)
  all_goals rw [hframe]

/-- A new replicated event is applied and recorded at once. -/
lemma accepted (hE : Identified E) (h : Logged env E base A gone u s) (he : e ∈ E)
    (hnew : e ∉ s.acceptedSince base ++ u) (hpos : 1 ≤ e.originSeq) :
    Logged env E base (insert e A) gone u (s.accepted env e) := by
  have hfirst : Logged env E base A gone (e :: u) s := by
    have hmint := h.unrecorded he hnew hpos
    have hperm : (u ++ [e]).Perm (e :: u) := List.perm_append_comm
    have hall := hperm.append_left (s.acceptedSince base)
    exact { hmint with
      known := fun x hx => hmint.known x (hall.mem_iff.2 hx)
      nodup := hall.nodup_iff.1 hmint.nodup
      pos := fun x hx => hmint.pos x (hall.mem_iff.2 hx) }
  have hlog := h.log.accepted hpos (hfirst.originKey_ne hE)
  have hframe := SharedState.accepted_frame env s e
  have hcount : (s.accepted env e).totalEventCount = s.totalEventCount + 1 := by
    have hhead := SharedState.advanceHead_frame env (s.applied e) e.epochKey e.originSeq
    rw [SharedState.accepted, hhead]
    rfl
  refine hfirst.recorded hlog ?_ ?_ hcount ?_ (h.seqs.congr ?_ ?_)
  all_goals rw [hframe]

/-- A bucket is deleted, and its events are gone. -/
lemma deleted (h : Logged env E base A gone u s) (target : String) (time : ℕ) :
    Logged env E base (A.filter fun e => e.bucket ≠ target)
      (gone ∪ A.filter fun e => e.bucket = target) u (s.deleted env target time) := by
  have hframe := SharedState.deleted_frame env s target time
  have haccepted : (s.deleted env target time).acceptedSince base = s.acceptedSince base := by
    rw [hframe]
    rfl
  have hstorage := SharedState.storage_deleted env (s := s) target time
  constructor
  · rw [haccepted]
    exact h.known
  · rw [haccepted]
    exact h.nodup
  · have hstrip : LogOf env.hasher (A.filter fun e => e.bucket ≠ target)
        (s.deleted env target time) := by
      apply h.log.strip <;> rw [hframe] <;> rfl
    exact hstrip
  · intro x
    rw [haccepted, h.split, Finset.mem_union, Finset.mem_filter, Finset.mem_filter]
    by_cases hx : x.bucket = target
    · simp [hx]
      tauto
    · simp [hx]
  · intro x hx
    have hdeleted : (s.deleted env target time).deletedBuckets =
        s.deletedBuckets.insert target time := by
      rw [hframe]
      rfl
    rw [hdeleted, Map.containsKey, Map.insert_apply]
    split
    · rfl
    · rename_i hne
      rcases Finset.mem_union.1 hx with hx | hx
      · exact h.buried x hx
      · exact absurd (Finset.mem_filter.1 hx).2 hne
  · rw [haccepted, hframe]
    exact h.count
  · intro x hx
    rw [haccepted]
    rcases hstorage with heq | heq
    · exact h.stored x (heq ▸ hx)
    · rw [heq] at hx
      exact h.stored x (List.mem_of_mem_filter hx)
  · rcases hstorage with heq | heq
    · rw [heq]
      exact h.stored_nodup
    · rw [heq]
      exact h.stored_nodup.filter _
  · refine ⟨fun b a ha => ?_, fun b row hrow => ?_⟩
    · have hslots : (s.deleted env target time).bucketAllocators =
          Function.update s.bucketAllocators target (s.bucketAllocators target).forget := by
        rw [hframe]
        rfl
      rw [SharedState.entry, hslots, Function.update_apply] at ha
      split at ha
      · cases ha
      · exact h.seqs.entry b a ha
    · rcases hstorage with heq | heq
      · exact h.seqs.row b row (heq ▸ hrow)
      · have hkept : (s.storage.bucketAllocators.retain fun k => k.1 != target) (b, env.nodeId) =
            some row :=
          (congrArg (fun st => st.bucketAllocators (b, env.nodeId)) heq).symm.trans hrow
        exact h.seqs.row b row (Map.of_retain hkept).1
  · rw [haccepted]
    exact h.pos

end Logged

/-! ## Within an operation -/

/-- The invariant within an operation that began in `s₀`, when `known` was known; nothing of the log
`A` is lost in it. -/
structure Logging (env : Env D) (E : Set Event) (base : List Event) (s₀ : SharedState D)
    (known : List Event) (A gone : Finset Event) (u : List Event) (s : SharedState D) : Prop where
  logged : ∃ A', A ⊆ A' ∧ Logged env E base A' gone u s
  minted : s₀.minted <+: s.minted
  origin : ∀ e ∈ s.acceptedSince base ++ u, e ∈ known ∨ e ∈ s.minted
  tombs : ∀ bucket, s₀.deletedBuckets.containsKey bucket = true →
    s.deletedBuckets.containsKey bucket = true

namespace Logging

variable {env : Env D} {E : Set Event} {base known u : List Event} {A gone : Finset Event}
  {s₀ s s' : SharedState D} {e : Event}

lemma congr (h : Logging env E base s₀ known A gone u s) (hs : s.SameRecords s')
    (hseqs : PositiveSeqs env s → PositiveSeqs env s') (hminted : s'.minted = s.minted) :
    Logging env E base s₀ known A gone u s' where
  logged := by
    obtain ⟨A', hA, hlogged⟩ := h.logged
    exact ⟨A', hA, hlogged.congr hs (hseqs hlogged.seqs)⟩
  minted := hminted ▸ h.minted
  origin := by
    rw [SharedState.acceptedSince, hs.batchQueue, hminted]
    exact h.origin
  tombs := by
    rw [hs.deletedBuckets]
    exact h.tombs

lemma prepared (h : Logging env E base s₀ known A gone u s) {bucket : String}
    {r : Option (Except StorageError Unit)} (hp : Prepared env bucket s r s') :
    Logging env E base s₀ known A gone u s' := by
  refine h.congr ?_ (fun hseqs => hseqs.prepared hp) hp.minted
  rw [hp.frame]
  exact ⟨⟨rfl, rfl, rfl, rfl⟩, rfl, rfl, rfl, rfl⟩

/-- The next event is minted. -/
lemma unrecorded (h : Logging env E base s₀ known A gone u s) {now : ℕ} {d : EventDraft}
    {after : List Event} (hM : Mints E known s₀.minted after) (husable : s.Usable d.key.1)
    (hnext : s.minted ++ [s.draftEvent env now d] <+: after) {s₁ : SharedState D}
    (hs : s.SameRecords s₁) (hseqs : PositiveSeqs env s → PositiveSeqs env s₁)
    (hminted : s₁.minted = s.minted ++ [s.draftEvent env now d]) :
    Logging env E base s₀ known A gone (u ++ [s.draftEvent env now d]) s₁ := by
  obtain ⟨he, hknown, hnow⟩ := hM.next h.minted hnext
  obtain ⟨A', hA, hlogged⟩ := h.logged
  have hpos : 1 ≤ (s.draftEvent env now d).originSeq := hlogged.seqs.nextId husable
  generalize s.draftEvent env now d = e at he hknown hnow hpos hminted ⊢
  have hnew : e ∉ s.acceptedSince base ++ u := by
    intro hmem
    rcases h.origin e hmem with h' | h'
    · exact hknown h'
    · exact hnow h'
  refine ⟨⟨A', hA, (hlogged.unrecorded he hnew hpos).congr hs (hseqs hlogged.seqs)⟩, ?_,
    fun x hx => ?_, ?_⟩
  · rw [hminted]
    exact h.minted.trans (List.prefix_append _ _)
  · rw [SharedState.acceptedSince, hs.batchQueue, ← List.append_assoc, List.mem_append] at hx
    rw [hminted, List.mem_append]
    rcases hx with hx | hx
    · exact (h.origin x hx).imp id .inl
    · exact .inr (.inr hx)
  · rw [hs.deletedBuckets]
    exact h.tombs

/-- The first of what is minted is recorded. -/
lemma recorded (h : Logging env E base s₀ known A gone (e :: u) s)
    (hlogged : ∀ A', Logged env E base A' gone (e :: u) s →
      Logged env E base (insert e A') gone u s')
    (hqueue : s'.batchQueue = s.batchQueue ++ [e]) (hminted : s'.minted = s.minted)
    (hdeleted : s'.deletedBuckets = s.deletedBuckets) :
    Logging env E base s₀ known A gone u s' := by
  obtain ⟨A', hA, h'⟩ := h.logged
  refine ⟨⟨insert e A', hA.trans (Finset.subset_insert _ _), hlogged A' h'⟩, ?_, fun x hx => ?_, ?_⟩
  · rw [hminted]
    exact h.minted
  · rw [hminted]
    apply h.origin x
    rw [SharedState.acceptedSince, hqueue] at hx
    simpa [SharedState.acceptedSince, List.append_assoc] using hx
  · rw [hdeleted]
    exact h.tombs

lemma recordLocal (hE : Identified E) (h : Logging env E base s₀ known A gone (e :: u) s) :
    Logging env E base s₀ known A gone u (s.recordLocal env e) := by
  have hframe := SharedState.recordLocal_frame env s e
  refine h.recorded (fun _ h' => h'.recordLocal hE) ?_ ?_ ?_
  all_goals rw [hframe]

lemma mintCorrection (hE : Identified E) (h : Logging env E base s₀ known A gone [] s)
    {after : List Event} (hM : Mints E known s₀.minted after) {d : EventDraft}
    (husable : s.Usable d.key.1)
    (hnext : s.minted ++ [s.draftEvent env (env.clock s.clockReads) d] <+: after) :
    Logging env E base s₀ known A gone [] (s.mintCorrection env d) := by
  have hminted : Logging env E base s₀ known A gone
      ([] ++ [s.draftEvent env (env.clock s.clockReads) d])
      (((s.takeNext d.key.1 env).tick).built (s.draftEvent env (env.clock s.clockReads) d)) :=
    h.unrecorded hM husable hnext ⟨⟨rfl, rfl, rfl, rfl⟩, rfl, rfl, rfl, rfl⟩
      (fun hseqs => (hseqs.takeNext d.key.1).congr rfl rfl) rfl
  rw [List.nil_append] at hminted
  unfold SharedState.mintCorrection
  dsimp only
  generalize s.draftEvent env (env.clock s.clockReads) d = e at hminted ⊢
  generalize ((s.takeNext d.key.1 env).tick).built e = s₁ at hminted ⊢
  have hframe := SharedState.corrected_frame env s₁ e
  refine hminted.recorded (fun _ h' => h'.corrected hE) ?_ ?_ ?_
  all_goals rw [hframe]

/-- A new replicated event is accepted. -/
lemma accepted (hE : Identified E) (h : Logging env E base s₀ known A gone [] s) (he : e ∈ E)
    (hknown : e ∈ known) (hpos : 1 ≤ e.originSeq) (hnew : e ∉ s.acceptedSince base) :
    Logging env E base s₀ known (insert e A) gone [] (s.accepted env e) := by
  have hframe := SharedState.accepted_frame env s e
  have hqueue : (s.accepted env e).batchQueue = s.batchQueue ++ [e] := by rw [hframe]
  have hminted : (s.accepted env e).minted = s.minted := by rw [hframe]
  have hdeleted : (s.accepted env e).deletedBuckets = s.deletedBuckets := by rw [hframe]
  obtain ⟨A', hA, hlogged⟩ := h.logged
  have hnew' : e ∉ s.acceptedSince base ++ [] := by rwa [List.append_nil]
  refine ⟨⟨insert e A', Finset.insert_subset_insert e hA, hlogged.accepted hE he hnew' hpos⟩, ?_,
    fun x hx => ?_, ?_⟩
  · rw [hminted]
    exact h.minted
  · rw [hminted]
    rw [SharedState.acceptedSince, hqueue] at hx
    have hx' : x ∈ s.acceptedSince base ∨ x = e := by
      simpa [SharedState.acceptedSince, or_assoc] using hx
    rcases hx' with hx' | rfl
    · exact h.origin x (List.mem_append_left _ hx')
    · exact .inl hknown
  · rw [hdeleted]
    exact h.tombs

lemma keepsBranch (hE : Identified E) {after : List Event} (hM : Mints E known s₀.minted after)
    (input : LocalCreateInput) (mode : LocalCreateMode) :
    KeepsBranch env input mode after (Logging env E base s₀ known A gone) where
  prepared h hp := h.prepared hp
  mint now d h husable hd hnext := by
    rw [← hd.bucket] at husable
    exact h.unrecorded hM husable hnext ⟨⟨rfl, rfl, rfl, rfl⟩, rfl, rfl, rfl, rfl⟩
      (fun hseqs => (hseqs.takeNext _).congr rfl rfl) rfl
  record h := h.recordLocal hE
  ensure key h :=
    h.congr ⟨⟨rfl, rfl, rfl, rfl⟩, rfl, rfl, rfl, rfl⟩ (fun hseqs => hseqs.congr rfl rfl) rfl

lemma keepsCorrections (hE : Identified E) {after : List Event}
    (hM : Mints E known s₀.minted after) (winner loser : Event) :
    KeepsCorrections env winner loser after (Logging env E base s₀ known A gone []) where
  asked h :=
    h.congr ⟨⟨rfl, rfl, rfl, rfl⟩, rfl, rfl, rfl, rfl⟩ (fun hseqs => hseqs.congr rfl rfl) rfl
  prepared h hp := h.prepared hp
  void h husable _ hnext := h.mintCorrection hE hM husable hnext
  release h husable _ _ hnext := h.mintCorrection hE hM husable hnext

end Logging

/-! ## Every operation -/

/-- What an operation does to the log: it loses only events of a bucket it deletes. -/
structure Carries (env : Env D) (op : LifeOp) (s s' : SharedState D)
    (A gone A' gone' : Finset Event) : Prop where
  kept : ∀ e ∈ A, e ∈ A' ∨ op.Deletes env s e.bucket
  buried : ∀ e ∈ gone', e ∈ gone ∨ e ∈ A ∧ op.Deletes env s e.bucket
  deletes : ∀ bucket, op.Deletes env s bucket → s'.deletedBuckets.containsKey bucket = true
  tombs : ∀ bucket, s.deletedBuckets.containsKey bucket = true →
    s'.deletedBuckets.containsKey bucket = true
  unlocked : s'.Unlocked

namespace Logged

variable {env : Env D} {E : Set Event} {base u : List Event} {A gone : Finset Event}
  {s s' : SharedState D} {e : Event}

/-- What has been minted without a record is forgotten. -/
lemma forget (h : Logged env E base A gone u s) : Logged env E base A gone [] s :=
  { h with
    known := fun e he => h.known e (List.mem_append_left _ (by simpa using he))
    nodup := by
      rw [List.append_nil]
      exact h.nodup.of_append_left
    pos := fun e he => h.pos e (List.mem_append_left _ (by simpa using he)) }

/-- The invariant at the beginning of an operation. -/
lemma logging (h : Logged env E base A gone [] s) (known : List Event)
    (hknown : ∀ e ∈ s.acceptedSince base, e ∈ known) :
    Logging env E base s known A gone [] s where
  logged := ⟨A, Finset.Subset.refl A, h⟩
  minted := List.prefix_refl _
  origin e he := .inl (hknown e (by simpa using he))
  tombs _ hb := hb


/-- An event that is admitted is new. -/
lemma notMem_of_admits (h : Logged env E base A gone [] s) (hadmits : s.Admits e) :
    e ∉ s.acceptedSince base ∧ 1 ≤ e.originSeq := by
  constructor
  · intro he
    rcases (h.split e).1 he with he | he
    · have hpresent := h.log.isPresent he
      rw [hadmits.present] at hpresent
      cases hpresent
    · have hburied := h.buried e he
      rw [hadmits.deleted] at hburied
      cases hburied
  · have hpresent := hadmits.present
    simp only [SharedState.eventIsPresent, hadmits.buffer, Bool.or_eq_false_iff,
      decide_eq_false_iff_not] at hpresent
    omega

/-- An event of the world that is not admitted, though its bucket is there, is in the log. -/
lemma mem_of_not_admits (hE : Identified E) (h : Logged env E base A gone [] s) (he : e ∈ E)
    (hpos : 1 ≤ e.originSeq) (hbucket : s.deletedBuckets.containsKey e.bucket = false)
    (hnot : ¬ s.Admits e) : e ∈ A := by
  have hsame : ∀ e' ∈ A, e'.originKey = e.originKey → e ∈ A := by
    intro e' he' hkey
    have hmem := (h.split e').2 (.inl he')
    have heq := hE.originKey e' (h.known e' (List.mem_append_left _ hmem)) e he hkey
    exact heq ▸ he'
  rcases hbuffer : s.eventBuffer e.originKey with _ | e'
  · have hpresent : s.eventIsPresent e = true := by
      by_contra hpresent
      exact hnot ⟨hbucket, Bool.eq_false_iff.2 hpresent, hbuffer⟩
    simp only [SharedState.eventIsPresent, hbuffer, Bool.or_eq_true, decide_eq_true_eq]
      at hpresent
    obtain ⟨e', he', hkey⟩ := (h.log.accepted_iff e.epochKey hpos).2 hpresent.symm
    exact hsame e' he' hkey
  · obtain ⟨he', hkey⟩ := h.log.buffered _ _ hbuffer
    exact hsame e' he' hkey

lemma create (hE : Identified E) (h : Logged env E base A gone [] s) (hfree : s.Unlocked)
    {input : LocalCreateInput} (hstep : LifeStep env E base (.node (.create input)) s s') :
    ∃ A', Logged env E base A' gone [] s' ∧
      Carries env (.node (.create input)) s s' A gone A' gone := by
  obtain ⟨hrun, -, hmints⟩ := hstep
  obtain ⟨r, s₁, hcreated, hexec⟩ := exec_createLocalEvents env input s
  simp only [LifeOp.program, NodeOp.program, NodeM.exec, Proc.exec_bind] at hrun hexec
  rw [hexec] at hrun
  rcases r with _ | r
  · cases hrun
  obtain rfl : s₁ = s' := congrArg Prod.snd hrun
  have hunlocked := hfree.created hcreated
  have hbegin := h.logging
    (s.acceptedSince base ++ LifeOp.delivered (.node (.create input)))
    fun e he => List.mem_append_left _ he
  have hend : ∀ {u}, Logging env E base s
      (s.acceptedSince base ++ LifeOp.delivered (.node (.create input))) A gone u s₁ →
      ∃ A', Logged env E base A' gone [] s₁ ∧
        Carries env (.node (.create input)) s s₁ A gone A' gone := by
    intro u hlogging
    obtain ⟨A', hA, hlogged⟩ := hlogging.logged
    exact ⟨A', hlogged.forget, fun e he => .inl (hA he), fun e he => .inl he,
      fun _ hdeletes => hdeletes.elim, hlogging.tombs, hunlocked⟩
  cases hcreated with
  | rejected _ => exact hend hbegin
  | malformed _ _ =>
      refine hend (u := []) (hbegin.congr ?_ (fun hseqs => hseqs.congr rfl rfl) rfl)
      exact ⟨⟨rfl, rfl, rfl, rfl⟩, rfl, rfl, rfl, rfl⟩
  | cachedRetry _ _ _ _ =>
      refine hend (u := []) (hbegin.congr ?_ (fun hseqs => hseqs.congr rfl rfl) rfl)
      exact ⟨⟨rfl, rfl, rfl, rfl⟩, rfl, rfl, rfl, rfl⟩
  | storedRetry _ _ _ _ _ =>
      refine hend (u := []) (hbegin.congr ?_ (fun hseqs => hseqs.congr rfl rfl) rfl)
      exact ⟨⟨rfl, rfl, rfl, rfl⟩, rfl, rfl, rfl, rfl⟩
  | @emitted mode _ s₂ _ _ _ _ _ hemitted =>
      have hopened : Logging env E base s
          (s.acceptedSince base ++ LifeOp.delivered (.node (.create input))) A gone []
          (s.opened input.balanceKey) :=
        hbegin.congr ⟨⟨rfl, rfl, rfl, rfl⟩, rfl, rfl, rfl, rfl⟩ (fun hseqs => hseqs.congr rfl rfl)
          rfl
      obtain ⟨u, hu, -⟩ := (Logging.keepsBranch hE hmints input mode).emitted hemitted
        (List.prefix_refl _) hopened
      refine hend (u := u) (hu.congr ?_ (fun hseqs => hseqs.congr rfl rfl) rfl)
      exact ⟨⟨rfl, rfl, rfl, rfl⟩, rfl, rfl, rfl, rfl⟩

/-- The state in which an admitted event is accepted. -/
lemma cleared (h : Logged env E base A gone [] s) (hfree : s.Unlocked) (hadmits : s.Admits e) :
    ∃ A' gone', Logged env E base A' gone' [] (s.cleared env e) ∧
      Carries env (.node (.insert e)) s (s.cleared env e) A gone A' gone' ∧
      (s.cleared env e).acceptedSince base = s.acceptedSince base ∧
      (s.cleared env e).minted = s.minted := by
  have hsame : (∀ bucket, ¬ (LifeOp.node (.insert e)).Deletes env s bucket) →
      ∃ A' gone', Logged env E base A' gone' [] s ∧
      Carries env (.node (.insert e)) s s A gone A' gone' ∧
      s.acceptedSince base = s.acceptedSince base ∧ s.minted = s.minted := fun hnone =>
    ⟨A, gone, h, ⟨fun _ hx => .inl hx, fun _ hx => .inl hx, fun b hb => absurd hb (hnone b),
      fun _ hb => hb, hfree⟩, rfl, rfl⟩
  unfold SharedState.cleared
  split
  swap
  · rename_i hmeta
    exact hsame fun b hb => Option.some_ne_none b (hb.2.1.symm.trans hmeta)
  rename_i target hmeta
  split
  swap
  · rename_i heq
    exact hsame fun b hb => heq (Option.some.inj (hb.2.1.symm.trans hmeta) ▸ hb.2.2)
  rename_i hne
  have hframe := SharedState.deleted_frame env s target e.createdAtUnixMs
  have hdeletes : (LifeOp.node (.insert e)).Deletes env s target := ⟨hadmits, hmeta, hne⟩
  have hdeleted : (s.deleted env target e.createdAtUnixMs).deletedBuckets =
      s.deletedBuckets.insert target e.createdAtUnixMs := by
    rw [hframe]
    rfl
  refine ⟨_, _, h.deleted target e.createdAtUnixMs, ⟨fun x hx => ?_, fun x hx => ?_, fun b hb => ?_,
    fun b hb => ?_, hfree.deleted env target _⟩, ?_, ?_⟩
  · by_cases hb : x.bucket = target
    · exact .inr (hb ▸ hdeletes)
    · exact .inl (Finset.mem_filter.2 ⟨hx, hb⟩)
  · rcases Finset.mem_union.1 hx with hx | hx
    · exact .inl hx
    · obtain ⟨hx, hb⟩ := Finset.mem_filter.1 hx
      exact .inr ⟨hx, hb ▸ hdeletes⟩
  · obtain rfl : b = target := Option.some.inj (hb.2.1.symm.trans hmeta)
    rw [hdeleted, Map.containsKey, Map.insert_self]
    rfl
  · rw [hdeleted, Map.containsKey, Map.insert_apply]
    split
    · rfl
    · exact hb
  · rw [hframe]
    rfl
  · rw [hframe]
    rfl

lemma insert (hE : Identified E) (h : Logged env E base A gone [] s) (hfree : s.Unlocked)
    (hstep : LifeStep env E base (.node (.insert e)) s s') :
    ∃ A' gone', Logged env E base A' gone' [] s' ∧
      Carries env (.node (.insert e)) s s' A gone A' gone' ∧
      (1 ≤ e.originSeq → s.deletedBuckets.containsKey e.bucket = false → e ∈ A') := by
  obtain ⟨hrun, he, hmints⟩ := hstep
  obtain ⟨r, s₁, hexec, hcases⟩ := exec_insertEvent_cleared env e hfree
  simp only [LifeOp.program, NodeOp.program, NodeM.exec, Proc.exec_bind] at hrun hexec
  rw [hexec] at hrun
  rcases r with _ | r
  · cases hrun
  obtain rfl : s₁ = s' := congrArg Prod.snd hrun
  rcases hcases with ⟨hnot, -, rfl⟩ | ⟨hadmits, hinserted⟩
  · exact ⟨A, gone, h, ⟨fun _ hx => .inl hx, fun _ hx => .inl hx, fun _ hb => absurd hb.1 hnot,
      fun _ hb => hb, hfree⟩, fun hpos hbucket => h.mem_of_not_admits hE he hpos hbucket hnot⟩
  · obtain ⟨hnew, hpos⟩ := h.notMem_of_admits hadmits
    obtain ⟨A₁, gone₁, hlogged, hcarries, haccepted, hminted⟩ := h.cleared hfree hadmits
    have hcleared := hadmits.cleared env
    generalize s.cleared env e = t at hinserted hlogged hcarries haccepted hminted hcleared
    obtain ⟨known, hknown⟩ : ∃ known, known = s.acceptedSince base ++ [e] := ⟨_, rfl⟩
    have hmem : e ∈ known := by simp [hknown]
    rw [← hminted] at hmints
    change Mints E (s.acceptedSince base ++ [e]) _ _ at hmints
    rw [← hknown] at hmints
    have hbegin := hlogged.logging known fun x hx => by
      rw [haccepted] at hx
      rw [hknown]
      exact List.mem_append_left _ hx
    have haccept := hbegin.accepted hE he hmem hpos (haccepted ▸ hnew)
    have hend : Logging env E base t known (Insert.insert e A₁) gone₁ [] s₁ →
        ∃ A' gone', Logged env E base A' gone' [] s₁ ∧
          Carries env (.node (.insert e)) s s₁ A gone A' gone' ∧
          (1 ≤ e.originSeq → s.deletedBuckets.containsKey e.bucket = false → e ∈ A') := by
      intro hlogging
      obtain ⟨A', hA, hdone⟩ := hlogging.logged
      refine ⟨A', gone₁, hdone, ⟨fun x hx => ?_, hcarries.buried, fun b hb => ?_, fun b hb => ?_,
        ?_⟩, fun _ _ => hA (Finset.mem_insert_self _ _)⟩
      · exact (hcarries.kept x hx).imp (fun hx => hA (Finset.mem_insert_of_mem hx)) id
      · exact hlogging.tombs b (hcarries.deletes b hb)
      · exact hlogging.tombs b (hcarries.tombs b hb)
      · exact hcarries.unlocked.inserted hinserted
    generalize some r = o at hinserted
    cases hinserted with
    | deleted hd => exact absurd hd (Bool.eq_false_iff.1 hcleared.deleted)
    | present _ hp => exact absurd hp (Bool.eq_false_iff.1 hcleared.present)
    | occupied _ _ hb => exact absurd hcleared.buffer hb
    | filed _ _ _ _ =>
        refine hend (haccept.congr ?_ (fun hseqs => hseqs.congr rfl rfl) rfl)
        exact ⟨⟨rfl, rfl, rfl, rfl⟩, rfl, rfl, rfl, rfl⟩
    | @conflict existing _ _ _ _ _ _ hcorrected =>
        have hremembered : Logging env E base t known (Insert.insert e A₁) gone₁ []
            ((t.accepted env e).remember e.idempotencyKey (idempotencyWinner existing e).1) :=
          haccept.congr ⟨⟨rfl, rfl, rfl, rfl⟩, rfl, rfl, rfl, rfl⟩
            (fun hseqs => hseqs.congr rfl rfl) rfl
        exact hend ((Logging.keepsCorrections hE hmints _ _).corrected hcorrected
          (List.prefix_refl _) hremembered)

lemma delete (hE : Identified E) (h : Logged env E base A gone [] s) (hfree : s.Unlocked)
    {target : String} {reason : Option String}
    (hstep : LifeStep env E base (.delete target reason) s s') :
    ∃ A' gone', Logged env E base A' gone' [] s' ∧
      Carries env (.delete target reason) s s' A gone A' gone' := by
  obtain ⟨hrun, -, hmints⟩ := hstep
  obtain ⟨r, s₁, htombstoned, hexec⟩ := exec_createMetaBucketDelete env target reason s
  simp only [LifeOp.program, NodeM.exec, Proc.exec_bind] at hrun hexec
  rw [hexec] at hrun
  rcases r with _ | r
  · cases hrun
  obtain rfl : s₁ = s' := congrArg Prod.snd hrun
  have hsame : (∀ bucket, ¬ (LifeOp.delete target reason).Deletes env s bucket) →
      ∃ A' gone', Logged env E base A' gone' [] s ∧
      Carries env (.delete target reason) s s A gone A' gone' := fun hnone =>
    ⟨A, gone, h, ⟨fun _ hx => .inl hx, fun _ hx => .inl hx, fun b hb => absurd hb (hnone b),
      fun _ hb => hb, hfree⟩⟩
  generalize some r = o at htombstoned
  cases htombstoned with
  | reserved hreserved => exact hsame fun b hb => hb.2.1 hreserved
  | again _ hagain => exact hsame fun b hb => Bool.eq_false_iff.1 hb.2.2.1 hagain
  | unallocated _ _ hp hr =>
      refine ⟨A, gone, h.prepared hp, fun _ hx => .inl hx, fun _ hx => .inl hx, fun b hb => ?_,
        fun b hb => ?_, hfree.prepared hp⟩
      · exact absurd (hp.canAllocate_iff.1 hb.2.2.2) hr
      · rw [hp.frame]
        exact hb
  | @deleted s₂ e hreserved hagain hp he =>
      have hdeletes : (LifeOp.delete target reason).Deletes env s target :=
        ⟨rfl, hreserved, hagain, hp.canAllocate_iff.2 rfl⟩
      have hprepared := h.prepared hp
      have hpos : 1 ≤ e.originSeq := he ▸ hprepared.seqs.nextId hp.usable
      have haccepted : s₂.acceptedSince base = s.acceptedSince base := by
        rw [hp.frame]
        rfl
      obtain ⟨s₃, hs₃⟩ : ∃ s₃, s₃ = ((s₂.takeNext metaBucket env).tick).built e := ⟨_, rfl⟩
      rw [← hs₃] at hmints ⊢
      have hdeleted := SharedState.deleted_frame env s₃ target (env.clock s₂.clockReads)
      have hrecord := SharedState.recordLocal_frame env
        (s₃.deleted env target (env.clock s₂.clockReads)) e
      have hminted : ((s₃.deleted env target (env.clock s₂.clockReads)).recordLocal env e).minted =
          s.minted ++ [e] := by
        rw [hrecord, hdeleted, hs₃, ← hp.minted]
        rfl
      -- the tombstone's event is new, and it is recorded once the bucket is gone
      rw [hminted] at hmints
      obtain ⟨heE, hknown, -⟩ := hmints.next (List.prefix_refl _) (List.prefix_refl _)
      have hnew : e ∉ s₂.acceptedSince base ++ [] := by
        rw [haccepted]
        exact hknown
      have hunrecorded : Logged env E base A gone [e] s₃ := by
        refine (hprepared.unrecorded heE hnew hpos).congr ?_ ?_
        · rw [hs₃]
          exact ⟨⟨rfl, rfl, rfl, rfl⟩, rfl, rfl, rfl, rfl⟩
        · rw [hs₃]
          exact (hprepared.seqs.takeNext metaBucket).congr rfl rfl
      have htombs : ((s₃.deleted env target (env.clock s₂.clockReads)).recordLocal env
          e).deletedBuckets = s.deletedBuckets.insert target (env.clock s₂.clockReads) := by
        rw [hrecord, hdeleted, hs₃, hp.frame]
        rfl
      refine ⟨_, _, (hunrecorded.deleted target _).recordLocal hE, fun x hx => ?_, fun x hx => ?_,
        fun b hb => ?_, fun b hb => ?_, fun key => ?_⟩
      · by_cases hb : x.bucket = target
        · exact .inr (hb ▸ hdeletes)
        · exact .inl (Finset.mem_insert_of_mem (Finset.mem_filter.2 ⟨hx, hb⟩))
      · rcases Finset.mem_union.1 hx with hx | hx
        · exact .inl hx
        · obtain ⟨hx, hb⟩ := Finset.mem_filter.1 hx
          exact .inr ⟨hx, hb ▸ hdeletes⟩
      · obtain rfl : target = b := hb.1
        rw [htombs, Map.containsKey, Map.insert_self]
        rfl
      · rw [htombs, Map.containsKey, Map.insert_apply]
        split
        · rfl
        · exact hb
      · have hlocks : ((s₃.deleted env target (env.clock s₂.clockReads)).recordLocal env
            e).accountLocks = s₂.accountLocks := by
          rw [hrecord, hdeleted, hs₃]
          rfl
        rw [hlocks]
        exact hfree.prepared hp key

lemma persist (h : Logged env E base A gone u s) (keys : List OriginKey) :
    Logged env E base A gone u (s.markPersisted keys) := by
  have hframe := s.markPersisted_frame keys
  have haccepted : (s.markPersisted keys).acceptedSince base = s.acceptedSince base := by
    rw [hframe]
    rfl
  refine ⟨haccepted ▸ h.known, haccepted ▸ h.nodup, h.log.markPersisted keys,
    haccepted ▸ h.split, ?_, ?_, ?_, ?_, h.seqs.congr ?_ ?_, haccepted ▸ h.pos⟩
  · rw [hframe]
    exact h.buried
  · rw [haccepted, hframe]
    exact h.count
  · rw [haccepted, hframe]
    exact h.stored
  · rw [hframe]
    exact h.stored_nodup
  · rw [hframe]
  · rw [hframe]

lemma flush (h : Logged env E base A gone [] s) {batch : List Event}
    (hstep : LifeStep env E base (.node (.flush batch)) s s') :
    Logged env E base A gone [] s' ∧ s'.deletedBuckets = s.deletedBuckets ∧
      s'.accountLocks = s.accountLocks := by
  obtain ⟨hrun, hbatch, -⟩ := hstep
  obtain ⟨s₁, ⟨st, calls, hst, rfl⟩, hexec⟩ := exec_doFlush env batch s
  have hstored : Logged env E base A gone [] (s.setStorage st calls) := by
    refine { h with
      log := h.log.of_sameLog ⟨rfl, rfl, rfl, rfl⟩, stored := ?_, stored_nodup := ?_
      seqs := h.seqs.congr rfl ?_ }
    · rcases hst with rfl | rfl
      · exact h.stored
      · intro e he
        rcases Storage.mem_insertEventsBulk he with he | he
        · exact h.stored e he
        · exact hbatch e he
    · rcases hst with rfl | rfl
      · exact h.stored_nodup
      · exact Storage.nodup_insertEventsBulk batch h.stored_nodup
    · rcases hst with rfl | rfl
      · rfl
      · exact s.storage.bucketAllocators_insertEventsBulk batch
  have hframe := (s.setStorage st calls).markPersisted_frame (batch.map Event.originKey)
  rcases hexec with hexec | hexec
  · obtain rfl : _ = s' := congrArg Prod.snd (hexec.symm.trans hrun)
    refine ⟨hstored.persist _, ?_, ?_⟩
    · rw [hframe]
      rfl
    · rw [hframe]
      rfl
  · obtain rfl : _ = s' := congrArg Prod.snd (hexec.symm.trans hrun)
    exact ⟨hstored, rfl, rfl⟩

/-- The step lemma. -/
theorem step (hE : Identified E) (h : Logged env E base A gone [] s) (hfree : s.Unlocked)
    {op : LifeOp} (hstep : LifeStep env E base op s s') :
    ∃ A' gone', Logged env E base A' gone' [] s' ∧ Carries env op s s' A gone A' gone' ∧
      ∀ e, op = .node (.insert e) → 1 ≤ e.originSeq →
        s.deletedBuckets.containsKey e.bucket = false → e ∈ A' := by
  have hquiet : Logged env E base A gone [] s' → s'.deletedBuckets = s.deletedBuckets →
      s'.accountLocks = s.accountLocks → (∀ bucket, ¬ op.Deletes env s bucket) →
      (∀ e, op ≠ .node (.insert e)) →
      ∃ A' gone', Logged env E base A' gone' [] s' ∧ Carries env op s s' A gone A' gone' ∧
        ∀ e, op = .node (.insert e) → 1 ≤ e.originSeq →
          s.deletedBuckets.containsKey e.bucket = false → e ∈ A' := by
    intro hlogged hdeleted hlocks hnone hop
    refine ⟨A, gone, hlogged, ⟨fun _ hx => .inl hx, fun _ hx => .inl hx,
      fun b hb => absurd hb (hnone b), fun b hb => ?_, fun key => ?_⟩,
      fun e heq => absurd heq (hop e)⟩
    · rw [hdeleted]
      exact hb
    · rw [hlocks]
      exact hfree key
  cases op with
  | delete target reason =>
      obtain ⟨A', gone', hlogged, hcarries⟩ := h.delete hE hfree hstep
      exact ⟨A', gone', hlogged, hcarries, fun e heq => by cases heq⟩
  | node op =>
      cases op with
      | create input =>
          obtain ⟨A', hlogged, hcarries⟩ := h.create hE hfree hstep
          exact ⟨A', gone, hlogged, hcarries, fun e heq => by cases heq⟩
      | insert e =>
          obtain ⟨A', gone', hlogged, hcarries, hmem⟩ := h.insert hE hfree hstep
          refine ⟨A', gone', hlogged, hcarries, fun e' heq => ?_⟩
          cases heq
          exact hmem
      | flush batch =>
          obtain ⟨hlogged, hdeleted, hlocks⟩ := h.flush hstep
          exact hquiet hlogged hdeleted hlocks (fun _ => id) fun e heq => by cases heq
      | persist keys =>
          obtain rfl : s.markPersisted keys = s' := congrArg Prod.snd hstep.run
          have hframe := s.markPersisted_frame keys
          refine hquiet (h.persist keys) ?_ ?_ (fun _ => id) fun e heq => by cases heq
          · rw [hframe]
          · rw [hframe]
      | sweep =>
          obtain rfl : _ = s' := congrArg Prod.snd hstep.run
          refine hquiet (h.congr ?_ (h.seqs.congr rfl rfl)) rfl rfl (fun _ => id) fun e heq => by
            cases heq
          exact ⟨⟨rfl, rfl, rfl, rfl⟩, rfl, rfl, rfl, rfl⟩

end Logged

/-! ## Every life -/

/-- The counter after a start. -/
lemma Starts.totalEventCount {env : Env D} {st : Storage D} {s : SharedState D}
    (h : Starts env st s) : s.totalEventCount = st.events.length := by
  obtain ⟨hrun, hok⟩ := h
  simp only [newSharedState, NodeM.exec] at hrun
  obtain ⟨r, s₁, h₁, hrun⟩ := Proc.exec_bind_eq_some Wait.ready hrun
  obtain ⟨⟨⟩, s₂, h₂, hrun⟩ := Proc.exec_bind_eq_some Wait.ready hrun
  obtain ⟨⟨⟩, s₃, h₃, hrun⟩ := Proc.exec_bind_eq_some Wait.ready hrun
  obtain ⟨⟨⟩, s₄, h₄, hrun⟩ := Proc.exec_bind_eq_some Wait.ready hrun
  obtain ⟨now, s₅, h₅, hrun⟩ := Proc.exec_bind_eq_some Wait.ready hrun
  obtain ⟨⟨⟩, s₆, h₆, h₇⟩ := Proc.exec_bind_eq_some Wait.ready hrun
  have hrebuild : ∀ events (t t' : SharedState D),
      NodeM.exec (rebuildFromEvents env now events) t = (some (), t') →
      t.storageCalls ≤ t'.storageCalls ∧ t'.totalEventCount = t.totalEventCount := by
    intro events t t' hexec
    obtain ⟨t'', hrun, hle, hframe, -⟩ := exec_rebuildFromEvents env now events t
    obtain rfl : t'' = t' := congrArg Prod.snd (hrun.symm.trans hexec)
    exact ⟨hle, by rw [hframe]⟩
  -- the queries after the heads leave the counter as it is
  have hcalls₁ := exec_loadFromStorage h₁
  have hcalls₂ := exec_startUpQuery_calls h₂ fun _ t t' h => by cases h; exact le_refl _
  have hcalls₃ := exec_startUpQuery_calls h₃ fun _ t t' h => by cases h; exact le_refl _
  have hcalls₄ := exec_startUpQuery_calls h₄ fun _ t t' h => by cases h; exact le_refl _
  have hcalls₆ := exec_startUpQuery_calls h₆ fun events t t' h => (hrebuild events t t' h).1
  have hcalls₇ := exec_startUpQuery_calls h₇ fun _ t t' h => by cases h; exact le_refl _
  obtain ⟨-, hs₅⟩ : now = env.clock s₄.clockReads ∧
      s₅ = { s₄ with clockReads := s₄.clockReads + 1 } := by
    cases h₅
    exact ⟨rfl, rfl⟩
  have hcalls₅ : s₅.storageCalls = s₄.storageCalls := by rw [hs₅]
  have hzero : (SharedState.blank st : SharedState D).storageCalls = 0 := rfl
  rw [hzero] at hcalls₁
  obtain ⟨hpos, hload⟩ := hcalls₁
  obtain ⟨htwo, hload⟩ := hload (hok 0 (by omega))
  have hs₁ := hload (hok 1 (by omega))
  have hs₂ := (congrArg Prod.snd (exec_startUpQuery_ok h₂ (hok _ (by omega)))).symm
  have hs₃ := (congrArg Prod.snd (exec_startUpQuery_ok h₃ (hok _ (by omega)))).symm
  have hs₄ := (congrArg Prod.snd (exec_startUpQuery_ok h₄ (hok _ (by omega)))).symm
  have hs₆ := (hrebuild _ _ _ (exec_startUpQuery_ok h₆ (hok _ (by omega)))).2
  have hs₇ := (congrArg Prod.snd (exec_startUpQuery_ok h₇ (hok _ (by omega)))).symm
  have hcount : s₃.totalEventCount = st.events.length := by
    rw [show s₃ = _ from hs₃, show s₂ = _ from hs₂, hs₁]
    rfl
  calc s.totalEventCount = s₆.totalEventCount := by rw [show s = _ from hs₇]; rfl
    _ = s₅.totalEventCount := hs₆
    _ = s₄.totalEventCount := by rw [hs₅]
    _ = s₃.totalEventCount := by rw [show s₄ = _ from hs₄]; rfl
    _ = st.events.length := hcount

namespace Lifetime

variable {C : Env D → LifeOp → SharedState D → Prop} {E : Set Event} {env : Env D}
  {base : List Event} {s : SharedState D}

lemma logged_of_starts {st : Storage D} (hE : Identified E) (hst : st.WellFormed E env.nodeId)
    (hs : Starts env st s) : Logged env E st.events st.events.toFinset ∅ [] s := by
  have hbooks := hs.rebuilt.books hE hst
  have haccepted : s.acceptedSince st.events = st.events := by
    rw [SharedState.acceptedSince, hs.rebuilt.batchQueue, List.append_nil]
  have hlog := hbooks.log
  rw [haccepted] at hlog
  refine ⟨hbooks.known, hbooks.nodup, hlog, fun e => ?_, fun e he => ?_, ?_, hbooks.stored,
    hbooks.stored_nodup, hs.rebuilt.positiveSeqs hst, fun e he => ?_⟩
  · rw [haccepted]
    simp
  · simp at he
  · rw [haccepted, hs.totalEventCount]
  · rw [haccepted, List.append_nil] at he
    exact hst.pos e he

/-- What a node has stored can be started on. -/
lemma wellFormed {A gone : Finset Event} (h : Logged env E base A gone [] s) :
    s.storage.WellFormed E env.nodeId where
  world e he := h.known e (List.mem_append_left _ (h.stored e he))
  nodup := h.stored_nodup
  pos e he := h.pos e (List.mem_append_left _ (h.stored e he))
  row := h.seqs.row

/-- The run lemma. -/
theorem logged (hE : Identified E) (h : Lifetime C E env base s) :
    s.Unlocked ∧ ∃ A gone, Logged env E base A gone [] s := by
  induction h with
  | start hst hs => exact ⟨hs.rebuilt.unlocked, _, _, logged_of_starts hE hst hs⟩
  | step _ _ hstep ih =>
      obtain ⟨hfree, A, gone, hlogged⟩ := ih
      obtain ⟨A', gone', hlogged', hcarries, -⟩ := hlogged.step hE hfree hstep
      exact ⟨hcarries.unlocked, A', gone', hlogged'⟩
  | restart _ hnode hs ih =>
      obtain ⟨-, A, gone, hlogged⟩ := ih
      have hst := wellFormed hlogged
      rw [← hnode] at hst
      exact ⟨hs.rebuilt.unlocked, _, _, logged_of_starts hE hst hs⟩

end Lifetime

end Shardd
