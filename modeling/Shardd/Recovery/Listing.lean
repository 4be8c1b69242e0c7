import Shardd.Lib.Ranking
import Shardd.Recovery.Counter
import Shardd.Recovery.Retained

/-!
# The listing of a node's events (`events`)

The listing is put together from two reads, of the storage and then of the buffer, and between them
events move from the buffer to the storage.  An event that is stored and pruned between the two
reads is in neither.  When no event is, and the storage has answered, each event that was accepted
before the request is listed once.
-/

namespace Shardd

variable {D : Type}

/-! ## The request -/

/-- The order of the listing. -/
def Event.listingOrder (a b : Event) : Ordering :=
  (compare a.createdAtUnixMs b.createdAtUnixMs).then (compare a.eventId b.eventId)

/-- What the two reads come to: of an event that both have found the stored copy is listed. -/
def mergeBuffered (stored buffered : List Event) : List Event :=
  let storageKeys := stored.map Event.originKey
  sortBy Event.listingOrder (stored ++ buffered.filter fun e => e.originKey ∉ storageKeys)

/-- `query_all_events_sorted().await.unwrap_or_default()`. -/
def SharedState.queryAllEvents (env : Env D) (s : SharedState D) : List Event × SharedState D :=
  match s.callStorage env fun st => (st.queryAllEventsSorted, st) with
  | (.ok events, s') => (events, s')
  | (.error _, s') => ([], s')

/-- How far a request for the events has got. -/
inductive EventsRequest
  | waiting
  | reading (stored : List Event)
  | answered (events : List Event)

/-- A step of a node that serves the request: one of its operations, or one of the two reads.
`keys` is the order in which the scan of the buffer meets the keys. -/
inductive EventsStep (env : Env D) (E : Set Event) (base : List Event) :
    EventsRequest → SharedState D → EventsRequest → SharedState D → Prop
  | operate {request : EventsRequest} {op : LifeOp} {s s' : SharedState D} :
      op.MarksStored s → LifeStep env E base op s s' → EventsStep env E base request s request s'
  | readStorage {s : SharedState D} :
      EventsStep env E base .waiting s (.reading (s.queryAllEvents env).1)
        (s.queryAllEvents env).2
  | readBuffer {stored : List Event} {keys : List OriginKey} {s : SharedState D} :
      keys.Nodup → (∀ k, k ∈ keys ↔ (s.eventBuffer k).isSome = true) →
      EventsStep env E base (.reading stored) s
        (.answered (mergeBuffered stored (keys.filterMap s.eventBuffer))) s

/-- The runs, from `s₀`, in which every step meets the condition `C`. -/
inductive EventsRun (env : Env D) (E : Set Event) (base : List Event)
    (C : EventsRequest → SharedState D → EventsRequest → SharedState D → Prop)
    (s₀ : SharedState D) : EventsRequest → SharedState D → Prop
  | begin : EventsRun env E base C s₀ .waiting s₀
  | step {request request' : EventsRequest} {s s' : SharedState D} :
      EventsRun env E base C s₀ request s → EventsStep env E base request s request' s' →
      C request s request' s' → EventsRun env E base C s₀ request' s'

/-- The event is in its slot, or its bucket has been deleted. -/
def SharedState.Shows (s : SharedState D) (e : Event) : Prop :=
  s.deletedBuckets.containsKey e.bucket = true ∨ s.eventBuffer e.originKey = some e

/-- The step hides no event of `known`: when the storage fails all of them are in the buffer, and
between the reads the buffer loses none that the storage has not returned. -/
def EventsRequest.Spares (env : Env D) (known : List Event) :
    EventsRequest → SharedState D → EventsRequest → SharedState D → Prop
  | .waiting, s, .reading _, _ =>
      env.storageOutcome s.storageCalls = .ok ∨ ∀ e ∈ known, s.Shows e
  | .reading stored, s, .reading _, s' =>
      ∀ e ∈ known, e ∉ stored → s.Shows e → s'.Shows e
  | _, _, _, _ => True

/-! ## The invariant -/

/-- What is known of the node at any time. -/
structure Serves (env : Env D) (E : Set Event) (base known : List Event) (s : SharedState D) :
    Prop where
  retains : Retains E base known [] s
  unlocked : s.Unlocked
  logged : ∃ A gone, Logged env E base A gone [] s

/-- The two reads together have found or can find what was known. -/
def EventsRequest.Complete (E : Set Event) (known : List Event) (s : SharedState D) :
    EventsRequest → Prop
  | .waiting => True
  | .reading stored => stored.Nodup ∧ (∀ e ∈ stored, e ∈ E) ∧ ∀ e ∈ known, s.Shows e ∨ e ∈ stored
  | .answered events => ∀ e ∈ known, s.deletedBuckets.containsKey e.bucket = true ∨
      events.count e = 1

variable {env : Env D} {E : Set Event} {base known : List Event} {s s' : SharedState D}

lemma SharedState.queryAllEvents_snd :
    (s.queryAllEvents env).2 = s.setStorage s.storage (s.storageCalls + 1) := by
  unfold SharedState.queryAllEvents SharedState.callStorage
  cases env.storageOutcome s.storageCalls <;> rfl

lemma SharedState.queryAllEvents_fst :
    (s.queryAllEvents env).1 =
      if env.storageOutcome s.storageCalls = .ok then s.storage.queryAllEventsSorted else [] := by
  unfold SharedState.queryAllEvents SharedState.callStorage
  cases env.storageOutcome s.storageCalls <;> rfl

/-- Tombstones stay. -/
lemma Serves.operate (hE : Identified E) (h : Serves env E base known s) {op : LifeOp}
    (hmarks : op.MarksStored s) (hstep : LifeStep env E base op s s') :
    Serves env E base known s' ∧ ∀ bucket, s.deletedBuckets.containsKey bucket = true →
      s'.deletedBuckets.containsKey bucket = true := by
  obtain ⟨A, gone, hlogged⟩ := h.logged
  obtain ⟨A', gone', hlogged', hcarries, -⟩ := hlogged.step hE h.unlocked hstep
  refine ⟨⟨?_, hcarries.unlocked, A', gone', hlogged'⟩, hcarries.tombs⟩
  exact h.retains.step hE h.unlocked hmarks hstep

lemma Serves.asked (h : Serves env E base known s) :
    Serves env E base known (s.setStorage s.storage (s.storageCalls + 1)) := by
  obtain ⟨A, gone, hlogged⟩ := h.logged
  have hsame : s.SameRecords (s.setStorage s.storage (s.storageCalls + 1)) :=
    ⟨⟨rfl, rfl, rfl, rfl⟩, rfl, rfl, rfl, rfl⟩
  exact ⟨h.retains.congr hsame rfl, h.unlocked, A, gone,
    hlogged.congr hsame (hlogged.seqs.congr rfl rfl)⟩

lemma Serves.of_life (hE : Identified E) (h : SafeLife E env base s) :
    Serves env E base (s.acceptedSince base) s := by
  obtain ⟨hfree, hlogged⟩ := Lifetime.logged hE h
  exact ⟨{ h.retains hE with grown := fun _ he => he }, hfree, hlogged⟩

/-- What the storage returns is complete but for the buffer. -/
lemma Serves.readStorage (h : Serves env E base known s)
    (hspares : env.storageOutcome s.storageCalls = .ok ∨ ∀ e ∈ known, s.Shows e) :
    EventsRequest.Complete E known s (.reading (s.queryAllEvents env).1) := by
  have hperm : s.storage.queryAllEventsSorted.Perm s.storage.events :=
    List.perm_insertionSort _ _
  rw [EventsRequest.Complete, SharedState.queryAllEvents_fst]
  split
  · refine ⟨hperm.nodup_iff.2 h.retains.nodup,
      fun e he => h.retains.rows e (hperm.mem_iff.1 he), fun e he => ?_⟩
    rcases h.retains.kept e (h.retains.grown e he) with hgone | hslot | hrow
    · exact .inl (.inl hgone)
    · exact .inl (.inr hslot)
    · exact .inr (hperm.mem_iff.2 hrow)
  · rename_i hfailed
    exact ⟨List.nodup_nil, by simp, fun e he => .inl (hspares.resolve_left hfailed e he)⟩

/-- Events have slots of their own, so the scan meets no event twice. -/
lemma Serves.nodup_filterMap (h : Serves env E base known s) {keys : List OriginKey}
    (hkeys : keys.Nodup) : (keys.filterMap s.eventBuffer).Nodup := by
  refine hkeys.filterMap fun k k' e he he' => ?_
  exact (h.retains.slot k e he).2.symm.trans (h.retains.slot k' e he').2

/-- The buffer has what the storage has not returned. -/
lemma Serves.readBuffer (hE : Identified E) (h : Serves env E base known s) {stored : List Event}
    (hread : EventsRequest.Complete E known s (.reading stored)) {keys : List OriginKey}
    (hkeys : keys.Nodup) (hall : ∀ k, k ∈ keys ↔ (s.eventBuffer k).isSome = true) :
    EventsRequest.Complete E known s
      (.answered (mergeBuffered stored (keys.filterMap s.eventBuffer))) := by
  obtain ⟨hnodup, hstored, hread⟩ := hread
  intro e he
  have heE : e ∈ E := h.retains.world e (List.mem_append_left _ (h.retains.grown e he))
  have hsort : (mergeBuffered stored (keys.filterMap s.eventBuffer)).Perm (stored ++
      (keys.filterMap s.eventBuffer).filter fun e => e.originKey ∉ stored.map Event.originKey) :=
    sortBy_perm _
  rw [hsort.count_eq e, List.count_append]
  by_cases hmem : e ∈ stored
  · right
    rw [List.count_eq_one_of_mem hnodup hmem, List.count_eq_zero_of_not_mem]
    simp only [List.mem_filter, not_and, decide_eq_true_eq, not_not]
    exact fun _ => List.mem_map_of_mem hmem
  · rcases (hread e he).resolve_right hmem with hgone | hslot
    · exact .inl hgone
    right
    have hkey : e.originKey ∉ stored.map Event.originKey := by
      intro hkey
      obtain ⟨x, hx, hxe⟩ := List.mem_map.1 hkey
      exact hmem (hE.originKey x (hstored x hx) e heE hxe ▸ hx)
    have hscan : e ∈ keys.filterMap s.eventBuffer := by
      refine List.mem_filterMap.2 ⟨e.originKey, (hall _).2 ?_, hslot⟩
      rw [hslot]
      rfl
    rw [List.count_eq_zero_of_not_mem hmem, Nat.zero_add]
    exact List.count_eq_one_of_mem ((h.nodup_filterMap hkeys).filter _)
      (List.mem_filter.2 ⟨hscan, decide_eq_true hkey⟩)

/-- The step lemma. -/
lemma EventsStep.serves {request request' : EventsRequest} (hE : Identified E)
    (h : Serves env E base known s) (hcomplete : request.Complete E known s)
    (hstep : EventsStep env E base request s request' s')
    (hspares : request.Spares env known s request' s') :
    Serves env E base known s' ∧ request'.Complete E known s' := by
  cases hstep with
  | operate hmarks hstep =>
      obtain ⟨hserves, htombs⟩ := h.operate hE hmarks hstep
      refine ⟨hserves, ?_⟩
      cases request with
      | waiting => trivial
      | reading stored =>
          obtain ⟨hnodup, hstored, hread⟩ := hcomplete
          refine ⟨hnodup, hstored, fun e he => ?_⟩
          by_cases hmem : e ∈ stored
          · exact .inr hmem
          · exact .inl (hspares e he hmem ((hread e he).resolve_right hmem))
      | answered events => exact fun e he => (hcomplete e he).imp (htombs _) id
  | readStorage =>
      have hread := h.readStorage hspares
      rw [SharedState.queryAllEvents_snd]
      exact ⟨h.asked, hread⟩
  | readBuffer hkeys hall => exact ⟨h, h.readBuffer hE hcomplete hkeys hall⟩

/-- **The listing.**  However a request for the events interleaves with the node's operations: when
the storage answers, and no event is pruned between the two reads that the first has not returned,
every event that was accepted before the request is listed exactly once, unless its bucket has been
deleted. -/
theorem listed_of_run (hE : Identified E) {s₀ : SharedState D} (hlife : SafeLife E env base s₀)
    {events : List Event}
    (h : EventsRun env E base (EventsRequest.Spares env (s₀.acceptedSince base)) s₀
      (.answered events) s) {e : Event} (he : e ∈ s₀.acceptedSince base)
    (hbucket : s.deletedBuckets.containsKey e.bucket = false) : events.count e = 1 := by
  have hserves := Serves.of_life hE hlife
  have hrun : ∀ {request s}, EventsRun env E base (EventsRequest.Spares env
      (s₀.acceptedSince base)) s₀ request s →
      Serves env E base (s₀.acceptedSince base) s ∧
        request.Complete E (s₀.acceptedSince base) s := by
    intro request s h
    induction h with
    | begin => exact ⟨hserves, trivial⟩
    | step _ hstep hspares ih => exact hstep.serves hE ih.1 ih.2 hspares
  rcases (hrun h).2 e he with hgone | hcount
  · rw [hbucket] at hgone
    cases hgone
  · exact hcount

/-! ## A deposit that is flushed -/

section Examples

/-- The node after the batch writer has flushed the deposit. -/
def flushDeposit (s : SharedState Unit) : SharedState Unit :=
  (NodeM.exec ((LifeOp.node (.flush [remoteDeposit])).program counterEnv) s).2

lemma LifeStep.flushDeposit {s : SharedState Unit}
    (hrun : (NodeM.exec ((LifeOp.node (.flush [remoteDeposit])).program counterEnv) s).1 = some ())
    (haccepted : s.acceptedSince [] = [remoteDeposit])
    (hminted : (Shardd.flushDeposit s).minted = []) :
    LifeStep counterEnv {e | e ∈ [remoteDeposit]} [] (.node (.flush [remoteDeposit])) s
      (Shardd.flushDeposit s) := by
  have hbatch : ∀ e ∈ [remoteDeposit], e ∈ s.acceptedSince [] := by
    rw [haccepted]
    exact fun _ he => he
  refine ⟨exec_of_fst hrun, hbatch, ?_⟩
  rw [hminted]
  exact ⟨List.nodup_nil, by simp, by simp⟩

/-- Nothing is left in the buffer. -/
lemma Serves.scan_nil {known : List Event} {s : SharedState Unit}
    (h : Serves counterEnv {e | e ∈ [remoteDeposit]} [] known s)
    (hempty : s.eventBuffer remoteDeposit.originKey = none) (k : OriginKey) :
    k ∈ [] ↔ (s.eventBuffer k).isSome = true := by
  refine ⟨fun hk => absurd hk List.not_mem_nil, fun hsome => ?_⟩
  obtain ⟨e, he⟩ := Option.isSome_iff_exists.1 hsome
  obtain ⟨hmem, rfl⟩ := h.retains.slot k e he
  rw [List.mem_singleton.1 hmem, hempty] at he
  cases he

lemma identified_remoteDeposit : Identified {e | e ∈ [remoteDeposit]} :=
  identified_of_list (by decide +kernel)

lemma safeLife_afterDeposit :
    SafeLife {e | e ∈ [remoteDeposit]} counterEnv [] afterDeposit :=
  .afterDeposit (List.mem_singleton_self _) fun _ => trivial

/-- The deposit is flushed before the storage is read, and between the two reads it arrives once
more. -/
theorem listed_of_run_flushed :
    let read := (flushDeposit afterDeposit).queryAllEvents counterEnv
    let again := LifeOp.node (.insert remoteDeposit)
    let s := (NodeM.exec (again.program counterEnv) read.2).2
    EventsRun counterEnv {e | e ∈ [remoteDeposit]} []
        (EventsRequest.Spares counterEnv (afterDeposit.acceptedSince [])) afterDeposit
        (.answered (mergeBuffered read.1 [])) s ∧
      (mergeBuffered read.1 []).count remoteDeposit = 1 := by
  intro read again s
  have hE := identified_remoteDeposit
  -- what the node does, evaluated
  have hfacts : ((NodeM.exec ((LifeOp.node (.flush [remoteDeposit])).program counterEnv)
        afterDeposit).1 = some () ∧
      (NodeM.exec (again.program counterEnv) read.2).1 = some ()) ∧
      afterDeposit.acceptedSince [] = [remoteDeposit] ∧ remoteDeposit ∈ read.1 ∧
      ((flushDeposit afterDeposit).minted = [] ∧ s.minted = []) ∧
      s.eventBuffer remoteDeposit.originKey = none ∧
      s.deletedBuckets.containsKey remoteDeposit.bucket = false := by decide +kernel
  obtain ⟨⟨hrun₁, hrun₂⟩, haccepted, hread, ⟨hminted₁, hminted₂⟩, hempty, halive⟩ := hfacts
  have hmarks : (LifeOp.node (.flush [remoteDeposit])).MarksStored afterDeposit := trivial
  have hstep := LifeStep.flushDeposit hrun₁ haccepted hminted₁
  have hasked := ((Serves.of_life hE safeLife_afterDeposit).operate hE hmarks hstep).1.asked
  rw [← SharedState.queryAllEvents_snd] at hasked
  have hmarks' : again.MarksStored read.2 := trivial
  have hstep' : LifeStep counterEnv {e | e ∈ [remoteDeposit]} [] again read.2 s := by
    refine ⟨exec_of_fst hrun₂, List.mem_singleton_self _, ?_⟩
    rw [hminted₂]
    exact ⟨List.nodup_nil, by simp, by simp⟩
  have hserves := (hasked.operate hE hmarks' hstep').1
  have hrun : EventsRun counterEnv {e | e ∈ [remoteDeposit]} []
      (EventsRequest.Spares counterEnv (afterDeposit.acceptedSince [])) afterDeposit
      (.answered (mergeBuffered read.1 [])) s := by
    refine .step (.step (.step (.step .begin (.operate hmarks hstep) trivial) .readStorage
      (.inl rfl)) (.operate hmarks' hstep') fun e he hnot _ => ?_)
      (.readBuffer List.nodup_nil (hserves.scan_nil hempty)) trivial
    -- the storage has returned the deposit
    rw [haccepted] at he
    rw [List.mem_singleton.1 he] at hnot
    exact absurd hread hnot
  refine ⟨hrun, listed_of_run hE safeLife_afterDeposit hrun ?_ halive⟩
  rw [haccepted]
  exact List.mem_singleton_self _

/-- The deposit is flushed between the two reads. -/
theorem not_listed_between :
    let s := (afterDeposit.queryAllEvents counterEnv).2
    Identified {e | e ∈ [remoteDeposit]} ∧
      SafeLife {e | e ∈ [remoteDeposit]} counterEnv [] afterDeposit ∧
      EventsRun counterEnv {e | e ∈ [remoteDeposit]} [] (fun _ _ _ _ => True) afterDeposit
        (.answered []) (flushDeposit s) ∧
      remoteDeposit ∈ afterDeposit.acceptedSince [] ∧
      (flushDeposit s).deletedBuckets.containsKey remoteDeposit.bucket = false := by
  intro s
  have hE := identified_remoteDeposit
  have haccepted : afterDeposit.acceptedSince [] = [remoteDeposit] := by decide +kernel
  have haccepted' : s.acceptedSince [] = [remoteDeposit] := by decide +kernel
  have hrows : (afterDeposit.queryAllEvents counterEnv).1 = [] := by decide +kernel
  have hmarks : (LifeOp.node (.flush [remoteDeposit])).MarksStored s := trivial
  have hstep := LifeStep.flushDeposit (s := s) (by decide +kernel) haccepted' (by decide +kernel)
  have hasked : Serves counterEnv {e | e ∈ [remoteDeposit]} [] (afterDeposit.acceptedSince [])
      s := by
    have hasked := (Serves.of_life hE safeLife_afterDeposit).asked
    rwa [← SharedState.queryAllEvents_snd] at hasked
  have hserves := (hasked.operate hE hmarks hstep).1
  refine ⟨hE, safeLife_afterDeposit, ?_, ?_, by decide +kernel⟩
  · have hread : EventsRun counterEnv {e | e ∈ [remoteDeposit]} [] (fun _ _ _ _ => True)
        afterDeposit (.reading []) s := by
      have hstep : EventsStep counterEnv {e | e ∈ [remoteDeposit]} [] .waiting afterDeposit
          (.reading (afterDeposit.queryAllEvents counterEnv).1) s := .readStorage
      rw [hrows] at hstep
      exact .step .begin hstep trivial
    have hbuffer : EventsStep counterEnv {e | e ∈ [remoteDeposit]} [] (.reading [])
        (flushDeposit s) (.answered (mergeBuffered [] [])) (flushDeposit s) :=
      .readBuffer List.nodup_nil (hserves.scan_nil (by decide +kernel))
    have hsort : (mergeBuffered [] []).Perm [] := sortBy_perm []
    rw [hsort.eq_nil] at hbuffer
    exact .step (.step hread (.operate hmarks hstep) trivial) hbuffer trivial
  · rw [haccepted]
    exact List.mem_singleton_self _

end Examples

end Shardd
