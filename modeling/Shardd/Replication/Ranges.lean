import Shardd.Lib.Postgres
import Shardd.Replication.CatchUp

/-!
# Serving ranges (the range handler in `apps/node/src/server.rs`)

A peer asks for the events of a key with seqs from a range it chooses.  The handler takes those that
are buffered, decides from their number whether they can be all, and otherwise asks the storage as
well.  The numbers are `u64`, and the Postgres backend compares them as `i64`.
-/

namespace Shardd

open Postgres

variable {D : Type}

/-! ## The two sources -/

/-- `get_events_from_buffer`. -/
def SharedState.getEventsFromBuffer (s : SharedState D) (key : EpochKey) (fromSeq toSeq : ℕ) :
    List Event :=
  (List.range' fromSeq (toSeq + 1 - fromSeq)).filterMap fun seq => s.eventBuffer (key.at seq)

/-- What becomes of a query. -/
inductive QueryResult
  | rows (events : List Event)
  | error
  | panic

namespace Storage

variable (st : Storage D) (req : RangeRequest)

/-- `query_events_range` of the in-memory backend; a `BTreeMap` panics on a range that ends before
it starts. -/
def queryEventsRange : QueryResult :=
  if req.toSeq < req.fromSeq then .panic
  else .rows ((st.events.filter fun e =>
    e.epochKey = req.key ∧ req.fromSeq ≤ e.originSeq ∧ e.originSeq ≤ req.toSeq).insertionSort
      fun a b => a.originSeq ≤ b.originSeq)

/-- `query_events_range` of the Postgres backend; the connection may fail, and the server takes no
text with a NUL. -/
def pgQueryEventsRange (fails : Bool) : QueryResult :=
  if fails = true ∨ ¬ NulFree req.bucket ∨ ¬ NulFree req.originNodeId then .error
  else .rows ((st.events.filter fun e =>
    e.epochKey = req.key ∧ bindBigint req.fromSeq ≤ bindBigint e.originSeq ∧
      bindBigint e.originSeq ≤ bindBigint req.toSeq).insertionSort
        fun a b => bindBigint a.originSeq ≤ bindBigint b.originSeq)

end Storage

inductive StorageBackend
  | memory
  | postgres (fails : Bool)

def StorageBackend.queryEventsRange (backend : StorageBackend) (st : Storage D)
    (req : RangeRequest) : QueryResult :=
  match backend with
  | .memory => st.queryEventsRange req
  | .postgres fails => st.pgQueryEventsRange req fails

/-! ## The handler -/

/-- `to_seq - from_seq + 1`, as it comes out in a release build. -/
def RangeRequest.expected (req : RangeRequest) : ℕ :=
  (req.toSeq + 2 ^ 64 - req.fromSeq + 1) % 2 ^ 64

/-- `to_seq - from_seq` or the addition of 1 leaves the `u64`s. -/
def RangeRequest.Overflows (req : RangeRequest) : Prop :=
  req.toSeq < req.fromSeq ∨ 2 ^ 64 ≤ req.toSeq - req.fromSeq + 1

/-- The answer to a request, if there is one. -/
def rangeHandler (backend : StorageBackend) (s : SharedState D) (req : RangeRequest) :
    Option (List Event) :=
  let events := s.getEventsFromBuffer req.key req.fromSeq req.toSeq
  if events.length < req.expected then
    match backend.queryEventsRange s.storage req with
    | .rows stored =>
        some ((events ++ stored.filter fun e =>
          e.originSeq ∉ events.map Event.originSeq).insertionSort
            fun a b => a.originSeq ≤ b.originSeq)
    | .error => some events
    | .panic => none
  else some events

/-! ## What is known of a key -/

/-- The events are filed under their keys, those that are in both places are the same, and the rows
of the server hold no NUL. -/
structure SplitLog (backend : StorageBackend) (s : SharedState D) : Prop where
  buffered : ∀ k e, s.eventBuffer k = some e → e.originKey = k
  stored : (s.storage.events.map Event.originKey).Nodup
  same : ∀ e ∈ s.storage.events, ∀ e', s.eventBuffer e.originKey = some e' → e' = e
  bounded : ∀ e ∈ s.storage.events, e.originSeq < 2 ^ 64
  nulFree : ∀ fails, backend = .postgres fails → ∀ e ∈ s.storage.events,
    NulFree e.bucket ∧ NulFree e.originNodeId

/-- The event is buffered or stored. -/
def SharedState.Holds (s : SharedState D) (e : Event) : Prop :=
  s.eventBuffer e.originKey = some e ∨ e ∈ s.storage.events

/-- The event is of the key and in the range of the request. -/
def RangeRequest.Asks (req : RangeRequest) (e : Event) : Prop :=
  e.epochKey = req.key ∧ req.fromSeq ≤ e.originSeq ∧ e.originSeq ≤ req.toSeq

/-- The request is answered without overflow, with the known events it asks for, each once and in
ascending order. -/
structure RangeServed (backend : StorageBackend) (s : SharedState D) (req : RangeRequest) :
    Prop where
  fits : ¬ req.Overflows
  answer : ∃ events, rangeHandler backend s req = some events ∧
    (events.Pairwise fun a b => a.originSeq < b.originSeq) ∧
    ∀ e, e ∈ events ↔ s.Holds e ∧ req.Asks e

/-- The storage answers, and does not take the end of the range for a negative number. -/
def StorageBackend.Answers (backend : StorageBackend) (req : RangeRequest) : Prop :=
  match backend with
  | .memory => True
  | .postgres fails => fails = false ∧ ¬ (req.fromSeq < 2 ^ 63 ∧ 2 ^ 63 ≤ req.toSeq)

/-! ## The buffered part -/

section Buffered

variable {backend : StorageBackend} {s : SharedState D} {req : RangeRequest}

lemma Event.originKey_eq_at_iff {e : Event} {key : EpochKey} {seq : ℕ} :
    e.originKey = key.at seq ↔ e.epochKey = key ∧ e.originSeq = seq := by
  simp [Event.originKey, Event.epochKey, EpochKey.at, Prod.ext_iff, and_assoc]

lemma mem_getEventsFromBuffer_iff (h : SplitLog backend s) {e : Event} :
    e ∈ s.getEventsFromBuffer req.key req.fromSeq req.toSeq ↔
      s.eventBuffer e.originKey = some e ∧ req.Asks e := by
  simp only [SharedState.getEventsFromBuffer, List.mem_filterMap, List.mem_range'_1]
  constructor
  · rintro ⟨seq, ⟨hfrom, hto⟩, he⟩
    have hkey := h.buffered _ _ he
    obtain ⟨hepoch, rfl⟩ := Event.originKey_eq_at_iff.1 hkey
    exact ⟨hkey ▸ he, hepoch, hfrom, by omega⟩
  · rintro ⟨he, hepoch, hfrom, hto⟩
    refine ⟨e.originSeq, ⟨hfrom, by omega⟩, ?_⟩
    rwa [← Event.originKey_eq_at_iff.2 ⟨hepoch, rfl⟩]

lemma pairwise_getEventsFromBuffer (h : SplitLog backend s) :
    (s.getEventsFromBuffer req.key req.fromSeq req.toSeq).Pairwise
      fun a b => a.originSeq < b.originSeq := by
  refine List.pairwise_filterMap.2 (List.Pairwise.imp ?_ List.pairwise_lt_range')
  intro seq seq' hlt e he e' he'
  have hseq := (Event.originKey_eq_at_iff.1 (h.buffered _ _ he)).2
  have hseq' := (Event.originKey_eq_at_iff.1 (h.buffered _ _ he')).2
  omega

lemma RangeRequest.expected_of_not_overflows (hfits : ¬ req.Overflows) :
    req.expected = req.toSeq + 1 - req.fromSeq := by
  unfold Overflows at hfits
  unfold expected
  have hsplit : req.toSeq + 2 ^ 64 - req.fromSeq + 1 =
      (req.toSeq + 1 - req.fromSeq) + 2 ^ 64 := by omega
  rw [hsplit, Nat.add_mod_right, Nat.mod_eq_of_lt (by omega)]

/-- As many buffered events as there are seqs are all there are. -/
lemma buffered_of_expected_le (h : SplitLog backend s) (hfits : ¬ req.Overflows)
    (hlength : req.expected ≤ (s.getEventsFromBuffer req.key req.fromSeq req.toSeq).length)
    {e : Event} (he : e ∈ s.storage.events) (hasks : req.Asks e) :
    s.eventBuffer e.originKey = some e := by
  obtain ⟨hepoch, hfrom, hto⟩ := hasks
  have hall : ∀ seq ∈ List.range' req.fromSeq (req.toSeq + 1 - req.fromSeq),
      (s.eventBuffer (req.key.at seq)).isSome = true := by
    rw [RangeRequest.expected_of_not_overflows hfits, SharedState.getEventsFromBuffer,
      List.length_filterMap_eq_countP] at hlength
    have hle := List.countP_le_length (p := fun seq => (s.eventBuffer (req.key.at seq)).isSome)
      (l := List.range' req.fromSeq (req.toSeq + 1 - req.fromSeq))
    rw [List.length_range'] at hle
    refine List.countP_eq_length.1 ?_
    rw [List.length_range']
    exact le_antisymm hle hlength
  have hkey := Event.originKey_eq_at_iff.2 ⟨hepoch, rfl⟩
  obtain ⟨e', he'⟩ := Option.isSome_iff_exists.1
    (hall e.originSeq (List.mem_range'_1.2 ⟨hfrom, by omega⟩))
  rw [← hkey] at he'
  rw [he', h.same e he e' he']

end Buffered

/-! ## The stored part -/

section Stored

variable {backend : StorageBackend} {s : SharedState D} {req : RangeRequest}

lemma nodup_originSeq_of_epochKey {events : List Event} {key : EpochKey}
    (hkeys : (events.map Event.originKey).Nodup) (hepoch : ∀ e ∈ events, e.epochKey = key) :
    (events.map Event.originSeq).Nodup := by
  refine (List.Nodup.of_map _ hkeys).map_on fun e he e' he' hseq => ?_
  refine List.inj_on_of_nodup_map hkeys he he' ?_
  exact Event.originKey_eq_iff.2 ⟨(hepoch e he).trans (hepoch e' he').symm, hseq⟩

/-- What the storage answers, when it answers rightly. -/
lemma queryEventsRange_of_answers (h : SplitLog backend s) (hto : req.toSeq < 2 ^ 64)
    (hfits : ¬ req.Overflows) (hanswers : backend.Answers req) :
    (∃ stored, backend.queryEventsRange s.storage req = .rows stored ∧
      (stored.map Event.originSeq).Nodup ∧
      ∀ e, e ∈ stored ↔ e ∈ s.storage.events ∧ req.Asks e) ∨
    backend.queryEventsRange s.storage req = .error ∧
      ∀ e ∈ s.storage.events, ¬ req.Asks e := by
  have horder : req.fromSeq ≤ req.toSeq := Nat.not_lt.1 fun hlt => hfits (.inl hlt)
  -- a filtered and sorted table, by whatever the rows are selected and ordered
  have hrows : ∀ {p : Event → Bool} {r : Event → Event → Prop} [DecidableRel r],
      (∀ e ∈ s.storage.events, p e = true ↔ req.Asks e) →
      (((s.storage.events.filter p).insertionSort r).map Event.originSeq).Nodup ∧
      ∀ e, e ∈ (s.storage.events.filter p).insertionSort r ↔
        e ∈ s.storage.events ∧ req.Asks e := by
    intro p r _ hp
    have hmem : ∀ e, e ∈ (s.storage.events.filter p).insertionSort r ↔
        e ∈ s.storage.events ∧ req.Asks e := fun e => by
      rw [List.mem_insertionSort, List.mem_filter]
      exact and_congr_right fun he => hp e he
    refine ⟨nodup_originSeq_of_epochKey ?_ fun e he => ((hmem e).1 he).2.1, hmem⟩
    have hperm := ((s.storage.events.filter p).perm_insertionSort r).map Event.originKey
    exact hperm.nodup_iff.2 (h.stored.sublist (List.filter_sublist.map _))
  cases backend with
  | memory =>
      refine .inl ⟨_, if_neg (Nat.not_lt.2 horder), hrows fun e _ => ?_⟩
      simp [RangeRequest.Asks]
  | postgres fails =>
      obtain ⟨rfl, hsign⟩ := hanswers
      by_cases hnul : NulFree req.bucket ∧ NulFree req.originNodeId
      · refine .inl ⟨_, if_neg (by simpa using hnul), hrows fun e he => ?_⟩
        rw [decide_eq_true_iff, RangeRequest.Asks,
          bindBigint_between_iff horder hto (h.bounded e he) hsign]
      · refine .inr ⟨if_pos (.inr (by tauto)), fun e he hasks => hnul ?_⟩
        obtain ⟨hbucket, horigin⟩ := h.nulFree false rfl e he
        have hkey := hasks.1
        simp only [Event.epochKey, RangeRequest.key, Prod.mk.injEq] at hkey
        exact ⟨hkey.1 ▸ hbucket, hkey.2.1 ▸ horigin⟩

/-- What the storage answers otherwise. -/
lemma queryEventsRange_of_not_answers (hto : req.toSeq < 2 ^ 64)
    (hanswers : ¬ backend.Answers req) :
    backend.queryEventsRange s.storage req = .error ∨
      backend.queryEventsRange s.storage req = .rows [] := by
  cases backend with
  | memory => exact absurd trivial hanswers
  | postgres fails =>
      by_cases herror : fails = true ∨ ¬ NulFree req.bucket ∨ ¬ NulFree req.originNodeId
      · exact .inl (if_pos herror)
      · refine .inr ((if_neg herror).trans ?_)
        have hcross : req.fromSeq < 2 ^ 63 ∧ 2 ^ 63 ≤ req.toSeq := by
          by_contra hsign
          have hfails : fails = false := by simpa using fun hfails => herror (.inl hfails)
          exact hanswers ⟨hfails, hsign⟩
        have hempty : (s.storage.events.filter fun e => e.epochKey = req.key ∧
            bindBigint req.fromSeq ≤ bindBigint e.originSeq ∧
              bindBigint e.originSeq ≤ bindBigint req.toSeq) = [] :=
          List.filter_eq_nil_iff.2 fun e _ he =>
            not_bindBigint_between hcross.1 hcross.2 hto _ (of_decide_eq_true he).2
        rw [hempty]
        rfl

/-- Buffered and stored events, each seq once and in ascending order. -/
lemma merged_spec {events stored : List Event}
    (hevents : events.Pairwise fun a b => a.originSeq < b.originSeq)
    (hstored : (stored.map Event.originSeq).Nodup) :
    (((events ++ stored.filter fun e => e.originSeq ∉ events.map Event.originSeq).insertionSort
        fun a b => a.originSeq ≤ b.originSeq).Pairwise fun a b => a.originSeq < b.originSeq) ∧
    ∀ e, e ∈ (events ++ stored.filter fun e =>
        e.originSeq ∉ events.map Event.originSeq).insertionSort
          (fun a b => a.originSeq ≤ b.originSeq) ↔
      e ∈ events ∨ e ∈ stored ∧ e.originSeq ∉ events.map Event.originSeq := by
  set extra := stored.filter fun e => e.originSeq ∉ events.map Event.originSeq with hextra
  have htotal : Std.Total fun a b : Event => a.originSeq ≤ b.originSeq :=
    ⟨fun a b => Nat.le_total a.originSeq b.originSeq⟩
  have htrans : IsTrans Event fun a b => a.originSeq ≤ b.originSeq :=
    ⟨fun _ _ _ hab hbc => Nat.le_trans hab hbc⟩
  have hnodup : ((events ++ extra).map Event.originSeq).Nodup := by
    rw [List.map_append]
    refine List.Nodup.append ?_ (hstored.sublist (List.filter_sublist.map _)) ?_
    · exact (List.pairwise_map.2 hevents).imp fun h => Nat.ne_of_lt h
    · intro seq hseq hseq'
      obtain ⟨e, he, rfl⟩ := List.mem_map.1 hseq'
      exact of_decide_eq_true (List.mem_filter.1 he).2 hseq
  constructor
  · have hsorted := List.pairwise_insertionSort (fun a b : Event => a.originSeq ≤ b.originSeq)
      (events ++ extra)
    have hdistinct := (((events ++ extra).perm_insertionSort
      fun a b => a.originSeq ≤ b.originSeq).map Event.originSeq).nodup_iff.2 hnodup
    exact (hsorted.and (List.pairwise_map.1 hdistinct)).imp fun h => Nat.lt_of_le_of_ne h.1 h.2
  · intro e
    rw [List.mem_insertionSort, List.mem_append, hextra, List.mem_filter, decide_eq_true_iff]

end Stored

/-! ## Exact answers -/

section Exact

variable {backend : StorageBackend} {s : SharedState D} {req : RangeRequest}

/-- The buffer alone, when it holds everything that is stored in the range. -/
lemma rangeServed_of_buffered (h : SplitLog backend s) (hfits : ¬ req.Overflows)
    (hanswer : rangeHandler backend s req =
      some (s.getEventsFromBuffer req.key req.fromSeq req.toSeq))
    (hall : ∀ e ∈ s.storage.events, req.Asks e → s.eventBuffer e.originKey = some e) :
    RangeServed backend s req := by
  refine ⟨hfits, _, hanswer, pairwise_getEventsFromBuffer h, fun e => ?_⟩
  rw [mem_getEventsFromBuffer_iff h]
  constructor
  · exact fun ⟨he, hasks⟩ => ⟨.inl he, hasks⟩
  · rintro ⟨he | he, hasks⟩
    · exact ⟨he, hasks⟩
    · exact ⟨hall e he hasks, hasks⟩

/-- Merged with nothing, the buffered events stay as they are. -/
lemma merged_nil (h : SplitLog backend s) :
    ((s.getEventsFromBuffer req.key req.fromSeq req.toSeq ++
        ([] : List Event).filter fun e => e.originSeq ∉
          (s.getEventsFromBuffer req.key req.fromSeq req.toSeq).map Event.originSeq).insertionSort
      fun a b => a.originSeq ≤ b.originSeq) =
      s.getEventsFromBuffer req.key req.fromSeq req.toSeq := by
  rw [List.filter_nil, List.append_nil]
  exact ((pairwise_getEventsFromBuffer h).imp fun h => Nat.le_of_lt h).insertionSort_eq

lemma rangeHandler_of_enough
    (hlength : req.expected ≤ (s.getEventsFromBuffer req.key req.fromSeq req.toSeq).length) :
    rangeHandler backend s req = some (s.getEventsFromBuffer req.key req.fromSeq req.toSeq) :=
  if_neg (Nat.not_lt.2 hlength)

lemma rangeHandler_of_not_answers (h : SplitLog backend s) (hto : req.toSeq < 2 ^ 64)
    (hanswers : ¬ backend.Answers req) :
    rangeHandler backend s req = some (s.getEventsFromBuffer req.key req.fromSeq req.toSeq) := by
  unfold rangeHandler
  dsimp only
  split
  · rcases queryEventsRange_of_not_answers (s := s) hto hanswers with hquery | hquery
    · rw [hquery]
    · rw [hquery]
      exact congrArg some (merged_nil h)
  · rfl

/-- The answer of a storage that answers is put together rightly. -/
lemma rangeServed_of_answers (h : SplitLog backend s) (hto : req.toSeq < 2 ^ 64)
    (hfits : ¬ req.Overflows) (hanswers : backend.Answers req) : RangeServed backend s req := by
  by_cases hlength :
      req.expected ≤ (s.getEventsFromBuffer req.key req.fromSeq req.toSeq).length
  · exact rangeServed_of_buffered h hfits (rangeHandler_of_enough hlength) fun e =>
      buffered_of_expected_le h hfits hlength
  rcases queryEventsRange_of_answers h hto hfits hanswers with
    ⟨stored, hquery, hnodup, hstored⟩ | ⟨hquery, hnone⟩
  · have hevents : (s.getEventsFromBuffer req.key req.fromSeq req.toSeq).Pairwise
        fun a b => a.originSeq < b.originSeq := pairwise_getEventsFromBuffer h
    obtain ⟨hsorted, hmerged⟩ := merged_spec hevents hnodup
    refine ⟨hfits, _, ?_, hsorted, fun e => ?_⟩
    · unfold rangeHandler
      dsimp only
      rw [if_pos (Nat.not_le.1 hlength), hquery]
    · rw [hmerged, mem_getEventsFromBuffer_iff h, hstored]
      constructor
      · rintro (⟨he, hasks⟩ | ⟨⟨he, hasks⟩, -⟩)
        · exact ⟨.inl he, hasks⟩
        · exact ⟨.inr he, hasks⟩
      · rintro ⟨he | he, hasks⟩
        · exact .inl ⟨he, hasks⟩
        by_cases hseq : e.originSeq ∈
            (s.getEventsFromBuffer req.key req.fromSeq req.toSeq).map Event.originSeq
        · -- a buffered event with this seq is the same event
          obtain ⟨e', he', hseq⟩ := List.mem_map.1 hseq
          obtain ⟨hbuffered, hasks'⟩ := (mem_getEventsFromBuffer_iff h).1 he'
          have hkey : e'.originKey = e.originKey :=
            Event.originKey_eq_iff.2 ⟨hasks'.1.trans hasks.1.symm, hseq⟩
          obtain rfl := h.same e he e' (hkey ▸ hbuffered)
          exact .inl ⟨hbuffered, hasks⟩
        · exact .inr ⟨⟨he, hasks⟩, hseq⟩
  · refine rangeServed_of_buffered h hfits ?_ fun e he hasks => absurd hasks (hnone e he)
    unfold rangeHandler
    dsimp only
    rw [if_pos (Nat.not_le.1 hlength), hquery]

/-- **Serving ranges.**  A request is answered rightly exactly when its length is a `u64` and either
the storage answers and its end is not taken for a negative number, or all that is stored in the
range is buffered as well. -/
theorem rangeServed_iff (h : SplitLog backend s) (hto : req.toSeq < 2 ^ 64) :
    RangeServed backend s req ↔
      ¬ req.Overflows ∧ (backend.Answers req ∨
        ∀ e ∈ s.storage.events, req.Asks e → s.eventBuffer e.originKey = some e) := by
  constructor
  · rintro ⟨hfits, events, hanswer, -, hmem⟩
    refine ⟨hfits, or_iff_not_imp_left.2 fun hanswers e he hasks => ?_⟩
    rw [rangeHandler_of_not_answers h hto hanswers] at hanswer
    obtain rfl := Option.some.inj hanswer
    exact ((mem_getEventsFromBuffer_iff h).1 ((hmem e).2 ⟨.inr he, hasks⟩)).1
  · rintro ⟨hfits, hor⟩
    by_cases hanswers : backend.Answers req
    · exact rangeServed_of_answers h hto hfits hanswers
    · exact rangeServed_of_buffered h hfits (rangeHandler_of_not_answers h hto hanswers)
        (hor.resolve_left hanswers)

end Exact

/-! ## Three requests -/

section Requests

def bucketKey : EpochKey := ("bucket", "n1", 1)

/-- The event `e1` is in the storage and no longer in the buffer. -/
def flushedState : SharedState Unit :=
  SharedState.blank { Storage.empty with events := [firstEvent "e1" bucketKey] }

def requestOf (fromSeq toSeq : ℕ) : RangeRequest := ⟨"bucket", "n1", 1, fromSeq, toSeq⟩

lemma splitLog_flushedState (backend : StorageBackend) : SplitLog backend flushedState where
  buffered k e he := by cases he
  stored := List.nodup_singleton _
  same e _ e' he' := by cases he'
  bounded e he := by
    obtain rfl := List.mem_singleton.1 he
    decide
  nulFree fails _ e he := by
    obtain rfl := List.mem_singleton.1 he
    decide

theorem rangeServed_flushed : RangeServed (.postgres false) flushedState (requestOf 1 5000) :=
  (rangeServed_iff (splitLog_flushedState _) (by decide)).2
    ⟨by unfold RangeRequest.Overflows; decide, .inl ⟨rfl, by decide⟩⟩

/-- The range ends before it starts, it is all there is, or its end is no `i64`. -/
theorem not_rangeServed :
    ¬ RangeServed .memory flushedState (requestOf 2 1) ∧
      ¬ RangeServed .memory flushedState (requestOf 0 (2 ^ 64 - 1)) ∧
      ¬ RangeServed (.postgres false) flushedState (requestOf 1 (2 ^ 63)) := by
  refine ⟨fun h => h.fits (.inl (by decide)), fun h => h.fits (.inr (by decide)), fun h => ?_⟩
  obtain ⟨events, hanswer, -, hmem⟩ := h.answer
  have hnone : rangeHandler (.postgres false) flushedState (requestOf 1 (2 ^ 63)) =
      some (flushedState.getEventsFromBuffer bucketKey 1 (2 ^ 63)) :=
    rangeHandler_of_not_answers (splitLog_flushedState _) (by decide) fun h => h.2 (by decide)
  have hempty : flushedState.getEventsFromBuffer bucketKey 1 (2 ^ 63) = [] :=
    List.filterMap_eq_nil_iff.2 fun seq _ => rfl
  rw [hnone, hempty] at hanswer
  obtain rfl := Option.some.inj hanswer
  exact List.not_mem_nil ((hmem _).2 ⟨.inr List.mem_cons_self, rfl, by decide, by decide⟩)

end Requests

end Shardd
