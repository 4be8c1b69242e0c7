import Shardd.Node.Calls
import Shardd.Postgres.Events

/-!
# Flushes and orphan scans against Postgres

`BatchWriter::do_flush` and a round of the orphan detector when the storage is Postgres and is
available.  Both hand many events to one bulk insertion and take any error for the failure of all:
nothing is marked as persisted then.  An event that the server refuses for good makes every
insertion fail that it is part of, and the scan takes it along every time.
-/

namespace Shardd

open Postgres

variable {D : Type}

/-- The events table, and the state of the node that writes to it. -/
structure PgNode (D : Type) where
  table : EventsTable
  shared : SharedState D

namespace PgNode

variable (n : PgNode D)

/-- `do_flush`; a failure is only logged. -/
def doFlush (events : List Event) : PgNode D :=
  match n.table.insertEventsBulk events with
  | (.ok _, table) => ⟨table, n.shared.markPersisted (events.map Event.originKey)⟩
  | (.error _, table) => { n with table := table }

/-- One round of the orphan detector.  A failure is only logged. -/
def scanOrphans (keys : List OriginKey) (cutoff : ℕ) : PgNode D :=
  let orphans := n.shared.unpersistedEvents cutoff keys
  if orphans = [] then n
  else
    match n.table.insertEventsBulk orphans with
    | (.ok _, table) => ⟨table, n.shared.markPersisted (orphans.map Event.originKey)⟩
    | (.error _, table) => { n with table := table }

end PgNode

/-- The server refuses the event for good: it does not take its texts or its note, or the
`event_id` is stored under another origin key. -/
def Refused (t : EventsTable) (e : Event) : Prop :=
  ¬ e.Storable ∨ ∃ x ∈ t.rows, x.eventId = e.eventId ∧ x.originKey ≠ e.originKey

/-- Events the node has accepted and not yet marked as persisted, old enough for a scan.  The buffer
files events under their origin keys, and of one origin key a node accepts one event. -/
structure Awaiting (n : PgNode D) (cutoff : ℕ) (events : List Event) : Prop where
  keyed : ∀ k x, n.shared.eventBuffer k = some x → x.originKey = k
  buffered : ∀ e ∈ events, n.shared.eventBuffer e.originKey = some e
  due : ∀ e ∈ events, ∃ ms, n.shared.unpersisted e.originKey = some ms ∧ ms ≤ cutoff
  stored : ∀ e ∈ events, e.originKey ∈ n.table.rows.map Event.originKey → e ∈ n.table.rows

/-- The event is durable, and the node knows. -/
def PgNode.Persisted (n : PgNode D) (e : Event) : Prop :=
  e ∈ n.table.rows ∧ n.shared.unpersisted e.originKey = none

/-! ## What is marked -/

lemma SharedState.unpersisted_markPersisted (s : SharedState D) (keys : List OriginKey)
    (k : OriginKey) :
    (s.markPersisted keys).unpersisted k = if k ∈ keys then none else s.unpersisted k := by
  have hstep : ∀ (s : SharedState D) key,
      (s.markPersistedKey key).unpersisted = s.unpersisted.remove key := by
    intro s key
    unfold markPersistedKey
    dsimp only
    split <;> rfl
  induction keys generalizing s with
  | nil => rfl
  | cons key keys ih =>
      show ((s.markPersistedKey key).markPersisted keys).unpersisted k = _
      rw [ih, hstep, Map.remove_apply]
      by_cases hk : k = key
      · simp [hk]
      · simp [hk]

namespace PgNode

variable {n : PgNode D} {events : List Event} {e : Event}

lemma rows_subset_insertEventsBulk {t : EventsTable} :
    t.rows ⊆ (t.insertEventsBulk events).2.rows := by
  obtain ⟨new, hrows, -⟩ := t.insertChunks_rows
    (chunksOf EventsTable.chunk events.length (events.insertionSort byOriginKey))
  rw [EventsTable.insertEventsBulk, hrows]
  exact List.subset_append_left _ _

lemma of_mem_insertEventsBulk {t : EventsTable} (h : e ∈ (t.insertEventsBulk events).2.rows) :
    e ∈ t.rows ∨ e ∈ events := by
  obtain ⟨new, hrows, hsub⟩ := t.insertChunks_rows
    (chunksOf EventsTable.chunk events.length (events.insertionSort byOriginKey))
  rw [EventsTable.insertEventsBulk, hrows, List.mem_append] at h
  refine h.imp id fun hnew => ?_
  have hmem := hsub hnew
  rw [flatten_chunks] at hmem
  exact (List.mem_insertionSort _).1 hmem

lemma doFlush_of_clean (h : Clean n.table events) :
    n.doFlush events = ⟨(n.table.insertEventsBulk events).2,
      n.shared.markPersisted (events.map Event.originKey)⟩ := by
  obtain ⟨hok, -⟩ := insertEventsBulk_of_clean h
  unfold doFlush
  split
  · rename_i hres
    rw [hres]
  · rename_i hres
    rw [hres] at hok
    cases hok

lemma doFlush_of_not_clean (h : ¬ Clean n.table events) :
    n.doFlush events = { n with table := (n.table.insertEventsBulk events).2 } := by
  obtain ⟨err, herr⟩ := insertEventsBulk_of_not_clean h
  unfold doFlush
  split
  · rename_i hres
    rw [hres] at herr
    cases herr
  · rename_i hres
    rw [hres]

/-- A scan is the flush of what it finds. -/
lemma scanOrphans_eq (keys : List OriginKey) (cutoff : ℕ) :
    n.scanOrphans keys cutoff = n ∨
      n.scanOrphans keys cutoff = n.doFlush (n.shared.unpersistedEvents cutoff keys) := by
  unfold scanOrphans
  dsimp only
  split
  · exact .inl rfl
  · exact .inr rfl

/-- What is persisted stays so. -/
lemma Persisted.doFlush (h : n.Persisted e) : (n.doFlush events).Persisted e := by
  by_cases hclean : Clean n.table events
  · rw [doFlush_of_clean hclean]
    refine ⟨rows_subset_insertEventsBulk h.1, ?_⟩
    show (n.shared.markPersisted _).unpersisted _ = none
    rw [SharedState.unpersisted_markPersisted, h.2, ite_self]
  · rw [doFlush_of_not_clean hclean]
    exact ⟨rows_subset_insertEventsBulk h.1, h.2⟩

lemma Persisted.scanOrphans {keys : List OriginKey} {cutoff : ℕ} (h : n.Persisted e) :
    (n.scanOrphans keys cutoff).Persisted e := by
  rcases n.scanOrphans_eq keys cutoff with heq | heq
  · rwa [heq]
  · rw [heq]
    exact h.doFlush

end PgNode

/-! ## A flush and a scan -/

namespace Awaiting

variable {n : PgNode D} {cutoff : ℕ} {events : List Event} {e : Event}

lemma opens_iff {t : EventsTable} {l : List Event}
    (hbuffered : ∀ x ∈ l, n.shared.eventBuffer x.originKey = some x) :
    Opens t l e ↔ e.originKey ∉ t.rows.map Event.originKey ∧ e ∈ l := by
  refine and_congr_right fun _ => ⟨List.mem_of_find?_eq_some, fun he => ?_⟩
  cases hfind : l.find? fun x => x.originKey = e.originKey with
  | none => exact absurd (decide_eq_true rfl) (List.find?_eq_none.1 hfind e he)
  | some y =>
      have hy := hbuffered y (List.mem_of_find?_eq_some hfind)
      have hkey : y.originKey = e.originKey := by simpa using List.find?_some hfind
      rw [hkey, hbuffered e he] at hy
      exact hy.symm

/-- Rows of one `event_id` are one row. -/
lemma eq_of_eventId_eq {t : EventsTable} {x y : Event} (hx : x ∈ t.rows) (hy : y ∈ t.rows)
    (h : x.eventId = y.eventId) : x = y :=
  List.inj_on_of_nodup_map t.primary hx hy h

/-- For events of which a node has accepted one for each key, when an insertion goes through. -/
lemma clean_iff (h : Awaiting n cutoff events) :
    Clean n.table events ↔ (∀ e ∈ events, ¬ Refused n.table e) ∧
      ∀ e ∈ events, ∀ e' ∈ events, e.eventId = e'.eventId → e = e' := by
  constructor
  · intro hclean
    have hfresh : ∀ e ∈ events, e ∉ n.table.rows →
        e.eventId ∉ n.table.rows.map Event.eventId := fun e he hnew =>
      hclean.fresh e ((opens_iff h.buffered).2 ⟨fun hkey => hnew (h.stored e he hkey), he⟩)
    refine ⟨fun e he hrefused => ?_, fun e he e' he' hid => ?_⟩
    · rcases hrefused with hbad | ⟨x, hx, hid, hne⟩
      · exact hbad (hclean.storable e he)
      · by_cases hstored : e ∈ n.table.rows
        · exact hne (congrArg _ (eq_of_eventId_eq hx hstored hid))
        · exact hfresh e he hstored (hid ▸ List.mem_map_of_mem hx)
    · by_cases hstored : e ∈ n.table.rows
      · by_cases hstored' : e' ∈ n.table.rows
        · exact eq_of_eventId_eq hstored hstored' hid
        · exact absurd (hid ▸ List.mem_map_of_mem hstored) (hfresh e' he' hstored')
      · by_cases hstored' : e' ∈ n.table.rows
        · exact absurd (hid ▸ List.mem_map_of_mem hstored') (hfresh e he hstored)
        · exact hclean.distinct e e'
            ((opens_iff h.buffered).2 ⟨fun hkey => hstored (h.stored e he hkey), he⟩)
            ((opens_iff h.buffered).2 ⟨fun hkey => hstored' (h.stored e' he' hkey), he'⟩) hid
  · rintro ⟨hgood, hids⟩
    refine ⟨fun e he => ?_, fun e hopens hid => ?_, fun e e' hopens hopens' => ?_⟩
    · exact not_not.1 fun hbad => hgood e he (.inl hbad)
    · obtain ⟨hkey, he⟩ := (opens_iff h.buffered).1 hopens
      obtain ⟨x, hx, heq⟩ := List.mem_map.1 hid
      refine hgood e he (.inr ⟨x, hx, heq, fun hsame => hkey ?_⟩)
      exact hsame ▸ List.mem_map_of_mem hx
    · exact hids e ((opens_iff h.buffered).1 hopens).2 e' ((opens_iff h.buffered).1 hopens').2

/-- What an insertion has left behind does not help: if a later one that takes these events along
goes through, so would one of these events alone have done. -/
lemma clean_of_later (h : Awaiting n cutoff events) {orphans : List Event}
    (hbuffered : ∀ x ∈ orphans, n.shared.eventBuffer x.originKey = some x)
    (hsub : events ⊆ orphans)
    (hclean : Clean (n.table.insertEventsBulk events).2 orphans) : Clean n.table events := by
  set t' := (n.table.insertEventsBulk events).2 with ht'
  have hrows : n.table.rows ⊆ t'.rows := PgNode.rows_subset_insertEventsBulk
  -- an event that is new to the first table is a row of the second or new to it as well
  have hlater : ∀ e ∈ events, e ∈ t'.rows ∨ Opens t' orphans e := by
    intro e he
    by_cases hkey : e.originKey ∈ t'.rows.map Event.originKey
    · obtain ⟨x, hx, heq⟩ := List.mem_map.1 hkey
      rcases PgNode.of_mem_insertEventsBulk hx with hold | hnew
      · exact .inl (hrows (h.stored e he (heq ▸ List.mem_map_of_mem hold)))
      · have hxe := h.buffered x hnew
        rw [heq, h.buffered e he] at hxe
        exact .inl (Option.some.inj hxe ▸ hx)
    · exact .inr ((opens_iff hbuffered).2 ⟨hkey, hsub he⟩)
  refine ⟨fun e he => hclean.storable e (hsub he), fun e hopens hid => ?_,
    fun e e' hopens hopens' hid => ?_⟩
  · obtain ⟨hkey, he⟩ := (opens_iff h.buffered).1 hopens
    obtain ⟨x, hx, heq⟩ := List.mem_map.1 hid
    rcases hlater e he with hrow | hopens'
    · obtain rfl := eq_of_eventId_eq (hrows hx) hrow heq
      exact hkey (List.mem_map_of_mem hx)
    · exact hclean.fresh e hopens' (heq ▸ List.mem_map_of_mem (hrows hx))
  · have he := ((opens_iff h.buffered).1 hopens).2
    have he' := ((opens_iff h.buffered).1 hopens').2
    rcases hlater e he with hrow | hlast
    · rcases hlater e' he' with hrow' | hlast'
      · exact eq_of_eventId_eq hrow hrow' hid
      · exact absurd (hid ▸ List.mem_map_of_mem hrow) (hclean.fresh e' hlast')
    · rcases hlater e' he' with hrow' | hlast'
      · exact absurd (hid ▸ List.mem_map_of_mem hrow') (hclean.fresh e hlast)
      · exact hclean.distinct e e' hlast hlast' hid

/-- A flush that goes through persists its events. -/
lemma persisted_doFlush (h : Awaiting n cutoff events) (hclean : Clean n.table events)
    (he : e ∈ events) : (n.doFlush events).Persisted e := by
  rw [PgNode.doFlush_of_clean hclean]
  constructor
  · by_cases hkey : e.originKey ∈ n.table.rows.map Event.originKey
    · exact PgNode.rows_subset_insertEventsBulk (h.stored e he hkey)
    · have hopens := (opens_iff h.buffered).2 ⟨hkey, he⟩
      obtain ⟨-, hrows⟩ := insertEventsBulk_of_clean hclean
      exact hrows.mem_iff.2 (List.mem_append_right _ (mem_firsts_iff_opens.2 hopens))
  · show (n.shared.markPersisted _).unpersisted _ = none
    rw [SharedState.unpersisted_markPersisted, if_pos (List.mem_map_of_mem he)]

/-- The scan meets every event that is due. -/
lemma mem_unpersistedEvents (h : Awaiting n cutoff events) {keys : List OriginKey}
    (hkeys : ∀ k, n.shared.unpersisted k ≠ none → k ∈ keys) (he : e ∈ events) :
    e ∈ n.shared.unpersistedEvents cutoff keys := by
  obtain ⟨ms, hms, hle⟩ := h.due e he
  refine List.mem_filterMap.2 ⟨e.originKey, List.mem_filter.2 ⟨?_, ?_⟩, h.buffered e he⟩
  · exact hkeys _ (by rw [hms]; nofun)
  · simpa [hms] using hle

/-- A flush that fails, and the scan after it, mark nothing. -/
lemma unpersisted_of_not_clean (h : Awaiting n cutoff events) {keys : List OriginKey}
    (hkeys : ∀ k, n.shared.unpersisted k ≠ none → k ∈ keys) (hbad : ¬ Clean n.table events) :
    ((n.doFlush events).scanOrphans keys cutoff).shared = n.shared := by
  rw [PgNode.doFlush_of_not_clean hbad]
  set n' : PgNode D := { n with table := (n.table.insertEventsBulk events).2 }
  rcases n'.scanOrphans_eq keys cutoff with heq | heq
  · rw [heq]
  · rw [heq]
    have hstill : ¬ Clean n'.table (n'.shared.unpersistedEvents cutoff keys) := by
      refine fun hclean => hbad (h.clean_of_later (fun x hx => ?_) (fun e he => ?_) hclean)
      · obtain ⟨k, -, hk⟩ := List.mem_filterMap.1 hx
        exact (h.keyed k x hk).symm ▸ hk
      · exact h.mem_unpersistedEvents hkeys he
    rw [PgNode.doFlush_of_not_clean hstill]

end Awaiting

/-- **When a bad event does not block the others.**  For events that a node has accepted and that
are due: a flush of a batch of them and a scan persist every one that is not refused exactly when
none is refused and no two share an `event_id`, or all are refused.  One bad event blocks the
whole batch. -/
theorem good_events_persisted_iff {n : PgNode D} {cutoff : ℕ} {events : List Event}
    {keys : List OriginKey} (h : Awaiting n cutoff events)
    (hkeys : ∀ k, n.shared.unpersisted k ≠ none → k ∈ keys) :
    (∀ e ∈ events, ¬ Refused n.table e →
      ((n.doFlush events).scanOrphans keys cutoff).Persisted e) ↔
    ((∀ e ∈ events, ¬ Refused n.table e) ∧
      ∀ e ∈ events, ∀ e' ∈ events, e.eventId = e'.eventId → e = e') ∨
    ∀ e ∈ events, Refused n.table e := by
  rw [← h.clean_iff]
  constructor
  · intro hall
    refine or_iff_not_imp_left.2 fun hbad e he => not_not.1 fun hgood => ?_
    have hpersisted := (hall e he hgood).2
    rw [h.unpersisted_of_not_clean hkeys hbad] at hpersisted
    obtain ⟨ms, hms, -⟩ := h.due e he
    rw [hms] at hpersisted
    cases hpersisted
  · rintro (hclean | hrefused) e he hgood
    · exact (h.persisted_doFlush hclean he).scanOrphans
    · exact absurd (hrefused e he) hgood

/-- A deposit of 5, made at time 10. -/
private def received (eventId account : String) (seq : ℕ) : Event :=
  { eventId, originNodeId := "n1", originEpoch := 1, originSeq := seq, createdAtUnixMs := 10,
    type := .standard, bucket := "main", account, amount := 5, note := none,
    idempotencyNonce := eventId, voidRef := none, holdAmount := 0, holdExpiresAtUnixMs := 0,
    transferTo := none }

/-- Two accepted events, and an empty table. -/
private def accepting (e e' : Event) : PgNode Unit where
  table := ⟨[], List.nodup_nil, List.nodup_nil⟩
  shared := ((SharedState.blank Storage.empty).storeEventBuffer e).storeEventBuffer e'

private lemma awaiting_accepting {e e' : Event} (hne : e.originKey ≠ e'.originKey) {cutoff : ℕ}
    (hdue : e.createdAtUnixMs ≤ cutoff ∧ e'.createdAtUnixMs ≤ cutoff) :
    Awaiting (accepting e e') cutoff [e, e'] where
  keyed k x hx := by
    rcases Map.of_insert hx with hx | ⟨rfl, rfl⟩
    · rcases Map.of_insert hx with hx | ⟨rfl, rfl⟩
      · cases hx
      · rfl
    · rfl
  buffered x hx := by
    rcases List.mem_pair.1 hx with rfl | rfl
    · exact (Map.insert_of_ne _ _ _ hne).trans (Map.insert_self ..)
    · exact Map.insert_self ..
  due x hx := by
    rcases List.mem_pair.1 hx with rfl | rfl
    · exact ⟨_, (Map.insert_of_ne _ _ _ hne).trans (Map.insert_self ..), hdue.1⟩
    · exact ⟨_, Map.insert_self .., hdue.2⟩
  stored _ _ hkey := absurd hkey List.not_mem_nil

/-- Two events that the server takes. -/
theorem good_events_persisted_two :
    let n := accepting (received "e1" "alice" 1) (received "e2" "bob" 2)
    let keys := [(received "e1" "alice" 1).originKey, (received "e2" "bob" 2).originKey]
    ∀ e ∈ [received "e1" "alice" 1, received "e2" "bob" 2], ¬ Refused n.table e →
      ((n.doFlush [received "e1" "alice" 1, received "e2" "bob" 2]).scanOrphans keys 100).Persisted
        e := by
  intro n keys
  have hkeys : ∀ k, n.shared.unpersisted k ≠ none → k ∈ keys := by
    intro k hk
    obtain ⟨ms, hms⟩ := Option.ne_none_iff_exists'.1 hk
    rcases Map.of_insert hms with hms | ⟨rfl, -⟩
    · rcases Map.of_insert hms with hms | ⟨rfl, -⟩
      · cases hms
      · exact List.mem_cons_self
    · exact List.mem_cons_of_mem _ List.mem_cons_self
  refine (good_events_persisted_iff (awaiting_accepting (by decide) (by decide)) hkeys).2 (.inl ?_)
  refine ⟨fun e he hrefused => ?_, by decide⟩
  rcases hrefused with hbad | ⟨x, hx, -⟩
  · rcases List.mem_pair.1 he with rfl | rfl
    · exact hbad (by decide)
    · exact hbad (by decide)
  · cases hx

/-- A good event in a batch with one whose account is the NUL character. -/
theorem good_event_blocked :
    let good := received "e1" "alice" 1
    let bad := received "e2" (String.ofList [Char.ofNat 0]) 2
    let n := accepting good bad
    Awaiting n 100 [good, bad] ∧ ¬ Refused n.table good ∧
      ¬ ((n.doFlush [good, bad]).scanOrphans [good.originKey, bad.originKey] 100).Persisted
        good := by
  refine ⟨awaiting_accepting (by decide) (by decide), ?_, fun h => ?_⟩
  · rintro (hbad | ⟨x, hx, -⟩)
    · exact hbad (by decide)
    · cases hx
  · have hmarked := h.2
    revert hmarked
    decide

end Shardd
