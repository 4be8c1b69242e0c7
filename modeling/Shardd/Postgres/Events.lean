import Shardd.Lib.Postgres
import Shardd.Node.Startup

/-!
# The events table of the Postgres backend (`libs/storage/src/postgres.rs`)

`insert_event` and `insert_events_bulk` as the statements they issue, over the table of the
migrations: `event_id` is the primary key, the origin key is unique and the one that `ON CONFLICT`
names, and a note has at most 4096 characters.  A row is the event itself, since the casts to `i32`
and `i64` under which the numbers are bound lose nothing.

The in-memory backend, which the tests run on, looks for a taken `event_id` first and never fails.
-/

namespace Shardd

open Postgres

/-- The text columns of an event. -/
def Event.texts (e : Event) : List String :=
  [e.eventId, e.bucket, e.originNodeId, e.type.display, e.account, e.idempotencyNonce] ++
    e.note.toList ++ e.voidRef.toList ++ e.transferTo.toList

/-- The server takes the event's texts, and `chk_events_note_length` its note. -/
def Event.Storable (e : Event) : Prop :=
  (∀ s ∈ e.texts, NulFree s) ∧ ∀ s ∈ e.note, s.length ≤ maxEventNoteChars

instance : DecidablePred Event.Storable := fun _ => inferInstanceAs (Decidable (_ ∧ _))

/-- What the column types and the check say. -/
def Event.admitted (e : Event) : Except StatementError Unit :=
  if ∀ s ∈ e.texts, NulFree s then
    if ∀ s ∈ e.note, s.length ≤ maxEventNoteChars then .ok () else .error .checkViolation
  else .error .characterNotInRepertoire

lemma Event.admitted_eq_ok_iff {e : Event} : e.admitted = .ok () ↔ e.Storable := by
  unfold admitted
  split
  · rename_i htexts
    rw [Storable, and_iff_right htexts]
    split
    · rename_i hnote
      exact iff_of_true rfl hnote
    · rename_i hnote
      exact iff_of_false nofun hnote
  · rename_i htexts
    exact iff_of_false nofun fun h => htexts h.1

/-- The constraints of the table `events`. -/
def eventConstraints : Constraints Event OriginKey String where
  arbiter := Event.originKey
  primaryKey := Event.eventId
  admits := Event.admitted

abbrev EventsTable := Table eventConstraints

namespace EventsTable

variable (t : EventsTable)

def insertEvent (e : Event) : Except StatementError (InsertResult × EventsTable) :=
  match t.insert [e] with
  | .error err => .error err
  | .ok (affected, t') =>
      if affected = 1 then .ok (.inserted, t')
      else
        match t'.rows.find? fun x => x.originKey = e.originKey with
        | some old => .ok (if old.eventId = e.eventId then .duplicate else .conflict, t')
        | none => .ok (.duplicate, t')

/-- Parameters of a statement are limited, so the sorted events go in pieces of this size. -/
def chunk : ℕ := 4096

/-- The pieces before one that fails stay inserted. -/
def insertEventsBulk (events : List Event) : Except StatementError ℕ × EventsTable :=
  t.insertChunks (chunksOf chunk events.length (events.insertionSort byOriginKey))

end EventsTable

/-- `insert_events_bulk` of the in-memory backend, with the number it returns. -/
def Storage.insertEventsBulkCounted {D : Type} (st : Storage D) (es : List Event) :
    ℕ × Storage D :=
  es.foldl (fun r e =>
    let (result, st') := r.2.insertEvent e
    (if result = .inserted then r.1 + 1 else r.1, st')) (0, st)

/-! ## The bulk insertion as one statement -/

section

variable {t : EventsTable} {events : List Event}

/-- The first event of its origin key among these, which is not stored yet. -/
def Opens (t : EventsTable) (events : List Event) (e : Event) : Prop :=
  e.originKey ∉ t.rows.map Event.originKey ∧
    events.find? (fun x => x.originKey = e.originKey) = some e

/-- The server takes every event, and those that open an origin key have ids of their own. -/
structure Clean (t : EventsTable) (events : List Event) : Prop where
  storable : ∀ e ∈ events, e.Storable
  fresh : ∀ e, Opens t events e → e.eventId ∉ t.rows.map Event.eventId
  distinct : ∀ e e', Opens t events e → Opens t events e' → e.eventId = e'.eventId → e = e'

lemma mem_firsts_iff_opens {e : Event} :
    e ∈ firsts eventConstraints t.rows events ↔ Opens t events e :=
  mem_firsts_iff

lemma opens_insertionSort_iff {e : Event} :
    Opens t (events.insertionSort byOriginKey) e ↔ Opens t events e := by
  have htotal : Std.Total byOriginKey := ⟨fun a b => le_total _ _⟩
  have htrans : IsTrans Event byOriginKey := ⟨fun _ _ _ hab hbc => le_trans hab hbc⟩
  have hle : ∀ x y : Event, x.originKey = y.originKey → byOriginKey x y := by
    intro x y h
    simp only [Event.originKey, Prod.mk.injEq] at h
    obtain ⟨h₁, h₂, h₃, h₄⟩ := h
    rw [byOriginKey, h₁, h₂, h₃, h₄]
  have hfind : (events.insertionSort byOriginKey).find? (fun x => x.originKey = e.originKey) =
      events.find? fun x => x.originKey = e.originKey :=
    find?_insertionSort (c := eventConstraints) hle events e.originKey
  rw [Opens, hfind, Opens]

lemma newRows_eq_ok_iff_clean {new : List Event} :
    newRows eventConstraints t.rows events = .ok new ↔
      Clean t events ∧ new = firsts eventConstraints t.rows events := by
  rw [newRows_eq_ok_iff]
  have hnodup : (firsts eventConstraints t.rows events).Nodup :=
    .of_map _ nodup_map_firsts
  constructor
  · rintro ⟨hadm, rfl, hfresh, hids⟩
    refine ⟨⟨fun e he => ?_, fun e he => ?_, fun e e' he he' => ?_⟩, rfl⟩
    · exact Event.admitted_eq_ok_iff.1 (hadm e he)
    · exact hfresh e (mem_firsts_iff_opens.2 he)
    · exact List.inj_on_of_nodup_map hids (mem_firsts_iff_opens.2 he) (mem_firsts_iff_opens.2 he')
  · rintro ⟨hclean, rfl⟩
    refine ⟨fun e he => Event.admitted_eq_ok_iff.2 (hclean.storable e he), rfl, fun e he => ?_, ?_⟩
    · exact hclean.fresh e (mem_firsts_iff_opens.1 he)
    · exact hnodup.map_on fun e he e' he' =>
        hclean.distinct e e' (mem_firsts_iff_opens.1 he) (mem_firsts_iff_opens.1 he')

lemma clean_insertionSort_iff : Clean t (events.insertionSort byOriginKey) ↔ Clean t events := by
  constructor
  · intro h
    exact ⟨fun e he => h.storable e ((List.mem_insertionSort _).2 he),
      fun e he => h.fresh e (opens_insertionSort_iff.2 he), fun e e' he he' =>
        h.distinct e e' (opens_insertionSort_iff.2 he) (opens_insertionSort_iff.2 he')⟩
  · intro h
    exact ⟨fun e he => h.storable e ((List.mem_insertionSort _).1 he),
      fun e he => h.fresh e (opens_insertionSort_iff.1 he), fun e e' he he' =>
        h.distinct e e' (opens_insertionSort_iff.1 he) (opens_insertionSort_iff.1 he')⟩

lemma flatten_chunks (events : List Event) :
    (chunksOf EventsTable.chunk events.length (events.insertionSort byOriginKey)).flatten =
      events.insertionSort byOriginKey :=
  flatten_chunksOf (by decide) (List.length_insertionSort _ _).le

/-- The events that open a key, in the order in which they are sorted, or in which they came. -/
lemma perm_firsts_insertionSort :
    (firsts eventConstraints t.rows (events.insertionSort byOriginKey)).Perm
      (firsts eventConstraints t.rows events) := by
  have hnodup : ∀ l, (firsts eventConstraints t.rows l).Nodup := fun l =>
    .of_map _ nodup_map_firsts
  rw [List.perm_ext_iff_of_nodup (hnodup _) (hnodup _)]
  intro e
  rw [mem_firsts_iff_opens, mem_firsts_iff_opens, opens_insertionSort_iff]

lemma insertEventsBulk_of_clean (h : Clean t events) :
    (t.insertEventsBulk events).1 = .ok (firsts eventConstraints t.rows events).length ∧
      (t.insertEventsBulk events).2.rows.Perm
        (t.rows ++ firsts eventConstraints t.rows events) := by
  have hnew := newRows_eq_ok_iff_clean.2 ⟨clean_insertionSort_iff.2 h, rfl⟩
  rw [← flatten_chunks] at hnew
  obtain ⟨hcount, hrows⟩ := t.insertChunks_of_ok hnew
  rw [flatten_chunks] at hcount hrows
  have hperm : (firsts eventConstraints t.rows (events.insertionSort byOriginKey)).Perm _ :=
    perm_firsts_insertionSort
  refine ⟨hcount.trans (by rw [hperm.length_eq]), ?_⟩
  rw [EventsTable.insertEventsBulk, hrows]
  exact hperm.append_left _

lemma insertEventsBulk_of_not_clean (h : ¬ Clean t events) :
    ∃ err, (t.insertEventsBulk events).1 = .error err := by
  cases hnew : newRows eventConstraints t.rows (events.insertionSort byOriginKey) with
  | ok new => exact absurd (clean_insertionSort_iff.1 (newRows_eq_ok_iff_clean.1 hnew).1) h
  | error err =>
      rw [← flatten_chunks] at hnew
      exact t.insertChunks_of_error hnew

end

/-! ## The in-memory insertion -/

namespace Storage

variable {D : Type} {st : Storage D} {e : Event}

lemma insertEvent_of_new (hkey : e.originKey ∉ st.events.map Event.originKey)
    (hid : e.eventId ∉ st.events.map Event.eventId) :
    st.insertEvent e = (.inserted, { st with events := st.events ++ [e] }) := by
  have hnoId : st.keyOfId e.eventId = none := by
    rw [keyOfId, find?_eq_none_of_notMem hid, Option.map_none]
  have hnoKey : st.eventAt e.originKey = none := find?_eq_none_of_notMem hkey
  rw [insertEvent, hnoId, hnoKey]
  rfl

lemma insertEvent_of_mem (hkey : e.originKey ∈ st.events.map Event.originKey) :
    (st.insertEvent e).1 ≠ .inserted ∧ (st.insertEvent e).2 = st := by
  obtain ⟨x, hx, heq⟩ := List.mem_map.1 hkey
  unfold insertEvent
  split
  · exact ⟨nofun, rfl⟩
  · split
    · refine ⟨?_, rfl⟩
      dsimp only
      split <;> nofun
    · rename_i hnone
      exact absurd (decide_eq_true heq) (List.find?_eq_none.1 hnone x hx)

/-- The answer where the origin key is stored. -/
lemma insertEvent_of_stored {x : Event} (hunique : (st.events.map Event.originKey).Nodup)
    (hprimary : (st.events.map Event.eventId).Nodup) (hx : x ∈ st.events)
    (hkey : x.originKey = e.originKey) :
    st.insertEvent e = (if x.eventId = e.eventId then .duplicate else .conflict, st) := by
  have hat : st.eventAt e.originKey = some x := find?_eq_some_of_nodup hunique hx hkey
  by_cases hid : x.eventId = e.eventId
  · have hown : st.keyOfId e.eventId = some e.originKey := by
      rw [keyOfId, find?_eq_some_of_nodup hprimary hx hid, Option.map_some, hkey]
    simp [insertEvent, hown, hat, hid]
  · simp [insertEvent, hat, hid]

/-- Events that open new keys under ids of their own are inserted; the others are not. -/
lemma insertEventsBulkCounted_eq {rows events : List Event} (n : ℕ) (hrows : st.events = rows)
    (hfresh : ∀ x ∈ firsts eventConstraints rows events,
      x.eventId ∉ rows.map Event.eventId)
    (hids : ((firsts eventConstraints rows events).map Event.eventId).Nodup) :
    events.foldl (fun r e =>
        let (result, st') := r.2.insertEvent e
        (if result = .inserted then r.1 + 1 else r.1, st')) (n, st) =
      (n + (firsts eventConstraints rows events).length,
        { st with events := rows ++ firsts eventConstraints rows events }) := by
  induction events generalizing st rows n with
  | nil =>
      rw [List.foldl_nil, firsts, List.append_nil, ← hrows]
      rfl
  | cons e events ih =>
      rw [List.foldl_cons]
      by_cases hkey : e.originKey ∈ rows.map Event.originKey
      · obtain ⟨hresult, hst⟩ := insertEvent_of_mem (hrows ▸ hkey : _ ∈ st.events.map _)
        rw [firsts_of_mem hkey] at hfresh hids ⊢
        dsimp only
        rw [if_neg hresult, hst]
        exact ih n hrows hfresh hids
      · rw [firsts_of_notMem hkey] at hfresh hids ⊢
        rw [List.map_cons, List.nodup_cons] at hids
        have hid := hfresh e List.mem_cons_self
        dsimp only
        rw [insertEvent_of_new (hrows ▸ hkey) (hrows ▸ hid), if_pos rfl]
        rw [ih (n + 1) (congrArg (· ++ [e]) hrows) (fun x hx => ?_) hids.2]
        · simp only [List.length_cons, List.append_assoc, List.singleton_append, Nat.add_assoc,
            Nat.add_comm 1]
        · have hne : x.eventId ≠ e.eventId := fun heq =>
            hids.1 (heq ▸ List.mem_map_of_mem hx)
          simp only [List.map_append, List.map_cons, List.map_nil, List.mem_append,
            List.mem_singleton, not_or]
          exact ⟨hfresh x (List.mem_cons_of_mem _ hx), hne⟩

end Storage

/-! ## The two backends -/

section

variable {D : Type} {t : EventsTable} {st : Storage D} {e : Event} {events : List Event}

/-- The statement and the in-memory insertion answer alike and leave the same rows. -/
def InsertsAlike (postgres : Except StatementError (InsertResult × EventsTable))
    (memory : InsertResult × Storage D) : Prop :=
  ∃ t', postgres = .ok (memory.1, t') ∧ t'.rows.Perm memory.2.events

/-- Both succeed, with the same number of rows inserted, and leave the same rows. -/
def BulkInsertsAlike (postgres : Except StatementError ℕ × EventsTable)
    (memory : ℕ × Storage D) : Prop :=
  postgres.1 = .ok memory.1 ∧ postgres.2.rows.Perm memory.2.events

lemma insertEvent_of_refused {err : StatementError}
    (h : newRows eventConstraints t.rows [e] = .error err) : t.insertEvent e = .error err := by
  rw [EventsTable.insertEvent, t.insert_of_error h]

lemma insertsAlike_of_stored (hst : st.events = t.rows) (hstorable : e.Storable)
    (hkey : e.originKey ∈ t.rows.map Event.originKey) :
    InsertsAlike (t.insertEvent e) (st.insertEvent e) := by
  have hnew : newRows eventConstraints t.rows [e] = .ok [] :=
    newRows_of_mem (Event.admitted_eq_ok_iff.2 hstorable) hkey
  obtain ⟨x, hx, heq⟩ := List.mem_map.1 hkey
  have hrows : (t.append hnew).rows = t.rows := List.append_nil _
  have hfind : ((t.append hnew).rows.find? fun x => x.originKey = e.originKey) = some x := by
    rw [hrows]
    exact find?_eq_some_of_nodup t.unique hx heq
  have hmemory := Storage.insertEvent_of_stored (e := e) (hst ▸ t.unique)
    (hst ▸ t.primary) (hst ▸ hx : x ∈ st.events) heq
  refine ⟨t.append hnew, ?_, ?_⟩
  · rw [EventsTable.insertEvent, t.insert_of_ok hnew, hmemory]
    simp [hfind]
  · rw [hmemory, hrows, hst]

lemma insertsAlike_of_new (hst : st.events = t.rows) (hstorable : e.Storable)
    (hkey : e.originKey ∉ t.rows.map Event.originKey)
    (hid : e.eventId ∉ t.rows.map Event.eventId) :
    InsertsAlike (t.insertEvent e) (st.insertEvent e) := by
  have hnew : newRows eventConstraints t.rows [e] = .ok [e] :=
    newRows_of_new (Event.admitted_eq_ok_iff.2 hstorable) hkey hid
  have hmemory : st.insertEvent e = _ := Storage.insertEvent_of_new (hst ▸ hkey) (hst ▸ hid)
  refine ⟨t.append hnew, ?_, ?_⟩
  · rw [EventsTable.insertEvent, t.insert_of_ok hnew, hmemory]
    rfl
  · rw [hmemory]
    show (t.rows ++ [e]).Perm (st.events ++ [e])
    rw [hst]

end

/-- **The two event backends.**  On the same stored events an insertion of one event has the same
outcome in both, and leaves the same rows, exactly when the server takes the event's texts and note
and its `event_id` is not stored under another origin key than its own, or its origin key is
stored; a bulk insertion exactly when the server takes every event, and the events that open a new
origin key, being the first of the batch to have it, have ids that are not stored and differ. -/
theorem event_inserts_agree_iff {D : Type} (t : EventsTable) (st : Storage D)
    (hst : st.events = t.rows) :
    (∀ e, InsertsAlike (t.insertEvent e) (st.insertEvent e) ↔
      e.Storable ∧ (e.eventId ∈ t.rows.map Event.eventId →
        e.originKey ∈ t.rows.map Event.originKey)) ∧
    ∀ events, BulkInsertsAlike (t.insertEventsBulk events) (st.insertEventsBulkCounted events) ↔
      Clean t events := by
  refine ⟨fun e => ?_, fun events => ?_⟩
  · have hrefused : ∀ err, newRows eventConstraints t.rows [e] = .error err →
        ¬ InsertsAlike (t.insertEvent e) (st.insertEvent e) := by
      rintro err herr ⟨t', ht', -⟩
      rw [insertEvent_of_refused herr] at ht'
      cases ht'
    by_cases hstorable : e.Storable
    · rw [and_iff_right hstorable]
      by_cases hkey : e.originKey ∈ t.rows.map Event.originKey
      · exact iff_of_true (insertsAlike_of_stored hst hstorable hkey) fun _ => hkey
      by_cases hid : e.eventId ∈ t.rows.map Event.eventId
      · refine iff_of_false (hrefused .uniqueViolation ?_) fun h => hkey (h hid)
        exact newRows_of_taken (Event.admitted_eq_ok_iff.2 hstorable) hkey hid
      · exact iff_of_true (insertsAlike_of_new hst hstorable hkey hid) fun h => absurd h hid
    · cases hadm : e.admitted with
      | ok u => exact absurd (Event.admitted_eq_ok_iff.1 hadm) hstorable
      | error err =>
          exact iff_of_false (hrefused err (newRows_of_refused hadm)) fun h => hstorable h.1
  · by_cases hclean : Clean t events
    · refine iff_of_true ?_ hclean
      obtain ⟨-, -, hfresh, hids⟩ := newRows_eq_ok_iff.1 (newRows_eq_ok_iff_clean.2 ⟨hclean, rfl⟩)
      have hmemory : st.insertEventsBulkCounted events = _ :=
        Storage.insertEventsBulkCounted_eq 0 hst hfresh hids
      obtain ⟨hcount, hrows⟩ := insertEventsBulk_of_clean hclean
      rw [BulkInsertsAlike, hmemory, Nat.zero_add]
      exact ⟨hcount, hrows⟩
    · refine iff_of_false (fun h => ?_) hclean
      obtain ⟨err, herr⟩ := insertEventsBulk_of_not_clean hclean
      rw [BulkInsertsAlike, herr] at h
      exact nomatch h.1

/-- A deposit of 5 on `alice`. -/
private def deposited (eventId : String) (seq : ℕ) : Event :=
  { eventId, originNodeId := "n1", originEpoch := 1, originSeq := seq, createdAtUnixMs := 0,
    type := .standard, bucket := "main", account := "alice", amount := 5, note := none,
    idempotencyNonce := eventId, voidRef := none, holdAmount := 0, holdExpiresAtUnixMs := 0,
    transferTo := none }

private def oneStored : EventsTable :=
  ⟨[deposited "e1" 1], List.nodup_singleton _, List.nodup_singleton _⟩

/-- Two new events, and one that is stored. -/
theorem event_inserts_agree_three :
    BulkInsertsAlike
      (oneStored.insertEventsBulk [deposited "e3" 3, deposited "e1" 1, deposited "e2" 2])
      ({ Storage.empty (D := Unit) with events := [deposited "e1" 1] }.insertEventsBulkCounted
        [deposited "e3" 3, deposited "e1" 1, deposited "e2" 2]) := by
  have hnew : newRows eventConstraints oneStored.rows
      [deposited "e3" 3, deposited "e1" 1, deposited "e2" 2] =
        .ok [deposited "e3" 3, deposited "e2" 2] := by
    rfl
  exact ((event_inserts_agree_iff oneStored _ rfl).2 _).2 (newRows_eq_ok_iff_clean.1 hnew).1

/-- One `event_id` under two origin keys: the statement fails, and the in-memory backend skips the
event. -/
theorem event_inserts_disagree :
    ¬ InsertsAlike (oneStored.insertEvent (deposited "e1" 2))
      ({ Storage.empty (D := Unit) with events := [deposited "e1" 1] }.insertEvent
        (deposited "e1" 2)) ∧
    ¬ BulkInsertsAlike (oneStored.insertEventsBulk [deposited "e2" 2, deposited "e2" 3])
      ({ Storage.empty (D := Unit) with events := [deposited "e1" 1] }.insertEventsBulkCounted
        [deposited "e2" 2, deposited "e2" 3]) := by
  constructor
  · rintro ⟨t', ht', -⟩
    have hfails : (oneStored.insertEvent (deposited "e1" 2)).isOk = false := by decide
    rw [ht'] at hfails
    cases hfails
  · rintro ⟨hcount, -⟩
    have hfails :
        (oneStored.insertEventsBulk [deposited "e2" 2, deposited "e2" 3]).1.isOk = false := by
      decide
    rw [hcount] at hfails
    cases hfails

end Shardd
