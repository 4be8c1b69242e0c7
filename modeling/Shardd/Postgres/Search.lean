import Shardd.Lib.Like
import Shardd.Lib.Ranking
import Shardd.Postgres.Events

/-!
# Searching events (`query_events_filtered`)

The listing of events takes a value for each of several fields, bounds for the time, and a text to
be found in the note or the id; each of them may be missing.  It answers with a page of the matching
events, the newest first, and with their number.  The in-memory backend tests each event.  The
Postgres backend writes the filter as a condition of SQL, in which the bounds are `i64`s and the
text is part of a pattern.
-/

namespace Shardd

open Postgres

structure EventsFilter where
  bucket : Option String
  bucketPrefix : Option String
  account : Option String
  origin : Option String
  eventType : Option String
  sinceUnixMs : Option ℕ
  untilUnixMs : Option ℕ
  search : Option String
  deriving DecidableEq

def EventsFilter.default : EventsFilter := ⟨none, none, none, none, none, none, none, none⟩

def toAsciiLowercase (s : String) : List Char := s.toList.map Char.toLower

namespace EventsFilter

variable (filter : EventsFilter)

/-! ## The conditions -/

/-- The fields that both backends compare text by text. -/
def Scopes (e : Event) : Prop :=
  (∀ bucket ∈ filter.bucket, e.bucket = bucket) ∧
    (∀ start ∈ filter.bucketPrefix, start.toList <+: e.bucket.toList) ∧
    (∀ account ∈ filter.account, e.account = account) ∧
    (∀ origin ∈ filter.origin, e.originNodeId = origin) ∧
    ∀ eventType ∈ filter.eventType, e.type.display = eventType

instance : DecidablePred filter.Scopes := fun _ => inferInstanceAs (Decidable (_ ∧ _ ∧ _ ∧ _ ∧ _))

/-- The time is within the bounds. -/
def Dates (e : Event) : Prop :=
  (∀ since ∈ filter.sinceUnixMs, since ≤ e.createdAtUnixMs) ∧
    ∀ upTo ∈ filter.untilUnixMs, e.createdAtUnixMs ≤ upTo

instance : DecidablePred filter.Dates := fun _ => inferInstanceAs (Decidable (_ ∧ _))

/-- The text is in the note or the id, but for the case of ASCII letters. -/
def Finds (e : Event) : Prop :=
  ∀ search ∈ filter.search,
    (∃ note ∈ e.note, toAsciiLowercase search <:+: toAsciiLowercase note) ∨
      toAsciiLowercase search <:+: toAsciiLowercase e.eventId

instance : DecidablePred filter.Finds := fun _ => inferInstanceAs (Decidable (∀ _ ∈ _, _ ∨ _))

/-- The test of the in-memory backend. -/
def Matches (e : Event) : Prop := filter.Scopes e ∧ filter.Dates e ∧ filter.Finds e

instance : DecidablePred filter.Matches := fun _ => inferInstanceAs (Decidable (_ ∧ _ ∧ _))

def PgDates (e : Event) : Prop :=
  (∀ since ∈ filter.sinceUnixMs, bindBigint since ≤ bindBigint e.createdAtUnixMs) ∧
    ∀ upTo ∈ filter.untilUnixMs, bindBigint e.createdAtUnixMs ≤ bindBigint upTo

instance : DecidablePred filter.PgDates := fun _ => inferInstanceAs (Decidable (_ ∧ _))

/-- `note ILIKE '%search%' OR event_id ILIKE '%search%'`. -/
def PgFinds (locale : ServerLocale) (e : Event) : Prop :=
  ∀ search ∈ filter.search,
    sqlOr (locale.ilike e.note (.containing search.toList))
      (locale.ilike (some e.eventId) (.containing search.toList)) = some true

instance (locale : ServerLocale) : DecidablePred (filter.PgFinds locale) := fun _ =>
  inferInstanceAs (Decidable (∀ _ ∈ _, _ = _))

/-- The condition of the statement. -/
def PgMatches (locale : ServerLocale) (e : Event) : Prop :=
  filter.Scopes e ∧ filter.PgDates e ∧ filter.PgFinds locale e

instance (locale : ServerLocale) : DecidablePred (filter.PgMatches locale) := fun _ =>
  inferInstanceAs (Decidable (_ ∧ _ ∧ _))

/-- The texts that a statement binds. -/
def texts : List String :=
  filter.bucket.toList ++ filter.bucketPrefix.toList ++ filter.account.toList ++
    filter.origin.toList ++ filter.eventType.toList ++ filter.search.toList

end EventsFilter

/-! ## The orders -/

def newestFirst : Event → Event → Ordering :=
  compareLex (fun a b => compareOn Event.createdAtUnixMs b a)
    fun a b => compareOn Event.eventId b a

instance : Std.TransCmp newestFirst := by
  unfold newestFirst
  infer_instance

/-- `event_id DESC`. -/
def pgCompareIds (locale : ServerLocale) (a b : Event) : Ordering :=
  locale.collate b.eventId a.eventId

instance (locale : ServerLocale) : Std.TransCmp (pgCompareIds locale) where
  eq_swap := locale.transCmp.eq_swap
  isLE_trans hab hbc := locale.transCmp.isLE_trans hbc hab

def bigintTime (e : Event) : ℤ := (bindBigint e.createdAtUnixMs).toInt

/-- `ORDER BY created_at_unix_ms DESC, event_id DESC`. -/
def pgNewestFirst (locale : ServerLocale) : Event → Event → Ordering :=
  compareLex (fun a b => compareOn bigintTime b a) (pgCompareIds locale)

instance (locale : ServerLocale) : Std.TransCmp (pgNewestFirst locale) := by
  unfold pgNewestFirst
  infer_instance

/-! ## The queries -/

section Queries

variable {D : Type} (st : Storage D) (t : EventsTable) (locale : ServerLocale)
  (filter : EventsFilter)

def Storage.matching : List Event :=
  sortBy newestFirst ((st.events.insertionSort byOriginKey).filter fun e => filter.Matches e)

/-- `query_events_filtered` of the in-memory backend: a page and the total. -/
def Storage.queryEventsFiltered (limit offset : ℕ) : List Event × ℕ :=
  (((st.matching filter).drop offset).take limit, (st.matching filter).length)

def EventsTable.matching : List Event :=
  sortBy (pgNewestFirst locale) (t.rows.filter fun e => filter.PgMatches locale e)

/-- `query_events_filtered` of the Postgres backend. -/
def EventsTable.queryEventsFiltered (limit offset : ℕ) :
    Except StatementError (List Event × ℕ) :=
  if ∀ s ∈ filter.texts, NulFree s then
    .ok (((t.matching locale filter).drop offset).take limit, (t.matching locale filter).length)
  else .error .characterNotInRepertoire

end Queries

/-! ## The orders compared -/

section Orders

variable {locale : ServerLocale} {e e' : Event}

lemma then_eq_then_iff : ∀ {x y o o' : Ordering}, x ≠ .eq → y ≠ .eq →
    (x.then o = y.then o' ↔ x = y) := by
  decide

lemma bigintTime_inj (he : e.createdAtUnixMs < 2 ^ 64) (he' : e'.createdAtUnixMs < 2 ^ 64) :
    bigintTime e = bigintTime e' ↔ e.createdAtUnixMs = e'.createdAtUnixMs := by
  rw [bigintTime, bigintTime, toInt_bindBigint he, toInt_bindBigint he']
  split_ifs <;> omega

/-- Times are in the same order as `i64`s unless they lie on different sides of `2^63`. -/
lemma compare_bigintTime_iff (he : e.createdAtUnixMs < 2 ^ 64) (he' : e'.createdAtUnixMs < 2 ^ 64)
    (hne : e.createdAtUnixMs ≠ e'.createdAtUnixMs) :
    compare e.createdAtUnixMs e'.createdAtUnixMs = compare (bigintTime e) (bigintTime e') ↔
      (e.createdAtUnixMs < 2 ^ 63 ↔ e'.createdAtUnixMs < 2 ^ 63) := by
  rw [bigintTime, bigintTime, toInt_bindBigint he, toInt_bindBigint he']
  rcases lt_or_gt_of_ne hne with hlt | hgt
  · rw [compare_lt_iff_lt.2 hlt, eq_comm, compare_lt_iff_lt]
    split_ifs <;> omega
  · rw [compare_gt_iff_gt.2 hgt, eq_comm, compare_gt_iff_gt]
    split_ifs <;> omega

lemma newestFirst_eq_pgNewestFirst_iff (he : e.createdAtUnixMs < 2 ^ 64)
    (he' : e'.createdAtUnixMs < 2 ^ 64) :
    newestFirst e e' = pgNewestFirst locale e e' ↔
      (e'.createdAtUnixMs < 2 ^ 63 ↔ e.createdAtUnixMs < 2 ^ 63) ∧
      (e'.createdAtUnixMs = e.createdAtUnixMs →
        locale.collate e'.eventId e.eventId = compare e'.eventId e.eventId) := by
  simp only [newestFirst, pgNewestFirst, compareLex, compareOn, pgCompareIds]
  by_cases heq : e'.createdAtUnixMs = e.createdAtUnixMs
  · have htime : bigintTime e' = bigintTime e := (bigintTime_inj he' he).2 heq
    rw [heq, htime, compare_eq_iff_eq.2 rfl, compare_eq_iff_eq.2 rfl, Ordering.eq_then,
      Ordering.eq_then, eq_comm]
    simp
  · have htime : bigintTime e' ≠ bigintTime e := mt (bigintTime_inj he' he).1 heq
    rw [then_eq_then_iff (mt compare_eq_iff_eq.1 heq) (mt compare_eq_iff_eq.1 htime),
      compare_bigintTime_iff he' he heq]
    simp [heq]

lemma eventId_eq_of_newestFirst (h : newestFirst e e' = .eq) : e.eventId = e'.eventId := by
  have hid := (Ordering.then_eq_eq.1 h).2
  exact (compare_eq_iff_eq.1 hid).symm

lemma eventId_eq_of_pgNewestFirst (h : pgNewestFirst locale e e' = .eq) :
    e.eventId = e'.eventId := by
  have hid := (Ordering.then_eq_eq.1 h).2
  exact (locale.lawfulEqCmp.eq_of_compare hid).symm

end Orders

/-! ## The backends compared -/

section Backends

variable (locale : ServerLocale) (t : EventsTable) (filter : EventsFilter)

/-- From the same events both backends answer with the same pages and totals, and the pages divide
up the matching events. -/
structure ListedAlike : Prop where
  same : ∀ (D : Type) (st : Storage D), st.events.Perm t.rows → ∀ limit offset,
    t.queryEventsFiltered locale filter limit offset =
      .ok (st.queryEventsFiltered filter limit offset)
  pages : ∀ (D : Type) (st : Storage D), st.events.Perm t.rows →
    ∃ matched : List Event, matched.Nodup ∧
      (∀ e, e ∈ matched ↔ e ∈ t.rows ∧ filter.Matches e) ∧
      ∀ limit n, ((List.range n).flatMap fun k =>
        (st.queryEventsFiltered filter limit (k * limit)).1) = matched.take (n * limit)

/-- The server takes the texts of the filter; the bounds and the search select the same events as
they do on the server; and the selected events are in the same order there: their times lie on one
side of `2^63`, and the server compares the ids of events of one time byte by byte. -/
structure SearchedAlike : Prop where
  nulFree : ∀ s ∈ filter.texts, NulFree s
  selects : ∀ e ∈ t.rows, filter.Scopes e →
    (filter.Dates e ∧ filter.Finds e ↔ filter.PgDates e ∧ filter.PgFinds locale e)
  times : ∀ e ∈ t.rows, ∀ e' ∈ t.rows, filter.Matches e → filter.Matches e' →
    (e.createdAtUnixMs < 2 ^ 63 ↔ e'.createdAtUnixMs < 2 ^ 63)
  ids : ∀ e ∈ t.rows, ∀ e' ∈ t.rows, filter.Matches e → filter.Matches e' →
    e.createdAtUnixMs = e'.createdAtUnixMs →
      locale.collate e.eventId e'.eventId = compare e.eventId e'.eventId

variable {locale t filter} {D : Type} {st : Storage D}

lemma eventId_inj_of_mem {e e' : Event} (he : e ∈ t.rows) (he' : e' ∈ t.rows)
    (h : e.eventId = e'.eventId) : e = e' :=
  List.inj_on_of_nodup_map t.primary he he' h

lemma perm_filter_matches (hst : st.events.Perm t.rows) :
    ((st.events.insertionSort byOriginKey).filter fun e => filter.Matches e).Perm
      (t.rows.filter fun e => filter.Matches e) :=
  (((st.events.perm_insertionSort byOriginKey)).trans hst).filter _

lemma nodup_rows : t.rows.Nodup := t.primary.of_map _

lemma matching_eq_iff (hst : st.events.Perm t.rows) :
    st.matching filter = t.matching locale filter ↔
      (∀ e ∈ t.rows, (filter.Matches e ↔ filter.PgMatches locale e)) ∧
      ∀ e ∈ t.rows, ∀ e' ∈ t.rows, filter.Matches e → filter.Matches e' →
        newestFirst e e' = pgNewestFirst locale e e' := by
  have hperm : ((st.events.insertionSort byOriginKey).filter fun e => filter.Matches e).Perm
      (t.rows.filter fun e => filter.Matches e) := perm_filter_matches hst
  have hmem : ∀ e, e ∈ (st.events.insertionSort byOriginKey).filter (fun e => filter.Matches e) ↔
      e ∈ t.rows ∧ filter.Matches e := fun e => by
    rw [hperm.mem_iff, List.mem_filter, decide_eq_true_iff]
  have hmem' : ∀ e, e ∈ t.rows.filter (fun e => filter.PgMatches locale e) ↔
      e ∈ t.rows ∧ filter.PgMatches locale e := fun e => by
    rw [List.mem_filter, decide_eq_true_iff]
  have hids : ∀ e ∈ (st.events.insertionSort byOriginKey).filter (fun e => filter.Matches e),
      ∀ e' ∈ (st.events.insertionSort byOriginKey).filter (fun e => filter.Matches e),
      newestFirst e e' = .eq → e = e' := fun e he e' he' h =>
    eventId_inj_of_mem ((hmem e).1 he).1 ((hmem e').1 he').1 (eventId_eq_of_newestFirst h)
  have hids' : ∀ e ∈ t.rows.filter (fun e => filter.PgMatches locale e),
      ∀ e' ∈ t.rows.filter (fun e => filter.PgMatches locale e),
      pgNewestFirst locale e e' = .eq → e = e' := fun e he e' he' h =>
    eventId_inj_of_mem ((hmem' e).1 he).1 ((hmem' e').1 he').1 (eventId_eq_of_pgNewestFirst h)
  rw [Storage.matching, EventsTable.matching, sortBy_eq_sortBy_iff
    (hperm.nodup_iff.2 (nodup_rows.filter _)) (nodup_rows.filter _) hids hids']
  constructor
  · rintro ⟨hsame, horder⟩
    refine ⟨fun e he => ?_, fun e he e' he' hmatch hmatch' =>
      horder e ((hmem e).2 ⟨he, hmatch⟩) e' ((hmem e').2 ⟨he', hmatch'⟩)⟩
    have hiff := (hmem e).symm.trans (hsame.mem_iff.trans (hmem' e))
    simpa [he] using hiff
  · rintro ⟨hselects, horder⟩
    refine ⟨?_, fun e he e' he' => ?_⟩
    · refine hperm.trans (.of_eq (List.filter_congr fun e he => ?_))
      exact decide_eq_decide.2 (hselects e he)
    · obtain ⟨hrow, hmatch⟩ := (hmem e).1 he
      obtain ⟨hrow', hmatch'⟩ := (hmem e').1 he'
      exact horder e hrow e' hrow' hmatch hmatch'

lemma mem_matching_iff (hst : st.events.Perm t.rows) {e : Event} :
    e ∈ st.matching filter ↔ e ∈ t.rows ∧ filter.Matches e := by
  rw [Storage.matching, mem_sortBy, (perm_filter_matches hst).mem_iff, List.mem_filter,
    decide_eq_true_iff]

/-- All pages and totals are the same when the lists of matching events are. -/
lemma queryEventsFiltered_eq_iff :
    (∀ limit offset, t.queryEventsFiltered locale filter limit offset =
      .ok (st.queryEventsFiltered filter limit offset)) ↔
    (∀ s ∈ filter.texts, NulFree s) ∧ st.matching filter = t.matching locale filter := by
  constructor
  · intro h
    have hnul : ∀ s ∈ filter.texts, NulFree s := by
      by_contra hnul
      have herror := h 0 0
      rw [EventsTable.queryEventsFiltered, if_neg hnul] at herror
      cases herror
    refine ⟨hnul, ?_⟩
    -- one page holds all
    have hpage := h (t.matching locale filter).length 0
    rw [EventsTable.queryEventsFiltered, if_pos hnul, Storage.queryEventsFiltered, Except.ok.injEq,
      Prod.mk.injEq, List.drop_zero, List.drop_zero, List.take_length] at hpage
    rw [hpage.1, hpage.2, List.take_length]
  · rintro ⟨hnul, heq⟩ limit offset
    rw [EventsTable.queryEventsFiltered, if_pos hnul, Storage.queryEventsFiltered, heq]

/-- **Searching.**  Both backends list the same events exactly when the server reads the filter as
it is meant and keeps the order. -/
theorem listedAlike_iff (hbounded : ∀ e ∈ t.rows, e.createdAtUnixMs < 2 ^ 64) :
    ListedAlike locale t filter ↔ SearchedAlike locale t filter := by
  constructor
  · intro h
    have hst : ({ Storage.empty with events := t.rows } : Storage Unit).events.Perm t.rows := .rfl
    obtain ⟨hnul, heq⟩ := queryEventsFiltered_eq_iff.1 (h.same Unit _ hst)
    obtain ⟨hselects, horder⟩ := (matching_eq_iff hst).1 heq
    have hpairs : ∀ e ∈ t.rows, ∀ e' ∈ t.rows, filter.Matches e → filter.Matches e' → _ :=
      fun e he e' he' hmatch hmatch' =>
        (newestFirst_eq_pgNewestFirst_iff (hbounded e' he') (hbounded e he)).1
          (horder e' he' e he hmatch' hmatch)
    exact
      { nulFree := hnul
        selects := fun e he hscopes => by
          have hiff := hselects e he
          rwa [EventsFilter.Matches, EventsFilter.PgMatches, and_iff_right hscopes,
            and_iff_right hscopes] at hiff
        times := fun e he e' he' hmatch hmatch' => (hpairs e he e' he' hmatch hmatch').1
        ids := fun e he e' he' hmatch hmatch' => (hpairs e he e' he' hmatch hmatch').2 }
  · intro h
    have hmatching : ∀ {D : Type} {st : Storage D}, st.events.Perm t.rows →
        st.matching filter = t.matching locale filter := fun hst =>
      (matching_eq_iff hst).2
        ⟨fun e he => and_congr_right (h.selects e he), fun e he e' he' hmatch hmatch' =>
          (newestFirst_eq_pgNewestFirst_iff (hbounded e he) (hbounded e' he')).2
            ⟨h.times e' he' e he hmatch' hmatch, h.ids e' he' e he hmatch' hmatch⟩⟩
    refine ⟨fun D st hst => queryEventsFiltered_eq_iff.2 ⟨h.nulFree, hmatching hst⟩,
      fun D st hst => ⟨st.matching filter, ?_, fun e => mem_matching_iff hst, fun limit n => ?_⟩⟩
    · exact nodup_sortBy ((perm_filter_matches hst).nodup_iff.2 (nodup_rows.filter _))
    · exact flatMap_range_pages (st.matching filter) limit n

/-! ## Plain searches -/

lemma map_lower_eq {s : String} (h : ∀ c ∈ s.toList, locale.lower c = c.toLower) :
    s.toList.map locale.lower = toAsciiLowercase s :=
  List.map_congr_left h

lemma pgDates_iff_of_small {e : Event} (he : e.createdAtUnixMs < 2 ^ 63)
    (hsince : ∀ since ∈ filter.sinceUnixMs, since < 2 ^ 63)
    (huntil : ∀ upTo ∈ filter.untilUnixMs, upTo < 2 ^ 63) : filter.PgDates e ↔ filter.Dates e :=
  and_congr (forall₂_congr fun since h => bindBigint_le_iff (hsince since h) he)
    (forall₂_congr fun upTo h => bindBigint_le_iff he (huntil upTo h))

lemma pgFinds_iff_of_plain {e : Event}
    (hplain : ∀ search ∈ filter.search, ∀ c ∈ search.toList, LikePlain c)
    (hlower : ∀ s ∈ filter.search.toList ++ e.note.toList ++ [e.eventId],
      ∀ c ∈ s.toList, locale.lower c = c.toLower) : filter.PgFinds locale e ↔ filter.Finds e := by
  refine forall₂_congr fun search hsearch => ?_
  have hlowered := map_lower_eq (hlower search (by simp [Option.mem_def.1 hsearch]))
  rw [sqlOr_eq_true_iff, locale.ilike_containing_iff_of_plain (hplain search hsearch),
    locale.ilike_containing_iff_of_plain (hplain search hsearch), hlowered]
  refine or_congr (exists_congr fun note => and_congr_right fun hnote => ?_) ?_
  · rw [map_lower_eq (hlower note (by simp [Option.mem_def.1 hnote]))]
  · rw [← map_lower_eq (hlower e.eventId (by simp))]
    simp

/-- A search without the special characters of patterns, for letters that the server lowers as ASCII
has it, among times below `2^63`. -/
theorem searchedAlike_of_plain (hnul : ∀ s ∈ filter.texts, NulFree s)
    (htimes : ∀ e ∈ t.rows, e.createdAtUnixMs < 2 ^ 63)
    (hsince : ∀ since ∈ filter.sinceUnixMs, since < 2 ^ 63)
    (huntil : ∀ upTo ∈ filter.untilUnixMs, upTo < 2 ^ 63)
    (hplain : ∀ search ∈ filter.search, ∀ c ∈ search.toList, LikePlain c)
    (hlower : ∀ e ∈ t.rows, ∀ s ∈ filter.search.toList ++ e.note.toList ++ [e.eventId],
      ∀ c ∈ s.toList, locale.lower c = c.toLower)
    (hcollate : ∀ e ∈ t.rows, ∀ e' ∈ t.rows,
      locale.collate e.eventId e'.eventId = compare e.eventId e'.eventId) :
    SearchedAlike locale t filter where
  nulFree := hnul
  selects e he _ := (and_congr (pgDates_iff_of_small (htimes e he) hsince huntil)
    (pgFinds_iff_of_plain hplain (hlower e he))).symm
  times e he e' he' _ _ := iff_of_true (htimes e he) (htimes e' he')
  ids e he e' he' _ _ _ := hcollate e he e' he'

end Backends

/-! ## Some searches -/

section Searches

def storedEvent : Event :=
  (LocalCreateInput.legacy "bucket" "alice" 5 (some "École") 0 "n1" false).chargeDraft.event "e1"
    "node" (1, 1) 900

def storedTable : EventsTable := ⟨[storedEvent], List.nodup_singleton _, List.nodup_singleton _⟩

def searchFor (search : String) : EventsFilter := { EventsFilter.default with search := search }

def createdSince (since : ℕ) : EventsFilter := { EventsFilter.default with sinceUnixMs := since }

/-- The server also lowers the first letter of the note. -/
def accentLocale : ServerLocale :=
  { ServerLocale.ascii with
    lower := fun c => if c = 'É' then 'é' else c.toLower
    lower_eq_iff := fun {c d} hc => by
      have hne : c ≠ 'é' ∧ c ≠ 'É' := by
        constructor <;> rintro rfl <;> exact hc (by decide)
      split
      · rename_i hd
        rw [hd]
        exact iff_of_false (fun h => hne.1 h.symm) fun h => hne.2 h.symm
      · exact toLower_eq_iff_of_not_plain hc }

lemma storedTable_bounded : ∀ e ∈ storedTable.rows, e.createdAtUnixMs < 2 ^ 64 :=
  List.forall_mem_singleton.2 (by decide)

theorem listedAlike_plain : ListedAlike .ascii storedTable (searchFor "COLE") := by
  have hplain : ∀ search ∈ (searchFor "COLE").search, ∀ c ∈ search.toList, LikePlain c := by
    have hall : ("COLE".toList).all (fun c => decide (LikePlain c)) = true := by decide
    intro search hsearch
    obtain rfl := Option.some.inj hsearch
    simpa only [List.all_eq_true, decide_eq_true_eq] using hall
  exact (listedAlike_iff storedTable_bounded).2 <| searchedAlike_of_plain (by decide)
    (List.forall_mem_singleton.2 (by decide)) (by decide) (by decide) hplain
    (fun _ _ _ _ _ _ => rfl) fun _ _ _ _ => rfl

/-- The search is a wildcard or has an accent, or the bound is no `i64`. -/
theorem not_listedAlike :
    ¬ ListedAlike .ascii storedTable (searchFor "%") ∧
      ¬ ListedAlike accentLocale storedTable (searchFor "école") ∧
      ¬ ListedAlike .ascii storedTable (createdSince (2 ^ 63)) := by
  have hselects : ∀ {locale : ServerLocale} {filter : EventsFilter},
      ListedAlike locale storedTable filter → filter.Scopes storedEvent →
      (filter.Dates storedEvent ∧ filter.Finds storedEvent ↔
        filter.PgDates storedEvent ∧ filter.PgFinds locale storedEvent) :=
    fun h => ((listedAlike_iff storedTable_bounded).1 h).selects _ List.mem_cons_self
  refine ⟨fun h => ?_, fun h => ?_, fun h => ?_⟩
  · exact absurd (hselects h (by decide)) (by decide)
  · exact absurd (hselects h (by decide)) (by decide)
  · exact absurd (hselects h (by decide)) (by decide)

end Searches

end Shardd
