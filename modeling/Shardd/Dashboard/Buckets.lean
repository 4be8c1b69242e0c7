import Shardd.Dashboard.Calls
import Shardd.Gateway.Summaries

/-!
# The list of buckets (`apps/dashboard/src/adapters/http/routes/developer_buckets.rs`)

The list joins a user's registry with the sums that the gateway returns for the buckets on the mesh
and with the tombstones of deleted buckets.  The registry is read with a condition that depends on
the filter, and of the sums only the first page is asked for.
-/

namespace Shardd.Dashboard

/-! ## Sources -/

/-- A row of `developer_buckets`; times are in microseconds. -/
structure OwnedBucket where
  name : String
  createdAt : ℕ
  archivedAt : Option ℕ

inductive BucketStatusFilter
  | active
  | archived
  | nuked
  | all
  deriving DecidableEq

inductive BucketStatus
  | active
  | archived
  | nuked
  deriving DecidableEq

structure DeletedBucketEntry where
  name : String
  deletedAtUnixMs : ℕ

/-- The registry, the accounts of a node and the tombstones. -/
structure BucketStores where
  registry : List (Uuid × OwnedBucket)
  balances : BalancesResponse
  deleted : List DeletedBucketEntry

namespace BucketStores

variable (st : BucketStores) (userId : Uuid)

/-- The rows of a user. -/
def owned : List OwnedBucket := (st.registry.filter (·.1 = userId)).map Prod.snd

/-- `BucketRegistry::list`. -/
def list (filter : BucketStatusFilter) : List OwnedBucket :=
  sortBy (fun left right => compare right.createdAt left.createdAt)
    (match filter with
    | .active => (st.owned userId).filter (·.archivedAt = none)
    | .archived | .nuked => (st.owned userId).filter (·.archivedAt ≠ none)
    | .all => st.owned userId)

/-- `deleted_buckets_response`. -/
def deletedBuckets : List DeletedBucketEntry :=
  st.deleted.filterMap fun entry =>
    (externalBucketFromInternalUser userId entry.name).map fun external =>
      { entry with name := external }

end BucketStores

/-- What `list_buckets` calls. -/
structure BucketSources where
  list : Uuid → BucketStatusFilter → Except AppError (List OwnedBucket)
  listMyBuckets : Uuid → BucketListQuery → Except AppError InternalBucketListResponse
  listMyDeletedBuckets : Uuid → Except AppError (List DeletedBucketEntry)

/-- The sources when no call fails. -/
def BucketStores.sources (lowercase : String → String) (st : BucketStores) : BucketSources where
  list userId filter := .ok (st.list userId filter)
  listMyBuckets userId query := .ok (bucketListForUser lowercase userId st.balances query)
  listMyDeletedBuckets userId := .ok (st.deletedBuckets userId)

/-! ## The list -/

def parseStatusFilter (raw : Option String) : BucketStatusFilter :=
  match raw.map fun raw => (trim raw.toList).map Char.toLower with
  | some text =>
    if text = "active".toList then .active
    else if text = "archived".toList then .archived
    else if text = "nuked".toList then .nuked
    else .all
  | none => .all

structure BucketsQuery where
  q : Option String
  page : Option ℕ
  limit : Option ℕ
  status : Option String

structure BucketSummaryDto where
  bucket : String
  status : BucketStatus
  totalBalance : Option Int64
  availableBalance : Option Int64
  accountCount : Option ℕ
  eventCount : Option ℕ
  lastEventAtUnixMs : Option ℕ
  createdAtUnixMs : ℕ
  archivedAtUnixMs : Option ℕ
  deletedAtUnixMs : Option ℕ

structure BucketListDto where
  buckets : List BucketSummaryDto
  total : ℕ
  page : ℕ
  limit : ℕ

def bucketStatus (bucket : OwnedBucket) (deletedAt : Option ℕ) : BucketStatus :=
  match bucket.archivedAt.isSome, deletedAt.isSome with
  | _, true => .nuked
  | true, false => .archived
  | false, false => .active

/-- The row of a bucket. -/
def bucketRow (summaries : Map String InternalBucketSummary) (deleted : Map String ℕ)
    (bucket : OwnedBucket) : BucketSummaryDto :=
  let deletedAt := deleted bucket.name
  let status := bucketStatus bucket deletedAt
  let summary := if status = .nuked then none else summaries bucket.name
  { bucket := bucket.name
    status := status
    totalBalance := summary.map (·.totalBalance)
    availableBalance := summary.map (·.availableBalance)
    accountCount := summary.map (·.accountCount)
    eventCount := summary.map (·.eventCount)
    lastEventAtUnixMs := summary.bind (·.lastEventAtUnixMs)
    createdAtUnixMs := bucket.createdAt / 1000
    archivedAtUnixMs := bucket.archivedAt.map (· / 1000)
    deletedAtUnixMs := deletedAt }

def BucketStatusFilter.retains : BucketStatusFilter → BucketStatus → Bool
  | .active, status => status = .active
  | .archived, status => status = .archived
  | .nuked, status => status = .nuked
  | .all, _ => true

def matchesNeedle (q : Option String) (bucket : String) : Bool :=
  let lower (text : List Char) : List Char := text.map Char.toLower
  match (q.map fun q => trim q.toList).filter (· ≠ []) with
  | some needle => decide (lower needle <:+: lower bucket.toList)
  | none => true

def summaryMap (buckets : List InternalBucketSummary) : Map String InternalBucketSummary :=
  buckets.foldl (fun summaries summary => summaries.insert summary.bucket summary) fun _ => none

def deletedMap (entries : List DeletedBucketEntry) : Map String ℕ :=
  entries.foldl (fun deleted entry => deleted.insert entry.name entry.deletedAtUnixMs) fun _ => none

def listBuckets (sources : BucketSources) (userId : Uuid) (query : BucketsQuery) :
    Except AppError BucketListDto := do
  let filter := parseStatusFilter query.status
  let registryRows ← sources.list userId filter
  let summariesResp ← sources.listMyBuckets userId ⟨none, none, none⟩
  let deletedResp ← sources.listMyDeletedBuckets userId
  let rows := registryRows.map (bucketRow (summaryMap summariesResp.buckets)
    (deletedMap deletedResp))
  let rows := rows.filter fun row => filter.retains row.status
  let rows := rows.filter fun row => matchesNeedle query.q row.bucket
  let limit := max 1 (min (query.limit.getD 25) 200)
  let page := max (query.page.getD 1) 1
  let offset := (page - 1) * limit
  return ⟨(rows.drop offset).take limit, rows.length, page, limit⟩

/-! ## What is asked of the list -/

def BucketStatus.text : BucketStatus → String
  | .active => "active"
  | .archived => "archived"
  | .nuked => "nuked"

section Listed

variable (lowercase : String → String) (st : BucketStores) (userId : Uuid)

/-- The row is on a page of the list with this status. -/
def Listed (status : Option String) (row : BucketSummaryDto) : Prop :=
  ∃ page limit dto,
    listBuckets (st.sources lowercase) userId ⟨none, page, limit, status⟩ = .ok dto ∧
      row ∈ dto.buckets

/-- The row carries the sums of the accounts. -/
structure BucketSummaryDto.Carries (row : BucketSummaryDto) (accounts : List AccountBalance) :
    Prop where
  totalBalance : row.totalBalance = some (accounts.map (·.balance)).sum
  availableBalance : row.availableBalance = some (accounts.map (·.availableBalance)).sum
  accountCount : row.accountCount = some accounts.length
  eventCount : row.eventCount = some (accounts.map (·.eventCount)).sum

/-- What is asked of the lists: a bucket in the list of all is in the list of one status, which is
the one that it shows; and a bucket that has not been nuked and has accounts carries their sums. -/
structure ListsAll : Prop where
  partition : ∀ row, Listed lowercase st userId none row → ∃ status : BucketStatus,
    (∃ row', Listed lowercase st userId (some status.text) row' ∧ row'.bucket = row.bucket ∧
      row'.status = row.status) ∧
    ∀ other : BucketStatus, (∃ row', Listed lowercase st userId (some other.text) row' ∧
      row'.bucket = row.bucket) → other = status
  totals : ∀ status row, Listed lowercase st userId status row → row.status ≠ .nuked →
    st.balances.accountsOf userId row.bucket ≠ [] →
      row.Carries (st.balances.accountsOf userId row.bucket)

/-- The bucket has a tombstone. -/
def BucketStores.Tombstoned (bucket : OwnedBucket) : Prop :=
  ∃ entry ∈ st.deletedBuckets userId, entry.name = bucket.name

/-- Tombstones are of archived buckets, and of the buckets that have accounts those that have not
been nuked are among the first 25 by name. -/
structure BucketStores.InReach : Prop where
  archived : ∀ bucket ∈ st.owned userId, st.Tombstoned userId bucket → bucket.archivedAt ≠ none
  early : ∀ bucket ∈ st.owned userId, ¬ st.Tombstoned userId bucket →
    st.balances.accountsOf userId bucket.name ≠ [] →
      ((st.balances.bucketNames userId).filter (· < bucket.name)).card < 25

end Listed

/-! ## Rows -/

section Rows

variable {lowercase : String → String} {st : BucketStores} {userId : Uuid} {bucket : OwnedBucket}

lemma deletedMap_isSome (entries : List DeletedBucketEntry) (name : String) :
    (deletedMap entries name).isSome ↔ ∃ entry ∈ entries, entry.name = name := by
  unfold deletedMap
  induction entries using List.reverseRecOn with
  | nil => simp
  | append_singleton entries entry ih =>
      rw [List.foldl_append, List.foldl_cons, List.foldl_nil, Map.insert_apply]
      by_cases hname : name = entry.name
      · rw [if_pos hname]
        exact iff_of_true rfl ⟨entry, by simp, hname.symm⟩
      · rw [if_neg hname, ih]
        simp [Ne.symm hname]

lemma summaryMap_eq_some_iff {buckets : List InternalBucketSummary}
    (hnodup : (buckets.map InternalBucketSummary.bucket).Nodup) {name : String}
    {summary : InternalBucketSummary} :
    summaryMap buckets name = some summary ↔ summary ∈ buckets ∧ summary.bucket = name := by
  unfold summaryMap
  induction buckets using List.reverseRecOn with
  | nil => simp
  | append_singleton buckets last ih =>
      rw [List.map_append, List.nodup_append'] at hnodup
      obtain ⟨hnodup, -, hdisjoint⟩ := hnodup
      rw [List.foldl_append, List.foldl_cons, List.foldl_nil, Map.insert_apply]
      by_cases hname : name = last.bucket
      · rw [if_pos hname, Option.some.injEq, List.mem_append, List.mem_singleton]
        constructor
        · rintro rfl
          exact ⟨.inr rfl, hname.symm⟩
        · rintro ⟨hmem | rfl, hbucket⟩
          · exact absurd (List.mem_singleton_self _) (hdisjoint (List.mem_map.2
              ⟨summary, hmem, hbucket.trans hname⟩))
          · rfl
      · rw [if_neg hname, ih hnodup, List.mem_append, List.mem_singleton]
        constructor
        · rintro ⟨hmem, hbucket⟩
          exact ⟨.inl hmem, hbucket⟩
        · rintro ⟨hmem | rfl, hbucket⟩
          · exact ⟨hmem, hbucket⟩
          · exact absurd hbucket.symm hname

variable (lowercase st userId bucket) in
/-- The row of a bucket, from the sources. -/
def rowOf : BucketSummaryDto :=
  bucketRow (summaryMap (bucketListForUser lowercase userId st.balances ⟨none, none, none⟩).buckets)
    (deletedMap (st.deletedBuckets userId)) bucket

lemma rowOf_status : (rowOf lowercase st userId bucket).status =
    bucketStatus bucket (deletedMap (st.deletedBuckets userId) bucket.name) := rfl

lemma status_nuked_iff :
    (rowOf lowercase st userId bucket).status = .nuked ↔ st.Tombstoned userId bucket := by
  rw [rowOf_status, BucketStores.Tombstoned, ← deletedMap_isSome]
  unfold bucketStatus
  rcases bucket.archivedAt.isSome <;>
    rcases (deletedMap (st.deletedBuckets userId) bucket.name).isSome <;> simp

/-- The rows that the query of a filter selects. -/
def BucketStatusFilter.Selects (filter : BucketStatusFilter) (bucket : OwnedBucket) : Prop :=
  match filter with
  | .active => bucket.archivedAt = none
  | .archived | .nuked => bucket.archivedAt ≠ none
  | .all => True

lemma mem_list {filter : BucketStatusFilter} :
    bucket ∈ st.list userId filter ↔ bucket ∈ st.owned userId ∧ filter.Selects bucket := by
  unfold BucketStores.list
  rw [mem_sortBy]
  cases filter <;> simp [BucketStatusFilter.Selects]

/-- What is listed. -/
lemma listed_iff {status : Option String} {row : BucketSummaryDto} :
    Listed lowercase st userId status row ↔ ∃ bucket ∈ st.owned userId,
      (parseStatusFilter status).Selects bucket ∧ row = rowOf lowercase st userId bucket ∧
        (parseStatusFilter status).retains row.status = true := by
  have hrows : ∀ row, (row ∈ ((st.list userId (parseStatusFilter status)).map
      (rowOf lowercase st userId)).filter
        fun row => (parseStatusFilter status).retains row.status) ↔
      ∃ bucket ∈ st.owned userId, (parseStatusFilter status).Selects bucket ∧
        row = rowOf lowercase st userId bucket ∧
          (parseStatusFilter status).retains row.status = true := by
    intro row
    rw [List.mem_filter, List.mem_map]
    constructor
    · rintro ⟨⟨bucket, hbucket, rfl⟩, hretains⟩
      obtain ⟨howned, hselects⟩ := mem_list.1 hbucket
      exact ⟨bucket, howned, hselects, rfl, hretains⟩
    · rintro ⟨bucket, howned, hselects, rfl, hretains⟩
      exact ⟨⟨bucket, mem_list.2 ⟨howned, hselects⟩, rfl⟩, hretains⟩
  rw [← hrows]
  constructor
  · rintro ⟨page, limit, dto, hdto, hrow⟩
    obtain rfl := Except.ok.inj hdto
    exact (List.mem_filter.1 (List.mem_of_mem_drop (List.mem_of_mem_take hrow))).1
  · intro hrow
    have hrow : row ∈ (((st.list userId (parseStatusFilter status)).map
        (rowOf lowercase st userId)).filter fun row =>
          (parseStatusFilter status).retains row.status).filter
            fun row => matchesNeedle none row.bucket := List.mem_filter.2 ⟨hrow, rfl⟩
    -- a page for each row
    obtain ⟨i, hi, hget⟩ := List.getElem_of_mem hrow
    have hpage : ∀ (l : List BucketSummaryDto) (hi : i < l.length),
        l[i] ∈ (l.drop ((max ((some (i + 1)).getD 1) 1 - 1) *
          max 1 (min ((some 1).getD 25) 200))).take (max 1 (min ((some 1).getD 25) 200)) := by
      intro l hi
      have hdrop :
          (max ((some (i + 1)).getD 1) 1 - 1) * max 1 (min ((some 1).getD 25) 200) = i := by
        simp
      rw [hdrop, List.drop_eq_getElem_cons hi]
      exact List.mem_cons_self
    have hlisted := hpage _ hi
    rw [hget] at hlisted
    exact ⟨some (i + 1), some 1, _, rfl, hlisted⟩

/-- A bucket is listed under its own status when the query selects it. -/
lemma retains_iff {status status' : BucketStatus} :
    (parseStatusFilter (some status'.text)).retains status = true ↔ status' = status := by
  cases status' <;> cases status <;> decide

lemma selects_bucketStatus {deletedAt : Option ℕ}
    (h : deletedAt.isSome → bucket.archivedAt ≠ none) :
    (parseStatusFilter (some (bucketStatus bucket deletedAt).text)).Selects bucket := by
  rcases harchived : bucket.archivedAt with _ | archivedAt
  · rcases deletedAt with _ | deletedAt
    · have hactive : bucketStatus bucket none = .active := by
        unfold bucketStatus
        rw [harchived]
        rfl
      rw [hactive]
      exact harchived
    · exact absurd harchived (h rfl)
  · have hselects : bucket.archivedAt ≠ none := harchived ▸ Option.some_ne_none archivedAt
    rcases deletedAt with _ | deletedAt
    · have hstatus : bucketStatus bucket none = .archived := by
        unfold bucketStatus
        rw [harchived]
        rfl
      rw [hstatus]
      exact hselects
    · have hstatus : bucketStatus bucket (some deletedAt) = .nuked := by
        unfold bucketStatus
        rw [harchived]
        rfl
      rw [hstatus]
      exact hselects

lemma rowOf_carries (hstatus : (rowOf lowercase st userId bucket).status ≠ .nuked)
    (haccounts : st.balances.accountsOf userId bucket.name ≠ []) :
    (rowOf lowercase st userId bucket).Carries (st.balances.accountsOf userId bucket.name) ↔
      ((st.balances.bucketNames userId).filter (· < bucket.name)).card < 25 := by
  have hpage : (((bucketListForUser lowercase userId st.balances ⟨none, none, none⟩).buckets).map
      InternalBucketSummary.bucket).Nodup := by
    refine List.Nodup.sublist (List.Sublist.map _ (List.take_sublist 25 _)) ?_
    exact ((sortBy_perm _).map _).nodup_iff.2 nodup_summarizeUserBuckets
  have hrow : rowOf lowercase st userId bucket = { rowOf lowercase st userId bucket with
      totalBalance := (summaryMap (bucketListForUser lowercase userId st.balances
        ⟨none, none, none⟩).buckets bucket.name).map (·.totalBalance)
      availableBalance := (summaryMap (bucketListForUser lowercase userId st.balances
        ⟨none, none, none⟩).buckets bucket.name).map (·.availableBalance)
      accountCount := (summaryMap (bucketListForUser lowercase userId st.balances
        ⟨none, none, none⟩).buckets bucket.name).map (·.accountCount)
      eventCount := (summaryMap (bucketListForUser lowercase userId st.balances
        ⟨none, none, none⟩).buckets bucket.name).map (·.eventCount) } := by
    unfold rowOf bucketRow at hstatus ⊢
    dsimp only at hstatus ⊢
    rw [if_neg hstatus]
  have hshows := shows_summaryOf (st.balances.accountsOf userId bucket.name) bucket.name
  rw [← mem_firstPage_iff lowercase haccounts]
  constructor
  · intro hcarries
    have htotal := hcarries.totalBalance
    rw [hrow] at htotal
    obtain ⟨summary, hsummary, -⟩ := Option.map_eq_some_iff.1 htotal
    obtain ⟨hmem, hname⟩ := (summaryMap_eq_some_iff hpage).1 hsummary
    have hmem' : summary ∈ summarizeUserBuckets userId st.balances :=
      mem_sortBy.1 (List.mem_of_mem_take hmem)
    obtain ⟨-, heq⟩ := mem_summarizeUserBuckets.1 hmem'
    rw [hname] at heq
    exact heq ▸ hmem
  · intro hmem
    have hsummary : summaryMap _ bucket.name = some _ :=
      (summaryMap_eq_some_iff hpage).2 ⟨hmem, rfl⟩
    rw [hrow, hsummary]
    exact ⟨congrArg some hshows.totalBalance, congrArg some hshows.availableBalance,
      congrArg some hshows.accountCount, congrArg some hshows.eventCount⟩

/-- **The lists.**  They show every bucket under one status and with its sums exactly when the
tombstones are of archived buckets and the buckets with accounts are in reach. -/
theorem listsAll_iff (hkey : (st.registry.map fun row => (row.1, row.2.name)).Nodup) :
    ListsAll lowercase st userId ↔ st.InReach userId := by
  have hsame : ∀ bucket ∈ st.owned userId, ∀ bucket' ∈ st.owned userId,
      bucket.name = bucket'.name → bucket = bucket' := by
    intro bucket hbucket bucket' hbucket' hname
    obtain ⟨row, hrow, rfl⟩ := List.mem_map.1 hbucket
    obtain ⟨row', hrow', rfl⟩ := List.mem_map.1 hbucket'
    obtain ⟨hrow, huser⟩ := List.mem_filter.1 hrow
    obtain ⟨hrow', huser'⟩ := List.mem_filter.1 hrow'
    have huser : row.1 = row'.1 := by
      rw [of_decide_eq_true huser, of_decide_eq_true huser']
    exact congrArg Prod.snd (List.inj_on_of_nodup_map hkey hrow hrow' (Prod.ext huser hname))
  have hall : ∀ bucket ∈ st.owned userId,
      Listed lowercase st userId none (rowOf lowercase st userId bucket) := fun bucket hbucket =>
    listed_iff.2 ⟨bucket, hbucket, trivial, rfl, rfl⟩
  constructor
  · intro h
    constructor
    · intro bucket hbucket htombstoned
      obtain ⟨status, ⟨row', hlisted, hname, hstatus⟩, -⟩ := h.partition _ (hall bucket hbucket)
      obtain ⟨bucket', hbucket', hselects, rfl, hretains⟩ := listed_iff.1 hlisted
      obtain rfl := hsame bucket' hbucket' bucket hbucket hname
      -- it shows that it has been nuked, so that is the list it is in
      rw [retains_iff, status_nuked_iff.2 htombstoned] at hretains
      subst hretains
      exact hselects
    · intro bucket hbucket htombstoned haccounts
      have hstatus : (rowOf lowercase st userId bucket).status ≠ .nuked := fun hnuked =>
        htombstoned (status_nuked_iff.1 hnuked)
      exact (rowOf_carries hstatus haccounts).1 (h.totals none _ (hall bucket hbucket) hstatus
        haccounts)
  · intro h
    constructor
    · intro row hlisted
      obtain ⟨bucket, hbucket, -, rfl, -⟩ := listed_iff.1 hlisted
      refine ⟨(rowOf lowercase st userId bucket).status, ⟨rowOf lowercase st userId bucket,
        listed_iff.2 ⟨bucket, hbucket, ?_, rfl, retains_iff.2 rfl⟩, rfl, rfl⟩, ?_⟩
      · exact selects_bucketStatus fun hdeleted => h.archived bucket hbucket
          ((deletedMap_isSome _ _).1 hdeleted)
      · rintro other ⟨row', hlisted', hname⟩
        obtain ⟨bucket', hbucket', -, rfl, hretains⟩ := listed_iff.1 hlisted'
        obtain rfl := hsame bucket' hbucket' bucket hbucket hname
        exact retains_iff.1 hretains
    · intro status row hlisted hstatus haccounts
      obtain ⟨bucket, hbucket, -, rfl, -⟩ := listed_iff.1 hlisted
      have htombstoned : ¬ st.Tombstoned userId bucket := fun htombstoned =>
        hstatus (status_nuked_iff.2 htombstoned)
      exact (rowOf_carries hstatus haccounts).2 (h.early bucket hbucket htombstoned haccounts)

end Rows

/-! ## Two buckets -/

section Examples

def ownerId : Uuid := ⟨List.replicate 16 36, rfl⟩

/-- An account in which nothing is held. -/
def plainBalance (bucket account : String) (balance : Int64) : AccountBalance where
  bucket := internalBucketForUser ownerId bucket
  account := account
  balance := balance
  availableBalance := balance
  activeHoldTotal := 0
  reservedByOrigin := ∅
  eventCount := 1

/-- A user with two buckets, both with accounts, of which the second one has been deleted. -/
def deletedStores (archivedAt : Option ℕ) : BucketStores where
  registry := [(ownerId, ⟨"main", 1000, none⟩), (ownerId, ⟨"old", 2000, archivedAt⟩),
    (⟨List.replicate 16 45, rfl⟩, ⟨"main", 500, none⟩)]
  balances :=
    ⟨[plainBalance "main" "alice" 5, plainBalance "main" "bob" 7, plainBalance "old" "alice" 3], 15⟩
  deleted := [⟨internalBucketForUser ownerId "old", 5⟩]

lemma owned_deletedStores (archivedAt : Option ℕ) :
    (deletedStores archivedAt).owned ownerId =
      [⟨"main", 1000, none⟩, ⟨"old", 2000, archivedAt⟩] := rfl

lemma tombstoned_deletedStores {archivedAt : Option ℕ} {bucket : OwnedBucket} :
    (deletedStores archivedAt).Tombstoned ownerId bucket ↔ "old" = bucket.name := by
  simp [BucketStores.Tombstoned, BucketStores.deletedBuckets, deletedStores,
    externalBucketFromInternalUser_internal]

lemma accountsOf_deletedStores (archivedAt : Option ℕ) :
    (deletedStores archivedAt).balances.accountsOf ownerId "main" =
      [plainBalance "main" "alice" 5, plainBalance "main" "bob" 7] := by
  simp [BalancesResponse.accountsOf, deletedStores, plainBalance,
    externalBucketFromInternalUser_internal]

/-- When the deleted bucket has been archived as well, each of them is in one of the lists, and the
other one carries its sums. -/
theorem listsAll_iff_archived : ListsAll id (deletedStores (some 4000)) ownerId ∧
    ∃ row, Listed id (deletedStores (some 4000)) ownerId (some "active") row ∧
      row.bucket = "main" ∧ row.totalBalance = some 12 ∧ row.accountCount = some 2 := by
  have hkey : ((deletedStores (some 4000)).registry.map fun row => (row.1, row.2.name)).Nodup := by
    decide
  have hall : ListsAll id (deletedStores (some 4000)) ownerId := by
    refine (listsAll_iff hkey).2 ⟨fun bucket hbucket htombstoned => ?_, fun bucket _ _ _ => ?_⟩
    · rw [owned_deletedStores] at hbucket
      rw [tombstoned_deletedStores] at htombstoned
      rcases List.mem_pair.1 hbucket with rfl | rfl
      · exact absurd htombstoned (by decide)
      · exact Option.some_ne_none _
    · calc (((deletedStores (some 4000)).balances.bucketNames ownerId).filter
            (· < bucket.name)).card
          ≤ ((deletedStores (some 4000)).balances.bucketNames ownerId).card :=
            Finset.card_filter_le _ _
        _ ≤ 3 := (List.toFinset_card_le _).trans (List.length_filterMap_le _ _)
        _ < 25 := by decide
  have hmain : (⟨"main", 1000, none⟩ : OwnedBucket) ∈
      (deletedStores (some 4000)).owned ownerId := List.mem_cons_self
  have hactive : (rowOf id (deletedStores (some 4000)) ownerId ⟨"main", 1000, none⟩).status =
      .active := by
    have hnone : deletedMap ((deletedStores (some 4000)).deletedBuckets ownerId) "main" = none := by
      rw [← Option.not_isSome_iff_eq_none, deletedMap_isSome]
      intro htombstoned
      have hold := (@tombstoned_deletedStores _ ⟨"main", 1000, none⟩).1 htombstoned
      exact absurd hold (by decide)
    rw [rowOf_status, hnone]
    rfl
  have hlisted : Listed id (deletedStores (some 4000)) ownerId (some "active")
      (rowOf id (deletedStores (some 4000)) ownerId ⟨"main", 1000, none⟩) := by
    refine listed_iff.2 ⟨_, hmain, ?_, rfl, ?_⟩
    · exact (rfl : (none : Option ℕ) = none)
    · exact (@retains_iff _ .active).2 hactive.symm
  have haccounts := accountsOf_deletedStores (some 4000)
  have hcarries := hall.totals _ _ hlisted (by rw [hactive]; decide) (by
    show (deletedStores (some 4000)).balances.accountsOf ownerId "main" ≠ []
    rw [haccounts]
    exact List.cons_ne_nil _ _)
  have hcarries : BucketSummaryDto.Carries _
    ((deletedStores (some 4000)).balances.accountsOf ownerId "main") := hcarries
  rw [haccounts] at hcarries
  exact ⟨hall, _, hlisted, rfl, hcarries.totalBalance, hcarries.accountCount⟩

/-- When it has not, it is in the list of all and in none of the others. -/
theorem not_listsAll_deleted : ¬ ListsAll id (deletedStores none) ownerId := by
  intro h
  have hmem : (⟨"old", 2000, none⟩ : OwnedBucket) ∈ (deletedStores none).owned ownerId :=
    List.mem_cons_of_mem _ List.mem_cons_self
  have htombstoned : (deletedStores none).Tombstoned ownerId ⟨"old", 2000, none⟩ :=
    tombstoned_deletedStores.2 rfl
  obtain ⟨status, ⟨row', hlisted, hname, hstatus⟩, -⟩ := h.partition
    (rowOf id (deletedStores none) ownerId ⟨"old", 2000, none⟩)
    (listed_iff.2 ⟨_, hmem, trivial, rfl, rfl⟩)
  obtain ⟨bucket', hbucket', hselects, rfl, hretains⟩ := listed_iff.1 hlisted
  rw [owned_deletedStores] at hbucket'
  rcases List.mem_pair.1 hbucket' with rfl | rfl
  · exact absurd hname (by decide)
  · rw [retains_iff, status_nuked_iff.2 htombstoned] at hretains
    subst hretains
    exact hselects rfl

end Examples

end Shardd.Dashboard
