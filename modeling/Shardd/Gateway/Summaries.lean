import Mathlib.Data.String.Basic
import Mathlib.Order.Compare
import Shardd.Gateway.Tenants
import Shardd.Lib.Grouping
import Shardd.Lib.Ranking

/-!
# Summaries of a user's buckets (`apps/gateway`)

The gateway adds up the accounts of a node by the user's buckets and returns a page of the sums.
No sum has the time of a last event, so the pages are in the order of the names, and a request that
asks for no page gets the first 25.
-/

namespace Shardd

open Std (TreeMap)

/-! ## Sums -/

structure BucketAggregate where
  totalBalance : Int64
  availableBalance : Int64
  activeHoldTotal : Int64
  accountCount : ℕ
  balanceEventCount : ℕ
  observedEventCount : ℕ
  lastEventAtUnixMs : Option ℕ
  deriving DecidableEq

def BucketAggregate.zero : BucketAggregate := ⟨0, 0, 0, 0, 0, 0, none⟩

def BucketAggregate.add (aggregate : BucketAggregate) (account : AccountBalance) :
    BucketAggregate :=
  { aggregate with
    totalBalance := aggregate.totalBalance + account.balance
    availableBalance := aggregate.availableBalance + account.availableBalance
    activeHoldTotal := aggregate.activeHoldTotal + account.activeHoldTotal
    accountCount := aggregate.accountCount + 1
    balanceEventCount := aggregate.balanceEventCount + account.eventCount }

structure InternalBucketSummary where
  bucket : String
  totalBalance : Int64
  availableBalance : Int64
  activeHoldTotal : Int64
  accountCount : ℕ
  eventCount : ℕ
  lastEventAtUnixMs : Option ℕ
  deriving DecidableEq

def BucketAggregate.summary (aggregate : BucketAggregate) (bucket : String) :
    InternalBucketSummary where
  bucket := bucket
  totalBalance := aggregate.totalBalance
  availableBalance := aggregate.availableBalance
  activeHoldTotal := aggregate.activeHoldTotal
  accountCount := aggregate.accountCount
  eventCount :=
    if 0 < aggregate.observedEventCount then aggregate.observedEventCount
    else aggregate.balanceEventCount
  lastEventAtUnixMs := aggregate.lastEventAtUnixMs

def bucketAggregates (userId : Uuid) (balances : BalancesResponse) :
    TreeMap String BucketAggregate :=
  groupInto (fun account => externalBucketFromInternalUser userId account.bucket)
    BucketAggregate.add .zero balances.accounts

def summarizeUserBuckets (userId : Uuid) (balances : BalancesResponse) :
    List InternalBucketSummary :=
  (bucketAggregates userId balances).toList.map fun entry => entry.2.summary entry.1

/-! ## Pages -/

/-- Page, limit and offset; no list is so long that the product saturates. -/
def pagination (page limit : Option ℕ) (defaultLimit maxLimit : ℕ) : ℕ × ℕ × ℕ :=
  let page := max (page.getD 1) 1
  let limit := max 1 (min (limit.getD defaultLimit) maxLimit)
  (page, limit, (page - 1) * limit)

structure BucketListQuery where
  q : Option String
  page : Option ℕ
  limit : Option ℕ

structure InternalBucketListResponse where
  buckets : List InternalBucketSummary
  total : ℕ
  page : ℕ
  limit : ℕ

/-- The latest first; buckets of one time by their names. -/
def compareSummaries : InternalBucketSummary → InternalBucketSummary → Ordering :=
  compareLex (fun left right => compareOn (fun s => s.lastEventAtUnixMs.getD 0) right left)
    (compareOn InternalBucketSummary.bucket)

instance : Std.TransCmp compareSummaries := by
  unfold compareSummaries
  infer_instance

def normalizedQuery (value : Option String) : Option String :=
  (value.map fun value => String.ofList (trim value.toList)).filter (· ≠ "")

/-- `lowercase` is `str::to_lowercase`. -/
def containsCaseInsensitive (lowercase : String → String) (haystack needle : String) : Bool :=
  decide ((lowercase needle).toList <:+: (lowercase haystack).toList)

def bucketListForUser (lowercase : String → String) (userId : Uuid) (balances : BalancesResponse)
    (query : BucketListQuery) : InternalBucketListResponse :=
  let (page, limit, offset) := pagination query.page query.limit 25 100
  let buckets := summarizeUserBuckets userId balances
  let buckets := match normalizedQuery query.q with
    | some needle => buckets.filter fun summary =>
        containsCaseInsensitive lowercase summary.bucket needle
    | none => buckets
  let buckets := sortBy compareSummaries buckets
  { buckets := (buckets.drop offset).take limit
    total := buckets.length
    page := page
    limit := limit }

/-! ## What the sums are -/

/-- The accounts of a bucket of the user. -/
def BalancesResponse.accountsOf (balances : BalancesResponse) (userId : Uuid) (bucket : String) :
    List AccountBalance :=
  balances.accounts.filter fun account =>
    externalBucketFromInternalUser userId account.bucket = some bucket

/-- The names of the user's buckets that have accounts. -/
def BalancesResponse.bucketNames (balances : BalancesResponse) (userId : Uuid) : Finset String :=
  (balances.accounts.filterMap fun account =>
    externalBucketFromInternalUser userId account.bucket).toFinset

/-- The summary shows the accounts. -/
structure InternalBucketSummary.Shows (summary : InternalBucketSummary)
    (accounts : List AccountBalance) : Prop where
  totalBalance : summary.totalBalance = (accounts.map (·.balance)).sum
  availableBalance : summary.availableBalance = (accounts.map (·.availableBalance)).sum
  accountCount : summary.accountCount = accounts.length
  eventCount : summary.eventCount = (accounts.map (·.eventCount)).sum

section Sums

variable {userId : Uuid} {balances : BalancesResponse} {bucket : String}

lemma foldl_add (accounts : List AccountBalance) (start : BucketAggregate) :
    accounts.foldl BucketAggregate.add start =
      { start with
        totalBalance := start.totalBalance + (accounts.map (·.balance)).sum
        availableBalance := start.availableBalance + (accounts.map (·.availableBalance)).sum
        activeHoldTotal := start.activeHoldTotal + (accounts.map (·.activeHoldTotal)).sum
        accountCount := start.accountCount + accounts.length
        balanceEventCount := start.balanceEventCount + (accounts.map (·.eventCount)).sum } := by
  induction accounts generalizing start with
  | nil => simp
  | cons account accounts ih =>
      rw [List.foldl_cons, ih]
      simp only [BucketAggregate.add, List.map_cons, List.sum_cons, List.length_cons,
        BucketAggregate.mk.injEq, and_true]
      exact ⟨Int64.add_assoc _ _ _, Int64.add_assoc _ _ _, Int64.add_assoc _ _ _, by omega,
        by omega⟩

/-- The summary of a list of accounts. -/
def summaryOf (accounts : List AccountBalance) (bucket : String) : InternalBucketSummary :=
  (accounts.foldl BucketAggregate.add .zero).summary bucket

lemma shows_summaryOf (accounts : List AccountBalance) (bucket : String) :
    (summaryOf accounts bucket).Shows accounts := by
  unfold summaryOf
  rw [foldl_add]
  constructor <;> simp [BucketAggregate.summary, BucketAggregate.zero]

/-- There is one summary for each bucket that has accounts. -/
lemma mem_summarizeUserBuckets {summary : InternalBucketSummary} :
    summary ∈ summarizeUserBuckets userId balances ↔
      balances.accountsOf userId summary.bucket ≠ [] ∧
        summary = summaryOf (balances.accountsOf userId summary.bucket) summary.bucket := by
  have hentry : ∀ name, (bucketAggregates userId balances)[name]? =
      if balances.accountsOf userId name = [] then none
      else some ((balances.accountsOf userId name).foldl BucketAggregate.add .zero) :=
    getElem?_groupInto balances.accounts
  unfold summarizeUserBuckets
  rw [List.mem_map]
  constructor
  · rintro ⟨⟨name, aggregate⟩, hmem, rfl⟩
    rw [TreeMap.mem_toList_iff_getElem?_eq_some, hentry] at hmem
    obtain ⟨hne, heq⟩ := Option.ite_none_left_eq_some.1 hmem
    exact ⟨hne, by rw [← Option.some.inj heq]; rfl⟩
  · rintro ⟨hne, heq⟩
    refine ⟨(summary.bucket, (balances.accountsOf userId summary.bucket).foldl
      BucketAggregate.add .zero), ?_, heq.symm⟩
    rw [TreeMap.mem_toList_iff_getElem?_eq_some, hentry, if_neg hne]

lemma nodup_summarizeUserBuckets :
    ((summarizeUserBuckets userId balances).map InternalBucketSummary.bucket).Nodup := by
  unfold summarizeUserBuckets
  rw [List.map_map]
  refine List.pairwise_map.2 (List.Pairwise.imp ?_ TreeMap.distinct_keys_toList)
  rintro ⟨name, aggregate⟩ ⟨name', aggregate'⟩ hne rfl
  exact hne Std.compare_self

lemma mem_bucketNames {name : String} :
    name ∈ balances.bucketNames userId ↔ balances.accountsOf userId name ≠ [] := by
  simp [BalancesResponse.bucketNames, BalancesResponse.accountsOf]

lemma toFinset_summaries :
    ((summarizeUserBuckets userId balances).map InternalBucketSummary.bucket).toFinset =
      balances.bucketNames userId := by
  ext name
  rw [List.mem_toFinset, List.mem_map, mem_bucketNames]
  constructor
  · rintro ⟨summary, hsummary, rfl⟩
    exact (mem_summarizeUserBuckets.1 hsummary).1
  · intro hne
    exact ⟨summaryOf (balances.accountsOf userId name) name,
      mem_summarizeUserBuckets.2 ⟨hne, rfl⟩, rfl⟩

/-- Summaries are sorted by their names. -/
lemma compareSummaries_eq {left right : InternalBucketSummary}
    (hleft : left ∈ summarizeUserBuckets userId balances)
    (hright : right ∈ summarizeUserBuckets userId balances) :
    compareSummaries left right = compare left.bucket right.bucket := by
  have hnever : ∀ {summary}, summary ∈ summarizeUserBuckets userId balances →
      summary.lastEventAtUnixMs = none := by
    intro summary hsummary
    obtain ⟨-, heq⟩ := mem_summarizeUserBuckets.1 hsummary
    rw [heq, summaryOf, foldl_add]
    rfl
  show (compare (right.lastEventAtUnixMs.getD 0) (left.lastEventAtUnixMs.getD 0)).then
    (compare left.bucket right.bucket) = _
  rw [hnever hleft, hnever hright]
  rfl

/-- **The first page.**  A request that asks for no page gets a bucket exactly when fewer than 25 of
the user's buckets come before it by their names. -/
theorem mem_firstPage_iff (lowercase : String → String)
    (hbucket : balances.accountsOf userId bucket ≠ []) :
    summaryOf (balances.accountsOf userId bucket) bucket ∈
        (bucketListForUser lowercase userId balances ⟨none, none, none⟩).buckets ↔
      ((balances.bucketNames userId).filter (· < bucket)).card < 25 := by
  have hmem : summaryOf (balances.accountsOf userId bucket) bucket ∈
      summarizeUserBuckets userId balances := mem_summarizeUserBuckets.2 ⟨hbucket, rfl⟩
  have hnodup : ((summarizeUserBuckets userId balances).map InternalBucketSummary.bucket).Nodup :=
    nodup_summarizeUserBuckets
  have hpage : (bucketListForUser lowercase userId balances ⟨none, none, none⟩).buckets =
      (sortBy compareSummaries (summarizeUserBuckets userId balances)).take 25 := rfl
  rw [hpage, mem_take_sortBy_iff (List.Nodup.of_map _ hnodup) hmem, ← toFinset_summaries,
    List.countP_eq_length_filter]
  have hbefore : (summarizeUserBuckets userId balances).filter (fun c =>
        decide (Precedes compareSummaries (summarizeUserBuckets userId balances) c
          (summaryOf (balances.accountsOf userId bucket) bucket))) =
      (summarizeUserBuckets userId balances).filter fun c => decide (c.bucket < bucket) := by
    refine List.filter_congr fun c hc => decide_eq_decide.2 ?_
    rw [Precedes, compareSummaries_eq hc hmem, compare_lt_iff_lt]
    refine or_iff_left_of_imp fun hsame => ?_
    obtain ⟨heq, hsub⟩ := hsame
    -- one bucket does not stand twice
    have hsame : c.bucket = bucket := Std.LawfulEqOrd.eq_of_compare heq
    obtain rfl : c = summaryOf (balances.accountsOf userId bucket) bucket :=
      List.inj_on_of_nodup_map hnodup hc hmem hsame
    simpa using (List.Nodup.of_map _ hnodup).sublist hsub
  have hnames : ((summarizeUserBuckets userId balances).map
        InternalBucketSummary.bucket).toFinset.filter (· < bucket) =
      (((summarizeUserBuckets userId balances).map
        InternalBucketSummary.bucket).filter fun name => decide (name < bucket)).toFinset := by
    ext name
    simp
  rw [hbefore, hnames, List.toFinset_card_of_nodup (hnodup.filter _), List.filter_map,
    List.length_map]
  rfl

end Sums

end Shardd
