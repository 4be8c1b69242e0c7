import Shardd.Gateway.Names
import Shardd.Lib.Rekey
import Shardd.Node.Service
import Shardd.Replication.CatchUp

/-!
# What the gateway returns to a tenant (`apps/gateway`)

A node answers for all buckets of all tenants at once.  The gateway filters the answer down to the
buckets of one user and calls these as the user does.  Nothing of another tenant passes, nothing of
the user's own is lost, and no two rows become one.

For the maps of heads the last part needs that no origin holds the separator of their keys: an
external name may hold it, and the separator of a key could then be either of two.
-/

namespace Shardd

open Std (TreeMap)

/-! ## Responses of a node -/

structure BalancesResponse where
  accounts : List AccountBalance
  totalBalance : Int64

structure EventsFilterResponse where
  events : List Event
  total : ℕ
  limit : ℕ
  offset : ℕ
  heads : TreeMap String ℕ
  maxKnownSeqs : TreeMap String ℕ

/-! ## Filters -/

def filterBalances (body : BalancesResponse) (internalBucket externalBucket : String) :
    BalancesResponse :=
  let accounts := (body.accounts.filter fun account => account.bucket == internalBucket).map
    fun account => { account with bucket := externalBucket }
  { accounts := accounts
    totalBalance := (accounts.map (·.balance)).sum }

/-- The filter of `proxy_events`. -/
def filterEvents (events : List Event) (internalBucket externalBucket : String) : List Event :=
  (events.filter fun event => event.bucket == internalBucket).map
    fun event => { event with bucket := externalBucket }

/-- The entries of `collapsed_state` are keyed by `bucket:account`. -/
def filterCollapsed {V : Type} (body : TreeMap String V) (internalBucket externalBucket : String) :
    TreeMap String V :=
  let filterPrefix := internalBucket ++ ":"
  rekey (fun key => (stripPrefix filterPrefix.toList key.toList).map fun account =>
    externalBucket ++ ":" ++ String.ofList account) body

/-- The external form of a key `bucket TAB origin:epoch`. -/
def externalKey (userId : Uuid) (key : String) : Option String := do
  let (internalBucket, rest) ← splitOnce '\t' key.toList
  let external ← externalBucketFromInternalUser userId (String.ofList internalBucket)
  some (external ++ "\t" ++ String.ofList rest)

def rewriteBucketKeys (userId : Uuid) (map : TreeMap String ℕ) : TreeMap String ℕ :=
  rekey (externalKey userId) map

def rewriteEventsToExternal (userId : Uuid) (page : EventsFilterResponse) :
    EventsFilterResponse :=
  let kept := page.events.filterMap fun event =>
    (externalBucketFromInternalUser userId event.bucket).map fun external =>
      { event with bucket := external }
  { page with
    events := kept
    total := page.total - (page.events.length - kept.length)
    heads := rewriteBucketKeys userId page.heads
    maxKnownSeqs := rewriteBucketKeys userId page.maxKnownSeqs }

/-! ## Rows of tenants -/

/-- Whose a bucket is.  These are the buckets a node can hold: tenants' and reserved ones. -/
inductive BucketName
  | tenant (userId : Uuid) (bucket : String)
  | reserved (name : String) (h : isReservedBucketName name = true)
  deriving DecidableEq

namespace BucketName

/-- What the node calls the bucket. -/
def internal : BucketName → String
  | tenant userId bucket => internalBucketForUser userId bucket
  | reserved name _ => name

/-- What the user calls the bucket, if it is one of the user's. -/
def external (userId : Uuid) : BucketName → Option String
  | tenant owner bucket => if owner = userId then some bucket else none
  | reserved _ _ => none

variable {n : BucketName} {u : Uuid} {bucket : String}

/-- The gateway reads off an internal name whose bucket it is. -/
lemma externalBucket_internal (u : Uuid) (n : BucketName) :
    externalBucketFromInternalUser u n.internal = n.external u := by
  cases n with
  | tenant owner bucket =>
      rw [external]
      split
      · rename_i howner
        rw [howner]
        exact externalBucketFromInternalUser_internal u bucket
      · rename_i howner
        exact externalBucketFromInternalUser_of_ne howner
  | reserved name h => exact externalBucketFromInternalUser_of_reserved h

/-- Only the bucket itself has its internal name. -/
lemma internal_eq_iff : n.internal = internalBucketForUser u bucket ↔ n = tenant u bucket := by
  constructor
  · intro h
    cases n with
    | tenant owner name =>
        obtain ⟨rfl, rfl⟩ := internalBucketForUser_inj h
        rfl
    | reserved name hname =>
        have hnot := @isReservedBucketName_internalBucketForUser u bucket
        rw [← h] at hnot
        exact absurd hname (Bool.eq_false_iff.1 hnot)
  · rintro rfl
    rfl

end BucketName

/-- A node's heads of buckets of tenants and of reserved ones, from origins without a separator. -/
def TenantHeads (heads : TreeMap String ℕ) : Prop :=
  ∀ key ∈ heads, ∃ (n : BucketName) (origin : String) (epoch : ℕ),
    '\t' ∉ origin.toList ∧ key = encodeHeadKey (n.internal, origin, epoch)

/-- `heads'` holds the heads of the user's own buckets in `heads`, under the names the user gives
them, each under a key of its own, and nothing else. -/
structure ExactHeads (u : Uuid) (heads heads' : TreeMap String ℕ) : Prop where
  entries : ∀ key head, heads'[key]? = some head ↔ ∃ (bucket origin : String) (epoch : ℕ),
    '\t' ∉ origin.toList ∧ key = encodeHeadKey (bucket, origin, epoch) ∧
      heads[encodeHeadKey (internalBucketForUser u bucket, origin, epoch)]? = some head
  apart : ∀ (bucket origin : String) (epoch : ℕ) (bucket' origin' : String) (epoch' : ℕ),
    '\t' ∉ origin.toList → '\t' ∉ origin'.toList →
    encodeHeadKey (bucket, origin, epoch) = encodeHeadKey (bucket', origin', epoch') →
    (bucket, origin, epoch) = (bucket', origin', epoch')

/-! ## Exactness -/

section Lists

variable {α : Type} (u : Uuid) (bucket : String)

/-- Filtering by the internal name keeps the rows of one bucket of the user. -/
lemma filter_internal (rows : List (BucketName × α)) (file : String → α → α) (name : α → String)
    (hname : ∀ b a, name (file b a) = b) (hfile : ∀ b b' a, file b' (file b a) = file b' a) :
    ((rows.map fun row => file row.1.internal row.2).filter
        fun a => name a == internalBucketForUser u bucket).map (file bucket) =
      rows.filterMap fun row => if row.1 = .tenant u bucket then some (file bucket row.2) else none
    := by
  induction rows with
  | nil => rfl
  | cons row rows ih =>
      rw [List.map_cons, List.filter_cons, hname, List.filterMap_cons]
      by_cases h : row.1 = .tenant u bucket
      · have hin := BucketName.internal_eq_iff.2 h
        rw [if_pos (by simp [hin]), List.map_cons, ih, if_pos h, hfile]
      · have hout : row.1.internal ≠ internalBucketForUser u bucket := fun heq =>
          h (BucketName.internal_eq_iff.1 heq)
        rw [if_neg (by simp [hout]), ih, if_neg h]

end Lists

lemma notMem_internal_of_tab {u : Uuid} {bucket : String} :
    '\t' ∉ (internalBucketForUser u bucket).toList :=
  notMem_internalBucketForUser (by decide) (by decide) (by decide)

/-- The external form of a key of a bucket of a tenant. -/
lemma externalKey_encodeHeadKey (u owner : Uuid) (bucket origin : String) (epoch : ℕ) :
    externalKey u (encodeHeadKey (internalBucketForUser owner bucket, origin, epoch)) =
      if owner = u then some (encodeHeadKey (bucket, origin, epoch)) else none := by
  have hsplit := splitOnce_eq_some_iff.2 ⟨toList_encodeHeadKey
    (internalBucketForUser owner bucket, origin, epoch), notMem_internal_of_tab⟩
  have hname := BucketName.externalBucket_internal u (.tenant owner bucket)
  have htext : encodeHeadKey (bucket, origin, epoch) =
      bucket ++ "\t" ++ String.ofList (origin.toList ++ ':' :: Nat.toDigits 10 epoch) := by
    refine String.toList_injective ?_
    have htab : "\t".toList = ['\t'] := rfl
    rw [toList_encodeHeadKey, String.toList_append, String.toList_append, htab,
      String.toList_ofList]
    simp
  simp only [externalKey, hsplit, String.ofList_toList, Option.bind_eq_bind, Option.bind_some]
  rw [show externalBucketFromInternalUser u (internalBucketForUser owner bucket) = _ from hname,
    BucketName.external, htext]
  split <;> rfl

lemma externalKey_of_reserved (u : Uuid) {name origin : String} {epoch : ℕ}
    (h : isReservedBucketName name = true) :
    externalKey u (encodeHeadKey (name, origin, epoch)) = none := by
  have hhead : (encodeHeadKey (name, origin, epoch)).toList.head? = some '_' := by
    rw [toList_encodeHeadKey, List.head?_append, head_of_isReservedBucketName h]
    rfl
  rcases hsplit : splitOnce '\t' (encodeHeadKey (name, origin, epoch)).toList with _ | ⟨a, b⟩
  · simp only [externalKey, hsplit, Option.bind_eq_bind, Option.bind_none]
  · rw [(splitOnce_eq_some_iff.1 hsplit).1] at hhead
    have ha : (String.ofList a).toList.head? = some '_' := by
      rw [String.toList_ofList]
      cases a with
      | nil => exact absurd (Option.some.inj hhead) (by decide)
      | cons c a => exact hhead
    have hnone := @externalBucketFromInternalUser_of_head u _ _ ha (by decide)
    simp only [externalKey, hsplit, hnone, Option.bind_eq_bind, Option.bind_some, Option.bind_none]

lemma encodeHeadKey_inj_of_origin {bucket origin bucket' origin' : String} {epoch epoch' : ℕ}
    (horigin : '\t' ∉ origin.toList) (horigin' : '\t' ∉ origin'.toList)
    (h : encodeHeadKey (bucket, origin, epoch) = encodeHeadKey (bucket', origin', epoch')) :
    (bucket, origin, epoch) = (bucket', origin', epoch') := by
  have hlist := congrArg String.toList h
  rw [toList_encodeHeadKey, toList_encodeHeadKey] at hlist
  dsimp only at hlist
  have hrest : ∀ {origin : String} {epoch : ℕ}, '\t' ∉ origin.toList →
      '\t' ∉ origin.toList ++ ':' :: Nat.toDigits 10 epoch := by
    intro origin epoch ho
    have hdigits := @notMem_toDigits '\t' (by decide) epoch
    simp [ho, hdigits]
  have hsplit := rsplitOnce_eq_some_iff.2 ⟨hlist, hrest horigin'⟩
  rw [rsplitOnce_eq_some_iff.2 ⟨rfl, hrest horigin⟩] at hsplit
  obtain ⟨hbucket, hkey⟩ := Prod.mk.inj (Option.some.inj hsplit)
  have hcolon : ∀ n : ℕ, ':' ∉ Nat.toDigits 10 n := fun n => notMem_toDigits (by decide) n
  have hlast := rsplitOnce_eq_some_iff.2 ⟨hkey, hcolon epoch'⟩
  rw [rsplitOnce_eq_some_iff.2 ⟨rfl, hcolon epoch⟩] at hlast
  obtain ⟨ho, he⟩ := Prod.mk.inj (Option.some.inj hlast)
  rw [String.toList_injective hbucket, String.toList_injective ho, toDigits_injective he]

/-- Rewriting keeps the heads of the user, and only these. -/
theorem exactHeads_rewriteBucketKeys (u : Uuid) {heads : TreeMap String ℕ}
    (h : TenantHeads heads) : ExactHeads u heads (rewriteBucketKeys u heads) := by
  -- a key that is given an external form is a key of one of the user's buckets
  have hown : ∀ {key key'}, key ∈ heads → externalKey u key = some key' →
      ∃ (bucket origin : String) (epoch : ℕ), '\t' ∉ origin.toList ∧
        key' = encodeHeadKey (bucket, origin, epoch) ∧
        key = encodeHeadKey (internalBucketForUser u bucket, origin, epoch) := by
    intro key key' hkey hexternal
    obtain ⟨n, origin, epoch, horigin, rfl⟩ := h key hkey
    cases n with
    | tenant owner bucket =>
        rw [BucketName.internal, externalKey_encodeHeadKey, Option.ite_none_right_eq_some]
          at hexternal
        obtain ⟨rfl, hkey'⟩ := hexternal
        exact ⟨bucket, origin, epoch, horigin, (Option.some.inj hkey').symm, rfl⟩
    | reserved name hname =>
        rw [BucketName.internal, externalKey_of_reserved u hname] at hexternal
        cases hexternal
  have hapart : KeepsApart (externalKey u) heads := by
    intro k₁ k₂ k hk₁ hk₂ hf₁ hf₂
    obtain ⟨bucket, origin, epoch, ho, heq, rfl⟩ := hown hk₁ hf₁
    obtain ⟨bucket', origin', epoch', ho', heq', rfl⟩ := hown hk₂ hf₂
    cases encodeHeadKey_inj_of_origin ho ho' (heq.symm.trans heq')
    rfl
  refine ⟨fun key head => ?_, fun _ _ _ _ _ _ => encodeHeadKey_inj_of_origin⟩
  rw [rewriteBucketKeys, getElem?_rekey_iff hapart]
  constructor
  · rintro ⟨key', hexternal, hhead⟩
    have hmem : key' ∈ heads :=
      TreeMap.mem_iff_isSome_getElem?.2 (Option.isSome_iff_exists.2 ⟨head, hhead⟩)
    obtain ⟨bucket, origin, epoch, ho, rfl, rfl⟩ := hown hmem hexternal
    exact ⟨bucket, origin, epoch, ho, rfl, hhead⟩
  · rintro ⟨bucket, origin, epoch, ho, rfl, hhead⟩
    exact ⟨_, by rw [externalKey_encodeHeadKey, if_pos rfl], hhead⟩

/-- Filtering a collapsed map keeps the accounts of one bucket of the user, and only these. -/
theorem getElem?_filterCollapsed {V : Type} (u : Uuid) (bucket : String) (body : TreeMap String V)
    (key : String) (value : V) :
    (filterCollapsed body (internalBucketForUser u bucket) bucket)[key]? = some value ↔
      ∃ account, key = bucket ++ ":" ++ account ∧
        body[internalBucketForUser u bucket ++ ":" ++ account]? = some value := by
  set internal := internalBucketForUser u bucket
  have hstrip : ∀ key external : String,
      ((stripPrefix (internal ++ ":").toList key.toList).map fun account =>
          bucket ++ ":" ++ String.ofList account) = some external ↔
        ∃ account, key = internal ++ ":" ++ account ∧ external = bucket ++ ":" ++ account := by
    intro key external
    rw [Option.map_eq_some_iff]
    constructor
    · rintro ⟨account, hstrip, rfl⟩
      refine ⟨String.ofList account, String.toList_injective ?_, rfl⟩
      have happend : (internal ++ ":" ++ String.ofList account).toList =
          (internal ++ ":").toList ++ account := by
        rw [String.toList_append, String.toList_ofList]
      rw [stripPrefix_eq_some_iff.1 hstrip, happend]
    · rintro ⟨account, rfl, rfl⟩
      exact ⟨account.toList, stripPrefix_eq_some_iff.2 String.toList_append,
        by rw [String.ofList_toList]⟩
  have happend : ∀ account account' : String, bucket ++ ":" ++ account = bucket ++ ":" ++ account' →
      account = account' := fun account account' h => (String.append_right_inj _).1 h
  have hapart : KeepsApart (fun key : String =>
      (stripPrefix (internal ++ ":").toList key.toList).map fun account =>
        bucket ++ ":" ++ String.ofList account) body := by
    intro k₁ k₂ k _ _ hf₁ hf₂
    obtain ⟨account, rfl, hk⟩ := (hstrip _ _).1 hf₁
    obtain ⟨account', rfl, hk'⟩ := (hstrip _ _).1 hf₂
    rw [happend account account' (hk.symm.trans hk')]
  rw [filterCollapsed, getElem?_rekey_iff hapart]
  constructor
  · rintro ⟨key', hkey', hvalue⟩
    obtain ⟨account, rfl, rfl⟩ := (hstrip _ _).1 hkey'
    exact ⟨account, rfl, hvalue⟩
  · rintro ⟨account, rfl, hvalue⟩
    exact ⟨_, (hstrip _ _).2 ⟨account, rfl, rfl⟩, hvalue⟩

/-- An entry of a collapsed map under an internal name is one of that bucket. -/
lemma collapsedKey_inj {n : BucketName} {u : Uuid} {bucket account account' : String}
    (h : n.internal ++ ":" ++ account' = internalBucketForUser u bucket ++ ":" ++ account) :
    n = .tenant u bucket ∧ account' = account := by
  have hcolon : ":".toList = [':'] := rfl
  have hlist := congrArg String.toList h
  simp only [String.toList_append, hcolon, List.append_assoc, List.singleton_append] at hlist
  have hfree : ∀ (owner : Uuid) (name : String), ':' ∉ (internalBucketForUser owner name).toList :=
    fun _ _ => notMem_internalBucketForUser (by decide) (by decide) (by decide)
  cases n with
  | tenant owner name =>
      rw [BucketName.internal] at hlist
      have hsplit := splitOnce_eq_some_iff.2 ⟨hlist, hfree u bucket⟩
      rw [splitOnce_eq_some_iff.2 ⟨rfl, hfree owner name⟩] at hsplit
      obtain ⟨hname, haccount⟩ := Prod.mk.inj (Option.some.inj hsplit)
      obtain ⟨rfl, rfl⟩ := internalBucketForUser_inj (String.toList_injective hname)
      exact ⟨rfl, String.toList_injective haccount⟩
  | reserved name hname =>
      have hhead := congrArg List.head? hlist
      rw [List.head?_append, List.head?_append, head_internalBucketForUser, BucketName.internal,
        head_of_isReservedBucketName hname] at hhead
      exact absurd (Option.some.inj hhead) (by decide)

/-- The laws of internal names. -/
structure InternalNames : Prop where
  roundTrip : ∀ u bucket, externalBucketFromInternalUser u (internalBucketForUser u bucket) =
    some bucket
  injective : ∀ u bucket u' bucket',
    internalBucketForUser u bucket = internalBucketForUser u' bucket' → u = u' ∧ bucket = bucket'
  unreserved : ∀ u bucket, isReservedBucketName (internalBucketForUser u bucket) = false
  separators : ∀ u bucket, ':' ∉ (internalBucketForUser u bucket).toList ∧
    '\t' ∉ (internalBucketForUser u bucket).toList

theorem internalNames : InternalNames where
  roundTrip := externalBucketFromInternalUser_internal
  injective _ _ _ _ := internalBucketForUser_inj
  unreserved _ _ := isReservedBucketName_internalBucketForUser
  separators _ _ := ⟨notMem_internalBucketForUser (by decide) (by decide) (by decide),
    notMem_internal_of_tab⟩

/-- The entries of a collapsed map of one bucket of the user, under the name the user gives it, and
nothing else. -/
structure ExactCollapsed {V : Type} (u : Uuid) (bucket : String) (body body' : TreeMap String V) :
    Prop where
  entries : ∀ key value, body'[key]? = some value ↔ ∃ account, key = bucket ++ ":" ++ account ∧
    body[internalBucketForUser u bucket ++ ":" ++ account]? = some value
  own : ∀ (n : BucketName) (account account' : String),
    n.internal ++ ":" ++ account' = internalBucketForUser u bucket ++ ":" ++ account →
      n = .tenant u bucket ∧ account' = account
  apart : ∀ account account' : String,
    bucket ++ ":" ++ account = bucket ++ ":" ++ account' → account = account'

/-- A node's row of a bucket. -/
def BucketName.balance (row : BucketName × AccountBalance) : AccountBalance :=
  { row.2 with bucket := row.1.internal }

def BucketName.event (row : BucketName × Event) : Event :=
  { row.2 with bucket := row.1.internal }

/-- Rewriting a page keeps the events of the user's buckets. -/
lemma events_rewriteEventsToExternal (u : Uuid) (rows : List (BucketName × Event)) :
    (rows.map BucketName.event).filterMap (fun event =>
        (externalBucketFromInternalUser u event.bucket).map fun external =>
          { event with bucket := external }) =
      rows.filterMap fun row => (row.1.external u).map fun external =>
        { row.2 with bucket := external } := by
  rw [List.filterMap_map]
  refine List.filterMap_congr fun row _ => ?_
  have hname : externalBucketFromInternalUser u row.1.internal = row.1.external u :=
    BucketName.externalBucket_internal u row.1
  simp only [Function.comp, BucketName.event, hname]

/-- **Tenant isolation.**  Internal names are laws unto themselves, and from the answer of a node
each endpoint returns the rows of the user's own buckets, or of the one it is asked for, under the
names the user gives them. -/
theorem tenant_isolation {V : Type} (u : Uuid) (bucket : String)
    (balances : List (BucketName × AccountBalance)) (total : Int64)
    (events : List (BucketName × Event)) (collapsed : TreeMap String V)
    (page : EventsFilterResponse) (hpage : page.events = events.map BucketName.event)
    (hheads : TenantHeads page.heads) (hseqs : TenantHeads page.maxKnownSeqs) :
    let internal := internalBucketForUser u bucket
    let body : BalancesResponse :=
      { accounts := balances.map BucketName.balance, totalBalance := total }
    let page' := rewriteEventsToExternal u page
    InternalNames ∧
      (filterBalances body internal bucket).accounts = balances.filterMap (fun row =>
        if row.1 = .tenant u bucket then some { row.2 with bucket := bucket } else none) ∧
      filterEvents (events.map BucketName.event) internal bucket = events.filterMap (fun row =>
        if row.1 = .tenant u bucket then some { row.2 with bucket := bucket } else none) ∧
      ExactCollapsed u bucket collapsed (filterCollapsed collapsed internal bucket) ∧
      page'.events = events.filterMap (fun row => (row.1.external u).map fun external =>
        { row.2 with bucket := external }) ∧
      ExactHeads u page.heads page'.heads ∧ ExactHeads u page.maxKnownSeqs page'.maxKnownSeqs := by
  intro internal body page'
  refine ⟨internalNames, ?_, ?_, ⟨getElem?_filterCollapsed u bucket collapsed, fun n account
    account' => collapsedKey_inj, fun account account' h => (String.append_right_inj _).1 h⟩, ?_,
    exactHeads_rewriteBucketKeys u hheads, exactHeads_rewriteBucketKeys u hseqs⟩
  · exact filter_internal u bucket balances (fun b a => { a with bucket := b })
      AccountBalance.bucket (fun _ _ => rfl) fun _ _ _ => rfl
  · exact filter_internal u bucket events (fun b e => { e with bucket := b }) Event.bucket
      (fun _ _ => rfl) fun _ _ _ => rfl
  · have hevents := events_rewriteEventsToExternal u events
    rw [← hpage] at hevents
    exact hevents

/-- The heads of buckets of tenants and of reserved ones. -/
lemma tenantHeads_ofList {rows : List (BucketName × String × ℕ × ℕ)}
    (h : ∀ row ∈ rows, '\t' ∉ row.2.1.toList) :
    TenantHeads (.ofList (rows.map fun row =>
      (encodeHeadKey (row.1.internal, row.2.1, row.2.2.1), row.2.2.2))) := by
  intro key hkey
  rw [TreeMap.mem_ofList, List.contains_iff_mem, List.map_map] at hkey
  obtain ⟨row, hrow, rfl⟩ := List.mem_map.1 hkey
  exact ⟨row.1, row.2.1, row.2.2.1, h row hrow, rfl⟩

/-- A page of a node on which two users and the billing bucket meet. -/
theorem tenant_isolation_page :
    let u : Uuid := ⟨List.replicate 16 0, rfl⟩
    let other : Uuid := ⟨List.replicate 16 1, rfl⟩
    let owners : List BucketName :=
      [.tenant u "a\tb", .tenant other "a\tb", .reserved "__billing__" (by decide)]
    let events : List (BucketName × Event) :=
      owners.map fun n => (n, firstEvent "e1" ("", "node", 1))
    let heads := TreeMap.ofList ((owners.map fun n => (n, "node", 1, 1)).map fun row =>
      (encodeHeadKey (row.1.internal, row.2.1, row.2.2.1), row.2.2.2))
    let page : EventsFilterResponse :=
      { events := events.map BucketName.event, total := 3, limit := 3, offset := 0
        heads := heads, maxKnownSeqs := heads }
    let page' := rewriteEventsToExternal u page
    (page'.events = events.filterMap fun row => (row.1.external u).map fun external =>
        { row.2 with bucket := external }) ∧
      ExactHeads u heads page'.heads := by
  intro u other owners events heads page page'
  have hheads : TenantHeads heads := by
    refine tenantHeads_ofList fun row hrow => ?_
    obtain ⟨n, -, rfl⟩ := List.mem_map.1 hrow
    exact (by decide : '\t' ∉ "node".toList)
  obtain ⟨-, -, -, -, hevents, hhead, -⟩ :=
    tenant_isolation u "a\tb" [] 0 events (∅ : TreeMap String Unit) page rfl hheads hheads
  exact ⟨hevents, hhead⟩

/-- Two heads of one user under one text: the bucket `a` with the origin `b TAB n`, and the bucket
`a TAB b` with the origin `n`.  One of them is lost. -/
theorem heads_merged :
    let u : Uuid := ⟨List.replicate 16 0, rfl⟩
    let page : EventsFilterResponse :=
      { events := [], total := 0, limit := 1, offset := 0
        heads := .ofList [(encodeHeadKey (internalBucketForUser u "a", "b\tn", 1), 1),
          (encodeHeadKey (internalBucketForUser u "a\tb", "n", 1), 2)]
        maxKnownSeqs := ∅ }
    page.heads.size = 2 ∧ (rewriteEventsToExternal u page).heads.size = 1 := by
  decide +kernel

end Shardd
