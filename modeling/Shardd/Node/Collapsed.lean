import Mathlib.Data.Multiset.Sort
import Mathlib.Data.Set.Function
import Shardd.Lib.Text
import Shardd.Node.Service
import Shardd.Node.Startup

/-!
# The collapsed view (`collapsed_state`, §2.6)

One entry for each account, filed under the text `bucket:account`.  The view passes over accounts
whose lock is taken, and two accounts whose names come to one text share an entry.
-/

namespace Shardd

open Std (TreeMap)

variable {D : Type}

/-! ## Entries -/

structure OriginProgress where
  head : ℕ
  maxKnown : ℕ
  deriving DecidableEq

structure CollapsedBalance where
  balance : Int64
  availableBalance : Int64
  status : String
  reservedByOrigin : Map String OriginReservationSummary
  contributingOrigins : Finset (String × OriginProgress)

def AccountState.reservationsByOrigin (acc : AccountState) (now : ℕ) :
    Map String OriginReservationSummary := fun origin =>
  let own := (acc.activeReservations now).filter fun _ r => r.originNodeId == origin
  let expiries := (own.entries.map fun r => r.2.expiresAtUnixMs).sort
  if expiries = [] then none
  else some
    { reservedAmount := UInt64.ofNat (own.weight fun _ r => r.amount.toNat)
      reservationCount := expiries.length
      nextExpiryUnixMs := expiries.head?
      latestExpiryUnixMs := expiries.getLast? }

namespace SharedState

variable (s : SharedState D) (now : ℕ)

def originProgress (key : EpochKey) : OriginProgress where
  head := s.head key
  maxKnown := (s.maxKnownSeqs key).getD 0

/-- The progress of every origin, as `origin:epoch`. -/
def contributingOrigins (key : BalanceKey) : Finset (String × OriginProgress) :=
  ((s.accountOriginEpochs key).getD ∅).image fun epochKey =>
    (epochKey.2.1 ++ ":" ++ toString epochKey.2.2,
      s.originProgress (key.1, epochKey.2.1, epochKey.2.2))

def collapsedBalance (key : BalanceKey) : CollapsedBalance :=
  let acc := s.account key
  let origins := s.contributingOrigins key
  { balance := acc.balance
    availableBalance := acc.availableBalance now
    status :=
      if ∀ o ∈ origins, o.2.maxKnown ≤ o.2.head then "locally_confirmed" else "provisional"
    reservedByOrigin := acc.reservationsByOrigin now
    contributingOrigins := origins }

end SharedState

/-- An origin and an epoch are read back from `origin:epoch`. -/
lemma originText_inj {origin origin' : String} {epoch epoch' : ℕ}
    (h : origin ++ ":" ++ toString epoch = origin' ++ ":" ++ toString epoch') :
    origin = origin' ∧ epoch = epoch' := by
  have hdigits : ∀ n : ℕ, (toString n).toList = Nat.toDigits 10 n := fun n => Nat.toList_repr
  have hcolon : ∀ n : ℕ, ':' ∉ Nat.toDigits 10 n := fun n => notMem_toDigits (by decide) n
  have hlist := congrArg String.toList h
  simp only [String.toList_append, hdigits, List.append_assoc] at hlist
  have hsplit := rsplitOnce_eq_some_iff.2 ⟨hlist, hcolon epoch'⟩
  have hsplit' : rsplitOnce ':' (origin.toList ++ ':' :: Nat.toDigits 10 epoch) =
      some (origin.toList, Nat.toDigits 10 epoch) := rsplitOnce_eq_some_iff.2 ⟨rfl, hcolon epoch⟩
  obtain ⟨horigin, hepoch⟩ := Prod.mk.inj (Option.some.inj (hsplit'.symm.trans hsplit))
  exact ⟨String.toList_inj.1 horigin, toDigits_injective hepoch⟩

/-- The origin has written to the account in this epoch. -/
def SharedState.Contributes (s : SharedState D) (key : BalanceKey) (origin : String) (epoch : ℕ) :
    Prop :=
  ∃ bucket, (bucket, origin, epoch) ∈ (s.accountOriginEpochs key).getD ∅

lemma mem_contributingOrigins_iff {s : SharedState D} {key : BalanceKey} {origin : String}
    {epoch head maxKnown : ℕ} :
    (origin ++ ":" ++ toString epoch, ⟨head, maxKnown⟩) ∈ s.contributingOrigins key ↔
      s.Contributes key origin epoch ∧ head = s.head (key.1, origin, epoch) ∧
        maxKnown = (s.maxKnownSeqs (key.1, origin, epoch)).getD 0 := by
  simp only [SharedState.contributingOrigins, Finset.mem_image, Prod.mk.injEq]
  constructor
  · rintro ⟨⟨bucket, origin', epoch'⟩, hmem, htext, hprogress⟩
    obtain ⟨rfl, rfl⟩ := originText_inj htext
    cases hprogress
    exact ⟨⟨bucket, hmem⟩, rfl, rfl⟩
  · rintro ⟨⟨bucket, hmem⟩, rfl, rfl⟩
    exact ⟨_, hmem, rfl, rfl⟩

/-! ## The view -/

def BalanceKey.joined (key : BalanceKey) : String := key.1 ++ ":" ++ key.2

def CollapsedBalance.unknown : CollapsedBalance where
  balance := 0
  availableBalance := 0
  status := "unknown"
  reservedByOrigin := fun _ => none
  contributingOrigins := ∅

namespace SharedState

variable (s : SharedState D) (now : ℕ) (order : List BalanceKey)

/-- `order` is the order in which the accounts come from their map. -/
def collapsedState : TreeMap String CollapsedBalance :=
  order.foldl (fun view key =>
    if (s.accountLocks key).isNone then view.insert key.joined (s.collapsedBalance now key)
    else view) ∅

/-- `collapsed_account`. -/
def collapsedAccount (key : BalanceKey) : CollapsedBalance :=
  (s.collapsedState now order)[key.joined]?.getD .unknown

/-- The list names every account once. -/
structure ListsAccounts : Prop where
  nodup : order.Nodup
  mem_iff : ∀ key, key ∈ order ↔ (s.accounts key).isSome = true

/-- The entry `shown` is right about the pair `key`: it has the figures of the account, and of each
origin that has written to the account how far this node has got with its events in the bucket. -/
structure ShowsAccount (key : BalanceKey) (shown : CollapsedBalance) : Prop where
  known : shown.status ≠ "unknown" ↔ (s.accounts key).isSome = true
  balance : shown.balance = (s.account key).balance
  availableBalance : shown.availableBalance = (s.account key).availableBalance now
  reservedByOrigin : shown.reservedByOrigin = (s.account key).reservationsByOrigin now
  origins : ∀ origin epoch head maxKnown,
    (origin ++ ":" ++ toString epoch, ⟨head, maxKnown⟩) ∈ shown.contributingOrigins ↔
      (s.accounts key).isSome = true ∧ s.Contributes key origin epoch ∧
        head = s.head (key.1, origin, epoch) ∧
        maxKnown = (s.maxKnownSeqs (key.1, origin, epoch)).getD 0

/-- The view has exactly one entry for each account, and a look-up of the pair `key` is right about
it. -/
structure CollapsesFaithfully (key : BalanceKey) : Prop where
  entries : Set.BijOn BalanceKey.joined {k | (s.accounts k).isSome = true}
    {text | text ∈ s.collapsedState now order}
  account : s.ShowsAccount now key (s.collapsedAccount now order key)

end SharedState

section View

variable {s : SharedState D} {now : ℕ} {order : List BalanceKey}

/-- Every entry of the view is that of an account whose lock is free. -/
lemma exists_of_collapsedState {text : String} {b : CollapsedBalance}
    (h : (s.collapsedState now order)[text]? = some b) :
    ∃ key ∈ order, s.accountLocks key = none ∧ key.joined = text ∧
      b = s.collapsedBalance now key := by
  induction order using List.reverseRecOn with
  | nil => simp [SharedState.collapsedState] at h
  | append_singleton order key ih =>
      have hearlier : (s.collapsedState now order)[text]? = some b →
          ∃ key' ∈ order ++ [key], s.accountLocks key' = none ∧ key'.joined = text ∧
            b = s.collapsedBalance now key' := fun h' => by
        obtain ⟨key', hmem, hrest⟩ := ih h'
        exact ⟨key', List.mem_append_left _ hmem, hrest⟩
      rw [SharedState.collapsedState, List.foldl_append] at h
      simp only [List.foldl_cons, List.foldl_nil] at h
      split at h
      next hfree =>
        rw [TreeMap.getElem?_insert] at h
        split at h
        next heq =>
          exact ⟨key, by simp, Option.isNone_iff_eq_none.1 hfree,
            Std.LawfulEqOrd.eq_of_compare heq, (Option.some.inj h).symm⟩
        next => exact hearlier h
      next => exact hearlier h

/-- Every account whose lock is free has an entry. -/
lemma joined_mem_collapsedState {key : BalanceKey} (hmem : key ∈ order)
    (hfree : s.accountLocks key = none) : key.joined ∈ s.collapsedState now order := by
  induction order using List.reverseRecOn with
  | nil => cases hmem
  | append_singleton order key' ih =>
      rw [SharedState.collapsedState, List.foldl_append]
      simp only [List.foldl_cons, List.foldl_nil]
      rcases List.mem_append.1 hmem with hmem | hmem
      · split
        · exact TreeMap.mem_insert.2 (.inr (ih hmem))
        · exact ih hmem
      · obtain rfl := List.mem_singleton.1 hmem
        rw [if_pos (Option.isNone_iff_eq_none.2 hfree)]
        exact TreeMap.mem_insert_self

lemma status_collapsedBalance (key : BalanceKey) :
    (s.collapsedBalance now key).status ≠ "unknown" := by
  unfold SharedState.collapsedBalance
  dsimp only
  split
  · decide
  · decide

/-- The entry of an account is right about it. -/
lemma shows_collapsedBalance {key : BalanceKey} (hkey : (s.accounts key).isSome = true) :
    s.ShowsAccount now key (s.collapsedBalance now key) where
  known := iff_of_true (status_collapsedBalance key) hkey
  balance := rfl
  availableBalance := rfl
  reservedByOrigin := rfl
  origins _ _ _ _ := mem_contributingOrigins_iff.trans (iff_and_self.2 fun _ => hkey)

lemma AccountState.availableBalance_new (now : ℕ) : AccountState.new.availableBalance now = 0 := by
  have hnone : AccountState.new.activeReservations now = ∅ := rfl
  rw [availableBalance, activeHoldTotal, hnone, Finmap.weight_empty]
  rfl

lemma AccountState.reservationsByOrigin_new (now : ℕ) :
    AccountState.new.reservationsByOrigin now = fun _ => none := by
  funext origin
  have hnone : AccountState.new.activeReservations now = ∅ := rfl
  have hown : ((∅ : Finmap fun _ : String => ReservationState).filter
      fun _ r => r.originNodeId == origin) = ∅ := rfl
  have hexpiries : (((∅ : Finmap fun _ : String => ReservationState).entries.map
      fun r => r.2.expiresAtUnixMs).sort) = [] := Multiset.sort_zero _
  rw [reservationsByOrigin, hnone, hown]
  exact if_pos hexpiries

/-- The answer about a pair that is no account. -/
lemma shows_unknown {key : BalanceKey} (hkey : s.accounts key = none) :
    s.ShowsAccount now key .unknown := by
  have haccount : s.account key = .new := by
    rw [SharedState.account, hkey]
    rfl
  have hnot : ¬ (s.accounts key).isSome = true := by
    rw [hkey]
    exact Bool.false_ne_true
  refine ⟨iff_of_false (fun h => h rfl) hnot, ?_, ?_, ?_, fun _ _ _ _ => ?_⟩
  · rw [haccount]
    rfl
  · rw [haccount, AccountState.availableBalance_new]
    rfl
  · rw [haccount, AccountState.reservationsByOrigin_new]
    rfl
  · exact iff_of_false (Finset.notMem_empty _) fun h => hnot h.1

/-- An entry stands where the view shows the pair. -/
lemma exists_getElem?_of_mem {key : BalanceKey} (hmem : key.joined ∈ s.collapsedState now order) :
    ∃ k ∈ order, s.accountLocks k = none ∧ k.joined = key.joined ∧
      s.collapsedAccount now order key = s.collapsedBalance now k := by
  obtain ⟨b, hb⟩ := Option.isSome_iff_exists.1 (TreeMap.mem_iff_isSome_getElem?.1 hmem)
  obtain ⟨k, hk, hfree, hjoined, rfl⟩ := exists_of_collapsedState hb
  refine ⟨k, hk, hfree, hjoined, ?_⟩
  rw [SharedState.collapsedAccount, hb]
  rfl

/-- The view is faithful about a pair exactly when no account's lock is taken, no two accounts have
the same joined text, and no other account has the joined text of the pair. -/
theorem collapsesFaithfully_iff (horder : s.ListsAccounts order) (key : BalanceKey) :
    s.CollapsesFaithfully now order key ↔
      (∀ k, (s.accounts k).isSome = true → s.accountLocks k = none) ∧
      Set.InjOn BalanceKey.joined {k | (s.accounts k).isSome = true} ∧
      ∀ k, (s.accounts k).isSome = true → k.joined = key.joined → k = key := by
  constructor
  · rintro ⟨hentries, haccount⟩
    refine ⟨fun k hk => ?_, hentries.injOn, fun k hk hjoined => ?_⟩
    · obtain ⟨k', hk', hfree, hjoined, -⟩ := exists_getElem?_of_mem (hentries.mapsTo hk)
      rwa [← hentries.injOn ((horder.mem_iff k').1 hk') hk hjoined]
    · by_cases hkey : (s.accounts key).isSome = true
      · exact hentries.injOn hk hkey hjoined
      -- the pair is no account, and is shown as one all the same
      have hmem : key.joined ∈ s.collapsedState now order := hjoined ▸ hentries.mapsTo hk
      obtain ⟨k', -, -, -, hshown⟩ := exists_getElem?_of_mem hmem
      rw [hshown] at haccount
      exact absurd (haccount.known.1 (status_collapsedBalance k')) hkey
  · rintro ⟨hfree, hinj, hkey⟩
    have hmem : ∀ k, (s.accounts k).isSome = true → k.joined ∈ s.collapsedState now order :=
      fun k hk => joined_mem_collapsedState ((horder.mem_iff k).2 hk) (hfree k hk)
    refine ⟨⟨fun k hk => hmem k hk, hinj, fun text htext => ?_⟩, ?_⟩
    · obtain ⟨b, hb⟩ := Option.isSome_iff_exists.1 (TreeMap.mem_iff_isSome_getElem?.1 htext)
      obtain ⟨k, hk, -, rfl, -⟩ := exists_of_collapsedState hb
      exact ⟨k, (horder.mem_iff k).1 hk, rfl⟩
    · by_cases hknown : (s.accounts key).isSome = true
      · obtain ⟨k, hk, -, hjoined, hshown⟩ := exists_getElem?_of_mem (hmem key hknown)
        obtain rfl := hkey k ((horder.mem_iff k).1 hk) hjoined
        rw [hshown]
        exact shows_collapsedBalance hknown
      · rw [SharedState.collapsedAccount]
        rcases hview : (s.collapsedState now order)[key.joined]? with _ | b
        · exact shows_unknown (Option.not_isSome_iff_eq_none.1 hknown)
        · obtain ⟨k, hk, -, hjoined, -⟩ := exists_of_collapsedState hview
          have hk := (horder.mem_iff k).1 hk
          exact absurd (hkey k hk hjoined ▸ hk) hknown

end View

section Joined

/-- A node that has credited an account with 5 and has reserved 3 of it. -/
def reservedNode : SharedState Unit :=
  let deposit := LocalCreateInput.legacy "a" "b" 5 none 0 "n1" false
  let reserve :=
    { LocalCreateInput.legacy "a" "b" 0 none 3 "n2" false with
      holdAmount := some 3
      holdExpiresAtUnixMs := some 5000 }
  let s := (NodeM.exec (createLocalEvents (.plain "node" 1000) deposit).run (.blank .empty)).2
  (NodeM.exec (createLocalEvents (.plain "node" 1000) reserve).run s).2

/-- The view of it before and after the reservation expires. -/
theorem collapsesFaithfully_reserved :
    (reservedNode.collapsedAccount 2000 [("a", "b")] ("a", "b")).balance = 5 ∧
      (reservedNode.collapsedAccount 2000 [("a", "b")] ("a", "b")).availableBalance = 2 ∧
      (reservedNode.collapsedAccount 5000 [("a", "b")] ("a", "b")).availableBalance = 5 ∧
      (("node:1", ⟨2, 2⟩) : String × OriginProgress) ∈
        (reservedNode.collapsedAccount 2000 [("a", "b")] ("a", "b")).contributingOrigins ∧
      (reservedNode.collapsedAccount 2000 [("a", "b")] ("a:b", "")).status = "unknown" := by
  have horder : reservedNode.ListsAccounts [("a", "b")] := by
    refine ⟨List.nodup_singleton _, fun key => ?_⟩
    rw [List.mem_singleton]
    show key = ("a", "b") ↔
      (Map.insert (Map.insert (Map.insert (fun _ => none) ("a", "b") AccountState.new) ("a", "b") _)
        ("a", "b") _ key).isSome = true
    by_cases hkey : key = ("a", "b")
    · simp [hkey]
    · simp [hkey]
  have hknown : ∀ k, (reservedNode.accounts k).isSome = true → k = ("a", "b") := fun k hk =>
    List.mem_singleton.1 ((horder.mem_iff k).2 hk)
  have hfaithful : ∀ now (key : BalanceKey), key.joined ≠ "a:b" ∨ key = ("a", "b") →
      reservedNode.CollapsesFaithfully now [("a", "b")] key := by
    refine fun now key hkey => (collapsesFaithfully_iff horder key).2
      ⟨fun k hk => ?_, fun k hk k' hk' _ => ?_, fun k hk hjoined => ?_⟩
    · rw [hknown k hk]
      rfl
    · rw [hknown k hk, hknown k' hk']
    · rw [hknown k hk] at hjoined ⊢
      exact (hkey.resolve_left fun hne => hne hjoined.symm).symm
  have hshown := fun now => (hfaithful now ("a", "b") (.inr rfl)).account
  refine ⟨(hshown 2000).balance.trans rfl, (hshown 2000).availableBalance.trans (by decide),
    (hshown 5000).availableBalance.trans (by decide),
    ((hshown 2000).origins "node" 1 2 2).2 ⟨rfl, ⟨"a", by decide⟩, rfl, rfl⟩, ?_⟩
  have hother := (hfaithful 2000 ("a:b", "") (.inl (by decide))).account.known
  exact not_not.1 fun hstatus => absurd (hother.1 hstatus) (by decide)

/-- A credit of `amount` to an account. -/
def creditInput (bucket account : String) (amount : Int64) : LocalCreateInput :=
  .legacy bucket account amount none 0 "n1" false

/-- A fresh node that has credited two accounts with one joined text. -/
def joinedNode : SharedState Unit :=
  let s := (NodeM.exec (createLocalEvents (.plain "node" 1000) (creditInput "a" "b:c" 5)).run
    (.blank .empty)).2
  (NodeM.exec (createLocalEvents (.plain "node" 1000) (creditInput "a:b" "c" 7)).run s).2

/-- Whichever account comes last from the map, the view shows it for both, and so is wrong about the
other. -/
theorem not_collapsesFaithfully_colon :
    (joinedNode.account ("a", "b:c")).balance = 5 ∧ (joinedNode.account ("a:b", "c")).balance = 7 ∧
      ∀ now order, joinedNode.ListsAccounts order →
        ¬ ((joinedNode.collapsedAccount now order ("a", "b:c")).balance = 5 ∧
          (joinedNode.collapsedAccount now order ("a:b", "c")).balance = 7) ∧
        ¬ joinedNode.CollapsesFaithfully now order ("a", "b:c") := by
  refine ⟨rfl, rfl, fun now order _ => ⟨fun ⟨hfive, hseven⟩ => ?_, fun h => ?_⟩⟩
  · -- both look-ups are of one entry
    have hsame : joinedNode.collapsedAccount now order ("a", "b:c") =
        joinedNode.collapsedAccount now order ("a:b", "c") := rfl
    rw [← hsame, hfive] at hseven
    exact absurd hseven (by decide)
  have hfirst : (joinedNode.accounts ("a", "b:c")).isSome = true := rfl
  have hsecond : (joinedNode.accounts ("a:b", "c")).isSome = true := rfl
  have hsame := h.entries.injOn hfirst hsecond (by decide)
  exact absurd hsame (by decide)

end Joined

/-! ## Names with and without colons -/

section Names

lemma toList_joined (k : BalanceKey) : k.joined.toList = k.1.toList ++ ':' :: k.2.toList := by
  simp [BalanceKey.joined]

/-- A pair without colons is told from its joined text. -/
lemma eq_of_joined_eq {k k' : BalanceKey} (hbucket : ':' ∉ k.1.toList)
    (haccount : ':' ∉ k.2.toList) (h : k.joined = k'.joined) : k = k' := by
  have hlist := congrArg String.toList h
  rw [toList_joined, toList_joined] at hlist
  have hcount := congrArg (List.count ':') hlist
  simp only [List.count_append, List.count_cons_self, List.count_eq_zero_of_not_mem hbucket,
    List.count_eq_zero_of_not_mem haccount] at hcount
  have hbucket' : ':' ∉ k'.1.toList := List.count_eq_zero.1 (by omega)
  have hsplit := splitOnce_eq_some_iff.2 ⟨hlist, hbucket'⟩
  rw [splitOnce_eq_some_iff.2 ⟨rfl, hbucket⟩, Option.some.injEq, Prod.mk.injEq] at hsplit
  exact Prod.ext (String.toList_inj.1 hsplit.1) (String.toList_inj.1 hsplit.2)

/-- A pair with a colon in one of its names has the joined text of another one. -/
lemma exists_joined_eq {k : BalanceKey} (hk : ':' ∈ k.1.toList ∨ ':' ∈ k.2.toList) :
    ∃ k', k ≠ k' ∧ k.joined = k'.joined := by
  rcases hk with hk | hk
  · obtain ⟨front, rest, hsplit⟩ := List.append_of_mem hk
    refine ⟨(String.ofList front, String.ofList (rest ++ ':' :: k.2.toList)), fun heq => ?_, ?_⟩
    · have hfront := congrArg String.toList (congrArg Prod.fst heq)
      rw [hsplit, String.toList_ofList] at hfront
      exact absurd (congrArg List.length hfront) (by simp)
    · refine String.toList_inj.1 ?_
      rw [toList_joined, toList_joined, hsplit, String.toList_ofList, String.toList_ofList,
        List.append_assoc, List.cons_append]
  · obtain ⟨front, rest, hsplit⟩ := List.append_of_mem hk
    refine ⟨(String.ofList (k.1.toList ++ ':' :: front), String.ofList rest), fun heq => ?_, ?_⟩
    · have hfront := congrArg String.toList (congrArg Prod.fst heq)
      rw [String.toList_ofList] at hfront
      exact absurd (congrArg List.length hfront) (by simp)
    · refine String.toList_inj.1 ?_
      rw [toList_joined, toList_joined, hsplit, String.toList_ofList, String.toList_ofList,
        List.append_assoc, List.cons_append]

/-- The view is faithful about all pairs exactly when no account's lock is taken and no account has
a colon in one of its names. -/
theorem collapsesFaithfully_forall_iff {s : SharedState D} {now : ℕ} {order : List BalanceKey}
    (horder : s.ListsAccounts order) :
    (∀ key, s.CollapsesFaithfully now order key) ↔
      ∀ k, (s.accounts k).isSome = true →
        s.accountLocks k = none ∧ ':' ∉ k.1.toList ∧ ':' ∉ k.2.toList := by
  simp only [collapsesFaithfully_iff horder]
  constructor
  · intro h k hk
    refine ⟨(h k).1 k hk, ?_⟩
    by_contra hcolon
    obtain ⟨k', hne, hjoined⟩ := exists_joined_eq (k := k) (by tauto)
    exact hne ((h k').2.2 k hk hjoined)
  · intro h key
    have htold : ∀ k k', (s.accounts k).isSome = true → k.joined = k'.joined → k = k' :=
      fun k k' hk hjoined => eq_of_joined_eq (h k hk).2.1 (h k hk).2.2 hjoined
    exact ⟨fun k hk => (h k hk).1, fun k hk k' _ hjoined => htold k k' hk hjoined,
      fun k hk hjoined => htold k key hk hjoined⟩

end Names

end Shardd
