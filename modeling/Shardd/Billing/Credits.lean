import Mathlib.Data.Set.Insert
import Shardd.Gateway.Names
import Shardd.Node.Service

/-!
# The credits of a user

A user's credits are the account `credits` of the user's billing bucket.  Everybody writes to it
without holds and without transfers: the gateway when a call is paid for, billing when credits are
granted.  To such a write the account is a balance and a set of writes that are already known, by
nonce and amount; `CreditLedger.Writes` says what becomes of it, and `exec_creditWrite` that this
is what the node does.
-/

namespace Shardd

variable {D : Type}

/-! ## The account -/

def billingBucketForUser (userId : Uuid) : String := billingBucketPrefix ++ userId.toText

def creditsKey (u : Uuid) : BalanceKey := (billingBucketForUser u, "credits")

/-- The requests that write to the credits of `u`. -/
structure CreateEventRequest.WritesCredits (u : Uuid) (req : CreateEventRequest) : Prop where
  bucket : req.bucket = billingBucketForUser u
  account : req.account = "credits"
  note : validateEventNote req.note = .ok ()
  holdAmount : req.holdAmount = none
  holdExpiresAtUnixMs : req.holdExpiresAtUnixMs = none
  settleReservation : req.settleReservation = none
  releaseReservation : req.releaseReservation = none
  skipHold : req.skipHold = some true
  allowReservedBucket : req.allowReservedBucket = true
  transferTo : req.transferTo = none

/-- What a write of billing comes to: `create_billing_event`, and then `submit_create_event` for
the internal route of the gateway, which trims the nonce. -/
def billingEventRequest (userId : Uuid) (amount : Int64) (note idempotencyNonce : String) :
    CreateEventRequest where
  bucket := billingBucketForUser userId
  account := "credits"
  amount := amount
  note := some note
  idempotencyNonce := String.ofList (trim idempotencyNonce.toList)
  maxOverdraft := none
  holdAmount := none
  holdExpiresAtUnixMs := none
  settleReservation := none
  releaseReservation := none
  skipHold := some true
  allowReservedBucket := true
  transferTo := none

lemma billingEventRequest_writesCredits (u : Uuid) (amount : Int64) {note : String}
    (nonce : String) (hnote : note.length ≤ maxEventNoteChars) :
    (billingEventRequest u amount note nonce).WritesCredits u where
  bucket := rfl
  account := rfl
  note := if_neg (by omega)
  holdAmount := rfl
  holdExpiresAtUnixMs := rfl
  settleReservation := rfl
  releaseReservation := rfl
  skipHold := rfl
  allowReservedBucket := rfl
  transferTo := rfl

/-! ## The ledger of credits -/

structure CreditLedger where
  balance : Int64
  /-- The nonces and amounts of the writes that are known. -/
  known : Set (String × Int64)

/-- A debit that would leave less than the floor. -/
def CreditLedger.Short (l : CreditLedger) (amount floor : Int64) : Prop :=
  amount < 0 ∧ l.balance + amount < floor

/-- What becomes of a write: whether it succeeds, and the ledger it leaves.  `can` tells whether an
identity can be allocated for it. -/
inductive CreditLedger.Writes (l : CreditLedger) (nonce : String) (amount floor : Int64)
    (can : Prop) : Bool → CreditLedger → Prop
  | known (hknown : (nonce, amount) ∈ l.known) : Writes l nonce amount floor can true l
  | refused (hnew : (nonce, amount) ∉ l.known) (hshort : l.Short amount floor) :
      Writes l nonce amount floor can false l
  | failed (hnew : (nonce, amount) ∉ l.known) (hroom : ¬ l.Short amount floor) (hcan : ¬ can) :
      Writes l nonce amount floor can false l
  | posted (hnew : (nonce, amount) ∉ l.known) (hroom : ¬ l.Short amount floor) (hcan : can) :
      Writes l nonce amount floor can true
        ⟨l.balance + amount, insert (nonce, amount) l.known⟩

namespace SharedState

variable (env : Env D) (u : Uuid) (s : SharedState D)

def creditLedger : CreditLedger where
  balance := (s.account (creditsKey u)).balance
  known := { w | s.idempotencyCache (w.1, (creditsKey u).1, (creditsKey u).2, w.2) ≠ none }

/-- No call is at work on the credits, nothing is held, and what the storage knows of them the
cache knows as well. -/
structure CreditsReady : Prop where
  unlocked : s.accountLocks (creditsKey u) = none
  undeleted : s.deletedBuckets.containsKey (creditsKey u).1 = false
  noHolds : (s.account (creditsKey u)).reservations = ∅
  cached : ∀ nonce amount,
    s.idempotencyCache (nonce, (creditsKey u).1, (creditsKey u).2, amount) = none →
      s.storage.findByIdempotencyKey (nonce, (creditsKey u).1, (creditsKey u).2, amount) = []
  unbumping : ∀ a, s.entry (creditsKey u).1 = some a → a.bumpLock = none

/-- An identity can be allocated for a write to the credits. -/
def CanWriteCredits : Prop :=
  (s.opened (creditsKey u)).CanAllocate env (creditsKey u).1

end SharedState

/-! ## The node keeps the ledger -/

section Spec

variable {env : Env D} {u : Uuid} {s s' : SharedState D} {req : CreateEventRequest}

lemma AccountState.availableBalance_of_noHolds {acc : AccountState} (h : acc.reservations = ∅)
    (now : ℕ) : acc.availableBalance now = acc.balance := by
  have hactive : acc.activeReservations now = ∅ := by
    rw [activeReservations, h]
    rfl
  rw [availableBalance, activeHoldTotal, hactive]
  exact Int64.sub_zero _

lemma CreateEventRequest.WritesCredits.fromInput (h : req.WritesCredits u) (now : ℕ) :
    LocalCreateMode.fromInput req.input now = .ok (.charge (some (0, 0))) := by
  simp only [LocalCreateMode.fromInput, LocalCreateInput.explicitHold, input, h.holdAmount,
    h.holdExpiresAtUnixMs, h.settleReservation, h.releaseReservation, h.skipHold]
  rfl

lemma CreateEventRequest.WritesCredits.balanceKey (h : req.WritesCredits u) :
    req.input.balanceKey = creditsKey u := by
  rw [LocalCreateInput.balanceKey, creditsKey, ← h.bucket, ← h.account]
  rfl

lemma CreateEventRequest.WritesCredits.idempotencyKey (h : req.WritesCredits u) :
    req.input.idempotencyKey =
      (req.idempotencyNonce, (creditsKey u).1, (creditsKey u).2, req.amount) := by
  have hkey := h.balanceKey
  rw [← hkey]
  rfl

/-- What a write leaves as it is: everything of the credits but the ledger. -/
lemma SharedState.CreditsReady.congr (h : s.CreditsReady u)
    (hunlocked : s'.accountLocks (creditsKey u) = none)
    (hdeleted : s'.deletedBuckets = s.deletedBuckets)
    (hreservations : (s'.account (creditsKey u)).reservations =
      (s.account (creditsKey u)).reservations)
    (hcache : ∀ k, s'.idempotencyCache k = none → s.idempotencyCache k = none)
    (hevents : s'.storage.events = s.storage.events)
    (hunbumping : ∀ a, s'.entry (creditsKey u).1 = some a → a.bumpLock = none) :
    s'.CreditsReady u where
  unlocked := hunlocked
  undeleted := hdeleted ▸ h.undeleted
  noHolds := hreservations.trans h.noHolds
  cached nonce amount hk := by
    rw [Storage.findByIdempotencyKey, hevents]
    exact h.cached nonce amount (hcache _ hk)
  unbumping := hunbumping

lemma SharedState.creditLedger_congr
    (haccount : s'.account (creditsKey u) = s.account (creditsKey u))
    (hcache : s'.idempotencyCache = s.idempotencyCache) :
    s'.creditLedger u = s.creditLedger u := by
  rw [creditLedger, haccount, hcache]
  rfl

lemma Prepared.unbumping {bucket : String} {r : Option (Except StorageError Unit)}
    (hp : Prepared env bucket s r s') (h : ∀ a, s.entry bucket = some a → a.bumpLock = none) :
    ∀ a, s'.entry bucket = some a → a.bumpLock = none := by
  cases hp with
  | hit _ => exact h
  | bumped ha _ _ =>
      intro a' ha'
      rw [SharedState.entry_modifyEntry] at ha'
      obtain ⟨a, ha, rfl⟩ := Option.map_eq_some_iff.1 ha'
      exact h a ha
  | installed _ _ =>
      intro a ha
      simp only [SharedState.entry, SharedState.installAllocator,
        SharedState.setSlot_bucketAllocators, AllocatorSlot.entry_install,
        Option.some.injEq] at ha
      rw [← ha]
      rfl
  | failed _ _ => exact h
  | blocked _ _ _ => exact h

/-- The floor of a write. -/
def CreateEventRequest.floor (req : CreateEventRequest) : Int64 :=
  overdraftFloor (req.maxOverdraft.getD 0)

variable (env req) in
/-- A write to the credits is a bare charge, or it is refused because the ledger is short. -/
lemma plan_writesCredits (hs : s.CreditsReady u) (now : ℕ) :
    (∃ err, LocalCreateMode.plan env req.input now (s.account (creditsKey u))
        (.charge (some (0, 0))) = .error err ∧
      (s.creditLedger u).Short req.amount req.floor) ∨
    LocalCreateMode.plan env req.input now (s.account (creditsKey u)) (.charge (some (0, 0))) =
        .ok [req.input.chargeDraft] ∧
      ¬ (s.creditLedger u).Short req.amount req.floor := by
  set acc := s.account (creditsKey u)
  have havail := AccountState.availableBalance_of_noHolds hs.noHolds now
  have hprojected : acc.availableBalance now + req.amount - (0 : UInt64).toInt64 =
      acc.balance + req.amount := by
    rw [havail]
    exact Int64.sub_zero _
  by_cases hshort : req.amount < 0 ∧ acc.balance + req.amount < req.floor
  · obtain ⟨err, hguard⟩ : ∃ err,
        overdraftGuard acc req.input.amount req.input.maxOverdraft now 0 = some err := by
      show ∃ err, overdraftGuard acc req.amount (req.maxOverdraft.getD 0) now 0 = some err
      unfold overdraftGuard
      dsimp only
      rw [hprojected, if_pos hshort.1]
      exact ⟨_, if_pos hshort.2⟩
    refine .inl ⟨err, ?_, hshort⟩
    simp only [LocalCreateMode.plan, chargeHold, hguard]
  · have hguard : overdraftGuard acc req.input.amount req.input.maxOverdraft now 0 = none := by
      show overdraftGuard acc req.amount (req.maxOverdraft.getD 0) now 0 = _
      unfold overdraftGuard
      dsimp only
      rw [hprojected]
      by_cases hdebit : req.amount < 0
      · rw [if_pos hdebit]
        exact if_neg fun hlow => hshort ⟨hdebit, hlow⟩
      · exact if_neg hdebit
    refine .inr ⟨?_, hshort⟩
    simp only [LocalCreateMode.plan, chargeHold, hguard]
    rfl

lemma SharedState.accounts_ensureAccount_of_ne {key k : BalanceKey} (h : k ≠ key) :
    (s.ensureAccount key).accounts k = s.accounts k := by
  unfold ensureAccount
  dsimp only
  split
  · rfl
  · rw [Map.insert_apply, if_neg h]

/-- The state after a write that posts: its one event has been minted and recorded. -/
lemma posted_credits {s₁ : SharedState D} {e : Event} (hs : s.CreditsReady u)
    (hp : Prepared env (creditsKey u).1 (s.opened (creditsKey u)) (some (.ok ())) s₁)
    (hkey : e.balanceKey = creditsKey u) (htype : e.type = .standard) (hhold : e.holdAmount = 0)
    {s' : SharedState D}
    (hs' : s' = ((s₁.mint env e).recordLocal env e).unlockAccount (creditsKey u)) :
    s'.CreditsReady u ∧
      s'.creditLedger u = ⟨(s.creditLedger u).balance + e.amount,
        insert (e.idempotencyNonce, e.amount) (s.creditLedger u).known⟩ ∧
      ∀ k ≠ creditsKey u, s'.accounts k = s.accounts k := by
  have hopened : (s.opened (creditsKey u)).account (creditsKey u) = s.account (creditsKey u) :=
    SharedState.account_ensureAccount (s := s.tick) (creditsKey u)
  have haccount : s'.account (creditsKey u) = (s.account (creditsKey u)).post e.amount := by
    have hpost : (s.account (creditsKey u)).applyEvent e =
        (s.account (creditsKey u)).post e.amount := AccountState.applyEvent_of_standard htype hhold
    have hmint := SharedState.account_mint env (s := s₁) (e := e) (creditsKey u)
    rw [if_pos hkey.symm, hp.account, hopened, hpost] at hmint
    rw [hs', ← hmint]
    exact SharedState.account_recordLocal env _ e (creditsKey u)
  have hcache : s'.idempotencyCache = s.idempotencyCache.insert e.idempotencyKey e := by
    rw [hs', SharedState.recordLocal_frame, SharedState.mint, hp.frame]
    rfl
  have hidem : e.idempotencyKey =
      (e.idempotencyNonce, (creditsKey u).1, (creditsKey u).2, e.amount) := by
    rw [← hkey]
    rfl
  refine ⟨hs.congr ?_ ?_ ?_ ?_ ?_ ?_, ?_, fun k hk => ?_⟩
  · rw [hs']
    exact Map.remove_self _ _
  · rw [hs', SharedState.recordLocal_frame, SharedState.mint, hp.frame]
    rfl
  · rw [haccount]
    rfl
  · intro k hk
    rw [hcache, Map.insert_apply] at hk
    by_cases hke : k = e.idempotencyKey
    · rw [if_pos hke] at hk
      cases hk
    · rwa [if_neg hke] at hk
  · rw [hs', SharedState.recordLocal_frame, SharedState.mint, hp.frame]
    rfl
  · intro a ha
    have hentry : s'.entry (creditsKey u).1 = (s₁.takeNext (creditsKey u).1 env).entry
        (creditsKey u).1 := by
      have hbucket : e.bucket = (creditsKey u).1 := congrArg Prod.fst hkey
      rw [hs', SharedState.recordLocal_frame, SharedState.mint, hbucket]
      rfl
    rw [hentry, SharedState.entry_takeNext] at ha
    obtain ⟨a', ha', rfl⟩ := Option.map_eq_some_iff.1 ha
    exact hp.unbumping hs.unbumping a' ha'
  · have hknown : ∀ w : String × Int64, (e.idempotencyKey =
        (w.1, (creditsKey u).1, (creditsKey u).2, w.2)) ↔ w = (e.idempotencyNonce, e.amount) := by
      intro w
      rw [hidem]
      simp only [true_and, Prod.ext_iff]
      exact ⟨fun hw => ⟨hw.1.symm, hw.2.symm⟩, fun hw => ⟨hw.1.symm, hw.2.symm⟩⟩
    rw [SharedState.creditLedger, haccount, hcache]
    refine congrArg (CreditLedger.mk _) (Set.ext fun w => ?_)
    rw [Set.mem_ofPred_eq, Set.mem_insert_iff, Map.insert_apply]
    by_cases hw : w = (e.idempotencyNonce, e.amount)
    · rw [if_pos ((hknown w).2 hw).symm]
      exact iff_of_true (Option.some_ne_none e) (.inl hw)
    · rw [if_neg fun heq => hw ((hknown w).1 heq.symm)]
      exact ⟨fun hmem => .inr hmem, fun hmem => hmem.resolve_left hw⟩
  · have haccounts : s'.accounts = (s.tick.ensureAccount (creditsKey u)).accounts.insert
        e.balanceKey ((s₁.account e.balanceKey).applyEvent e) := by
      rw [hs', SharedState.recordLocal_frame, SharedState.mint, hp.frame]
      rfl
    rw [haccounts, hkey, Map.insert_apply, if_neg hk]
    exact SharedState.accounts_ensureAccount_of_ne hk

/-- What becomes of the branch of a write, once the lock of the account has been taken. -/
lemma emitted_credits (hs : s.CreditsReady u) (hreq : req.WritesCredits u) {now : ℕ}
    (hnew : (req.idempotencyNonce, req.amount) ∉ (s.creditLedger u).known)
    {r : Option (Except CreateLocalEventError LocalCreateResult)}
    (h : Emitted env req.input now (.charge (some (0, 0))) (s.opened (creditsKey u)) r s') :
    ∃ res, r = some res ∧ (s'.unlockAccount (creditsKey u)).CreditsReady u ∧
      (s.creditLedger u).Writes req.idempotencyNonce req.amount req.floor
        (s.CanWriteCredits env u) res.isOk
        ((s'.unlockAccount (creditsKey u)).creditLedger u) ∧
      ∀ k ≠ creditsKey u, s'.accounts k = s.accounts k := by
  have hkey := hreq.balanceKey
  have hopened : (s.opened (creditsKey u)).account (creditsKey u) = s.account (creditsKey u) :=
    SharedState.account_ensureAccount (s := s.tick) (creditsKey u)
  have hplan := plan_writesCredits env req hs now
  have hto : req.input.transferTo = none := hreq.transferTo
  have hcredit : LocalCreateMode.creditTo req.input (.charge (some (0, 0))) = none := hto
  have hbucket : req.input.bucket = (creditsKey u).1 := hreq.bucket
  -- a branch that does not mint leaves the ledger as it is
  have hidle : ∀ {s₁ : SharedState D} {r}, Prepared env (creditsKey u).1 (s.opened (creditsKey u))
      r s₁ → (s₁.unlockAccount (creditsKey u)).CreditsReady u ∧
        (s₁.unlockAccount (creditsKey u)).creditLedger u = s.creditLedger u ∧
        ∀ k ≠ creditsKey u, s₁.accounts k = s.accounts k := by
    intro s₁ r hp
    have hacc : s₁.account (creditsKey u) = s.account (creditsKey u) :=
      (hp.account (creditsKey u)).trans hopened
    refine ⟨hs.congr (Map.remove_self _ _) (by rw [hp.frame]; rfl)
      (congrArg AccountState.reservations hacc) (fun k hk => ?_) (by rw [hp.frame]; rfl)
      (hp.unbumping hs.unbumping), SharedState.creditLedger_congr hacc (by rw [hp.frame]; rfl),
      fun k hk => ?_⟩
    · rw [hp.frame] at hk
      exact hk
    · rw [hp.frame]
      exact SharedState.accounts_ensureAccount_of_ne hk
  cases h with
  | refused hrefused =>
      rw [hkey, hopened] at hrefused
      rcases hplan with ⟨err, herr, hshort⟩ | ⟨hok, -⟩
      · have hready : ((s.opened (creditsKey u)).unlockAccount (creditsKey u)).CreditsReady u :=
          hs.congr (Map.remove_self _ _) rfl (congrArg AccountState.reservations hopened)
            (fun k hk => hk) rfl hs.unbumping
        refine ⟨_, rfl, hready, ?_, fun k hk => SharedState.accounts_ensureAccount_of_ne hk⟩
        have hledger : ((s.opened (creditsKey u)).unlockAccount (creditsKey u)).creditLedger u =
            s.creditLedger u := SharedState.creditLedger_congr hopened rfl
        rw [hledger]
        exact .refused hnew hshort
      · rw [hok] at hrefused
        cases hrefused
  | @unallocated drafts made _ hdrafts hp hne =>
      have hp : Prepared env (creditsKey u).1 (s.opened (creditsKey u)) made s' := hbucket ▸ hp
      rw [hkey, hopened] at hdrafts
      rcases hplan with ⟨err, herr, -⟩ | ⟨-, hroom⟩
      · rw [herr] at hdrafts
        cases hdrafts
      · obtain ⟨hready, hledger, hothers⟩ := hidle hp
        rcases made with _ | made
        · cases hp with
          | blocked _ ha hbump => exact absurd (hs.unbumping _ ha) hbump
        · refine ⟨_, rfl, hready, ?_, hothers⟩
          rw [hledger]
          exact .failed hnew hroom fun hcan => hne (hp.canAllocate_iff.1 hcan)
  | @minted drafts s₁ s₂ primary es hdrafts hp _ hminted hprimary =>
      have hp : Prepared env (creditsKey u).1 (s.opened (creditsKey u)) (some (.ok ())) s₁ :=
        hbucket ▸ hp
      rw [hkey, hopened] at hdrafts
      rcases hplan with ⟨err, herr, -⟩ | ⟨hok, hroom⟩
      · rw [herr] at hdrafts
        cases hdrafts
      · obtain rfl : [req.input.chargeDraft] = drafts :=
          Except.ok.inj (hok.symm.trans hdrafts)
        cases hminted
        set e := s₁.draftEvent env now req.input.chargeDraft with he
        obtain ⟨hready, hledger, hothers⟩ := posted_credits hs hp
          (show e.balanceKey = _ from hkey) rfl rfl rfl
        refine ⟨_, rfl, hready, ?_, hothers⟩
        have hwrites := CreditLedger.Writes.posted hnew hroom (hp.canAllocate_iff.2 rfl)
        rw [show (⟨(s.creditLedger u).balance + req.amount,
          insert (req.idempotencyNonce, req.amount) (s.creditLedger u).known⟩ : CreditLedger) =
            (((s₁.mint env e).recordLocal env e).unlockAccount (creditsKey u)).creditLedger u
          from hledger.symm] at hwrites
        exact hwrites
  | creditBlocked _ _ hpays _ =>
      rw [hcredit] at hpays
      cases hpays
  | overflowed _ _ hpays _ _ =>
      rw [hcredit] at hpays
      cases hpays
  | transferred _ _ hpays _ _ _ _ =>
      rw [hcredit] at hpays
      cases hpays

/-- What becomes of a write. -/
lemma created_credits (hs : s.CreditsReady u) (hreq : req.WritesCredits u)
    {r : Option (Except CreateLocalEventError LocalCreateResult)}
    (h : Created env req.input s r s') :
    ∃ res, r = some res ∧ s'.CreditsReady u ∧
      (s.creditLedger u).Writes req.idempotencyNonce req.amount req.floor
        (s.CanWriteCredits env u) res.isOk (s'.creditLedger u) ∧
      ∀ k ≠ creditsKey u, s'.accounts k = s.accounts k := by
  have hkey := hreq.balanceKey
  have hidem := hreq.idempotencyKey
  have hgate : s.gate req.input = none := by
    have hallowed : req.input.allowReservedBucket = true := hreq.allowReservedBucket
    have hbucket : req.input.bucket = (creditsKey u).1 := hreq.bucket
    rw [SharedState.gate, hallowed, hbucket, hs.undeleted]
    rfl
  have hlock : s.accountLocks req.input.balanceKey = none := hkey ▸ hs.unlocked
  have hmode : ∀ {mode now}, LocalCreateMode.fromInput req.input now = .ok mode →
      mode = .charge (some (0, 0)) := fun hok =>
    Except.ok.inj (hok.symm.trans (hreq.fromInput _))
  have hnew : s.idempotencyCache req.input.idempotencyKey = none →
      (req.idempotencyNonce, req.amount) ∉ (s.creditLedger u).known := fun hcache hmem =>
    hmem (hidem ▸ hcache)
  cases h with
  | rejected herr =>
      rw [hgate] at herr
      cases herr
  | malformed _ herr =>
      rw [hreq.fromInput] at herr
      cases herr
  | blocked _ _ hblocked => exact absurd hlock hblocked
  | cachedRetry _ _ _ hcache =>
      have hacc : (s.tick.ensureAccount req.input.balanceKey).account (creditsKey u) =
          s.account (creditsKey u) := SharedState.account_ensureAccount (creditsKey u)
      refine ⟨_, rfl, hs.congr hs.unlocked rfl (congrArg AccountState.reservations hacc)
        (fun k hk => hk) rfl hs.unbumping, ?_, fun k hk =>
          SharedState.accounts_ensureAccount_of_ne (hkey ▸ hk)⟩
      rw [show (s.tick.ensureAccount req.input.balanceKey).creditLedger u = s.creditLedger u from
        SharedState.creditLedger_congr hacc rfl]
      refine .known fun hnone => ?_
      rw [hidem] at hcache
      rw [hcache] at hnone
      cases hnone
  | storedRetry _ _ _ hcache hstored =>
      have hempty := hs.cached req.idempotencyNonce req.amount (hidem ▸ hcache)
      rw [SharedState.storedWinner, hidem, hempty] at hstored
      split at hstored <;> cases hstored
  | emitted _ hok _ hcache _ hemitted =>
      rw [hkey, hmode hok] at hemitted
      obtain ⟨res, hres, hready, hwrites, hothers⟩ :=
        emitted_credits hs hreq (hnew hcache) hemitted
      rw [hkey]
      exact ⟨_, rfl, hready, Option.some.inj hres ▸ hwrites, hothers⟩
  | stuck _ hok _ hcache _ hemitted =>
      rw [hkey, hmode hok] at hemitted
      obtain ⟨res, hres, -⟩ := emitted_credits hs hreq (hnew hcache) hemitted
      cases hres

variable (env) in
/-- **A write to the credits of a user is a write to their ledger.** -/
theorem exec_creditWrite (hs : s.CreditsReady u) (hreq : req.WritesCredits u) :
    ∃ r s', NodeM.exec (createEvent env .ready req).run s = (some r, s') ∧ s'.CreditsReady u ∧
      (s.creditLedger u).Writes req.idempotencyNonce req.amount req.floor
        (s.CanWriteCredits env u) r.isOk (s'.creditLedger u) ∧
      ∀ k ≠ creditsKey u, s'.accounts k = s.accounts k := by
  obtain ⟨r, s', hcreated, hrun⟩ := exec_createEvent env hreq.note (.inl hreq.allowReservedBucket)
    (s := s)
  obtain ⟨res, rfl, hready, hwrites, hothers⟩ := created_credits hs hreq hcreated
  refine ⟨_, _, hrun, ?_⟩
  cases res with
  | error err => exact ⟨hready, hwrites, hothers⟩
  | ok result =>
      exact ⟨hready.congr hready.unlocked rfl rfl (fun k hk => hk) rfl hready.unbumping, hwrites,
        hothers⟩

/-! ## Writes as billing sees them -/

variable (env) in
/-- Whether a write succeeds, and the state of the node after it. -/
def creditWrite (req : CreateEventRequest) (s : SharedState D) : Bool × SharedState D :=
  let out := NodeM.exec (createEvent env .ready req).run s
  (match out.1 with
    | some (.ok _) => true
    | _ => false, out.2)

variable (env) in
lemma creditWrite_spec (hs : s.CreditsReady u) (hreq : req.WritesCredits u) :
    (creditWrite env req s).2.CreditsReady u ∧
      (s.creditLedger u).Writes req.idempotencyNonce req.amount req.floor
        (s.CanWriteCredits env u) (creditWrite env req s).1
        ((creditWrite env req s).2.creditLedger u) ∧
      ∀ k ≠ creditsKey u, (creditWrite env req s).2.accounts k = s.accounts k := by
  obtain ⟨r, s', hrun, hready, hwrites, hothers⟩ := exec_creditWrite env hs hreq
  have hout : creditWrite env req s = (r.isOk, s') := by
    unfold creditWrite
    dsimp only
    rw [hrun]
    cases r <;> rfl
  rw [hout]
  exact ⟨hready, hwrites, hothers⟩

/-- A node without other accounts lists the credits, or nothing. -/
lemma SharedState.exists_getAllBalances (hunlocked : s.accountLocks (creditsKey u) = none)
    (halone : ∀ k ≠ creditsKey u, s.accounts k = none) (now : ℕ) :
    ∃ rows, s.GetAllBalances now rows := by
  rcases hacc : s.accounts (creditsKey u) with _ | acc
  · refine ⟨[], fun row hrow => absurd hrow List.not_mem_nil, fun key acc hkey _ => ?_, .nil⟩
    by_cases hck : key = creditsKey u
    · rw [hck, hacc] at hkey
      cases hkey
    · rw [halone key hck] at hkey
      cases hkey
  · refine ⟨[⟨(creditsKey u).1, (creditsKey u).2, acc.balance, acc.availableBalance now,
      (acc.activeHoldTotal now).toInt64, ∅, acc.eventCount⟩], fun row hrow => ?_,
      fun key acc' hkey _ => ⟨_, List.mem_singleton_self _, ?_⟩, List.pairwise_singleton _ _⟩
    · obtain rfl := List.mem_singleton.1 hrow
      exact ⟨acc, hacc, hunlocked, rfl, rfl, rfl, rfl⟩
    · by_contra hne
      rw [halone key fun heq => hne heq.symm] at hkey
      cases hkey

end Spec

end Shardd
