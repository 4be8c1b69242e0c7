import Shardd.Ledger.Admission
import Shardd.Node.CreateSpec
import Shardd.Node.Replicate
import Shardd.Node.Startup

/-!
# No account falls below the overdraft

The available balance of an account is its balance less the holds that are neither released nor
expired.  A run of a node's own operations never takes it below `-M` when every overdraft is at
most `M`: a debit and a reservation are admitted only if they leave that much, a settle gives back
at least what it takes, and the rest give.  The invariant speaks about every instant from the last
reading of the clock on, since holds run out by themselves.
-/

namespace Shardd

/-! ## The available balance under the operations on an account -/

namespace AccountState

variable {acc : AccountState} {t t' : ℕ} {e : Event}

/-- What a reservation takes from the available balance at `t`. -/
def heldBy (acc : AccountState) (t : ℕ) (eventId : String) (r : ReservationState) : ℕ :=
  if acc.isActive t eventId r then r.amount.toNat else 0

lemma exactHoldTotal_eq (acc : AccountState) (t : ℕ) :
    acc.exactHoldTotal t = acc.reservations.weight fun eventId r => acc.heldBy t eventId r :=
  Finmap.weight_filter _ _ _

/-- Holds run out, so the available balance rises as time passes. -/
lemma exactAvailable_mono (h : t ≤ t') : acc.exactAvailable t ≤ acc.exactAvailable t' := by
  have hle : acc.exactHoldTotal t' ≤ acc.exactHoldTotal t := by
    rw [exactHoldTotal_eq, exactHoldTotal_eq]
    refine Finmap.weight_mono fun eventId r _ => ?_
    by_cases hactive : acc.isActive t' eventId r = true
    · have : acc.isActive t eventId r = true := by
        simp only [isActive, Bool.and_eq_true, decide_eq_true_eq] at hactive ⊢
        exact ⟨by omega, hactive.2⟩
      simp [heldBy, hactive, this]
    · simp [heldBy, hactive]
  unfold exactAvailable
  omega

lemma heldBy_applyRelease_le {eventId id : String} {r : ReservationState} :
    (acc.applyRelease eventId).heldBy t id r ≤ acc.heldBy t id r := by
  unfold heldBy
  by_cases hactive : (acc.applyRelease eventId).isActive t id r = true
  · have : acc.isActive t id r = true := by
      simp only [isActive, applyRelease, Bool.and_eq_true, decide_eq_true_eq, Finset.mem_insert,
        not_or] at hactive ⊢
      exact ⟨hactive.1, hactive.2.2⟩
    simp [hactive, this]
  · simp [hactive]

lemma exactHoldTotal_applyRelease_le (eventId : String) :
    (acc.applyRelease eventId).exactHoldTotal t ≤ acc.exactHoldTotal t := by
  rw [exactHoldTotal_eq, exactHoldTotal_eq]
  exact Finmap.weight_mono fun _ _ _ => heldBy_applyRelease_le

/-- Releasing an open reservation gives its amount back. -/
lemma exactHoldTotal_applyRelease_add_le {eventId : String} {r : ReservationState}
    (hr : acc.reservations.lookup eventId = some r) (hactive : acc.isActive t eventId r = true) :
    (acc.applyRelease eventId).exactHoldTotal t + r.amount.toNat ≤ acc.exactHoldTotal t := by
  rw [exactHoldTotal_eq, exactHoldTotal_eq, Finmap.weight_of_lookup _ hr,
    Finmap.weight_of_lookup (m := (acc.applyRelease eventId).reservations) _ hr]
  have hreleased : (acc.applyRelease eventId).heldBy t eventId r = 0 := by
    simp [heldBy, isActive, applyRelease]
  have hheld : acc.heldBy t eventId r = r.amount.toNat := by
    simp [heldBy, hactive]
  have hrest : ((acc.applyRelease eventId).reservations.erase eventId).weight
      (fun id r => (acc.applyRelease eventId).heldBy t id r) ≤
        (acc.reservations.erase eventId).weight fun id r => acc.heldBy t id r :=
    Finmap.weight_mono fun id r _ => heldBy_applyRelease_le
  omega

variable (acc t e) in
lemma exactHoldTotal_trackReservation_le :
    (acc.trackReservation e).exactHoldTotal t ≤
      acc.exactHoldTotal t + if e.hasHold then e.holdAmount.toNat else 0 := by
  unfold trackReservation
  by_cases hhold : e.hasHold = true
  · simp only [if_pos hhold, exactHoldTotal_eq, Finmap.weight_insert]
    have hrest := Finmap.weight_erase_le (fun id r => acc.heldBy t id r) acc.reservations e.eventId
    have hsame : ∀ id r, heldBy
        { acc with
          reservations := acc.reservations.insert e.eventId
            { originNodeId := e.originNodeId
              amount := e.holdAmount
              expiresAtUnixMs := e.holdExpiresAtUnixMs } } t id r = acc.heldBy t id r :=
      fun _ _ => rfl
    have hnew : acc.heldBy t e.eventId
        { originNodeId := e.originNodeId
          amount := e.holdAmount
          expiresAtUnixMs := e.holdExpiresAtUnixMs } ≤ e.holdAmount.toNat := by
      unfold heldBy
      split <;> simp
    simp only [hsame]
    omega
  · simp [hhold]

/-- A sweep at `t` or before changes nothing that is available at `t'`. -/
lemma exactAvailable_sweepExpired (h : t ≤ t') :
    (acc.sweepExpired t).exactAvailable t' = acc.exactAvailable t' := by
  unfold exactAvailable
  congr 2
  rw [exactHoldTotal_eq, exactHoldTotal_eq]
  refine (Finmap.weight_filter _ _ _).trans (Finmap.weight_congr fun id r hr => ?_)
  by_cases hlive : t' < r.expiresAtUnixMs
  · have hkept : t < r.expiresAtUnixMs := by omega
    simp [heldBy, isActive, sweepExpired, hr, hlive, hkept]
  · simp [heldBy, isActive, hlive]

/-- An event takes at most its hold and gives its amount. -/
lemma exactAvailable_applyEvent_ge (hfits : Int64.Fits (acc.balance.toInt + e.amount.toInt)) :
    acc.exactAvailable t + e.amount.toInt - e.holdAmount.toNat ≤
      (acc.applyEvent e).exactAvailable t := by
  have hbalance : (acc.applyEvent e).balance.toInt = acc.balance.toInt + e.amount.toInt := by
    rw [balance_applyEvent]
    exact Int64.toInt_add_iff.2 hfits
  have hhold : (acc.applyEvent e).exactHoldTotal t ≤
      ((acc.post e.amount).trackReservation e).exactHoldTotal t := by
    unfold applyEvent applyReleaseOf
    split
    · exact exactHoldTotal_applyRelease_le _
    · exact le_refl _
  have htrack : ((acc.post e.amount).trackReservation e).exactHoldTotal t ≤
      acc.exactHoldTotal t + e.holdAmount.toNat := by
    have h := exactHoldTotal_trackReservation_le (acc.post e.amount) t e
    have hpost : (acc.post e.amount).exactHoldTotal t = acc.exactHoldTotal t := rfl
    split at h <;> omega
  unfold exactAvailable
  omega

end AccountState

/-! ## The available balance under the drafts of a request -/

variable {D : Type}

/-- The balance stays an `i64` under each draft on the account. -/
def BalanceFits (key : BalanceKey) : List EventDraft → ℤ → Prop
  | [], _ => True
  | d :: ds, balance =>
      if d.key = key then
        Int64.Fits (balance + d.amount.toInt) ∧ BalanceFits key ds (balance + d.amount.toInt)
      else BalanceFits key ds balance

/-- What drafts add to the available balance of an account, less what they hold. -/
def availableEffect (key : BalanceKey) : List EventDraft → ℤ
  | [] => 0
  | d :: ds =>
      (if d.key = key then d.amount.toInt - d.hold.1.toNat else 0) + availableEffect key ds

namespace SharedState

variable {env : Env D} {now t : ℕ} {key : BalanceKey}

variable (env now t key) in
lemma exactAvailable_mintDrafts_ge (ds : List EventDraft) (s : SharedState D)
    (hfits : BalanceFits key ds (s.account key).balance.toInt) :
    (s.account key).exactAvailable t + availableEffect key ds ≤
      ((mintDrafts env now ds s).2.account key).exactAvailable t := by
  induction ds generalizing s with
  | nil => simp [availableEffect, mintDrafts]
  | cons d ds ih =>
      have hkey : (s.draftEvent env now d).balanceKey = d.key := rfl
      have hacc := account_mint (s := s) env (e := s.draftEvent env now d) key
      rw [hkey] at hacc
      have hrest := ih (s.mint env (s.draftEvent env now d))
      rw [hacc] at hrest
      simp only [mintDrafts, availableEffect]
      by_cases hd : d.key = key
      · simp only [BalanceFits, if_pos hd] at hfits
        simp only [if_pos hd.symm, AccountState.balance_applyEvent] at hrest
        have hsum := Int64.toInt_add_iff.2 hfits.1
        have hamount : (s.draftEvent env now d).amount = d.amount := rfl
        have hhold : (s.draftEvent env now d).holdAmount = d.hold.1 := rfl
        rw [hamount, hsum] at hrest
        have hone := AccountState.exactAvailable_applyEvent_ge (t := t)
          (e := s.draftEvent env now d) (hamount ▸ hfits.1)
        rw [hamount, hhold] at hone
        have := hrest hfits.2
        rw [if_pos hd]
        omega
      · simp only [BalanceFits, if_neg hd] at hfits
        simp only [if_neg (Ne.symm hd)] at hrest
        have := hrest hfits
        rw [if_neg hd]
        omega

end SharedState

/-! ## What a request does to the accounts -/

section Effect

variable {env : Env D} {input : LocalCreateInput} {s s' : SharedState D}

lemma clockReads_mintDrafts (now : ℕ) (ds : List EventDraft) (s : SharedState D) :
    (SharedState.mintDrafts env now ds s).2.clockReads = s.clockReads := by
  induction ds generalizing s with
  | nil => rfl
  | cons d ds ih => exact ih _

lemma clockReads_foldl_recordLocal (es : List Event) (s : SharedState D) :
    (es.foldl (SharedState.recordLocal env) s).clockReads = s.clockReads := by
  induction es generalizing s with
  | nil => rfl
  | cons e es ih =>
      rw [List.foldl_cons, ih, SharedState.recordLocal_frame]

/-- The credit that follows the events of a plan, if there is one. -/
def IsCredit (input : LocalCreateInput) (mode : LocalCreateMode) (credits : List EventDraft) :
    Prop :=
  credits = [] ∨ ∃ toAddr creditAmount,
    mode.creditTo input = some toAddr ∧ (input.bucket, toAddr) ≠ input.balanceKey ∧
      checkedAbs input.amount = some creditAmount ∧
      credits = [input.creditDraft toAddr creditAmount]

/-- The accounts of `s'` are those of `s` after the plan of the request, for which the clock has
been read twice. -/
def SharedState.AppliesPlan (env : Env D) (input : LocalCreateInput) (s s' : SharedState D) :
    Prop :=
  ∃ mode drafts credits s₁,
    LocalCreateMode.fromInput input (env.clock s.clockReads) = .ok mode ∧
    mode.plan env input (env.clock (s.clockReads + 1)) (s.account input.balanceKey) =
      .ok drafts ∧
    IsCredit input mode credits ∧ (∀ key, s₁.account key = s.account key) ∧
    s'.clockReads = s.clockReads + 2 ∧
    ∀ key, s'.account key =
      (SharedState.mintDrafts env (env.clock (s.clockReads + 1)) (drafts ++ credits)
        s₁).2.account key

/-- A request leaves the accounts alone, or applies its plan. -/
lemma Created.accounts {r : Option (Except CreateLocalEventError LocalCreateResult)}
    (h : Created env input s r s') :
    (∀ key, s'.account key = s.account key) ∨ s.AppliesPlan env input s' := by
  have hticked : ∀ key, (s.tick.ensureAccount input.balanceKey).account key = s.account key :=
    fun _ => SharedState.account_ensureAccount _
  have hopened : ∀ key, (s.opened input.balanceKey).account key = s.account key := hticked
  have hclock : (s.opened input.balanceKey).clockReads = s.clockReads + 2 := rfl
  -- the two ways out of a branch, with and without the lock, leave the same accounts
  have hemitted : ∀ {mode r s'},
      LocalCreateMode.fromInput input (env.clock s.clockReads) = .ok mode →
      Emitted env input (env.clock (s.clockReads + 1)) mode (s.opened input.balanceKey) r s' →
      (∀ key, s'.account key = s.account key) ∨ s.AppliesPlan env input s' := by
    intro mode r s' hmode hemitted
    have hprepared : ∀ {r s₁}, Prepared env input.bucket (s.opened input.balanceKey) r s₁ →
        (∀ key, s₁.account key = s.account key) ∧ s₁.clockReads = s.clockReads + 2 :=
      fun hp => ⟨fun key => (hp.account key).trans (hopened key), by rw [hp.frame]; rfl⟩
    cases hemitted with
    | refused _ => exact .inl hopened
    | unallocated _ hp _ => exact .inl (hprepared hp).1
    | @minted _ s₁ s₂ _ es hplan hp _ hminted _ =>
        rw [hopened] at hplan
        have hs₂ : _ = s₂ := congrArg Prod.snd hminted
        refine .inr ⟨mode, _, [], s₁, hmode, hplan, .inl rfl, (hprepared hp).1, ?_, fun key => ?_⟩
        · rw [clockReads_foldl_recordLocal, ← hs₂, clockReads_mintDrafts, (hprepared hp).2]
        · rw [List.append_nil, hs₂, SharedState.account_foldl_recordLocal]
    | @creditBlocked _ s₁ _ hplan hp _ _ =>
        rw [hopened] at hplan
        refine .inr ⟨mode, _, [], s₁, hmode, hplan, .inl rfl, (hprepared hp).1, ?_, fun key => ?_⟩
        · exact (clockReads_mintDrafts _ _ _).trans (hprepared hp).2
        · rw [List.append_nil, SharedState.account_ensureAccount]
    | @overflowed _ s₁ _ hplan hp _ _ _ =>
        rw [hopened] at hplan
        refine .inr ⟨mode, _, [], s₁, hmode, hplan, .inl rfl, (hprepared hp).1, ?_, fun key => ?_⟩
        · exact (clockReads_mintDrafts _ _ _).trans (hprepared hp).2
        · rw [List.append_nil, SharedState.account_ensureAccount]
    | @transferred drafts s₁ s₂ _ es toAddr creditAmount hplan hp hto hlock habs hminted _ =>
        rw [hopened] at hplan
        have hs₂ : _ = s₂ := congrArg Prod.snd hminted
        have hne : (input.bucket, toAddr) ≠ input.balanceKey := by
          intro heq
          rw [heq] at hlock
          simp [SharedState.opened, SharedState.tick, SharedState.asked, SharedState.setStorage,
            SharedState.lockAccount] at hlock
        refine .inr ⟨mode, drafts, _, s₁, hmode, hplan,
          .inr ⟨toAddr, creditAmount, hto, hne, habs, rfl⟩, (hprepared hp).1, ?_, fun key => ?_⟩
        · rw [clockReads_foldl_recordLocal, ← hs₂, clockReads_mintDrafts, (hprepared hp).2]
        · rw [hs₂, SharedState.account_foldl_recordLocal]
  cases h with
  | rejected _ => exact .inl fun _ => rfl
  | malformed _ _ => exact .inl fun _ => rfl
  | blocked _ _ _ => exact .inl hticked
  | cachedRetry _ _ _ _ => exact .inl hticked
  | storedRetry _ _ _ _ _ => exact .inl hticked
  | emitted _ hmode _ _ _ he =>
      have h := hemitted hmode he
      exact h
  | stuck _ hmode _ _ _ he => exact hemitted hmode he

end Effect

/-! ## One request -/

section Request

variable (env : Env D) (input : LocalCreateInput)

/-- Every sum the request leads to is an `i64`, and so is every hold. -/
structure SumsFit (s : SharedState D) (now : ℕ) : Prop where
  holdTotal : (s.account input.balanceKey).exactHoldTotal now < 2 ^ 63
  available : -2 ^ 63 ≤ (s.account input.balanceKey).exactAvailable now
  balance : Int64.Fits ((s.account input.balanceKey).balance.toInt + input.amount.toInt)
  charge : ∀ holdOverride,
    LocalCreateMode.fromInput input (env.clock s.clockReads) = .ok (.charge holdOverride) →
    let acc := s.account input.balanceKey
    let hold :=
      (chargeHold acc env.nodeId env.hold input.amount input.maxOverdraft now holdOverride).1
    hold.toNat < 2 ^ 63 ∧
      -2 ^ 63 ≤ acc.exactAvailable now + input.amount.toInt ∧
      -2 ^ 63 ≤ acc.exactAvailable now + input.amount.toInt - hold.toNat
  reserve : LocalCreateMode.fromInput input (env.clock s.clockReads) = .ok .reserve →
    let hold := input.holdAmount.getD 0
    hold.toNat < 2 ^ 63 ∧
      -2 ^ 63 ≤ (s.account input.balanceKey).exactAvailable now - hold.toNat
  credit : ∀ toAddr, input.transferTo = some toAddr →
    Int64.Fits ((s.account (input.bucket, toAddr)).balance.toInt + input.amount.toInt.natAbs)

variable {env input}

/-- A floor that a request asks for is never below minus its overdraft. -/
lemma neg_maxOverdraft_le_floor (maxOverdraft : UInt64) :
    -(maxOverdraft.toNat : ℤ) ≤ (overdraftFloor maxOverdraft).toInt := by
  by_cases h : maxOverdraft.toNat < 2 ^ 63
  · exact (overdraftFloor_exact h).ge
  · have hlow := (overdraftFloor maxOverdraft).le_toInt
    omega

/-- An admitted debit leaves at least the floor. -/
lemma neg_maxOverdraft_le_of_overdraftGuard {acc : AccountState} {amount : Int64}
    {maxOverdraft hold : UInt64} {now : ℕ} (hdebit : amount < 0)
    (hguard : overdraftGuard acc amount maxOverdraft now hold = none)
    (hsum : acc.exactHoldTotal now < 2 ^ 63) (havail : -2 ^ 63 ≤ acc.exactAvailable now)
    (hhold : hold.toNat < 2 ^ 63) (hbare : -2 ^ 63 ≤ acc.exactAvailable now + amount.toInt)
    (hprojected : -2 ^ 63 ≤ acc.exactAvailable now + amount.toInt - hold.toNat) :
    -(maxOverdraft.toNat : ℤ) ≤ acc.exactAvailable now + amount.toInt - hold.toNat := by
  have hfloor := (overdraftGuard_eq_none_iff hdebit hold).1 hguard
  have hneg := toInt_lt_zero hdebit
  have hexact := (availableBalance_exact_iff hsum).2 havail
  have hhigh := (acc.availableBalance now).toInt_lt
  have hcast := UInt64.toInt_toInt64_iff.2 hhold
  have hadd : (acc.availableBalance now + amount).toInt =
      (acc.availableBalance now).toInt + amount.toInt :=
    Int64.toInt_add_iff.2 ⟨by omega, by omega⟩
  have hsub : (acc.availableBalance now + amount - hold.toInt64).toInt =
      (acc.availableBalance now + amount).toInt - hold.toInt64.toInt :=
    Int64.toInt_sub_iff.2 ⟨by omega, by omega⟩
  have hlow := neg_maxOverdraft_le_floor maxOverdraft
  omega

lemma neg_maxOverdraft_le_of_reserveGuard {acc : AccountState} {maxOverdraft hold : UInt64}
    {now : ℕ} (hguard : reserveGuard acc maxOverdraft now hold = none)
    (hsum : acc.exactHoldTotal now < 2 ^ 63) (havail : -2 ^ 63 ≤ acc.exactAvailable now)
    (hhold : hold.toNat < 2 ^ 63)
    (hprojected : -2 ^ 63 ≤ acc.exactAvailable now - hold.toNat) :
    -(maxOverdraft.toNat : ℤ) ≤ acc.exactAvailable now - hold.toNat := by
  have hfloor := (reserveGuard_eq_none_iff hold).1 hguard
  have hexact := (availableBalance_exact_iff hsum).2 havail
  have hhigh := (acc.availableBalance now).toInt_lt
  have hcast := UInt64.toInt_toInt64_iff.2 hhold
  have hsub : (acc.availableBalance now - hold.toInt64).toInt =
      (acc.availableBalance now).toInt - hold.toInt64.toInt :=
    Int64.toInt_sub_iff.2 ⟨by omega, by omega⟩
  have hlow := neg_maxOverdraft_le_floor maxOverdraft
  omega

lemma openReservation_eq_ok {acc : AccountState} {id : String} {now : ℕ} {r : ReservationState}
    (h : acc.openReservation id now = .ok r) :
    acc.reservations.lookup id = some r ∧ acc.isActive now id r = true := by
  unfold AccountState.openReservation at h
  split at h
  · cases h
  · rename_i hlookup
    split at h
    · cases h
    · split at h
      · cases h
      · cases h
        exact ⟨hlookup, by simp_all [AccountState.isActive]⟩

lemma settleCheck_eq_ok {acc : AccountState} {id : String} {amount : Int64} {now : ℕ}
    (h : acc.settleCheck id amount now = .ok ()) :
    ∃ r, acc.openReservation id now = .ok r ∧ ¬ r.amount < unsignedAbs amount := by
  simp only [AccountState.settleCheck, bind, Except.bind, pure, Except.pure, throw, throwThe,
    MonadExceptOf.throw] at h
  split at h
  · cases h
  · rename_i r hopen
    refine ⟨r, hopen, fun hlt => ?_⟩
    rw [if_pos hlt] at h
    cases h

/-- A settle takes no more than the reservation it releases. -/
lemma exactAvailable_settle {acc : AccountState} {amount : Int64} {id : String} {now : ℕ}
    (hdebit : amount < 0) (hcheck : acc.settleCheck id amount now = .ok ())
    (hfits : Int64.Fits (acc.balance.toInt + amount.toInt)) :
    acc.exactAvailable now ≤
      (((acc.post amount).post 0).applyRelease id).exactAvailable now := by
  obtain ⟨r, hopen, hcovers⟩ := settleCheck_eq_ok hcheck
  obtain ⟨hlookup, hactive⟩ := openReservation_eq_ok hopen
  have hrelease := AccountState.exactHoldTotal_applyRelease_add_le hlookup hactive
  have hcovers' : (unsignedAbs amount).toNat ≤ r.amount.toNat :=
    UInt64.le_iff_toNat_le.1 (UInt64.not_lt.1 hcovers)
  have hneg := toInt_lt_zero hdebit
  rw [unsignedAbs_toNat] at hcovers'
  have hbalance : (((acc.post amount).post 0).applyRelease id).balance.toInt =
      acc.balance.toInt + amount.toInt := by
    change (acc.balance + amount + 0).toInt = _
    rw [Int64.add_zero, Int64.toInt_add_iff.2 hfits]
  have hholds : (((acc.post amount).post 0).applyRelease id).exactHoldTotal now =
      (acc.applyRelease id).exactHoldTotal now := rfl
  unfold AccountState.exactAvailable
  omega

/-- What the own account of a request has after it.  The time is that of the branch. -/
lemma exactAvailable_plan {s s₁ : SharedState D} {now : ℕ} {M : ℤ} {mode : LocalCreateMode}
    {drafts : List EventDraft} (hM : input.maxOverdraft.toNat ≤ M)
    (hfits : SumsFit env input s now)
    (hmode : LocalCreateMode.fromInput input (env.clock s.clockReads) = .ok mode)
    (hplan : mode.plan env input now (s.account input.balanceKey) = .ok drafts)
    (hacc : ∀ key, s₁.account key = s.account key) :
    let acc := (SharedState.mintDrafts env now drafts s₁).2.account input.balanceKey
    (s.account input.balanceKey).exactAvailable now ≤ acc.exactAvailable now ∨
      input.settleReservation = none ∧ input.releaseReservation = none ∧
        -M ≤ acc.exactAvailable now := by
  have hform := LocalCreateMode.wellFormed_of_fromInput hmode
  have hspends := LocalCreateMode.spends_of_fromInput hmode
  have hge := SharedState.exactAvailable_mintDrafts_ge env now now input.balanceKey drafts s₁
  have hzero : (0 : Int64).toInt = 0 := rfl
  have hbalance := Int64.fits_toInt (s.account input.balanceKey).balance
  rw [hacc] at hge
  cases mode with
  | charge holdOverride =>
      obtain ⟨hhold, hbare, hprojected⟩ := hfits.charge holdOverride hmode
      simp only [LocalCreateMode.plan] at hplan
      set hold := chargeHold (s.account input.balanceKey) env.nodeId env.hold input.amount
        input.maxOverdraft now holdOverride with hdef
      split at hplan
      · cases hplan
      · rename_i hguard
        cases hplan
        have heffect : availableEffect input.balanceKey
            ((if 0 < hold.1 then [input.holdDraft hold] else []) ++ [input.chargeDraft]) =
              input.amount.toInt - hold.1.toNat := by
          split
          · simp [availableEffect, LocalCreateInput.holdDraft, LocalCreateInput.chargeDraft]
            omega
          · rename_i hpos
            have hnone : hold.1.toNat = 0 := by
              have := UInt64.lt_iff_toNat_lt.not.1 hpos
              simpa using this
            simp [availableEffect, LocalCreateInput.chargeDraft, hnone]
        have hafter := hge (by
          split
          · simp [BalanceFits, LocalCreateInput.holdDraft, LocalCreateInput.chargeDraft, hbalance,
              hfits.balance]
          · simp [BalanceFits, LocalCreateInput.chargeDraft, hfits.balance])
        rw [heffect] at hafter
        by_cases hdebit : input.amount < 0
        · have := neg_maxOverdraft_le_of_overdraftGuard hdebit hguard hfits.holdTotal
            hfits.available hhold hbare hprojected
          have hnone := hspends (by simp)
          exact .inr ⟨hnone.1, hnone.2, by omega⟩
        · -- a credit carries no hold
          have hnone : hold.1 = 0 := by
            rcases holdOverride with _ | ⟨amt, expires⟩
            · simp [hdef, chargeHold, hdebit, rawHold, saturatingSub]
            · rcases hform with h | ⟨-, -, h⟩
              · simp [hdef, chargeHold, (Prod.mk.inj h).1]
              · exact absurd h hdebit
          have hcredit := Int64.le_iff_toInt_le.1 (Int64.not_lt.1 hdebit)
          have hnone' : hold.1.toNat = 0 := by
            rw [hnone]
            rfl
          exact .inl (by omega)
  | reserve =>
      obtain ⟨hhold, hprojected⟩ := hfits.reserve hmode
      simp only [LocalCreateMode.plan] at hplan
      split at hplan
      · cases hplan
      · rename_i hguard
        cases hplan
        have hafter := hge (by simp [BalanceFits, LocalCreateInput.reserveDraft, hbalance])
        have := neg_maxOverdraft_le_of_reserveGuard hguard hfits.holdTotal hfits.available hhold
          hprojected
        have hnone := hspends (by simp)
        have heffect : availableEffect input.balanceKey [input.reserveDraft] =
            -(input.holdAmount.getD 0).toNat := by
          simp [availableEffect, LocalCreateInput.reserveDraft]
        exact .inr ⟨hnone.1, hnone.2, by omega⟩
  | settle reservationId =>
      simp only [LocalCreateMode.plan] at hplan
      split at hplan
      · cases hplan
      · rename_i hcheck
        cases hplan
        refine .inl (le_of_le_of_eq (exactAvailable_settle hform.2 hcheck hfits.balance) ?_)
        have hkey : ∀ (s : SharedState D) (d : EventDraft),
            (s.draftEvent env now d).balanceKey = d.key := fun _ _ => rfl
        have hcapture : input.captureDraft.key = input.balanceKey := rfl
        have hrelease : (input.settleReleaseDraft reservationId).key = input.balanceKey := rfl
        simp only [SharedState.mintDrafts, SharedState.account_mint, hkey, hacc, hcapture, hrelease,
          if_true]
        rw [AccountState.applyEvent_of_holdRelease rfl rfl,
          AccountState.applyEvent_of_standard rfl rfl]
        rfl
  | release reservationId =>
      simp only [LocalCreateMode.plan] at hplan
      split at hplan
      · cases hplan
      · cases hplan
        have hafter := hge (by simp [BalanceFits, LocalCreateInput.releaseDraft, hbalance])
        simp [availableEffect, LocalCreateInput.releaseDraft] at hafter
        exact .inl hafter

/-- What any account has after a request. -/
lemma exactAvailable_request {s s' : SharedState D} {M : ℤ} (hM : input.maxOverdraft.toNat ≤ M)
    (hfits : SumsFit env input s (env.clock (s.clockReads + 1))) (h : s.AppliesPlan env input s')
    (key : BalanceKey) :
    let now := env.clock (s.clockReads + 1)
    (s.account key).exactAvailable now ≤ (s'.account key).exactAvailable now ∨
      input.settleReservation = none ∧ input.releaseReservation = none ∧
        -M ≤ (s'.account key).exactAvailable now := by
  intro now
  obtain ⟨mode, drafts, credits, s₁, hmode, hplan, hcredits, hacc, -, hs'⟩ := h
  rw [hs', SharedState.mintDrafts_append]
  dsimp only
  set s₂ := (SharedState.mintDrafts env now drafts s₁).2 with hs₂
  by_cases hkey : key = input.balanceKey
  · have hsame : (SharedState.mintDrafts env now credits s₂).2.account key = s₂.account key := by
      refine SharedState.account_mintDrafts_of_ne _ (fun d hd => ?_) s₂
      rcases hcredits with rfl | ⟨toAddr, creditAmount, -, hne, -, rfl⟩
      · cases hd
      · obtain rfl := List.mem_singleton.1 hd
        exact hkey ▸ hne
    rw [hsame, hkey]
    exact exactAvailable_plan hM hfits hmode hplan hacc
  · have hsame : s₂.account key = s.account key := by
      refine (SharedState.account_mintDrafts_of_ne _ (fun d hd => ?_) s₁).trans (hacc key)
      rw [LocalCreateMode.key_of_mem_plan hplan hd]
      exact Ne.symm hkey
    refine .inl ?_
    rw [← hsame]
    rcases hcredits with rfl | ⟨toAddr, creditAmount, hto, -, habs, rfl⟩
    · exact le_refl _
    · -- a credit gives its amount and holds nothing
      have hcredit := toInt_of_checkedAbs habs
      have hto' := (LocalCreateMode.creditTo_eq_some hto).2
      by_cases hpaid : (input.bucket, toAddr) = key
      · subst hpaid
        have hfit := hfits.credit toAddr hto'
        have hge := SharedState.exactAvailable_mintDrafts_ge env now now (input.bucket, toAddr)
          [input.creditDraft toAddr creditAmount] s₂ (by
            rw [hsame]
            simp only [BalanceFits, LocalCreateInput.creditDraft, if_true, and_true]
            rwa [show creditAmount.toInt = input.amount.toInt.natAbs by omega])
        have heffect : availableEffect (input.bucket, toAddr)
            [input.creditDraft toAddr creditAmount] = creditAmount.toInt := by
          simp [availableEffect, LocalCreateInput.creditDraft]
        refine le_trans ?_ hge
        omega
      · have hother : (SharedState.mintDrafts env now [input.creditDraft toAddr creditAmount]
            s₂).2.account key = s₂.account key :=
          SharedState.account_mintDrafts_of_ne env (by simpa [LocalCreateInput.creditDraft]) s₂
        exact (congrArg (fun acc => acc.exactAvailable now) hother).ge

end Request

/-! ## Runs -/

/-- What a node does on its own. -/
inductive LedgerOp
  | request (input : LocalCreateInput)
  | sweep
  /-- Time passes. -/
  | wait

namespace LedgerOp

/-- The state after an operation. -/
def after (env : Env D) (s : SharedState D) : LedgerOp → SharedState D
  | .request input => (NodeM.exec (createLocalEvents env input).run s).2
  | .sweep => (NodeM.exec (sweepExpiredHolds env) s).2
  | .wait => s

/-- The reading of the clock at which an operation does its work, begun at `t`. -/
def instant (env : Env D) (s : SharedState D) (t : ℕ) : LedgerOp → ℕ
  | .request _ => env.clock (s.clockReads + 1)
  | .sweep => env.clock s.clockReads
  | .wait => t

/-- A request has an overdraft of at most `M`, and its sums are `i64`s. -/
def Admissible (env : Env D) (M : ℤ) (s : SharedState D) : LedgerOp → Prop
  | .request input =>
      input.maxOverdraft.toNat ≤ M ∧ SumsFit env input s (env.clock (s.clockReads + 1))
  | .sweep | .wait => True

/-- Settles, releases, sweeps and the passing of time. -/
def Spares : LedgerOp → Prop
  | .request input => input.settleReservation ≠ none ∨ input.releaseReservation ≠ none
  | .sweep | .wait => True

end LedgerOp

/-- An operation between two instants.  All that the node reads from the clock lies between
them. -/
structure LedgerStep (env : Env D) (M : ℤ) (op : LedgerOp) (x x' : SharedState D × ℕ) : Prop where
  state : x'.1 = op.after env x.1
  time : x.2 ≤ x'.2
  readings : ∀ k, x.1.clockReads ≤ k → k < x'.1.clockReads →
    x.2 ≤ env.clock k ∧ env.clock k ≤ x'.2
  admissible : op.Admissible env M x.1

namespace LedgerStep

variable {env : Env D} {M : ℤ} {op : LedgerOp} {x x' : SharedState D × ℕ}

/-- The step lemma: an operation spares what is available at its instant, or leaves `-M`. -/
lemma available (h : LedgerStep env M op x x') (key : BalanceKey) :
    ((x.1.account key).exactAvailable (op.instant env x.1 x.2) ≤
        (x'.1.account key).exactAvailable (op.instant env x.1 x.2) ∨
      ¬ op.Spares ∧ -M ≤ (x'.1.account key).exactAvailable (op.instant env x.1 x.2)) ∧
    ((∀ key, x'.1.account key = x.1.account key) ∨
      x.2 ≤ op.instant env x.1 x.2 ∧ op.instant env x.1 x.2 ≤ x'.2) := by
  obtain ⟨hstate, htime, hreadings, hadm⟩ := h
  cases op with
  | request input =>
      obtain ⟨r, s', hcreated, hrun⟩ := exec_createLocalEvents env input x.1
      have hs' : x'.1 = s' := by rw [hstate, LedgerOp.after, hrun]
      rw [← hs'] at hcreated
      rcases hcreated.accounts with hsame | happlies
      · exact ⟨.inl (by rw [hsame]), .inl hsame⟩
      · refine ⟨?_, .inr ?_⟩
        · rcases exactAvailable_request hadm.1 hadm.2 happlies key with h | ⟨hs, hr, h⟩
          · exact .inl h
          · exact .inr ⟨by simp [LedgerOp.Spares, hs, hr], h⟩
        · obtain ⟨-, -, -, -, -, -, -, -, hclock, -⟩ := happlies
          exact hreadings _ (by omega) (by omega)
  | sweep =>
      have hclock : x'.1.clockReads = x.1.clockReads + 1 := by rw [hstate]; rfl
      refine ⟨.inl (le_of_eq ?_), .inr (hreadings _ le_rfl (by omega))⟩
      have hacc : x'.1.account key = x.1.account key ∨
          x'.1.account key = (x.1.account key).sweepExpired (env.clock x.1.clockReads) := by
        rw [hstate]
        exact SharedState.account_sweepExpired (s := x.1.tick) _ key
      rcases hacc with hacc | hacc
      · rw [hacc]
      · rw [hacc]
        exact (AccountState.exactAvailable_sweepExpired le_rfl).symm
  | wait =>
      have hs' : x'.1 = x.1 := hstate
      exact ⟨.inl (by rw [hs']), .inl fun _ => by rw [hs']⟩

/-- No step takes an account below `-M`. -/
lemma available_ge (h : LedgerStep env M op x x') {key : BalanceKey}
    (hge : -M ≤ (x.1.account key).exactAvailable x.2) :
    -M ≤ (x'.1.account key).exactAvailable x'.2 := by
  obtain ⟨hstep, hsame | ⟨hlow, hhigh⟩⟩ := h.available key
  · rw [hsame]
    exact hge.trans (AccountState.exactAvailable_mono h.time)
  · refine le_trans ?_ (AccountState.exactAvailable_mono hhigh)
    rcases hstep with hstep | hstep
    · exact (hge.trans (AccountState.exactAvailable_mono hlow)).trans hstep
    · exact hstep.2

end LedgerStep

/-- The states and instants a node can come to. -/
inductive LedgerRun (env : Env D) (M : ℤ) (x₀ : SharedState D × ℕ) : SharedState D × ℕ → Prop
  | start : LedgerRun env M x₀ x₀
  | step {op : LedgerOp} {x x' : SharedState D × ℕ} :
      LedgerRun env M x₀ x → LedgerStep env M op x x' → LedgerRun env M x₀ x'

/-- **Overdraft safety.**  An account that starts at `-M` or above stays there, and no settle,
release, sweep or passing of time lowers it, neither at the instant of the operation nor from its
begin to its end. -/
theorem available_ge_of_run {env : Env D} {M : ℤ} {x₀ x : SharedState D × ℕ} {key : BalanceKey}
    (hrun : LedgerRun env M x₀ x) (hstart : -M ≤ (x₀.1.account key).exactAvailable x₀.2) :
    -M ≤ (x.1.account key).exactAvailable x.2 ∧
    ∀ op x', LedgerStep env M op x x' → op.Spares →
      (x.1.account key).exactAvailable (op.instant env x.1 x.2) ≤
          (x'.1.account key).exactAvailable (op.instant env x.1 x.2) ∧
        (x.1.account key).exactAvailable x.2 ≤ (x'.1.account key).exactAvailable x'.2 := by
  constructor
  · induction hrun with
    | start => exact hstart
    | step _ hstep ih => exact hstep.available_ge ih
  · intro op x' hstep hspares
    obtain ⟨hat | hbad, htime⟩ := hstep.available key
    · refine ⟨hat, ?_⟩
      rcases htime with hsame | ⟨hlow, hhigh⟩
      · rw [hsame]
        exact AccountState.exactAvailable_mono hstep.time
      · calc (x.1.account key).exactAvailable x.2
            ≤ (x.1.account key).exactAvailable (op.instant env x.1 x.2) :=
              AccountState.exactAvailable_mono hlow
          _ ≤ (x'.1.account key).exactAvailable (op.instant env x.1 x.2) := hat
          _ ≤ (x'.1.account key).exactAvailable x'.2 := AccountState.exactAvailable_mono hhigh
    · exact absurd hspares hbad.1

/-- A deposit of `5`, and a charge of `3` whose implicit hold takes the rest. -/
theorem available_ge_of_run_charge :
    let env := Env.plain "node" 1000
    let deposit := LocalCreateInput.legacy "bucket" "alice" 5 none 0 "n1" false
    let charge := LocalCreateInput.legacy "bucket" "alice" (-3) none 0 "n2" false
    let s : SharedState Unit := .blank .empty
    let s₁ := (LedgerOp.request deposit).after env s
    let s₂ := (LedgerOp.request charge).after env s₁
    (s₂.account ("bucket", "alice")).exactHoldTotal 1000 = 2 ∧
      0 ≤ (s₂.account ("bucket", "alice")).exactAvailable 1000 := by
  intro env deposit charge s s₁ s₂
  have hclock : ∀ k, env.clock k = 1000 := fun _ => rfl
  have hdeposit : LedgerStep env 0 (.request deposit) (s, 1000) (s₁, 1000) :=
    { state := rfl
      time := le_refl _
      readings := fun k _ _ => by simp [hclock]
      admissible := ⟨by decide +kernel,
        { holdTotal := by decide +kernel
          available := by decide +kernel
          balance := ⟨by decide +kernel, by decide +kernel⟩
          charge := fun holdOverride hmode => by
            obtain rfl : none = holdOverride := by
              have : LocalCreateMode.fromInput deposit 1000 = .ok (.charge none) := rfl
              simpa [hclock, this] using hmode
            decide +kernel
          reserve := fun hmode => by cases hmode
          credit := fun toAddr hto => by cases hto }⟩ }
  have hcharge : LedgerStep env 0 (.request charge) (s₁, 1000) (s₂, 1000) :=
    { state := rfl
      time := le_refl _
      readings := fun k _ _ => by simp [hclock]
      admissible := ⟨by decide +kernel,
        { holdTotal := by decide +kernel
          available := by decide +kernel
          balance := ⟨by decide +kernel, by decide +kernel⟩
          charge := fun holdOverride hmode => by
            obtain rfl : none = holdOverride := by
              have : LocalCreateMode.fromInput charge 1000 = .ok (.charge none) := rfl
              simpa [hclock, this] using hmode
            decide +kernel
          reserve := fun hmode => by cases hmode
          credit := fun toAddr hto => by cases hto }⟩ }
  refine ⟨by decide +kernel, ?_⟩
  exact (available_ge_of_run (.step (.step .start hdeposit) hcharge) (by decide +kernel)).1

end Shardd
