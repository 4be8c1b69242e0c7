import Shardd.Ledger.Overdraft
import Shardd.Node.Rules

/-!
# Implicit holds

A debit without hold fields reserves a multiple of its amount on top of the debit, shrunk to the
headroom the bare debit leaves and less what this node already holds.  The shrink is exact: the
guard, which counts the hold, lets through every debit that fits without one, the hold never takes
the account below the floor, and afterwards this node holds what it held or what it asked for,
whichever is more.
-/

namespace Shardd

/-! ## Holds of one node -/

namespace AccountState

variable {acc : AccountState} {nowMs : ℕ}

/-- What a reservation counts towards the holds of a node that are not near expiry. -/
def ownHeldBy (acc : AccountState) (nowMs : ℕ) (originNodeId : String) (minRemainingMs : ℕ)
    (eventId : String) (r : ReservationState) : ℕ :=
  if acc.isActive nowMs eventId r ∧ r.originNodeId = originNodeId ∧
      minRemainingMs ≤ r.expiresAtUnixMs - nowMs then r.amount.toNat else 0

lemma exactHoldTotalForOrigin_eq (acc : AccountState) (nowMs : ℕ) (originNodeId : String)
    (minRemainingMs : ℕ) :
    acc.exactHoldTotalForOrigin nowMs originNodeId minRemainingMs =
      acc.reservations.weight fun eventId r =>
        acc.ownHeldBy nowMs originNodeId minRemainingMs eventId r := by
  unfold exactHoldTotalForOrigin activeReservations
  rw [Finmap.weight_filter, Finmap.weight_filter]
  refine Finmap.weight_congr fun eventId r _ => ?_
  by_cases hactive : acc.isActive nowMs eventId r = true <;> simp [ownHeldBy, hactive]

/-- The reservation an event with a hold leaves on the account. -/
lemma trackReservation_of_hasHold {e : Event} (h : e.hasHold = true) :
    (acc.trackReservation e).reservations = acc.reservations.insert e.eventId
      { originNodeId := e.originNodeId
        amount := e.holdAmount
        expiresAtUnixMs := e.holdExpiresAtUnixMs } := by
  rw [trackReservation, if_pos h]

lemma isActive_trackReservation (acc : AccountState) (e : Event) (id : String)
    (r : ReservationState) :
    (acc.trackReservation e).isActive nowMs id r = acc.isActive nowMs id r := by
  unfold trackReservation
  split <;> rfl

/-- A fresh hold that is in force adds its amount to all holds. -/
lemma exactHoldTotal_trackReservation {e : Event} (hhold : e.hasHold = true)
    (hlive : nowMs < e.holdExpiresAtUnixMs) (hfresh : e.eventId ∉ acc.reservations)
    (hreleased : e.eventId ∉ acc.released) :
    (acc.trackReservation e).exactHoldTotal nowMs =
      acc.exactHoldTotal nowMs + e.holdAmount.toNat := by
  have hsame : ∀ id r, (acc.trackReservation e).heldBy nowMs id r = acc.heldBy nowMs id r := by
    intro id r
    simp only [heldBy, isActive_trackReservation]
  have hnew : acc.heldBy nowMs e.eventId
      { originNodeId := e.originNodeId
        amount := e.holdAmount
        expiresAtUnixMs := e.holdExpiresAtUnixMs } = e.holdAmount.toNat := by
    simp [heldBy, isActive, hlive, hreleased]
  rw [exactHoldTotal_eq, exactHoldTotal_eq, trackReservation_of_hasHold hhold]
  simp only [hsame]
  rw [Finmap.weight_insert_of_notMem _ _ hfresh, hnew, add_comm]

/-- A fresh hold of this node that is not near expiry adds its amount to the holds of the node. -/
lemma exactHoldTotalForOrigin_trackReservation {e : Event} {minRemainingMs : ℕ}
    (hhold : e.hasHold = true) (hlive : nowMs < e.holdExpiresAtUnixMs)
    (hremaining : minRemainingMs ≤ e.holdExpiresAtUnixMs - nowMs)
    (hfresh : e.eventId ∉ acc.reservations) (hreleased : e.eventId ∉ acc.released) :
    (acc.trackReservation e).exactHoldTotalForOrigin nowMs e.originNodeId minRemainingMs =
      acc.exactHoldTotalForOrigin nowMs e.originNodeId minRemainingMs + e.holdAmount.toNat := by
  have hsame : ∀ id r,
      (acc.trackReservation e).ownHeldBy nowMs e.originNodeId minRemainingMs id r =
        acc.ownHeldBy nowMs e.originNodeId minRemainingMs id r := by
    intro id r
    simp only [ownHeldBy, isActive_trackReservation]
  have hnew : acc.ownHeldBy nowMs e.originNodeId minRemainingMs e.eventId
      { originNodeId := e.originNodeId
        amount := e.holdAmount
        expiresAtUnixMs := e.holdExpiresAtUnixMs } = e.holdAmount.toNat := by
    simp [ownHeldBy, isActive, hlive, hreleased, hremaining]
  rw [exactHoldTotalForOrigin_eq, exactHoldTotalForOrigin_eq, trackReservation_of_hasHold hhold]
  simp only [hsame]
  rw [Finmap.weight_insert_of_notMem _ _ hfresh, hnew, add_comm]

/-- The available balance wraps, so it is exact whenever the exact one is an `i64`, also when the
sum of the holds is not. -/
lemma availableBalance_exact (hfits : Int64.Fits (acc.exactAvailable nowMs))
    (htotal : acc.exactHoldTotal nowMs < 2 ^ 64) :
    (acc.availableBalance nowMs).toInt = acc.exactAvailable nowMs := by
  have hsum : (acc.activeHoldTotal nowMs).toNat = acc.exactHoldTotal nowMs :=
    UInt64.toNat_ofNat_iff.2 htotal
  obtain ⟨k, hk⟩ := UInt64.toInt_toInt64_eq (acc.activeHoldTotal nowMs)
  obtain ⟨j, hj⟩ := Int64.toInt_sub_eq acc.balance (acc.activeHoldTotal nowMs).toInt64
  have hlow := (acc.availableBalance nowMs).le_toInt
  have hhigh := (acc.availableBalance nowMs).toInt_lt
  unfold availableBalance at hlow hhigh ⊢
  unfold exactAvailable Int64.Fits at *
  omega

end AccountState

/-! ## What a charge does to its account -/

section Debit

variable {D : Type} {env : Env D} {input : LocalCreateInput} {now : ℕ} {s s' : SharedState D}

variable (env now) in
/-- Every draft that is minted becomes an event. -/
lemma SharedState.exists_mem_mintDrafts {d : EventDraft} {ds : List EventDraft} (hd : d ∈ ds)
    (s : SharedState D) : ∃ s₁ : SharedState D, s₁.draftEvent env now d ∈
      (mintDrafts env now ds s).1 := by
  induction ds generalizing s with
  | nil => cases hd
  | cons d' ds ih =>
      rcases List.mem_cons.1 hd with rfl | hd
      · exact ⟨s, List.mem_cons_self⟩
      · obtain ⟨s₁, hmem⟩ := ih hd (s.mint env (s.draftEvent env now d'))
        exact ⟨s₁, List.mem_cons_of_mem _ hmem⟩

/-- The account after the events of a charge: its hold, if it has one, and the charge itself. -/
lemma SharedState.account_mintDrafts_charge (hold : UInt64 × ℕ) (s : SharedState D) :
    (mintDrafts env now ((if 0 < hold.1 then [input.holdDraft hold] else []) ++
        [input.chargeDraft]) s).2.account input.balanceKey =
      if 0 < hold.1 then
        ((s.account input.balanceKey).applyEvent (s.draftEvent env now (input.holdDraft hold))).post
          input.amount
      else (s.account input.balanceKey).post input.amount := by
  have hcharge : ∀ (s : SharedState D), (s.draftEvent env now input.chargeDraft).balanceKey =
      input.balanceKey := fun _ => rfl
  have hhold : (s.draftEvent env now (input.holdDraft hold)).balanceKey = input.balanceKey := rfl
  have happly : ∀ (s : SharedState D) (acc : AccountState),
      acc.applyEvent (s.draftEvent env now input.chargeDraft) = acc.post input.amount :=
    fun _ _ => AccountState.applyEvent_of_standard rfl rfl
  split
  · simp only [List.cons_append, List.nil_append, mintDrafts, account_mint, hcharge, hhold,
      if_pos, happly]
  · simp only [List.nil_append, mintDrafts, account_mint, hcharge, if_pos, happly]

variable (env input now s) in
/-- The hold of a charge without hold fields. -/
abbrev SharedState.implicitHold : UInt64 × ℕ :=
  chargeHold (s.account input.balanceKey) env.nodeId env.hold input.amount input.maxOverdraft now
    none

variable (env input now s) in
/-- What the guard says about a charge without hold fields. -/
abbrev SharedState.implicitGuard : Option CreateLocalEventError :=
  overdraftGuard (s.account input.balanceKey) input.amount input.maxOverdraft now
    (s.implicitHold env input now).1

lemma SharedState.minted_ensureAccount (s : SharedState D) (key : BalanceKey) :
    (s.ensureAccount key).minted = s.minted := rfl

/-- A charge the guard refuses changes nothing. -/
lemma exec_emitChargeLocked_refused {err : CreateLocalEventError}
    (hguard : s.implicitGuard env input now = some err) :
    NodeM.exec (emitChargeLocked env input now none).run s = (some (.error err), s) := by
  have hplan : LocalCreateMode.plan env input now (s.account input.balanceKey) (.charge none) =
      .error err := by
    simp only [LocalCreateMode.plan, hguard]
  obtain ⟨r, s', hemitted, hrun⟩ := @exec_emitChargeLocked D env input now none s
  rw [hrun]
  cases hemitted with
  | refused hplan' =>
      rw [hplan] at hplan'
      cases hplan'
      rfl
  | unallocated hplan' _ _ => rw [hplan] at hplan'; cases hplan'
  | minted hplan' _ _ _ _ => rw [hplan] at hplan'; cases hplan'
  | creditBlocked hplan' _ _ _ => rw [hplan] at hplan'; cases hplan'
  | overflowed hplan' _ _ _ _ => rw [hplan] at hplan'; cases hplan'
  | transferred hplan' _ _ _ _ _ _ => rw [hplan] at hplan'; cases hplan'

/-- A charge the guard lets through mints its plan, and after that at most the credit of another
account. -/
lemma exec_emitChargeLocked_admitted (hguard : s.implicitGuard env input now = none)
    (hlocked : s.accountLocks input.balanceKey ≠ none) (hcan : s.CanAllocate env input.bucket)
    (hmin : input.amount ≠ Int64.minValue) :
    let drafts := (if 0 < (s.implicitHold env input now).1 then
      [input.holdDraft (s.implicitHold env input now)] else []) ++ [input.chargeDraft]
    ∃ r s', NodeM.exec (emitChargeLocked env input now none).run s = (r, s') ∧
      (∀ err, r ≠ some (.error err)) ∧
      ∃ s₁ rest, s₁.idsDrawn = s.idsDrawn ∧
        s₁.account input.balanceKey = s.account input.balanceKey ∧
        s'.minted = s.minted ++ ((SharedState.mintDrafts env now drafts s₁).1 ++ rest) ∧
        s'.account input.balanceKey =
          (SharedState.mintDrafts env now drafts s₁).2.account input.balanceKey := by
  intro drafts
  have hplan : LocalCreateMode.plan env input now (s.account input.balanceKey) (.charge none) =
      .ok drafts := by
    simp only [LocalCreateMode.plan, hguard]
    rfl
  obtain ⟨r, s', hemitted, hrun⟩ := @exec_emitChargeLocked D env input now none s
  refine ⟨r, s', hrun, ?_⟩
  cases hemitted with
  | refused hplan' => rw [hplan] at hplan'; cases hplan'
  | unallocated _ hp hfailed => exact absurd (hp.canAllocate_iff.1 hcan) hfailed
  | @minted _ s₁ s₂ _ es hplan' hp _ hminted _ =>
      rw [hplan] at hplan'
      cases hplan'
      have hes : _ = es := congrArg Prod.fst hminted
      have hs₂ : _ = s₂ := congrArg Prod.snd hminted
      refine ⟨fun _ => by simp, s₁, [], by rw [hp.frame], hp.account _, ?_, ?_⟩
      · rw [SharedState.minted_foldl_recordLocal, ← hs₂, SharedState.minted_mintDrafts, hp.minted,
          List.append_nil]
      · rw [SharedState.account_foldl_recordLocal, ← hs₂]
  | @creditBlocked _ s₁ toAddr hplan' hp _ _ =>
      rw [hplan] at hplan'
      cases hplan'
      refine ⟨fun _ => by simp, s₁, [], by rw [hp.frame], hp.account _, ?_,
        SharedState.account_ensureAccount _⟩
      rw [SharedState.minted_ensureAccount, SharedState.minted_mintDrafts, hp.minted,
        List.append_nil]
  | overflowed _ _ _ _ habs => exact absurd (checkedAbs_eq_none_iff.1 habs) hmin
  | @transferred _ s₁ s₂ _ es toAddr creditAmount hplan' hp _ hfree _ hminted _ =>
      rw [hplan] at hplan'
      cases hplan'
      have hne : (input.bucket, toAddr) ≠ input.balanceKey := fun heq => hlocked (heq ▸ hfree)
      have hs₂ : _ = s₂ := congrArg Prod.snd hminted
      rw [SharedState.mintDrafts_append] at hs₂
      refine ⟨fun _ => by simp, s₁, (SharedState.mintDrafts env now
        [input.creditDraft toAddr creditAmount] (SharedState.mintDrafts env now drafts s₁).2).1,
        by rw [hp.frame], hp.account _, ?_, ?_⟩
      · rw [SharedState.minted_foldl_recordLocal, ← hs₂, SharedState.minted_mintDrafts,
          SharedState.minted_mintDrafts, hp.minted, List.append_assoc]
      · rw [SharedState.account_foldl_recordLocal, ← hs₂]
        refine SharedState.account_mintDrafts_of_ne env (fun d hd => ?_) _
        obtain rfl := List.mem_singleton.1 hd
        exact hne

end Debit

/-! ## The implicit hold -/

section Implicit

variable {D : Type} {env : Env D} {input : LocalCreateInput} {now : ℕ} {s s' : SharedState D}

/-- The debit has been let through: the request is not refused, its charge is minted, and the
balance has gone down by its amount. -/
structure SharedState.Debited (s s' : SharedState D) (input : LocalCreateInput)
    (r : Option (Except CreateLocalEventError LocalCreateResult)) : Prop where
  notRefused : ∀ err, r ≠ some (.error err)
  charged : ∃ es charge, s'.minted = s.minted ++ es ∧ charge ∈ es ∧ charge.type = .standard ∧
    charge.idempotencyKey = input.idempotencyKey
  posted : (s'.account input.balanceKey).balance.toInt =
    (s.account input.balanceKey).balance.toInt + input.amount.toInt

/-- The id of the hold the request may mint is new to its account. -/
def SharedState.FreshHoldId (env : Env D) (input : LocalCreateInput) (s : SharedState D) : Prop :=
  env.freshId s.idsDrawn ∉ (s.account input.balanceKey).reservations ∧
    env.freshId s.idsDrawn ∉ (s.account input.balanceKey).released

/-- What the debit asks this node to hold: a multiple of its amount, but no more than the headroom
the bare debit leaves. -/
def AccountState.wantedHold (acc : AccountState) (cfg : HoldConfig) (amount : Int64)
    (maxOverdraft : UInt64) (nowMs : ℕ) : ℕ :=
  min (amount.toInt.natAbs * cfg.multiplier.toNat)
    ((acc.availableBalance nowMs).toInt + amount.toInt + maxOverdraft.toNat).toNat

/-- The account after a charge: its balance has gone down by the amount, and its holds, those of
this node too, have gone up by the hold. -/
lemma AccountState.holds_after_charge {acc acc' : AccountState} {e : Event} {amount : Int64}
    {hold : UInt64} {nowMs minRemainingMs : ℕ}
    (hacc' : acc' = if 0 < hold then (acc.applyEvent e).post amount else acc.post amount)
    (htype : e.type = .reservationCreate) (hamount : e.amount = 0) (hheld : e.holdAmount = hold)
    (hlive : 0 < hold → nowMs + minRemainingMs ≤ e.holdExpiresAtUnixMs ∧
      nowMs < e.holdExpiresAtUnixMs)
    (hfresh : e.eventId ∉ acc.reservations) (hreleased : e.eventId ∉ acc.released) :
    acc'.balance = acc.balance + amount ∧
      acc'.exactHoldTotal nowMs = acc.exactHoldTotal nowMs + hold.toNat ∧
      acc'.exactHoldTotalForOrigin nowMs e.originNodeId minRemainingMs =
        acc.exactHoldTotalForOrigin nowMs e.originNodeId minRemainingMs + hold.toNat := by
  by_cases hpos : 0 < hold
  · obtain ⟨hremaining, hlater⟩ := hlive hpos
    have hhold : e.hasHold = true := by
      simp [Event.hasHold, htype, hheld, hpos, Nat.zero_lt_of_lt hlater]
    have happly : acc.applyEvent e = (acc.post e.amount).trackReservation e := by
      unfold applyEvent applyReleaseOf
      rw [htype]
    have htotal : ((acc.post e.amount).trackReservation e).exactHoldTotal nowMs =
        (acc.post e.amount).exactHoldTotal nowMs + e.holdAmount.toNat :=
      exactHoldTotal_trackReservation hhold hlater hfresh hreleased
    have hown : ((acc.post e.amount).trackReservation e).exactHoldTotalForOrigin nowMs
          e.originNodeId minRemainingMs =
        (acc.post e.amount).exactHoldTotalForOrigin nowMs e.originNodeId minRemainingMs +
          e.holdAmount.toNat :=
      exactHoldTotalForOrigin_trackReservation hhold hlater (by omega) hfresh hreleased
    rw [if_pos hpos, happly] at hacc'
    subst hacc'
    refine ⟨?_, hheld ▸ htotal, hheld ▸ hown⟩
    have hbalance := balance_applyEvent acc e
    rw [happly, hamount, Int64.add_zero] at hbalance
    exact congrArg (· + amount) (hamount ▸ hbalance)
  · have hzero : hold.toNat = 0 := by
      have := UInt64.lt_iff_toNat_lt.not.1 hpos
      simpa using this
    rw [if_neg hpos] at hacc'
    subst hacc'
    rw [hzero]
    exact ⟨rfl, rfl, rfl⟩

/-- Ten percent of the hold duration, rounded up, is no more than the duration. -/
lemma renewalWindowMs_le (cfg : HoldConfig) : renewalWindowMs cfg ≤ cfg.durationMs := by
  unfold renewalWindowMs divCeil
  split <;> omega

/-- The implicit hold is what the debit asks for less what this node holds already, and the guard
lets the debit through exactly when it fits without a hold. -/
lemma implicitHold_exact (hdebit : input.amount < 0)
    (hfits : ChargeFits (s.account input.balanceKey) env.nodeId env.hold input.amount
      input.maxOverdraft now none) :
    let acc := s.account input.balanceKey
    (s.implicitHold env input now).1.toNat =
        acc.wantedHold env.hold input.amount input.maxOverdraft now -
          acc.exactHoldTotalForOrigin now env.nodeId (renewalWindowMs env.hold) ∧
      (acc.availableBalance now).toInt = acc.exactAvailable now ∧
      (s.implicitGuard env input now = none ↔
        -(input.maxOverdraft.toNat : ℤ) ≤
          (acc.availableBalance now).toInt + input.amount.toInt) := by
  dsimp only
  set acc := s.account input.balanceKey
  have hexact := chargeExact_of_fits hdebit hfits
  have hhold := hexact.hold rfl
  have hwanted : exactImplicitHold acc env.nodeId env.hold input.amount input.maxOverdraft now =
      acc.wantedHold env.hold input.amount input.maxOverdraft now -
        acc.exactHoldTotalForOrigin now env.nodeId (renewalWindowMs env.hold) := by
    rw [AccountState.wantedHold, hexact.available]
    rfl
  refine ⟨hhold.trans hwanted, hexact.available, ?_⟩
  have hdecision := hexact.decision
  have hle : exactImplicitHold acc env.nodeId env.hold input.amount input.maxOverdraft now ≤
      (acc.exactAvailable now + input.amount.toInt + input.maxOverdraft.toNat).toNat := by
    unfold exactImplicitHold
    omega
  rw [hhold] at hdecision
  rw [hdecision, hexact.available]
  omega

/-- **Implicit holds.**  A debit without hold fields is let through exactly when it fits by itself,
it leaves the account at the floor or above, and this node then holds what it held before or what
the debit asks for, whichever is more. -/
theorem implicit_hold_of_debit (env : Env D) (input : LocalCreateInput) (now : ℕ)
    (s : SharedState D) (hlocked : s.accountLocks input.balanceKey ≠ none)
    (hcan : s.CanAllocate env input.bucket) (hduration : 0 < env.hold.durationMs)
    (hdebit : input.amount < 0) (hmin : -2 ^ 63 < input.amount.toInt)
    (hfits : ChargeFits (s.account input.balanceKey) env.nodeId env.hold input.amount
      input.maxOverdraft now none)
    (hfresh : s.FreshHoldId env input) :
    let acc := s.account input.balanceKey
    let out := NodeM.exec (emitChargeLocked env input now none).run s
    let acc' := out.2.account input.balanceKey
    let window := renewalWindowMs env.hold
    let floor : ℤ := -input.maxOverdraft.toNat
    (s.Debited out.2 input out.1 ↔ floor ≤ (acc.availableBalance now).toInt + input.amount.toInt) ∧
      (s.Debited out.2 input out.1 →
        floor ≤ (acc'.availableBalance now).toInt ∧
        (acc'.activeHoldTotalForOrigin now env.nodeId window).toNat =
          max (acc.activeHoldTotalForOrigin now env.nodeId window).toNat
            (acc.wantedHold env.hold input.amount input.maxOverdraft now)) := by
  intro acc out acc' window floor
  have hacc : s.account input.balanceKey = acc := rfl
  obtain ⟨hhold, havail, hguard⟩ := implicitHold_exact hdebit hfits
  rw [hacc] at hhold havail hguard
  have hown : (acc.activeHoldTotalForOrigin now env.nodeId window).toNat =
      acc.exactHoldTotalForOrigin now env.nodeId window :=
    activeHoldTotalForOrigin_toNat env.nodeId (lt_trans hfits.holdTotal (by decide)) window
  have hmin' : input.amount ≠ Int64.minValue := by
    rintro heq
    rw [heq] at hmin
    exact absurd hmin (by decide)
  rcases hcase : s.implicitGuard env input now with _ | err
  · have hroom : -(input.maxOverdraft.toNat : ℤ) ≤
        (acc.availableBalance now).toInt + input.amount.toInt := hguard.1 hcase
    obtain ⟨r, s', hrun, hok, s₁, rest, hids, hacc₁, hminted, hacc'⟩ :=
      exec_emitChargeLocked_admitted hcase hlocked hcan hmin'
    have hout : out = (r, s') := hrun
    -- the account after the debit
    set e := s₁.draftEvent env now (input.holdDraft (s.implicitHold env input now)) with he
    have hafter : acc' = if 0 < (s.implicitHold env input now).1 then
        (acc.applyEvent e).post input.amount else acc.post input.amount := by
      have hs' : acc' = s'.account input.balanceKey :=
        congrArg (fun o => o.2.account input.balanceKey) hout
      rw [hs', hacc', SharedState.account_mintDrafts_charge, hacc₁]
    have hid : e.eventId = env.freshId s.idsDrawn := congrArg env.freshId hids
    have hlive : 0 < (s.implicitHold env input now).1 →
        now + window ≤ e.holdExpiresAtUnixMs ∧ now < e.holdExpiresAtUnixMs := by
      intro hpos
      have hwindow := renewalWindowMs_le env.hold
      have : e.holdExpiresAtUnixMs = now + env.hold.durationMs :=
        (chargeExact_of_fits hdebit hfits).expiry rfl hpos
      omega
    obtain ⟨hbalance, htotal, howned⟩ := AccountState.holds_after_charge hafter rfl rfl rfl hlive
      (hid ▸ hfresh.1) (hid ▸ hfresh.2)
    have hneg := toInt_lt_zero hdebit
    have hbare : -2 ^ 63 ≤ acc.exactAvailable now + input.amount.toInt := hfits.bare
    have himplicit : acc.exactAvailable now + input.amount.toInt + input.maxOverdraft.toNat <
      2 ^ 63 := (hfits.implicit rfl).1
    have hsum : acc.exactHoldTotal now < 2 ^ 63 := hfits.holdTotal
    have hoverdraft := hfits.overdraft
    -- the hold is at most the headroom
    have hwanted : acc.wantedHold env.hold input.amount input.maxOverdraft now ≤
        ((acc.availableBalance now).toInt + input.amount.toInt + input.maxOverdraft.toNat).toNat :=
      Nat.min_le_right _ _
    have hposted : acc'.balance.toInt = acc.balance.toInt + input.amount.toInt := by
      rw [hbalance, Int64.toInt_add_iff, Int64.Fits]
      have hhigh := acc.balance.toInt_lt
      unfold AccountState.exactAvailable at hbare
      omega
    have hexact : acc'.exactAvailable now = acc.exactAvailable now + input.amount.toInt -
        (s.implicitHold env input now).1.toNat := by
      unfold AccountState.exactAvailable
      omega
    have hbelow : acc'.exactHoldTotal now < 2 ^ 64 := by omega
    have havail' : (acc'.availableBalance now).toInt = acc'.exactAvailable now :=
      AccountState.availableBalance_exact (by unfold Int64.Fits; omega) hbelow
    have hown' : (acc'.activeHoldTotalForOrigin now env.nodeId window).toNat =
        acc'.exactHoldTotalForOrigin now env.nodeId window :=
      activeHoldTotalForOrigin_toNat env.nodeId hbelow window
    have hdebited : s.Debited out.2 input out.1 := by
      obtain ⟨s₂, hmem⟩ := SharedState.exists_mem_mintDrafts env now (List.mem_append_right
        (if 0 < (s.implicitHold env input now).1 then
          [input.holdDraft (s.implicitHold env input now)] else [])
        (List.mem_singleton_self input.chargeDraft)) s₁
      have hs' : out.2 = s' := congrArg Prod.snd hout
      have hr : out.1 = r := congrArg Prod.fst hout
      exact ⟨hr ▸ hok, ⟨_, s₂.draftEvent env now input.chargeDraft, hs' ▸ hminted,
        List.mem_append_left _ hmem, rfl, rfl⟩, hposted⟩
    refine ⟨iff_of_true hdebited hroom, fun _ => ⟨?_, ?_⟩⟩
    · omega
    · have howned' : acc'.exactHoldTotalForOrigin now env.nodeId window =
          acc.exactHoldTotalForOrigin now env.nodeId window +
            (s.implicitHold env input now).1.toNat := howned
      have hhold' : (s.implicitHold env input now).1.toNat =
          acc.wantedHold env.hold input.amount input.maxOverdraft now -
            acc.exactHoldTotalForOrigin now env.nodeId window := hhold
      omega
  · have hout : out = (some (.error err), s) := exec_emitChargeLocked_refused hcase
    have hnot : ¬ s.Debited out.2 input out.1 := fun h => h.notRefused err (by rw [hout])
    have hroom : ¬ floor ≤ (acc.availableBalance now).toInt + input.amount.toInt := by
      intro h
      have := hguard.2 h
      rw [hcase] at this
      cases this
    exact ⟨iff_of_false hnot hroom, fun h => absurd h hnot⟩

/-- A debit of `3` out of `5`, with a hold of five times the amount: the hold takes the rest. -/
theorem implicit_hold_of_debit_three :
    let env := Env.plain "node" 1000
    let deposit := LocalCreateInput.legacy "bucket" "alice" 5 none 0 "n1" false
    let debit := LocalCreateInput.legacy "bucket" "alice" (-3) none 0 "n2" false
    let s : SharedState Unit := ((NodeM.exec (createLocalEvents env deposit).run
      (.blank .empty)).2).lockAccount debit.balanceKey
    let out := NodeM.exec (emitChargeLocked env debit 1000 none).run s
    s.Debited out.2 debit out.1 ↔
      0 ≤ ((s.account debit.balanceKey).availableBalance 1000).toInt + debit.amount.toInt := by
  intro env deposit debit s out
  have hfits : ChargeFits (s.account debit.balanceKey) env.nodeId env.hold debit.amount
      debit.maxOverdraft 1000 none :=
    { holdTotal := by decide +kernel
      available := by decide +kernel
      overdraft := by decide +kernel
      bare := by decide +kernel
      explicit := fun _ _ h => by cases h
      implicit := fun _ => by decide +kernel }
  have hcan : s.CanAllocate env debit.bucket :=
    SharedState.Usable.canAllocate ⟨.new 1 2 false, by decide +kernel, rfl⟩
  exact (implicit_hold_of_debit env debit 1000 s (by decide +kernel) hcan (by decide +kernel)
    (by decide) (by decide) hfits ⟨by decide +kernel, by decide +kernel⟩).1

end Implicit

end Shardd
