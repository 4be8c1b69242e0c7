import Shardd.Node.AllocatorSpec
import Shardd.Node.Create

/-!
# What a request does

`LocalCreateMode.plan` is the pure part of a branch: from the account under the lock it decides
either on an error or on the events to mint.  `Emitted` lists what becomes of a plan and `Created`
what becomes of a whole request; `exec_createLocalEvents` says that these are all the cases.  Both
lists keep the facts about the state before the request that lead to each case, so that the cases
exclude each other.
-/

namespace Shardd

variable {D : Type} (env : Env D)

/-! ## Minting -/

@[simp] lemma AccountState.eventCount_applyEvent (acc : AccountState) (e : Event) :
    (acc.applyEvent e).eventCount = acc.eventCount + 1 := by
  unfold applyEvent applyReleaseOf trackReservation
  split <;> split <;> rfl

@[simp] lemma AccountState.balance_applyEvent (acc : AccountState) (e : Event) :
    (acc.applyEvent e).balance = acc.balance + e.amount := by
  unfold applyEvent applyReleaseOf trackReservation
  split <;> split <;> rfl

lemma AccountState.applyEvent_of_standard {acc : AccountState} {e : Event}
    (htype : e.type = .standard) (hhold : e.holdAmount = 0) :
    acc.applyEvent e = acc.post e.amount := by
  have : e.hasHold = false := by simp [Event.hasHold, htype, hhold]
  simp [applyEvent, trackReservation, applyReleaseOf, this, htype]

lemma AccountState.applyEvent_of_holdRelease {acc : AccountState} {e : Event} {id : String}
    (htype : e.type = .holdRelease) (href : e.voidRef = some id) :
    acc.applyEvent e = (acc.post e.amount).applyRelease id := by
  simp [applyEvent, trackReservation, applyReleaseOf, Event.hasHold, htype, href]

namespace SharedState

variable (s : SharedState D)

/-- The event a draft becomes when it is minted in this state. -/
def draftEvent (now : ℕ) (d : EventDraft) : Event :=
  d.event (env.freshId s.idsDrawn) env.nodeId (s.nextId d.key.1) now

/-- The state after `e` has been allocated, built and applied. -/
def mint (e : Event) : SharedState D := ((s.takeNext e.bucket env).built e).applyLocal e

/-- Mint one draft after the other. -/
def mintDrafts (now : ℕ) : List EventDraft → SharedState D → List Event × SharedState D
  | [], s => ([], s)
  | d :: ds, s =>
      let e := s.draftEvent env now d
      let rest := mintDrafts now ds (s.mint env e)
      (e :: rest.1, rest.2)

variable {s} {bucket : String} {now : ℕ} {d : EventDraft} {e : Event}

lemma usable_iff_of_bucketAllocators {s' : SharedState D}
    (h : s'.bucketAllocators bucket = s.bucketAllocators bucket) :
    s'.Usable bucket ↔ s.Usable bucket := by
  simp [Usable, entry, h]

lemma Usable.mint (h : s.Usable bucket) (he : e.bucket = bucket) : (s.mint env e).Usable bucket :=
  (usable_iff_of_bucketAllocators (s := s.takeNext bucket env) (by subst he; rfl)).2
    (h.takeNext env)

@[simp] lemma account_modifyAccount (key k : BalanceKey) (f : AccountState → AccountState) :
    (s.modifyAccount key f).account k = if k = key then f (s.account k) else s.account k := by
  by_cases hk : k = key
  · subst hk
    simp [modifyAccount, account]
  · simp [modifyAccount, account, hk]

/-- An event that is built and applied at once. -/
lemma account_built_applyLocal (k : BalanceKey) :
    ((s.built e).applyLocal e).account k =
      if k = e.balanceKey then (s.account k).applyEvent e else s.account k :=
  account_modifyAccount (s := s.built e) e.balanceKey k fun acc => acc.applyEvent e

/-- Minting applies the event to its own account and to no other. -/
lemma account_mint (k : BalanceKey) :
    (s.mint env e).account k =
      if k = e.balanceKey then (s.account k).applyEvent e else s.account k :=
  account_built_applyLocal (s := s.takeNext e.bucket env) k

/-- The balance of an account after the events on it. -/
lemma balance_mintDrafts (k : BalanceKey) (ds : List EventDraft) (s : SharedState D) :
    ((mintDrafts env now ds s).2.account k).balance =
      (ds.filter (·.key = k)).foldl (fun b d => b + d.amount) (s.account k).balance := by
  induction ds generalizing s with
  | nil => rfl
  | cons d ds ih =>
    have hkey : (s.draftEvent env now d).balanceKey = d.key := rfl
    simp only [mintDrafts, ih, account_mint, hkey]
    by_cases hd : k = d.key
    · subst hd
      simp [AccountState.balance_applyEvent, draftEvent, EventDraft.event]
    · simp [hd, Ne.symm hd]

/-- An account on which nothing is minted stays as it is. -/
lemma account_mintDrafts_of_ne {k : BalanceKey} {ds : List EventDraft}
    (h : ∀ d ∈ ds, d.key ≠ k) (s : SharedState D) :
    (mintDrafts env now ds s).2.account k = s.account k := by
  induction ds generalizing s with
  | nil => rfl
  | cons d ds ih =>
    have hkey : (s.draftEvent env now d).balanceKey = d.key := rfl
    rw [mintDrafts, ih fun d' hd' => h d' (List.mem_cons_of_mem _ hd'), account_mint, hkey,
      if_neg (Ne.symm (h d List.mem_cons_self))]

lemma mintDrafts_append (ds ds' : List EventDraft) (s : SharedState D) :
    mintDrafts env now (ds ++ ds') s =
      ((mintDrafts env now ds s).1 ++ (mintDrafts env now ds' (mintDrafts env now ds s).2).1,
        (mintDrafts env now ds' (mintDrafts env now ds s).2).2) := by
  induction ds generalizing s with
  | nil => rfl
  | cons d ds ih =>
    simp only [List.cons_append, mintDrafts, ih]

end SharedState

/-! ## Minting under a second lock -/

namespace SharedState

variable {s : SharedState D} {key : BalanceKey} {e : Event}

@[simp] lemma account_ensureAccount (k : BalanceKey) :
    (s.ensureAccount key).account k = s.account k := by
  unfold ensureAccount account
  dsimp only
  split
  · rfl
  · rename_i hkey
    by_cases hk : k = key
    · subst hk
      have hnone : s.accounts k = none := by simpa [Map.containsKey] using hkey
      simp [hnone]
    · simp [hk]

lemma modifyAccount_ensureAccount (key : BalanceKey) (f : AccountState → AccountState) :
    (s.ensureAccount key).modifyAccount key f = s.modifyAccount key f := by
  unfold modifyAccount
  rw [account_ensureAccount]
  unfold ensureAccount
  dsimp only
  split
  · rfl
  · rw [Map.insert_insert]

lemma unlock_lock_ensureAccount (h : s.accountLocks key = none) :
    ((s.ensureAccount key).lockAccount key).unlockAccount key = s.ensureAccount key := by
  have hlocks : (s.accountLocks.insert key s.running).remove key = s.accountLocks :=
    Map.remove_insert_of_none _ _ _ h
  exact congrArg (fun locks => { s.ensureAccount key with accountLocks := locks }) hlocks

/-- Minting under a lock that was free. -/
lemma unlock_mint_lock (h : s.accountLocks key = none) (he : e.balanceKey = key) :
    (((s.ensureAccount key).lockAccount key).mint env e).unlockAccount key = s.mint env e := by
  subst he
  have hlocks := Map.remove_insert_of_none s.accountLocks e.balanceKey s.running h
  have hacc := modifyAccount_ensureAccount (s := s) e.balanceKey fun acc => acc.applyEvent e
  calc (((s.ensureAccount e.balanceKey).lockAccount e.balanceKey).mint env e).unlockAccount
        e.balanceKey
      = { s.mint env e with
            accounts := ((s.ensureAccount e.balanceKey).modifyAccount e.balanceKey
              fun acc => acc.applyEvent e).accounts
            accountLocks :=
              (s.accountLocks.insert e.balanceKey s.running).remove e.balanceKey } := rfl
    _ = s.mint env e := by
      rw [hacc, hlocks]
      rfl

end SharedState

section Mint

variable {env} {s : SharedState D} {now : ℕ} {d : EventDraft}

/-- The error an allocation failure is reported as. -/
def allocationError (s : SharedState D) (key : BalanceKey) (now : ℕ) : CreateLocalEventError :=
  let acc := s.account key
  .insufficientFunds acc.balance (acc.availableBalance now) acc.balance false

variable (env) in
lemma exec_allocateFor (key : BalanceKey) (s : SharedState D) (now : ℕ) :
    ∃ r s₁, Prepared env key.1 s r s₁ ∧
      NodeM.exec (allocateFor env key now).run s =
        match r with
        | some (.ok ()) => (some (.ok (s₁.nextId key.1)), s₁.takeNext key.1 env)
        | some (.error _) => (some (.error (allocationError s key now)), s₁)
        | none => (none, s₁) := by
  obtain ⟨r, s₁, hp, hrun⟩ := exec_allocate env key.1 s
  refine ⟨r, s₁, hp, ?_⟩
  simp only [NodeM.exec] at hrun
  simp only [allocateFor, allocateOrFail, readAccount, NodeM.exec, Proc.exec_run_bind,
    Proc.exec_run_lift, Proc.exec_read, Option.map_some, Proc.andThenOk_ok, ExceptT.run_mk,
    Proc.exec_bind, hrun]
  rcases r with _ | _ | _ <;> rfl

variable (env) in
/-- Minting a draft is a preparation, and then the next identity. -/
lemma exec_mintLocal (d : EventDraft) (s : SharedState D) (now : ℕ) :
    ∃ r s₁, Prepared env d.key.1 s r s₁ ∧
      NodeM.exec (mintLocal env now d).run s =
        match r with
        | some (.ok ()) =>
            (some (.ok (s₁.draftEvent env now d)), s₁.mint env (s₁.draftEvent env now d))
        | some (.error _) => (some (.error (allocationError s d.key now)), s₁)
        | none => (none, s₁) := by
  obtain ⟨r, s₁, hp, hrun⟩ := exec_allocateFor env d.key s now
  refine ⟨r, s₁, hp, ?_⟩
  have hbuild := fun id s => exec_buildEvent env id now d (s := s)
  simp only [NodeM.exec] at hrun hbuild
  simp only [mintLocal, NodeM.exec, Proc.exec_run_bind, hrun]
  rcases r with _ | _ | _
  · rfl
  · rfl
  · simp only [Proc.andThenOk_ok, Proc.exec_run_bind, Proc.exec_run_lift, hbuild, Option.map_some,
      Proc.exec_update, Proc.exec_run_pure]
    rfl

variable (env now) in
lemma exec_mintLocal_of_usable (h : s.Usable d.key.1) :
    NodeM.exec (mintLocal env now d).run s =
      (some (.ok (s.draftEvent env now d)), s.mint env (s.draftEvent env now d)) := by
  obtain ⟨r, s₁, hp, hrun⟩ := exec_mintLocal env d s now
  obtain ⟨rfl, rfl⟩ := hp.of_usable h
  exact hrun

variable (env now) in
lemma exec_allocateFor_of_usable {key : BalanceKey} (h : s.Usable key.1) :
    NodeM.exec (allocateFor env key now).run s =
      (some (.ok (s.nextId key.1)), s.takeNext key.1 env) := by
  obtain ⟨r, s₁, hp, hrun⟩ := exec_allocateFor env key s now
  obtain ⟨rfl, rfl⟩ := hp.of_usable h
  exact hrun

end Mint

/-! ## The shape of an accepted request -/

/-- What the request of a mode satisfies. -/
def LocalCreateMode.WellFormed (input : LocalCreateInput) (now : ℕ) : LocalCreateMode → Prop
  | .charge none => True
  | .charge (some (hold, expires)) =>
      (hold, expires) = (0, 0) ∨ 0 < hold ∧ now < expires ∧ input.amount < 0
  | .reserve =>
      input.amount = 0 ∧ ∃ hold expires, input.holdAmount = some hold ∧
        input.holdExpiresAtUnixMs = some expires ∧ 0 < hold ∧ now < expires
  | .settle reservationId => input.settleReservation = some reservationId ∧ input.amount < 0
  | .release reservationId => input.releaseReservation = some reservationId ∧ input.amount = 0

lemma LocalCreateInput.explicitHold_eq_some {input : LocalCreateInput} {hold : UInt64}
    {expires : ℕ} (h : input.explicitHold = .ok (some (hold, expires))) :
    input.holdAmount = some hold ∧ input.holdExpiresAtUnixMs = some expires := by
  unfold explicitHold at h
  split at h <;> simp_all

theorem LocalCreateMode.wellFormed_of_fromInput {input : LocalCreateInput} {now : ℕ}
    {mode : LocalCreateMode} (h : LocalCreateMode.fromInput input now = .ok mode) :
    mode.WellFormed input now := by
  have hneg : ¬ 0 ≤ input.amount → input.amount < 0 := Int64.not_le.1
  have hneg' : ¬ 0 < input.amount → input.amount ≠ 0 → input.amount < 0 := fun hpos hne =>
    Int64.lt_iff_le_and_ne.2 ⟨Int64.not_lt.1 hpos, hne⟩
  simp only [LocalCreateMode.fromInput, bind, Except.bind, pure, Except.pure, throw, throwThe,
    MonadExceptOf.throw] at h
  -- by the hold fields first, then by the tests in the order the source makes them
  rcases hexplicit : input.explicitHold with err | _ | ⟨hold, expires⟩
  · simp only [hexplicit] at h
    split at h <;> cases h
  · simp only [hexplicit] at h
    repeat' (split at h <;> try contradiction)
    all_goals
      cases h
      simp_all [WellFormed]
  · obtain ⟨hhold, hexpires⟩ := LocalCreateInput.explicitHold_eq_some hexplicit
    simp only [hexplicit] at h
    repeat' (split at h <;> try contradiction)
    all_goals
      cases h
      simp_all [WellFormed, UInt64.pos_iff_ne_zero]

/-- A request that settles or releases is dispatched to nothing else. -/
lemma LocalCreateMode.spends_of_fromInput {input : LocalCreateInput} {now : ℕ}
    {mode : LocalCreateMode} (h : LocalCreateMode.fromInput input now = .ok mode)
    (hmode : (∀ id, mode ≠ .settle id) ∧ ∀ id, mode ≠ .release id) :
    input.settleReservation = none ∧ input.releaseReservation = none := by
  simp only [LocalCreateMode.fromInput, bind, Except.bind, pure, Except.pure, throw, throwThe,
    MonadExceptOf.throw] at h
  rcases hsettle : input.settleReservation with _ | id
  · rcases hrelease : input.releaseReservation with _ | id
    · exact ⟨rfl, rfl⟩
    · simp only [hsettle, hrelease] at h
      repeat' (split at h <;> try contradiction)
      all_goals
        cases h
        exact absurd rfl (hmode.2 id)
  · simp only [hsettle] at h
    repeat' (split at h <;> try contradiction)
    all_goals
      cases h
      exact absurd rfl (hmode.1 id)

/-! ## Plans -/

/-- What a branch decides from the account under its lock: an error, or the events to mint. -/
def LocalCreateMode.plan (input : LocalCreateInput) (now : ℕ) (acc : AccountState) :
    LocalCreateMode → Except CreateLocalEventError (List EventDraft)
  | .charge holdOverride =>
      let hold :=
        chargeHold acc env.nodeId env.hold input.amount input.maxOverdraft now holdOverride
      match overdraftGuard acc input.amount input.maxOverdraft now hold.1 with
      | some err => .error err
      | none =>
          .ok ((if 0 < hold.1 then [input.holdDraft hold] else []) ++ [input.chargeDraft])
  | .reserve =>
      match reserveGuard acc input.maxOverdraft now (input.holdAmount.getD 0) with
      | some err => .error err
      | none => .ok [input.reserveDraft]
  | .settle reservationId =>
      match acc.settleCheck reservationId input.amount now with
      | .error err => .error err
      | .ok () => .ok [input.captureDraft, input.settleReleaseDraft reservationId]
  | .release reservationId =>
      match acc.openReservation reservationId now with
      | .error err => .error err
      | .ok _ => .ok [input.releaseDraft reservationId]

variable {env} in
/-- A plan mints on the account of the request only. -/
lemma LocalCreateMode.key_of_mem_plan {input : LocalCreateInput} {now : ℕ} {acc : AccountState}
    {mode : LocalCreateMode} {drafts : List EventDraft}
    (h : mode.plan env input now acc = .ok drafts) {d : EventDraft} (hd : d ∈ drafts) :
    d.key = input.balanceKey := by
  cases mode with
  | charge holdOverride =>
      simp only [plan] at h
      split at h <;> cases h
      rcases List.mem_append.1 hd with hd | hd
      · split at hd
        · obtain rfl := List.mem_singleton.1 hd
          rfl
        · cases hd
      · obtain rfl := List.mem_singleton.1 hd
        rfl
  | reserve =>
      simp only [plan] at h
      split at h <;> cases h
      obtain rfl := List.mem_singleton.1 hd
      rfl
  | settle reservationId =>
      simp only [plan] at h
      split at h <;> cases h
      rcases List.mem_pair.1 hd with rfl | rfl <;> rfl
  | release reservationId =>
      simp only [plan] at h
      split at h <;> cases h
      obtain rfl := List.mem_singleton.1 hd
      rfl

/-- Who is credited: only the charge branch looks at `transfer_to`. -/
def LocalCreateMode.creditTo (input : LocalCreateInput) : LocalCreateMode → Option String
  | .charge _ => input.transferTo
  | .reserve | .settle _ | .release _ => none

lemma LocalCreateMode.creditTo_eq_some {input : LocalCreateInput} {mode : LocalCreateMode}
    {toAddr : String} (h : mode.creditTo input = some toAddr) :
    (∃ holdOverride, mode = .charge holdOverride) ∧ input.transferTo = some toAddr := by
  cases mode with
  | charge holdOverride => exact ⟨⟨holdOverride, rfl⟩, h⟩
  | reserve => cases h
  | settle _ => cases h
  | release _ => cases h

section Emitted

variable (input : LocalCreateInput) (now : ℕ) (mode : LocalCreateMode)

/-- What becomes of the branch of a mode. -/
inductive Emitted (s : SharedState D) :
    Option (Except CreateLocalEventError LocalCreateResult) → SharedState D → Prop
  | refused {err : CreateLocalEventError} :
      mode.plan env input now (s.account input.balanceKey) = .error err →
      Emitted s (some (.error err)) s
  | unallocated {drafts : List EventDraft} {r : Option (Except StorageError Unit)}
      {s₁ : SharedState D} :
      mode.plan env input now (s.account input.balanceKey) = .ok drafts →
      Prepared env input.bucket s r s₁ → r ≠ some (.ok ()) →
      Emitted s (r.map fun _ => .error (allocationError s input.balanceKey now)) s₁
  /-- Not a transfer. -/
  | minted {drafts : List EventDraft} {s₁ s₂ : SharedState D} {primary : Event}
      {es : List Event} :
      mode.plan env input now (s.account input.balanceKey) = .ok drafts →
      Prepared env input.bucket s (some (.ok ())) s₁ → mode.creditTo input = none →
      SharedState.mintDrafts env now drafts s₁ = (es, s₂) → primary ∈ es →
      Emitted s (some (.ok { primaryEvent := primary, emittedEvents := es }))
        (es.foldl (SharedState.recordLocal env) s₂)
  /-- The lock of the receiving account is taken, as it is when an account pays itself. -/
  | creditBlocked {drafts : List EventDraft} {s₁ : SharedState D} {toAddr : String} :
      mode.plan env input now (s.account input.balanceKey) = .ok drafts →
      Prepared env input.bucket s (some (.ok ())) s₁ → mode.creditTo input = some toAddr →
      s.accountLocks (input.bucket, toAddr) ≠ none →
      Emitted s none
        ((SharedState.mintDrafts env now drafts s₁).2.ensureAccount (input.bucket, toAddr))
  /-- The credit cannot be represented; the debit has been applied. -/
  | overflowed {drafts : List EventDraft} {s₁ : SharedState D} {toAddr : String} :
      mode.plan env input now (s.account input.balanceKey) = .ok drafts →
      Prepared env input.bucket s (some (.ok ())) s₁ → mode.creditTo input = some toAddr →
      s.accountLocks (input.bucket, toAddr) = none → checkedAbs input.amount = none →
      Emitted s (some (.error (.invalidRequest "transfer amount overflows i64")))
        ((SharedState.mintDrafts env now drafts s₁).2.ensureAccount (input.bucket, toAddr))
  | transferred {drafts : List EventDraft} {s₁ s₂ : SharedState D} {primary : Event}
      {es : List Event} {toAddr : String} {creditAmount : Int64} :
      mode.plan env input now (s.account input.balanceKey) = .ok drafts →
      Prepared env input.bucket s (some (.ok ())) s₁ → mode.creditTo input = some toAddr →
      s.accountLocks (input.bucket, toAddr) = none → checkedAbs input.amount = some creditAmount →
      SharedState.mintDrafts env now (drafts ++ [input.creditDraft toAddr creditAmount]) s₁ =
        (es, s₂) → primary ∈ es →
      Emitted s (some (.ok { primaryEvent := primary, emittedEvents := es }))
        (es.foldl (SharedState.recordLocal env) s₂)

/-- The branch fails at the credit of a transfer, when its debit has been applied. -/
def CreditOverflows (s : SharedState D) : Prop :=
  ∃ drafts s₁ toAddr,
    mode.plan env input now (s.account input.balanceKey) = .ok drafts ∧
    Prepared env input.bucket s (some (.ok ())) s₁ ∧
    mode.creditTo input = some toAddr ∧
    s.accountLocks (input.bucket, toAddr) = none ∧
    checkedAbs input.amount = none

end Emitted

section Branches

variable {env} {input : LocalCreateInput} {now : ℕ} {s : SharedState D}

variable (env now) in
/-- The credit side of a transfer, once the bucket has a usable entry. -/
lemma exec_emitCredit (toAddr : String) (h : s.Usable input.bucket) :
    NodeM.exec (emitCredit env input now toAddr).run s =
      if s.accountLocks (input.bucket, toAddr) = none then
        match checkedAbs input.amount with
        | none =>
            (some (.error (.invalidRequest "transfer amount overflows i64")),
              s.ensureAccount (input.bucket, toAddr))
        | some creditAmount =>
            let e := s.draftEvent env now (input.creditDraft toAddr creditAmount)
            (some (.ok [e]), s.mint env e)
      else (none, s.ensureAccount (input.bucket, toAddr)) := by
  have hlock := fun body : NodeM D (Except CreateLocalEventError (List Event)) =>
    exec_withAccount (input.bucket, toAddr) body s
  simp only [NodeM.exec] at hlock
  simp only [emitCredit, NodeM.exec, ExceptT.run_mk, hlock]
  by_cases hfree : s.accountLocks (input.bucket, toAddr) = none
  · simp only [if_pos hfree]
    rcases checkedAbs input.amount with _ | creditAmount
    · simp only [Proc.exec_run_throw, Proc.andThen_some,
        SharedState.unlock_lock_ensureAccount hfree]
    · have hmint := exec_mintLocal_of_usable env now
        (d := input.creditDraft toAddr creditAmount)
        (s := (s.ensureAccount (input.bucket, toAddr)).lockAccount (input.bucket, toAddr)) h
      simp only [NodeM.exec] at hmint
      simp only [Proc.exec_run_bind, hmint, Proc.andThenOk_ok, Proc.exec_run_pure,
        Proc.andThen_some]
      exact congrArg _ (SharedState.unlock_mint_lock env hfree rfl)
  · simp only [if_neg hfree]

variable (env) in
/-- The end of every branch: the emitted events are recorded. -/
lemma exec_flush_return (es : List Event) (result : LocalCreateResult) (s : SharedState D) :
    NodeM.exec (do
        (flushLocalEvents env es : NodeM D Unit)
        return result : ExceptT CreateLocalEventError (NodeM D) LocalCreateResult).run s =
      (some (.ok result), es.foldl (SharedState.recordLocal env) s) := by
  have hflush := exec_flushLocalEvents env es s
  simp only [NodeM.exec] at hflush
  simp only [NodeM.exec, Proc.exec_run_bind, Proc.exec_run_lift, hflush, Option.map_some,
    Proc.andThenOk_ok, Proc.exec_run_pure]

/-- The end of the charge branch: the credit of a transfer, and the records of all events. -/
lemma exec_finishCharge (held : List Event) (charge : Event) (h : s.Usable input.bucket) :
    NodeM.exec (do
        let credited ← emitTransfer env input now
        (flushLocalEvents env (held ++ [charge] ++ credited) : NodeM D Unit)
        return { primaryEvent := charge, emittedEvents := held ++ [charge] ++ credited } :
          ExceptT CreateLocalEventError (NodeM D) LocalCreateResult).run s =
      match input.transferTo with
      | none =>
          (some (.ok { primaryEvent := charge, emittedEvents := held ++ [charge] }),
            (held ++ [charge]).foldl (SharedState.recordLocal env) s)
      | some toAddr =>
          if s.accountLocks (input.bucket, toAddr) = none then
            match checkedAbs input.amount with
            | none =>
                (some (.error (.invalidRequest "transfer amount overflows i64")),
                  s.ensureAccount (input.bucket, toAddr))
            | some creditAmount =>
                let e := s.draftEvent env now (input.creditDraft toAddr creditAmount)
                (some (.ok { primaryEvent := charge, emittedEvents := held ++ [charge] ++ [e] }),
                  (held ++ [charge] ++ [e]).foldl (SharedState.recordLocal env) (s.mint env e))
          else (none, s.ensureAccount (input.bucket, toAddr)) := by
  have hflush := fun es result s => exec_flush_return env es result s
  have hcredit := fun toAddr => exec_emitCredit env now toAddr h
  simp only [NodeM.exec] at hflush hcredit
  simp only [NodeM.exec, Proc.exec_run_bind, emitTransfer]
  rcases input.transferTo with _ | toAddr
  · simp only [Proc.exec_run_pure, Proc.andThenOk_ok, List.append_nil, hflush]
  · simp only [hcredit]
    split
    · rcases checkedAbs input.amount with _ | creditAmount
      · rfl
      · simp only [Proc.andThenOk_ok, hflush]
    · rfl

end Branches

section Emitted

variable {env} {input : LocalCreateInput} {now : ℕ}

/-- A branch that mints one event. -/
lemma emitted_of_one {mode : LocalCreateMode} {s : SharedState D} {d : EventDraft}
    {t : ExceptT CreateLocalEventError (NodeM D) LocalCreateResult}
    (ht : NodeM.exec t.run s = NodeM.exec (do
      let e ← mintLocal env now d
      (flushLocalEvents env [e] : NodeM D Unit)
      return { primaryEvent := e, emittedEvents := [e] } :
        ExceptT CreateLocalEventError (NodeM D) LocalCreateResult).run s)
    (hplan : mode.plan env input now (s.account input.balanceKey) = .ok [d])
    (hkey : d.key = input.balanceKey) (hcredit : mode.creditTo input = none) :
    ∃ r s', Emitted env input now mode s r s' ∧ NodeM.exec t.run s = (r, s') := by
  obtain ⟨r, s₁, hp, hrun⟩ := exec_mintLocal env d s now
  have hflush := fun es result s => exec_flush_return env es result s
  simp only [NodeM.exec] at hrun hflush ht
  simp only [NodeM.exec, ht, Proc.exec_run_bind, hrun]
  rw [hkey] at hp
  rcases r with _ | _ | _
  · exact ⟨_, _, .unallocated hplan hp (by simp), rfl⟩
  · rw [hkey]
    exact ⟨_, _, .unallocated hplan hp (by simp), rfl⟩
  · simp only [Proc.andThenOk_ok, hflush]
    exact ⟨_, _, .minted hplan hp hcredit rfl (by simp), rfl⟩

lemma exec_emitReserveLocked (s : SharedState D) :
    ∃ r s', Emitted env input now .reserve s r s' ∧
      NodeM.exec (emitReserveLocked env input now).run s = (r, s') := by
  rcases hguard : reserveGuard (s.account input.balanceKey) input.maxOverdraft now
    (input.holdAmount.getD 0) with _ | err
  · refine emitted_of_one (d := input.reserveDraft) ?_
      (by simp [LocalCreateMode.plan, hguard]) rfl rfl
    simp only [emitReserveLocked, readAccount, NodeM.exec, Proc.exec_run_bind, Proc.exec_run_lift,
      Proc.exec_read, Option.map_some, Proc.andThenOk_ok, hguard]
  · have hplan : LocalCreateMode.plan env input now (s.account input.balanceKey) .reserve =
        .error err := by
      simp [LocalCreateMode.plan, hguard]
    refine ⟨_, _, .refused hplan, ?_⟩
    simp only [emitReserveLocked, readAccount, NodeM.exec, Proc.exec_run_bind, Proc.exec_run_lift,
      Proc.exec_read, Option.map_some, Proc.andThenOk_ok, hguard, Proc.exec_run_throw]

lemma exec_emitReleaseLocked (reservationId : String) (s : SharedState D) :
    ∃ r s', Emitted env input now (.release reservationId) s r s' ∧
      NodeM.exec (emitReleaseLocked env input now reservationId).run s = (r, s') := by
  rcases hopen : (s.account input.balanceKey).openReservation reservationId now with err | _
  · have hplan :
        LocalCreateMode.plan env input now (s.account input.balanceKey) (.release reservationId) =
        .error err := by
      simp [LocalCreateMode.plan, hopen]
    refine ⟨_, _, .refused hplan, ?_⟩
    simp only [emitReleaseLocked, readAccount, NodeM.exec, Proc.exec_run_bind, Proc.exec_run_lift,
      Proc.exec_read, Option.map_some, Proc.andThenOk_ok, hopen, Proc.exec_run_throw]
  · refine emitted_of_one (d := input.releaseDraft reservationId) ?_
      (by simp [LocalCreateMode.plan, hopen]) rfl rfl
    simp only [emitReleaseLocked, readAccount, NodeM.exec, Proc.exec_run_bind, Proc.exec_run_lift,
      Proc.exec_read, Option.map_some, Proc.andThenOk_ok, hopen]

lemma exec_emitSettleLocked (reservationId : String) (s : SharedState D) :
    ∃ r s', Emitted env input now (.settle reservationId) s r s' ∧
      NodeM.exec (emitSettleLocked env input now reservationId).run s = (r, s') := by
  rcases hcheck : (s.account input.balanceKey).settleCheck reservationId input.amount now with
    err | ⟨⟩
  · have hplan :
        LocalCreateMode.plan env input now (s.account input.balanceKey) (.settle reservationId) =
        .error err := by
      simp [LocalCreateMode.plan, hcheck]
    refine ⟨_, _, .refused hplan, ?_⟩
    simp only [emitSettleLocked, readAccount, NodeM.exec, Proc.exec_run_bind, Proc.exec_run_lift,
      Proc.exec_read, Option.map_some, Proc.andThenOk_ok, hcheck, Proc.exec_run_throw]
  · have hplan : LocalCreateMode.plan env input now (s.account input.balanceKey)
        (.settle reservationId) =
          .ok [input.captureDraft, input.settleReleaseDraft reservationId] := by
      simp [LocalCreateMode.plan, hcheck]
    obtain ⟨r, s₁, hp, hrun⟩ := exec_allocateFor env input.balanceKey s now
    have hflush := fun es result s => exec_flush_return env es result s
    simp only [NodeM.exec] at hrun hflush
    simp only [emitSettleLocked, readAccount, NodeM.exec, Proc.exec_run_bind, Proc.exec_run_lift,
      Proc.exec_read, Option.map_some, Proc.andThenOk_ok, hcheck, hrun]
    rcases r with _ | _ | _
    · exact ⟨_, _, .unallocated hplan hp (by simp), rfl⟩
    · exact ⟨_, _, .unallocated hplan hp (by simp), rfl⟩
    · -- both identities come from the entry that the first allocation has prepared
      have husable : s₁.Usable input.balanceKey.1 := hp.usable
      set s₂ := (s₁.takeNext input.balanceKey.1 env).takeNext input.balanceKey.1 env with hs₂
      set charge := s₁.draftEvent env now input.captureDraft with hcharge
      set release :=
        (s₁.mint env charge).draftEvent env now (input.settleReleaseDraft reservationId)
        with hrelease
      have hrun₂ := exec_allocateFor_of_usable env now (husable.takeNext env)
      have hcharge₂ : NodeM.exec (buildEvent env (s₁.nextId input.balanceKey.1) now
          input.captureDraft) s₂ = (some charge, s₂.built charge) := rfl
      have hrelease₂ : NodeM.exec (buildEvent env
          ((s₁.takeNext input.balanceKey.1 env).nextId input.balanceKey.1) now
          (input.settleReleaseDraft reservationId)) (s₂.built charge) =
            (some release, (s₂.built charge).built release) := rfl
      simp only [NodeM.exec] at hrun₂ hcharge₂ hrelease₂
      rw [Proc.andThenOk_ok, Proc.exec_run_bind, hrun₂, Proc.andThenOk_ok, Proc.exec_run_bind,
        Proc.exec_run_lift, hcharge₂, Option.map_some, Proc.andThenOk_ok, Proc.exec_run_bind,
        Proc.exec_run_lift, hrelease₂, Option.map_some, Proc.andThenOk_ok, Proc.exec_run_bind,
        Proc.exec_run_lift, Proc.exec_update, Option.map_some, Proc.andThenOk_ok, hflush]
      exact ⟨_, _, .minted hplan hp rfl rfl List.mem_cons_self, rfl⟩

/-- The rest of a charge once its own leg has been minted. -/
lemma emitted_of_charged {holdOverride : Option (UInt64 × ℕ)} {s s₁ s₂ : SharedState D}
    {drafts : List EventDraft} (held : List Event) {charge : Event}
    (hplan : LocalCreateMode.plan env input now (s.account input.balanceKey)
      (.charge holdOverride) = .ok drafts)
    (hp : Prepared env input.bucket s (some (.ok ())) s₁)
    (hminted : SharedState.mintDrafts env now drafts s₁ = (held ++ [charge], s₂))
    (husable : s₂.Usable input.bucket) (hlocks : s₂.accountLocks = s.accountLocks) :
    ∃ r s', Emitted env input now (.charge holdOverride) s r s' ∧
      NodeM.exec (do
        let credited ← emitTransfer env input now
        (flushLocalEvents env (held ++ [charge] ++ credited) : NodeM D Unit)
        return { primaryEvent := charge, emittedEvents := held ++ [charge] ++ credited } :
          ExceptT CreateLocalEventError (NodeM D) LocalCreateResult).run s₂ = (r, s') := by
  have hsnd : (SharedState.mintDrafts env now drafts s₁).2 = s₂ := by rw [hminted]
  rw [exec_finishCharge held charge husable]
  rcases hto : input.transferTo with _ | toAddr
  · exact ⟨_, _, .minted hplan hp hto hminted (by simp), rfl⟩
  · by_cases hfree : s.accountLocks (input.bucket, toAddr) = none
    · rcases habs : checkedAbs input.amount with _ | creditAmount
      · simp only [hlocks, if_pos hfree]
        exact ⟨_, _, .overflowed hplan hp hto hfree habs, by rw [hsnd]⟩
      · simp only [hlocks, if_pos hfree]
        refine ⟨_, _, .transferred hplan hp hto hfree habs ?_ ?_, rfl⟩
        · rw [SharedState.mintDrafts_append, hminted]
          rfl
        · simp
    · simp only [hlocks, if_neg hfree]
      exact ⟨_, _, .creditBlocked hplan hp hto hfree, by rw [hsnd]⟩

lemma exec_emitChargeLocked (holdOverride : Option (UInt64 × ℕ)) (s : SharedState D) :
    ∃ r s', Emitted env input now (.charge holdOverride) s r s' ∧
      NodeM.exec (emitChargeLocked env input now holdOverride).run s = (r, s') := by
  set hold := chargeHold (s.account input.balanceKey) env.nodeId env.hold input.amount
    input.maxOverdraft now holdOverride with hhold
  rcases hguard : overdraftGuard (s.account input.balanceKey) input.amount input.maxOverdraft now
    hold.1 with _ | err
  · simp only [emitChargeLocked, readAccount, NodeM.exec, Proc.exec_run_bind, Proc.exec_run_lift,
      Proc.exec_read, Option.map_some, Proc.andThenOk_ok, ← hhold, hguard]
    by_cases hpos : 0 < hold.1
    · have hplan : LocalCreateMode.plan env input now (s.account input.balanceKey)
          (.charge holdOverride) = .ok [input.holdDraft hold, input.chargeDraft] := by
        simp [LocalCreateMode.plan, ← hhold, hguard, hpos]
      obtain ⟨r, s₁, hp, hrun⟩ := exec_mintLocal env (input.holdDraft hold) s now
      simp only [NodeM.exec] at hrun
      simp only [emitHold, if_pos hpos, Proc.exec_run_bind, hrun]
      rcases r with _ | _ | _
      · exact ⟨_, _, .unallocated hplan hp (by simp), rfl⟩
      · exact ⟨_, _, .unallocated hplan hp (by simp), rfl⟩
      · have husable : s₁.Usable input.bucket := hp.usable
        set e := s₁.draftEvent env now (input.holdDraft hold) with he
        have husable' : (s₁.mint env e).Usable input.chargeDraft.key.1 := husable.mint env rfl
        have hrun' := exec_mintLocal_of_usable env now husable'
        simp only [NodeM.exec] at hrun'
        simp only [Proc.andThenOk_ok, Proc.exec_run_pure, Proc.exec_run_bind, hrun']
        have hrest := emitted_of_charged [e] hplan hp rfl (husable'.mint env rfl)
          hp.accountLocks
        simp only [NodeM.exec, Proc.exec_run_bind] at hrest
        exact hrest
    · have hplan : LocalCreateMode.plan env input now (s.account input.balanceKey)
          (.charge holdOverride) = .ok [input.chargeDraft] := by
        simp [LocalCreateMode.plan, ← hhold, hguard, hpos]
      obtain ⟨r, s₁, hp, hrun⟩ := exec_mintLocal env input.chargeDraft s now
      simp only [NodeM.exec] at hrun
      simp only [emitHold, if_neg hpos, Proc.exec_run_pure, Proc.andThenOk_ok, Proc.exec_run_bind,
        hrun]
      rcases r with _ | _ | _
      · exact ⟨_, _, .unallocated hplan hp (by simp), rfl⟩
      · exact ⟨_, _, .unallocated hplan hp (by simp), rfl⟩
      · have husable : s₁.Usable input.bucket := hp.usable
        simp only [Proc.andThenOk_ok]
        exact emitted_of_charged [] hplan hp rfl (husable.mint env rfl) hp.accountLocks
  · have hplan :
        LocalCreateMode.plan env input now (s.account input.balanceKey) (.charge holdOverride) =
        .error err := by
      simp [LocalCreateMode.plan, ← hhold, hguard]
    refine ⟨_, _, .refused hplan, ?_⟩
    simp only [emitChargeLocked, readAccount, NodeM.exec, Proc.exec_run_bind, Proc.exec_run_lift,
      Proc.exec_read, Option.map_some, Proc.andThenOk_ok, ← hhold, hguard, Proc.exec_run_throw]

variable (env input now) (mode : LocalCreateMode)

theorem exec_emitLocked (s : SharedState D) :
    ∃ r s', Emitted env input now mode s r s' ∧
      NodeM.exec (emitLocked env input now mode).run s = (r, s') := by
  cases mode with
  | charge holdOverride => exact exec_emitChargeLocked holdOverride s
  | reserve => exact exec_emitReserveLocked s
  | settle reservationId => exact exec_emitSettleLocked reservationId s
  | release reservationId => exact exec_emitReleaseLocked reservationId s

end Emitted

/-! ## Requests -/

namespace SharedState

variable (s : SharedState D)

/-- The error of a request to a bucket that takes no writes. -/
def gate (input : LocalCreateInput) : Option CreateLocalEventError :=
  if !input.allowReservedBucket && isReservedBucketName input.bucket then
    some (.bucketReserved input.bucket)
  else if s.deletedBuckets.containsKey input.bucket then some (.bucketDeleted input.bucket)
  else none

/-- The state after a reading of the clock. -/
def tick : SharedState D := { s with clockReads := s.clockReads + 1 }

/-- The state after a storage call that only reads. -/
def asked : SharedState D := s.setStorage s.storage (s.storageCalls + 1)

/-- The state once the cache has been told about an event. -/
def remember (key : IdemKey) (e : Event) : SharedState D :=
  { s with idempotencyCache := s.idempotencyCache.insert key e }

/-- The winner the storage knows for a key, when it answers. -/
def storedWinner (key : IdemKey) : Option Event :=
  if env.storageOutcome s.storageCalls = .ok then
    canonicalWinner (s.storage.findByIdempotencyKey key)
  else none

/-- The state in which a request that is no retry runs its branch. -/
def opened (key : BalanceKey) : SharedState D :=
  ((s.tick.ensureAccount key).lockAccount key).asked.tick

end SharedState

section Created

variable (input : LocalCreateInput)

/-- What becomes of a request. -/
inductive Created (s : SharedState D) :
    Option (Except CreateLocalEventError LocalCreateResult) → SharedState D → Prop
  | rejected {err : CreateLocalEventError} :
      s.gate input = some err → Created s (some (.error err)) s
  | malformed {err : CreateLocalEventError} :
      s.gate input = none →
      LocalCreateMode.fromInput input (env.clock s.clockReads) = .error err →
      Created s (some (.error err)) s.tick
  /-- The lock of the account is taken. -/
  | blocked {mode : LocalCreateMode} :
      s.gate input = none →
      LocalCreateMode.fromInput input (env.clock s.clockReads) = .ok mode →
      s.accountLocks input.balanceKey ≠ none →
      Created s none (s.tick.ensureAccount input.balanceKey)
  | cachedRetry {mode : LocalCreateMode} {e : Event} :
      s.gate input = none →
      LocalCreateMode.fromInput input (env.clock s.clockReads) = .ok mode →
      s.accountLocks input.balanceKey = none →
      s.idempotencyCache input.idempotencyKey = some e →
      Created s (some (.ok { primaryEvent := e, emittedEvents := [] }))
        (s.tick.ensureAccount input.balanceKey)
  | storedRetry {mode : LocalCreateMode} {e : Event} :
      s.gate input = none →
      LocalCreateMode.fromInput input (env.clock s.clockReads) = .ok mode →
      s.accountLocks input.balanceKey = none →
      s.idempotencyCache input.idempotencyKey = none →
      s.storedWinner env input.idempotencyKey = some e →
      Created s (some (.ok { primaryEvent := e, emittedEvents := [] }))
        ((s.tick.ensureAccount input.balanceKey).asked.remember input.idempotencyKey e)
  /-- The branch of the request's mode runs to its end. -/
  | emitted {mode : LocalCreateMode} {r : Except CreateLocalEventError LocalCreateResult}
      {s' : SharedState D} :
      s.gate input = none →
      LocalCreateMode.fromInput input (env.clock s.clockReads) = .ok mode →
      s.accountLocks input.balanceKey = none →
      s.idempotencyCache input.idempotencyKey = none →
      s.storedWinner env input.idempotencyKey = none →
      Emitted env input (env.clock (s.clockReads + 1)) mode (s.opened input.balanceKey)
        (some r) s' →
      Created s (some r) (s'.unlockAccount input.balanceKey)
  /-- The branch blocks, with the lock of the account in its hands. -/
  | stuck {mode : LocalCreateMode} {s' : SharedState D} :
      s.gate input = none →
      LocalCreateMode.fromInput input (env.clock s.clockReads) = .ok mode →
      s.accountLocks input.balanceKey = none →
      s.idempotencyCache input.idempotencyKey = none →
      s.storedWinner env input.idempotencyKey = none →
      Emitted env input (env.clock (s.clockReads + 1)) mode (s.opened input.balanceKey) none s' →
      Created s none s'

lemma exec_findExisting (key : IdemKey) (s : SharedState D) :
    NodeM.exec (findExisting env key) s =
      match s.idempotencyCache key with
      | some e => (some (some e), s)
      | none =>
          match s.storedWinner env key with
          | some e => (some (some e), s.asked.remember key e)
          | none => (some none, s.asked) := by
  have hcall := exec_storageCall env .findByIdempotencyKey
    (fun st => (st.findByIdempotencyKey key, st)) s
  simp only [NodeM.exec] at hcall
  simp only [findExisting, NodeM.exec, Proc.exec_bind, Proc.exec_read, Proc.andThen_some]
  rcases s.idempotencyCache key with _ | e
  · simp only [Proc.exec_bind, hcall, Proc.andThen_some]
    rcases s.callStorage_cases env (fun st => (st.findByIdempotencyKey key, st)) with
      ⟨ho, h⟩ | ⟨ho, st, hst, h⟩
    · simp only [h, SharedState.storedWinner, if_pos ho]
      rcases canonicalWinner (s.storage.findByIdempotencyKey key) with _ | e <;> rfl
    · have hst' : st = s.storage := by simpa using hst
      simp only [h, SharedState.storedWinner, if_neg ho, hst']
      rfl
  · rfl

/-- The cases of `Created` are all that can become of a request. -/
theorem exec_createLocalEvents (s : SharedState D) :
    ∃ r s', Created env input s r s' ∧
      NodeM.exec (createLocalEvents env input).run s = (r, s') := by
  have hlock := fun body : NodeM D (Except CreateLocalEventError LocalCreateResult) =>
    exec_withAccount input.balanceKey body s.tick
  have hfind := exec_findExisting env input.idempotencyKey
    ((s.tick.ensureAccount input.balanceKey).lockAccount input.balanceKey)
  have hclock := exec_nowMs env s
  simp only [NodeM.exec] at hlock hfind hclock
  by_cases hreserved : (!input.allowReservedBucket && isReservedBucketName input.bucket) = true
  · have hgate : s.gate input = some (.bucketReserved input.bucket) := by
      simp [SharedState.gate, hreserved]
    refine ⟨_, _, .rejected hgate, ?_⟩
    simp only [createLocalEvents, NodeM.exec, if_pos hreserved, Proc.exec_run_bind,
      Proc.exec_run_throw, Proc.andThenOk_error]
  by_cases hdeleted : s.deletedBuckets.containsKey input.bucket = true
  · have hgate : s.gate input = some (.bucketDeleted input.bucket) := by
      simp [SharedState.gate, hreserved, hdeleted]
    refine ⟨_, _, .rejected hgate, ?_⟩
    simp only [createLocalEvents, NodeM.exec, if_neg hreserved, Proc.exec_run_bind,
      Proc.andThenOk_ok, Proc.exec_run_lift, Proc.exec_read, Option.map_some,
        if_pos hdeleted, Proc.exec_run_throw, Proc.andThenOk_error]
  have hgate : s.gate input = none := by
    simp only [SharedState.gate, if_neg hreserved, if_neg hdeleted]
  simp only [createLocalEvents, NodeM.exec, if_neg hreserved, Proc.exec_run_bind,
    Proc.andThenOk_ok, Proc.exec_run_lift, Proc.exec_read, Option.map_some,
    if_neg hdeleted, hclock, Proc.exec_run_except]
  rcases hmode : LocalCreateMode.fromInput input (env.clock s.clockReads) with err | mode
  · exact ⟨_, _, .malformed hgate hmode, rfl⟩
  simp only [Proc.andThenOk_ok, ExceptT.run_mk]
  rw [show ({ s with clockReads := s.clockReads + 1 } : SharedState D) = s.tick from rfl, hlock]
  by_cases hfree : s.accountLocks input.balanceKey = none
  · have hfree' : s.tick.accountLocks input.balanceKey = none := hfree
    rw [if_pos hfree', Proc.exec_run_bind, Proc.exec_run_lift, hfind]
    rcases hcache : s.idempotencyCache input.idempotencyKey with _ | e
    · have hcache' : ((s.tick.ensureAccount input.balanceKey).lockAccount
          input.balanceKey).idempotencyCache input.idempotencyKey = none := hcache
      have hclock' := exec_nowMs env
        ((s.tick.ensureAccount input.balanceKey).lockAccount input.balanceKey).asked
      simp only [NodeM.exec] at hclock'
      rcases hstored : s.storedWinner env input.idempotencyKey with _ | e
      · have hstored' : SharedState.storedWinner env
            ((s.tick.ensureAccount input.balanceKey).lockAccount input.balanceKey)
              input.idempotencyKey = none := hstored
        simp only [hcache', hstored', Option.map_some, Proc.andThenOk_ok, Proc.exec_run_bind,
          Proc.exec_run_lift, hclock']
        obtain ⟨r, s', hemitted, hrun⟩ := exec_emitLocked env input (env.clock (s.clockReads + 1))
          mode (s.opened input.balanceKey)
        simp only [NodeM.exec] at hrun
        rcases r with _ | r
        · refine ⟨_, _, .stuck hgate hmode hfree hcache hstored hemitted, ?_⟩
          exact congrArg (Proc.andThen _) hrun
        · refine ⟨_, _, .emitted hgate hmode hfree hcache hstored hemitted, ?_⟩
          exact congrArg (Proc.andThen _) hrun
      · have hstored' : SharedState.storedWinner env
            ((s.tick.ensureAccount input.balanceKey).lockAccount input.balanceKey)
              input.idempotencyKey = some e := hstored
        refine ⟨_, _, .storedRetry hgate hmode hfree hcache hstored, ?_⟩
        simp only [hcache', hstored', Option.map_some, Proc.andThenOk_ok, Proc.exec_run_pure,
          Proc.andThen_some]
        have hunlock := SharedState.unlock_lock_ensureAccount hfree'
        exact congrArg (fun s' => (some _, s'.asked.remember input.idempotencyKey e)) hunlock
    · have hcache' : ((s.tick.ensureAccount input.balanceKey).lockAccount
          input.balanceKey).idempotencyCache input.idempotencyKey = some e := hcache
      refine ⟨_, _, .cachedRetry hgate hmode hfree hcache, ?_⟩
      simp only [hcache', Option.map_some, Proc.andThenOk_ok, Proc.exec_run_pure,
        Proc.andThen_some, SharedState.unlock_lock_ensureAccount hfree']
  · refine ⟨_, _, .blocked hgate hmode hfree, ?_⟩
    rw [if_neg (show ¬ s.tick.accountLocks input.balanceKey = none from hfree)]

end Created

end Shardd
