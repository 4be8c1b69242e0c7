import Shardd.Node.CreateSpec
import Shardd.Node.Startup

/-!
# What a failed write leaves behind

A request that is answered with an error should leave the ledger as it was: the accounts, the
idempotency cache, the log and the queue of the batch writer.  The code keeps to this on every
error path but one.  A transfer whose credit cannot be represented is refused only after the debit
has been applied, and `createLocalEvents_error_sameLedger_iff` says that this is the only way in
which a failed request changes the ledger.
-/

namespace Shardd

variable {D : Type}

namespace SharedState

/-- The two states show the same ledger.  An absent account is an empty one. -/
structure SameLedger (s s' : SharedState D) : Prop where
  account : ∀ key, s'.account key = s.account key
  idempotencyCache : s'.idempotencyCache = s.idempotencyCache
  heads : s'.heads = s.heads
  pendingSeqs : s'.pendingSeqs = s.pendingSeqs
  maxKnownSeqs : s'.maxKnownSeqs = s.maxKnownSeqs
  eventBuffer : s'.eventBuffer = s.eventBuffer
  unpersisted : s'.unpersisted = s.unpersisted
  batchQueue : s'.batchQueue = s.batchQueue

namespace SameLedger

variable {s s' s'' : SharedState D}

lemma refl (s : SharedState D) : SameLedger s s :=
  ⟨fun _ => rfl, rfl, rfl, rfl, rfl, rfl, rfl, rfl⟩

lemma trans (h : SameLedger s s') (h' : SameLedger s' s'') : SameLedger s s'' where
  account key := (h'.account key).trans (h.account key)
  idempotencyCache := h'.idempotencyCache.trans h.idempotencyCache
  heads := h'.heads.trans h.heads
  pendingSeqs := h'.pendingSeqs.trans h.pendingSeqs
  maxKnownSeqs := h'.maxKnownSeqs.trans h.maxKnownSeqs
  eventBuffer := h'.eventBuffer.trans h.eventBuffer
  unpersisted := h'.unpersisted.trans h.unpersisted
  batchQueue := h'.batchQueue.trans h.batchQueue

lemma tick (s : SharedState D) : SameLedger s s.tick :=
  ⟨fun _ => rfl, rfl, rfl, rfl, rfl, rfl, rfl, rfl⟩

lemma ensureAccount (s : SharedState D) (key : BalanceKey) :
    SameLedger s (s.ensureAccount key) :=
  ⟨account_ensureAccount, rfl, rfl, rfl, rfl, rfl, rfl, rfl⟩

lemma opened (s : SharedState D) (key : BalanceKey) : SameLedger s (s.opened key) :=
  ⟨account_ensureAccount (s := s.tick), rfl, rfl, rfl, rfl, rfl, rfl, rfl⟩

lemma unlockAccount (s : SharedState D) (key : BalanceKey) : SameLedger s (s.unlockAccount key) :=
  ⟨fun _ => rfl, rfl, rfl, rfl, rfl, rfl, rfl, rfl⟩

lemma prepared {env : Env D} {bucket : String} {r : Option (Except StorageError Unit)}
    (h : Prepared env bucket s r s') : SameLedger s s' := by
  rw [h.frame]
  exact ⟨fun _ => rfl, rfl, rfl, rfl, rfl, rfl, rfl, rfl⟩

end SameLedger

end SharedState

/-! ## The exception -/

variable (env : Env D) (input : LocalCreateInput)

/-- The request is a transfer of `i64::MIN` that passes every check up to the one on the credit: it
is admitted, it is not a retry, its own account and the receiving one are free, the debit is let
through by the overdraft guard, and its identities can be allocated. -/
def SharedState.TransferOverflows (s : SharedState D) : Prop :=
  ∃ holdOverride toAddr drafts,
    s.gate input = none ∧
    LocalCreateMode.fromInput input (env.clock s.clockReads) = .ok (.charge holdOverride) ∧
    s.accountLocks input.balanceKey = none ∧
    s.idempotencyCache input.idempotencyKey = none ∧
    s.storedWinner env input.idempotencyKey = none ∧
    LocalCreateMode.plan env input (env.clock (s.clockReads + 1)) (s.account input.balanceKey)
      (.charge holdOverride) = .ok drafts ∧
    (s.opened input.balanceKey).CanAllocate env input.bucket ∧
    input.transferTo = some toAddr ∧
    (s.opened input.balanceKey).accountLocks (input.bucket, toAddr) = none ∧
    input.amount = Int64.minValue

/-- The debit of a charge is among the events it plans. -/
lemma chargeDraft_mem_plan {now : ℕ} {acc : AccountState} {holdOverride : Option (UInt64 × ℕ)}
    {drafts : List EventDraft}
    (h : LocalCreateMode.plan env input now acc (.charge holdOverride) = .ok drafts) :
    input.chargeDraft ∈ drafts := by
  simp only [LocalCreateMode.plan] at h
  split at h
  · cases h
  · cases h
    simp

/-- Minting counts every event on its account. -/
lemma eventCount_mintDrafts (now : ℕ) (key : BalanceKey) (ds : List EventDraft)
    (s : SharedState D) :
    ((SharedState.mintDrafts env now ds s).2.account key).eventCount =
      (s.account key).eventCount + ds.countP (·.key = key) := by
  induction ds generalizing s with
  | nil => rfl
  | cons d ds ih =>
      simp only [SharedState.mintDrafts, ih, SharedState.account_mint, List.countP_cons]
      have hkey : (s.draftEvent env now d).balanceKey = d.key := rfl
      rw [hkey]
      by_cases hd : key = d.key
      · simp [hd]
        omega
      · simp [hd, Ne.symm hd]

variable {env input} {s : SharedState D}

/-- On the exceptional requests the code fails after the debit, which its account has counted. -/
lemma exec_of_transferOverflows (h : s.TransferOverflows env input) :
    ∃ s', NodeM.exec (createLocalEvents env input).run s =
        (some (.error (.invalidRequest "transfer amount overflows i64")), s') ∧
      (s.account input.balanceKey).eventCount < (s'.account input.balanceKey).eventCount := by
  obtain ⟨holdOverride, toAddr, drafts, hgate, hmode, hfree, hcache, hstored, hplan, hcan, hto,
    htoFree, hmin⟩ := h
  obtain ⟨r, s', hcreated, hrun⟩ := exec_createLocalEvents env input s
  rw [hrun]
  have hacc : (s.opened input.balanceKey).account input.balanceKey = s.account input.balanceKey :=
    (SharedState.SameLedger.opened s _).account _
  rw [← hacc] at hplan
  have hoverflow : checkedAbs input.amount = none := checkedAbs_eq_none_iff.2 hmin
  have hemitted : ∀ {mode r s'},
      LocalCreateMode.fromInput input (env.clock s.clockReads) = .ok mode →
      Emitted env input (env.clock (s.clockReads + 1)) mode (s.opened input.balanceKey) r s' →
      r = some (.error (.invalidRequest "transfer amount overflows i64")) ∧
        (s.account input.balanceKey).eventCount < (s'.account input.balanceKey).eventCount := by
    intro mode r s' hmode' hemitted
    rw [hmode] at hmode'
    cases hmode'
    cases hemitted with
    | refused hplan' => simp [hplan] at hplan'
    | unallocated hplan' hp hne => exact absurd (hp.canAllocate_iff.1 hcan) hne
    | minted _ _ hto' _ _ => simp [LocalCreateMode.creditTo, hto] at hto'
    | creditBlocked _ _ hto' hlock =>
      simp only [LocalCreateMode.creditTo, hto, Option.some.injEq] at hto'
      exact absurd (hto' ▸ htoFree) hlock
    | overflowed hplan' hp _ _ _ =>
      refine ⟨rfl, ?_⟩
      rw [SharedState.account_ensureAccount, eventCount_mintDrafts,
        (SharedState.SameLedger.prepared hp).account, hacc]
      have hpos : 0 < drafts.countP (·.key = input.balanceKey) :=
        List.countP_pos_iff.2 ⟨_, chargeDraft_mem_plan env input hplan, by
          simp [LocalCreateInput.chargeDraft]⟩
      rw [hplan] at hplan'
      cases hplan'
      omega
    | transferred _ _ _ _ habs _ _ => simp [hoverflow] at habs
  cases hcreated with
  | rejected h => simp [hgate] at h
  | malformed _ h => simp [hmode] at h
  | blocked _ _ h => exact absurd hfree h
  | cachedRetry _ _ _ h => simp [hcache] at h
  | storedRetry _ _ _ _ h => simp [hstored] at h
  | emitted _ hmode' _ _ _ he =>
    obtain ⟨hr, hlt⟩ := hemitted hmode' he
    cases hr
    exact ⟨_, rfl, hlt⟩
  | stuck _ hmode' _ _ _ he =>
    obtain ⟨hr, -⟩ := hemitted hmode' he
    cases hr

/-- What the branch of an admitted request has to meet. -/
lemma CreditOverflows.transferOverflows {mode : LocalCreateMode} (hgate : s.gate input = none)
    (hmode : LocalCreateMode.fromInput input (env.clock s.clockReads) = .ok mode)
    (hfree : s.accountLocks input.balanceKey = none)
    (hcache : s.idempotencyCache input.idempotencyKey = none)
    (hstored : s.storedWinner env input.idempotencyKey = none)
    (h : CreditOverflows env input (env.clock (s.clockReads + 1)) mode
      (s.opened input.balanceKey)) : s.TransferOverflows env input := by
  obtain ⟨drafts, s₁, toAddr, hplan, hp, hto, hlock, habs⟩ := h
  obtain ⟨⟨holdOverride, rfl⟩, hto⟩ := LocalCreateMode.creditTo_eq_some hto
  rw [(SharedState.SameLedger.opened s input.balanceKey).account] at hplan
  exact ⟨holdOverride, toAddr, drafts, hgate, hmode, hfree, hcache, hstored, hplan,
    hp.canAllocate_iff.2 rfl, hto, hlock, checkedAbs_eq_none_iff.1 habs⟩

/-- A request that fails otherwise leaves the ledger as it was. -/
lemma sameLedger_of_error {err : CreateLocalEventError} {s' : SharedState D}
    (hno : ¬ s.TransferOverflows env input)
    (hrun : NodeM.exec (createLocalEvents env input).run s = (some (.error err), s')) :
    s.SameLedger s' := by
  obtain ⟨r, s'', hcreated, hrun'⟩ := exec_createLocalEvents env input s
  rw [hrun] at hrun'
  cases hrun'
  cases hcreated with
  | rejected _ => exact .refl s
  | malformed _ _ => exact .tick s
  | emitted hgate hmode hfree hcache hstored hemitted =>
    have hopened := SharedState.SameLedger.opened s input.balanceKey
    refine .trans ?_ (.unlockAccount _ _)
    generalize hr : some (Except.error err) = r at hemitted
    cases hemitted with
    | refused _ => exact hopened
    | unallocated _ hp _ => exact hopened.trans (.prepared hp)
    | minted _ _ _ _ _ => cases hr
    | creditBlocked _ _ _ _ => cases hr
    | overflowed hplan hp hto hlock habs =>
      exact absurd (CreditOverflows.transferOverflows hgate hmode hfree hcache hstored
        ⟨_, _, _, hplan, hp, hto, hlock, habs⟩) hno
    | transferred _ _ _ _ _ _ _ => cases hr

/-- **Failed writes.**  A request that is answered with an error leaves the ledger as it was,
unless it is a transfer of `i64::MIN` whose debit goes through; then it does not. -/
theorem createLocalEvents_error_sameLedger_iff (env : Env D) (input : LocalCreateInput)
    (s : SharedState D) :
    (∀ err s', NodeM.exec (createLocalEvents env input).run s = (some (.error err), s') →
      s.SameLedger s') ↔ ¬ s.TransferOverflows env input := by
  refine ⟨fun h hbad => ?_, fun hno err s' hrun => sameLedger_of_error hno hrun⟩
  obtain ⟨s', hrun, hlt⟩ := exec_of_transferOverflows hbad
  have hsame := (h _ _ hrun).account input.balanceKey
  rw [hsame] at hlt
  exact lt_irrefl _ hlt

/-- After a deposit of `1`, a transfer of `i64::MIN` is refused and leaves its debit behind. -/
theorem createLocalEvents_error_not_sameLedger :
    let env := Env.plain "node" 1000
    let deposit := LocalCreateInput.legacy "bucket" "alice" 1 none 0 "n1" false
    let transfer :=
      { LocalCreateInput.legacy "bucket" "alice" Int64.minValue none 9223372036854775807 "n2" false
        with transferTo := some "bob" }
    let s := (NodeM.exec (createLocalEvents env deposit).run (.blank .empty)).2
    let out := NodeM.exec (createLocalEvents env transfer).run s
    out.1 = some (.error (.invalidRequest "transfer amount overflows i64")) ∧
      ¬ s.SameLedger out.2 := by
  refine ⟨by decide +kernel, fun h => ?_⟩
  have hcount := congrArg AccountState.eventCount (h.account ("bucket", "alice"))
  revert hcount
  decide +kernel

end Shardd
