import Mathlib.Algebra.BigOperators.Group.Finset.Basic
import Shardd.Ledger.Admission
import Shardd.Node.CreateSpec
import Shardd.Node.Startup

/-!
# Transfers and the conservation of money

A transfer should take an amount from the account of the request and give the same amount to the
account that `transfer_to` names.  The request shape carries `transfer_to` with every operation,
and only the charge branch looks at it; the credit is the absolute amount, whatever the sign of
the debit.  `createLocalEvents_transfer_conserves_iff` says for which accepted requests the money is
conserved: retries, reservations and releases, which move none, and debits that do not overflow
either balance.  A transfer of a positive amount credits both accounts, and a settle debits its
account and credits nobody.
-/

namespace Shardd

variable {D : Type}

/-- `v` has gone from `src` to `dst`, for some `v ≥ 0`, and nothing else has changed; in particular
the balances of any set of accounts around the two add up to what they did. -/
def SharedState.Conserves (s s' : SharedState D) (src dst : BalanceKey) : Prop :=
  ∃ v : ℤ, 0 ≤ v ∧
    (s'.account src).balance.toInt = (s.account src).balance.toInt - v ∧
    (s'.account dst).balance.toInt = (s.account dst).balance.toInt + v ∧
    (∀ key, key ≠ src → key ≠ dst → s'.account key = s.account key) ∧
    ∀ keys : Finset BalanceKey, src ∈ keys → dst ∈ keys →
      ∑ key ∈ keys, (s'.account key).balance.toInt = ∑ key ∈ keys, (s.account key).balance.toInt

variable (env : Env D) (input : LocalCreateInput)

/-- The branch of a mode moves no money, or moves it from one account to the other without an
overflow. -/
def LocalCreateMode.Balances (s : SharedState D) (toAddr : String) : LocalCreateMode → Prop
  | .charge _ =>
      input.amount ≤ 0 ∧
        Int64.Fits ((s.account input.balanceKey).balance.toInt + input.amount.toInt) ∧
        Int64.Fits ((s.account (input.bucket, toAddr)).balance.toInt - input.amount.toInt)
  | .reserve | .release _ => True
  | .settle _ => False

/-- The request is a retry, or its mode conserves money. -/
def SharedState.TransferBalances (s : SharedState D) (toAddr : String) : Prop :=
  s.idempotencyCache input.idempotencyKey ≠ none ∨
  s.storedWinner env input.idempotencyKey ≠ none ∨
  ∀ mode, LocalCreateMode.fromInput input (env.clock s.clockReads) = .ok mode →
    mode.Balances input s toAddr

/-! ## Conservation from the accounts -/

section Conserves

variable {s s' : SharedState D} {src dst : BalanceKey}

lemma conserves_of_balances
    (h : ∀ key, (s'.account key).balance = (s.account key).balance)
    (hother : ∀ key, key ≠ src → key ≠ dst → s'.account key = s.account key) :
    s.Conserves s' src dst :=
  ⟨0, le_refl _, by rw [h]; omega, by rw [h]; omega, hother, fun keys _ _ =>
    Finset.sum_congr rfl fun key _ => by rw [h]⟩

/-- Conservation between two different accounts is a matter of their two balances. -/
lemma conserves_iff (hne : src ≠ dst)
    (hother : ∀ key, key ≠ src → key ≠ dst → s'.account key = s.account key) :
    s.Conserves s' src dst ↔ ∃ v : ℤ, 0 ≤ v ∧
      (s'.account src).balance.toInt = (s.account src).balance.toInt - v ∧
      (s'.account dst).balance.toInt = (s.account dst).balance.toInt + v := by
  constructor
  · rintro ⟨v, hv, hsrc, hdst, -, -⟩
    exact ⟨v, hv, hsrc, hdst⟩
  · rintro ⟨v, hv, hsrc, hdst⟩
    refine ⟨v, hv, hsrc, hdst, hother, fun keys hks hkd => ?_⟩
    have hkd' : dst ∈ keys.erase src := Finset.mem_erase.2 ⟨hne.symm, hkd⟩
    rw [← Finset.add_sum_erase _ _ hks, ← Finset.add_sum_erase _ _ hkd',
      ← Finset.add_sum_erase (f := fun key => (s.account key).balance.toInt) _ hks,
      ← Finset.add_sum_erase (f := fun key => (s.account key).balance.toInt) _ hkd', hsrc, hdst]
    have hrest : ∑ key ∈ (keys.erase src).erase dst, (s'.account key).balance.toInt =
        ∑ key ∈ (keys.erase src).erase dst, (s.account key).balance.toInt := by
      refine Finset.sum_congr rfl fun key hkey => ?_
      obtain ⟨hkd, hkey⟩ := Finset.mem_erase.1 hkey
      rw [hother key (Finset.ne_of_mem_erase hkey) hkd]
    omega

/-- A debit and a credit of the absolute amount conserve money when the debit is not a credit and
neither balance overflows, and only then. -/
lemma exists_moved_iff {x y a c : Int64} (hc : checkedAbs a = some c) :
    (∃ v : ℤ, 0 ≤ v ∧ (x + a).toInt = x.toInt - v ∧ (y + c).toInt = y.toInt + v) ↔
      a ≤ 0 ∧ Int64.Fits (x.toInt + a.toInt) ∧ Int64.Fits (y.toInt - a.toInt) := by
  obtain ⟨k, hk⟩ := Int64.toInt_add_eq x a
  obtain ⟨k', hk'⟩ := Int64.toInt_add_eq y c
  have hzero : (0 : Int64).toInt = 0 := rfl
  have hcInt := toInt_of_checkedAbs hc
  have hx := Int64.fits_toInt x
  have hy := Int64.fits_toInt y
  have hxa := Int64.fits_toInt (x + a)
  have hyc := Int64.fits_toInt (y + c)
  have ha := Int64.fits_toInt a
  rw [Int64.le_iff_toInt_le, hzero]
  unfold Int64.Fits at *
  constructor
  · rintro ⟨v, hv, h₁, h₂⟩
    omega
  · rintro ⟨hneg, h₁, h₂⟩
    exact ⟨-a.toInt, by omega, by omega, by omega⟩

end Conserves

/-! ## The accepted requests -/

section Accepted

variable {env input} {s : SharedState D} {now : ℕ} {toAddr : String}

lemma foldl_amount_of_zero {ds : List EventDraft} (h : ∀ d ∈ ds, d.amount = 0) (b : Int64) :
    ds.foldl (fun b d => b + d.amount) b = b := by
  induction ds generalizing b with
  | nil => rfl
  | cons d ds ih =>
      rw [List.foldl_cons, h d List.mem_cons_self, Int64.add_zero]
      exact ih (fun d' hd' => h d' (List.mem_cons_of_mem _ hd')) b

/-- Drafts of amount zero on the account of the request conserve money. -/
lemma conserves_of_zero {drafts : List EventDraft} {s₁ s' : SharedState D} {dst : BalanceKey}
    (hkey : ∀ d ∈ drafts, d.key = input.balanceKey) (hzero : ∀ d ∈ drafts, d.amount = 0)
    (hacc : ∀ key, s₁.account key = s.account key)
    (hs' : ∀ key, s'.account key = (SharedState.mintDrafts env now drafts s₁).2.account key) :
    s.Conserves s' input.balanceKey dst := by
  refine conserves_of_balances (fun key => ?_) fun key hsrc _ => ?_
  · rw [hs', SharedState.balance_mintDrafts, hacc]
    exact foldl_amount_of_zero (fun d hd => hzero d (List.mem_of_mem_filter hd)) _
  · rw [hs', SharedState.account_mintDrafts_of_ne _
        (fun d hd => by rw [hkey d hd]; exact Ne.symm hsrc),
      hacc]

/-- A settle takes money from its account and gives it to nobody. -/
lemma not_conserves_of_settle (toAddr : String) {reservationId : String} {s₁ s' : SharedState D}
    (hdebit : input.amount < 0) (hacc : ∀ key, s₁.account key = s.account key)
    (hs' : ∀ key, s'.account key = (SharedState.mintDrafts env now
      [input.captureDraft, input.settleReleaseDraft reservationId] s₁).2.account key) :
    ¬ s.Conserves s' input.balanceKey (input.bucket, toAddr) := by
  rintro ⟨v, hv, hsrc, hdst, -, -⟩
  have hbal : ∀ key, (s'.account key).balance =
      if key = input.balanceKey then (s.account key).balance + input.amount
      else (s.account key).balance := by
    intro key
    rw [hs', SharedState.balance_mintDrafts, hacc]
    by_cases hkey : key = input.balanceKey
    · subst hkey
      simp [LocalCreateInput.captureDraft, LocalCreateInput.settleReleaseDraft]
    · simp [LocalCreateInput.captureDraft, LocalCreateInput.settleReleaseDraft, hkey, Ne.symm hkey]
  have hzero : (0 : Int64).toInt = 0 := rfl
  have hneg := Int64.lt_iff_toInt_lt.1 hdebit
  have hlow := input.amount.le_toInt
  rw [hzero] at hneg
  obtain ⟨k, hk⟩ := Int64.toInt_add_eq (s.account input.balanceKey).balance input.amount
  rw [hbal, if_pos rfl] at hsrc
  rw [hbal] at hdst
  split at hdst
  · rename_i hself
    rw [hself] at hdst
    omega
  · omega

/-- A branch that is not a charge conserves money unless it is a settle. -/
lemma conserves_minted_iff {mode : LocalCreateMode} {checkedAt : ℕ} {drafts : List EventDraft}
    {acc : AccountState} {s₁ s' : SharedState D} (hto : input.transferTo = some toAddr)
    (hmode : LocalCreateMode.fromInput input checkedAt = .ok mode)
    (hcredit : mode.creditTo input = none)
    (hplan : mode.plan env input now acc = .ok drafts)
    (hacc : ∀ key, s₁.account key = s.account key)
    (hs' : ∀ key, s'.account key = (SharedState.mintDrafts env now drafts s₁).2.account key) :
    s.Conserves s' input.balanceKey (input.bucket, toAddr) ↔ ∀ id, mode ≠ .settle id := by
  cases mode with
  | charge holdOverride => simp [LocalCreateMode.creditTo, hto] at hcredit
  | reserve =>
      simp only [LocalCreateMode.plan] at hplan
      split at hplan
      · cases hplan
      · cases hplan
        have hconserves : s.Conserves s' input.balanceKey (input.bucket, toAddr) :=
          conserves_of_zero (by simp [LocalCreateInput.reserveDraft])
            (by simp [LocalCreateInput.reserveDraft]) hacc hs'
        simp [hconserves]
  | settle reservationId =>
      simp only [LocalCreateMode.plan] at hplan
      split at hplan
      · cases hplan
      · cases hplan
        have hdebit := (LocalCreateMode.wellFormed_of_fromInput hmode).2
        have hnot := not_conserves_of_settle toAddr hdebit hacc hs'
        simp [hnot]
  | release reservationId =>
      simp only [LocalCreateMode.plan] at hplan
      split at hplan
      · cases hplan
      · cases hplan
        have hconserves : s.Conserves s' input.balanceKey (input.bucket, toAddr) :=
          conserves_of_zero (by simp [LocalCreateInput.releaseDraft])
            (by simp [LocalCreateInput.releaseDraft]) hacc hs'
        simp [hconserves]

/-- The plan of a charge ends with the charge; what comes before posts nothing. -/
lemma LocalCreateMode.plan_charge {holdOverride : Option (UInt64 × ℕ)} {acc : AccountState}
    {drafts : List EventDraft}
    (h : LocalCreateMode.plan env input now acc (.charge holdOverride) = .ok drafts) :
    ∃ held, drafts = held ++ [input.chargeDraft] ∧
      ∀ d ∈ held, d.key = input.balanceKey ∧ d.amount = 0 := by
  simp only [LocalCreateMode.plan] at h
  split at h
  · cases h
  · cases h
    refine ⟨_, rfl, fun d hd => ?_⟩
    split at hd
    · obtain rfl := List.mem_singleton.1 hd
      exact ⟨rfl, rfl⟩
    · cases hd

/-- A transfer conserves money when its debit is not a credit and neither balance overflows. -/
lemma conserves_transferred_iff {holdOverride : Option (UInt64 × ℕ)} {creditAmount : Int64}
    {drafts : List EventDraft} {acc : AccountState} {s₁ s' : SharedState D}
    (hne : input.balanceKey ≠ (input.bucket, toAddr))
    (habs : checkedAbs input.amount = some creditAmount)
    (hplan : LocalCreateMode.plan env input now acc (.charge holdOverride) = .ok drafts)
    (hacc : ∀ key, s₁.account key = s.account key)
    (hs' : ∀ key, s'.account key = (SharedState.mintDrafts env now
      (drafts ++ [input.creditDraft toAddr creditAmount]) s₁).2.account key) :
    s.Conserves s' input.balanceKey (input.bucket, toAddr) ↔
      input.amount ≤ 0 ∧
        Int64.Fits ((s.account input.balanceKey).balance.toInt + input.amount.toInt) ∧
        Int64.Fits ((s.account (input.bucket, toAddr)).balance.toInt - input.amount.toInt) := by
  obtain ⟨held, rfl, hheld⟩ := LocalCreateMode.plan_charge hplan
  have hkey : ∀ d ∈ held ++ [input.chargeDraft], d.key = input.balanceKey := by
    intro d hd
    rcases List.mem_append.1 hd with hd | hd
    · exact (hheld d hd).1
    · obtain rfl := List.mem_singleton.1 hd
      rfl
  have hcreditKey : (input.creditDraft toAddr creditAmount).key = (input.bucket, toAddr) := rfl
  have hsrc : (s'.account input.balanceKey).balance =
      (s.account input.balanceKey).balance + input.amount := by
    have hfilter : (held ++ [input.chargeDraft]).filter (·.key = input.balanceKey) =
        held ++ [input.chargeDraft] :=
      List.filter_eq_self.2 fun d hd => by simp [hkey d hd]
    rw [hs', SharedState.balance_mintDrafts, List.filter_append, hfilter, hacc,
      List.filter_cons_of_neg (by simp [hcreditKey, Ne.symm hne]), List.filter_nil, List.append_nil,
      List.foldl_append, foldl_amount_of_zero fun d hd => (hheld d hd).2]
    rfl
  have hdst : (s'.account (input.bucket, toAddr)).balance =
      (s.account (input.bucket, toAddr)).balance + creditAmount := by
    have hfilter : (held ++ [input.chargeDraft]).filter (·.key = (input.bucket, toAddr)) = [] :=
      List.filter_eq_nil_iff.2 fun d hd => by simp [hkey d hd, hne]
    rw [hs', SharedState.balance_mintDrafts, List.filter_append, hfilter, hacc]
    simp [LocalCreateInput.creditDraft]
  rw [conserves_iff hne, hsrc, hdst, exists_moved_iff habs]
  intro key hks hkd
  rw [hs', SharedState.account_mintDrafts_of_ne, hacc]
  intro d hd
  rcases List.mem_append.1 hd with hd | hd
  · rw [hkey d hd]
    exact Ne.symm hks
  · obtain rfl := List.mem_singleton.1 hd
    exact Ne.symm hkd

end Accepted

/-- **Conservation.**  An accepted request that carries `transfer_to` conserves money if and only if
it is a retry, a reservation or a release, or a debit that overflows neither balance. -/
theorem createLocalEvents_transfer_conserves_iff (s s' : SharedState D) (toAddr : String)
    (result : LocalCreateResult) (hto : input.transferTo = some toAddr)
    (hrun : NodeM.exec (createLocalEvents env input).run s = (some (.ok result), s')) :
    s.Conserves s' input.balanceKey (input.bucket, toAddr) ↔
      s.TransferBalances env input toAddr := by
  obtain ⟨r, s'', hcreated, hrun'⟩ := exec_createLocalEvents env input s
  rw [hrun] at hrun'
  cases hrun'
  have hretry : ∀ {s' : SharedState D}, (∀ key, s'.account key = s.account key) →
      s.Conserves s' input.balanceKey (input.bucket, toAddr) := fun h =>
    conserves_of_balances (fun key => congrArg _ (h key)) fun key _ _ => h key
  have hticked : ∀ key, (s.tick.ensureAccount input.balanceKey).account key = s.account key :=
    fun _ => SharedState.account_ensureAccount _
  cases hcreated with
  | cachedRetry _ _ _ hcache =>
      exact iff_of_true (hretry hticked) (.inl (by simp [hcache]))
  | @storedRetry mode e _ _ _ _ hstored =>
      have hremembered : ∀ key, ((s.tick.ensureAccount input.balanceKey).asked.remember
          input.idempotencyKey e).account key = s.account key := hticked
      exact iff_of_true (hretry hremembered) (.inr (.inl (by simp [hstored])))
  | @emitted mode _ s'' hgate hmode hfree hcache hstored hemitted =>
      have hopened : ∀ key, (s.opened input.balanceKey).account key = s.account key := hticked
      have hbalances : s.TransferBalances env input toAddr ↔
          mode.Balances input s toAddr := by
        simp [SharedState.TransferBalances, hcache, hstored, hmode]
      rw [hbalances]
      generalize hr : some (Except.ok result) = r at hemitted
      cases hemitted with
      | refused _ => cases hr
      | @unallocated _ r _ _ _ _ => cases r <;> cases hr
      | creditBlocked _ _ _ _ => cases hr
      | overflowed _ _ _ _ _ => cases hr
      | @minted _ s₁ s₂ _ es hplan hp hcredit hminted _ =>
          have hacc : ∀ key, s₁.account key = s.account key := fun key =>
            (hp.account key).trans (hopened key)
          have hs₂ := congrArg Prod.snd hminted
          rw [conserves_minted_iff hto hmode hcredit hplan hacc fun key => by
            rw [hs₂]
            exact SharedState.account_foldl_recordLocal env es s₂ key]
          cases mode <;> simp_all [LocalCreateMode.Balances, LocalCreateMode.creditTo]
      | @transferred _ s₁ s₂ _ es toAddr' creditAmount hplan hp hcredit hlock habs hminted _ =>
          obtain ⟨⟨holdOverride, rfl⟩, hto'⟩ := LocalCreateMode.creditTo_eq_some hcredit
          obtain rfl : toAddr = toAddr' := by simpa [hto] using hto'
          -- the account of the request is locked, so the receiving account is another one
          have hne : input.balanceKey ≠ (input.bucket, toAddr) := by
            intro heq
            rw [← heq] at hlock
            simp [SharedState.opened, SharedState.tick, SharedState.asked, SharedState.setStorage,
              SharedState.lockAccount] at hlock
          have hacc : ∀ key, s₁.account key = s.account key := fun key =>
            (hp.account key).trans (hopened key)
          have hs₂ := congrArg Prod.snd hminted
          exact conserves_transferred_iff hne habs hplan hacc fun key => by
            rw [hs₂]
            exact SharedState.account_foldl_recordLocal env es s₂ key

/-- A transfer of `5` out of a deposit of `10`. -/
theorem createLocalEvents_transfer_conserves_iff_five :
    let env := Env.plain "node" 1000
    let deposit := LocalCreateInput.legacy "bucket" "alice" 10 none 0 "n1" false
    let transfer :=
      { LocalCreateInput.legacy "bucket" "alice" (-5) none 0 "n2" false with
        transferTo := some "bob" }
    let s := (NodeM.exec (createLocalEvents env deposit).run (.blank .empty)).2
    let out := NodeM.exec (createLocalEvents env transfer).run s
    s.Conserves out.2 ("bucket", "alice") ("bucket", "bob") ↔
      s.TransferBalances env transfer "bob" := by
  intro env deposit transfer s out
  obtain ⟨result, hresult⟩ : ∃ result, out.1 = some (.ok result) :=
    Proc.exists_ok (by decide +kernel)
  exact createLocalEvents_transfer_conserves_iff env transfer s out.2 "bob" result rfl
    (Prod.ext hresult rfl)

/-- A transfer of `5` with a positive sign credits both accounts. -/
theorem createLocalEvents_credit_not_conserves :
    let env := Env.plain "node" 1000
    let transfer :=
      { LocalCreateInput.legacy "bucket" "alice" 5 none 0 "n1" false with transferTo := some "bob" }
    let s : SharedState Unit := .blank .empty
    let out := NodeM.exec (createLocalEvents env transfer).run s
    (∃ result, out.1 = some (.ok result)) ∧
      ¬ s.Conserves out.2 ("bucket", "alice") ("bucket", "bob") := by
  intro env transfer s out
  refine ⟨Proc.exists_ok (by decide +kernel), ?_⟩
  rintro ⟨v, hv, hsrc, -⟩
  have hbefore : (s.account ("bucket", "alice")).balance.toInt = 0 := by decide +kernel
  have hafter : (out.2.account ("bucket", "alice")).balance.toInt = 5 := by decide +kernel
  rw [hbefore, hafter] at hsrc
  omega

end Shardd
