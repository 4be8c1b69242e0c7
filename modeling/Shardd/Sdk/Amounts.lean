import Shardd.Ledger.FailedWrite
import Shardd.Ledger.Transfer
import Shardd.Lib.Machine
import Shardd.Lib.Text
import Shardd.Node.Rules
import Shardd.Node.Service

/-!
# The amounts of the Rust client (`sdks/rust/src/client.rs`)

`charge`, `credit` and `settle` take an unsigned amount and send a signed one: the sign tells the
node whether the event is a debit or a credit.  The cast to `i64` does not look at the value, so the
amounts that an `i64` cannot represent come out with the other sign, and a charge of `2 ^ 64 - 1`
credits `1`.
-/

namespace Shardd.Sdk

variable {D : Type}

/-! ## What the client sends -/

structure CreateEventOptions where
  note : Option String := none
  idempotencyNonce : Option String := none
  maxOverdraft : Option UInt64 := none
  minAcks : Option UInt32 := none
  ackTimeoutMs : Option UInt64 := none
  holdAmount : Option UInt64 := none
  holdExpiresAtUnixMs : Option UInt64 := none
  settleReservation : Option String := none
  releaseReservation : Option String := none
  skipHold : Option Bool := none
  transferTo : Option String := none

structure CreateEventBody where
  bucket : String
  account : String
  amount : Int64
  note : Option String
  idempotencyNonce : String
  maxOverdraft : Option UInt64
  minAcks : Option UInt32
  ackTimeoutMs : Option UInt64
  holdAmount : Option UInt64
  holdExpiresAtUnixMs : Option UInt64
  settleReservation : Option String
  releaseReservation : Option String
  skipHold : Option Bool
  transferTo : Option String

/-- The body of `create_event`; `uuid` is the nonce it draws when the caller gives none. -/
def createEventBody (uuid bucket account : String) (amount : Int64) (opts : CreateEventOptions) :
    CreateEventBody where
  bucket := bucket
  account := account
  amount := amount
  note := opts.note
  idempotencyNonce := opts.idempotencyNonce.getD uuid
  maxOverdraft := opts.maxOverdraft
  minAcks := opts.minAcks
  ackTimeoutMs := opts.ackTimeoutMs
  holdAmount := opts.holdAmount
  holdExpiresAtUnixMs := opts.holdExpiresAtUnixMs
  settleReservation := opts.settleReservation
  releaseReservation := opts.releaseReservation
  skipHold := opts.skipHold
  transferTo := opts.transferTo

/-- `-(amount as i64)`; the negation wraps, as it does in a release build. -/
def charge (uuid bucket account : String) (amount : UInt64) (note : Option String) :
    CreateEventBody :=
  createEventBody uuid bucket account (-amount.toInt64) { note := note }

def credit (uuid bucket account : String) (amount : UInt64) (note : Option String) :
    CreateEventBody :=
  createEventBody uuid bucket account amount.toInt64 { note := note }

def settle (uuid bucket account reservationId : String) (amount : UInt64)
    (opts : CreateEventOptions) : CreateEventBody :=
  createEventBody uuid bucket account (-amount.toInt64)
    { opts with settleReservation := some reservationId }

/-! ## What the gateway makes of it -/

/-- `submit_create_event` up to the request it hands to the mesh. -/
def CreateEventBody.submit (body : CreateEventBody) (internalBucket : String)
    (allowReservedBucket : Bool) : Except String CreateEventRequest :=
  match validateEventNote body.note with
  | .error message => .error message
  | .ok () =>
      let nonce := String.ofList (trim body.idempotencyNonce.toList)
      if nonce.isEmpty then
        .error ("idempotency_nonce is required — generate a UUID v4 per logical operation and " ++
          "reuse it on retries")
      else
        .ok
          { bucket := internalBucket
            account := body.account
            amount := body.amount
            note := body.note
            idempotencyNonce := nonce
            maxOverdraft := body.maxOverdraft
            holdAmount := body.holdAmount
            holdExpiresAtUnixMs := body.holdExpiresAtUnixMs.map UInt64.toNat
            settleReservation := body.settleReservation
            releaseReservation := body.releaseReservation
            skipHold := if allowReservedBucket then some true else body.skipHold
            allowReservedBucket := allowReservedBucket
            transferTo := body.transferTo }

/-- What the gateway keeps of a body. -/
lemma CreateEventBody.submit_eq_ok {body : CreateEventBody} {internalBucket : String}
    {allowReservedBucket : Bool} {req : CreateEventRequest}
    (h : body.submit internalBucket allowReservedBucket = .ok req) :
    req.bucket = internalBucket ∧ req.account = body.account ∧ req.amount = body.amount ∧
      req.settleReservation = body.settleReservation ∧ req.transferTo = body.transferTo := by
  unfold submit at h
  split at h
  · cases h
  · dsimp only at h
    split at h
    · cases h
    · cases h
      exact ⟨rfl, rfl, rfl, rfl, rfl⟩

/-! ## What a node makes of it -/

/-- The state `s'` has come from `s` by posting nothing but `amount`, on one account, and at most
once. -/
structure Posts (s s' : SharedState D) (key : BalanceKey) (amount : Int64) : Prop where
  minted : ∃ es, s'.minted = s.minted ++ es ∧
    ∀ e ∈ es, e.balanceKey = key ∧ (e.amount = 0 ∨ e.amount = amount)
  balance : (∀ k, (s'.account k).balance = (s.account k).balance) ∨
    ∀ k, (s'.account k).balance =
      if k = key then (s.account k).balance + amount else (s.account k).balance

namespace Posts

variable {s s' s₁ s₂ : SharedState D} {key : BalanceKey} {amount : Int64}

lemma of_same (hminted : s'.minted = s.minted) (hacc : ∀ k, s'.account k = s.account k) :
    Posts s s' key amount where
  minted := ⟨[], by rw [hminted, List.append_nil], fun _ he => absurd he List.not_mem_nil⟩
  balance := .inl fun k => by rw [hacc]

/-- Steps before and after that keep the accounts and what has been minted. -/
lemma congr (h : Posts s₁ s₂ key amount) (hminted : s₁.minted = s.minted)
    (hacc : ∀ k, s₁.account k = s.account k) (hminted' : s'.minted = s₂.minted)
    (hacc' : ∀ k, s'.account k = s₂.account k) : Posts s s' key amount where
  minted := by
    rw [← hminted, hminted']
    exact h.minted
  balance := by
    simp only [← hacc, hacc']
    exact h.balance

end Posts

/-- The drafts of a plan carry no other amount than that of the request, and carry it once. -/
lemma plan_amounts {env : Env D} {input : LocalCreateInput} {now : ℕ} {acc : AccountState}
    {mode : LocalCreateMode} {drafts : List EventDraft}
    (h : mode.plan env input now acc = .ok drafts) :
    (∀ d ∈ drafts, d.amount = 0 ∨ d.amount = input.amount) ∧
      ∀ b : Int64, drafts.foldl (fun b d => b + d.amount) b = b ∨
        drafts.foldl (fun b d => b + d.amount) b = b + input.amount := by
  cases mode with
  | charge holdOverride =>
      obtain ⟨held, rfl, hheld⟩ := LocalCreateMode.plan_charge h
      have hzero : ∀ d ∈ held, d.amount = 0 := fun d hd => (hheld d hd).2
      refine ⟨fun d hd => ?_, fun b => .inr ?_⟩
      · rcases List.mem_append.1 hd with hd | hd
        · exact .inl (hzero d hd)
        · obtain rfl := List.mem_singleton.1 hd
          exact .inr rfl
      · rw [List.foldl_append, foldl_amount_of_zero hzero]
        rfl
  | reserve =>
      simp only [LocalCreateMode.plan] at h
      split at h
      · cases h
      · cases h
        simp [LocalCreateInput.reserveDraft]
  | settle reservationId =>
      simp only [LocalCreateMode.plan] at h
      split at h
      · cases h
      · cases h
        simp [LocalCreateInput.captureDraft, LocalCreateInput.settleReleaseDraft]
  | release reservationId =>
      simp only [LocalCreateMode.plan] at h
      split at h
      · cases h
      · cases h
        simp [LocalCreateInput.releaseDraft]

section Node

variable {env : Env D} {input : LocalCreateInput} {now : ℕ} {s s' : SharedState D}

/-- Every event that is minted was one of the drafts. -/
lemma draft_of_mem_mintDrafts {drafts : List EventDraft} {e : Event} (s : SharedState D)
    (he : e ∈ (SharedState.mintDrafts env now drafts s).1) :
    ∃ d ∈ drafts, e.balanceKey = d.key ∧ e.amount = d.amount := by
  induction drafts generalizing s with
  | nil => exact absurd he List.not_mem_nil
  | cons d drafts ih =>
      rcases List.mem_cons.1 he with rfl | he
      · exact ⟨d, List.mem_cons_self, rfl, rfl⟩
      · obtain ⟨d', hd', hsame⟩ := ih _ he
        exact ⟨d', List.mem_cons_of_mem d hd', hsame⟩

/-- Minting the drafts of a plan. -/
lemma posts_mintDrafts {mode : LocalCreateMode} {acc : AccountState} {drafts : List EventDraft}
    (hplan : mode.plan env input now acc = .ok drafts) (s : SharedState D) :
    Posts s (SharedState.mintDrafts env now drafts s).2 input.balanceKey input.amount where
  minted := by
    refine ⟨_, SharedState.minted_mintDrafts env now drafts s, fun e he => ?_⟩
    obtain ⟨d, hd, hkey, hamount⟩ := draft_of_mem_mintDrafts s he
    rw [hkey, hamount]
    exact ⟨LocalCreateMode.key_of_mem_plan hplan hd, (plan_amounts hplan).1 d hd⟩
  balance := by
    have hkey : ∀ d ∈ drafts, d.key = input.balanceKey := fun d hd =>
      LocalCreateMode.key_of_mem_plan hplan hd
    have hother : ∀ k, k ≠ input.balanceKey → drafts.filter (·.key = k) = [] := fun k hk =>
      List.filter_eq_nil_iff.2 fun d hd => by simp [hkey d hd, Ne.symm hk]
    have hown : drafts.filter (·.key = input.balanceKey) = drafts :=
      List.filter_eq_self.2 fun d hd => by simp [hkey d hd]
    rcases (plan_amounts hplan).2 (s.account input.balanceKey).balance with hsum | hsum
    · refine .inl fun k => ?_
      rw [SharedState.balance_mintDrafts]
      by_cases hk : k = input.balanceKey
      · rw [hk, hown, hsum]
      · rw [hother k hk, List.foldl_nil]
    · refine .inr fun k => ?_
      rw [SharedState.balance_mintDrafts]
      by_cases hk : k = input.balanceKey
      · rw [if_pos hk, hk, hown, hsum]
      · rw [if_neg hk, hother k hk, List.foldl_nil]

lemma posts_of_emitted {mode : LocalCreateMode}
    {r : Option (Except CreateLocalEventError LocalCreateResult)}
    (hcredit : mode.creditTo input = none) (h : Emitted env input now mode s r s') :
    Posts s s' input.balanceKey input.amount := by
  cases h with
  | refused _ => exact .of_same rfl fun _ => rfl
  | unallocated _ hp _ => exact .of_same hp.minted hp.account
  | @minted _ s₁ s₂ _ es hplan hp _ hminted _ =>
      have hs₂ : (SharedState.mintDrafts env now _ s₁).2 = s₂ := congrArg Prod.snd hminted
      refine (posts_mintDrafts hplan s₁).congr hp.minted hp.account ?_ fun k => ?_
      · rw [SharedState.minted_foldl_recordLocal, hs₂]
      · rw [SharedState.account_foldl_recordLocal, hs₂]
  | creditBlocked _ _ hto _ => rw [hcredit] at hto; cases hto
  | overflowed _ _ hto _ _ => rw [hcredit] at hto; cases hto
  | transferred _ _ hto _ _ _ _ => rw [hcredit] at hto; cases hto

/-- A request that is no transfer, or that settles a reservation. -/
lemma posts_of_created {r : Option (Except CreateLocalEventError LocalCreateResult)}
    (hto : input.transferTo = none ∨ input.settleReservation ≠ none)
    (h : Created env input s r s') : Posts s s' input.balanceKey input.amount := by
  have hcredit : ∀ {now : ℕ} {mode : LocalCreateMode},
      LocalCreateMode.fromInput input now = .ok mode → mode.creditTo input = none := by
    intro now mode hmode
    cases mode with
    | charge holdOverride =>
        rcases hto with hto | hsettle
        · exact hto
        · have hspends := LocalCreateMode.spends_of_fromInput hmode ⟨by simp, by simp⟩
          exact absurd hspends.1 hsettle
    | reserve => rfl
    | settle reservationId => rfl
    | release reservationId => rfl
  cases h with
  | rejected _ => exact .of_same rfl fun _ => rfl
  | malformed _ _ => exact .of_same rfl fun _ => rfl
  | blocked _ _ _ => exact .of_same rfl (SharedState.SameLedger.ensureAccount s.tick _).account
  | cachedRetry _ _ _ _ =>
      exact .of_same rfl (SharedState.SameLedger.ensureAccount s.tick _).account
  | storedRetry _ _ _ _ _ =>
      exact .of_same rfl (SharedState.SameLedger.ensureAccount s.tick _).account
  | emitted _ hmode _ _ _ hemitted =>
      exact (posts_of_emitted (hcredit hmode) hemitted).congr rfl
        (SharedState.SameLedger.opened s _).account rfl fun _ => rfl
  | stuck _ hmode _ _ _ hemitted =>
      exact (posts_of_emitted (hcredit hmode) hemitted).congr rfl
        (SharedState.SameLedger.opened s _).account rfl fun _ => rfl

/-- Of a request that is no transfer, or that settles a reservation, a node posts the amount and
nothing else, whatever becomes of it. -/
theorem posts_of_createEvent (env : Env D) (phase : NodePhase) {req : CreateEventRequest}
    (hto : req.transferTo = none ∨ req.settleReservation ≠ none) (s : SharedState D) :
    Posts s (NodeM.exec (createEvent env phase req).run s).2 (req.bucket, req.account)
      req.amount := by
  have hsame : Posts s s (req.bucket, req.account) req.amount := .of_same rfl fun _ => rfl
  have hgate : (!req.allowReservedBucket && isReservedBucketName req.bucket) = true ∨
      req.allowReservedBucket = true ∨ isReservedBucketName req.bucket = false := by
    cases req.allowReservedBucket <;> cases isReservedBucketName req.bucket <;> simp
  rcases hnote : validateEventNote req.note with message | ⟨⟩
  · simp only [createEvent, NodeM.exec, hnote, Proc.exec_run_throw]
    exact hsame
  rcases hgate with hrefused | hallowed
  · simp only [createEvent, NodeM.exec, hnote, if_pos hrefused, Proc.exec_run_bind,
      Proc.exec_run_throw, Proc.andThenOk_error]
    exact hsame
  have hopen : ¬ (!req.allowReservedBucket && isReservedBucketName req.bucket) = true := by
    rcases hallowed with h | h <;> simp [h]
  cases phase with
  | warming =>
      simp only [createEvent, NodeM.exec, hnote, if_neg hopen, Proc.exec_run_throw]
      exact hsame
  | shuttingDown =>
      simp only [createEvent, NodeM.exec, hnote, if_neg hopen, Proc.exec_run_throw]
      exact hsame
  | ready =>
      obtain ⟨r, s', hcreated, hrun⟩ := exec_createEvent env hnote hallowed (s := s)
      have hposts : Posts s s' (req.bucket, req.account) req.amount :=
        @posts_of_created D env req.input s s' r hto hcreated
      rw [hrun]
      rcases r with _ | err | result
      · exact hposts
      · exact hposts
      · exact hposts.congr rfl (fun _ => rfl) rfl fun _ => rfl

end Node

/-! ## Sign and size -/

/-- The body `body` of a call with the amount `amount` keeps it, up to the sign `sign`: the request
says so, and a node that gets the request posts that amount on the account or nothing. -/
structure KeepsAmount (D : Type) (sign : ℤ) (body : CreateEventBody) (amount : UInt64) : Prop where
  sent : body.amount.toInt = sign * amount.toNat
  posted : ∀ (internalBucket : String) (allowReservedBucket : Bool) (req : CreateEventRequest),
    body.submit internalBucket allowReservedBucket = .ok req →
    ∀ (env : Env D) (phase : NodePhase) (s : SharedState D),
      let s' := (NodeM.exec (createEvent env phase req).run s).2
      let key := (internalBucket, body.account)
      (∃ es, s'.minted = s.minted ++ es ∧ ∀ e ∈ es, e.balanceKey = key ∧
        (e.amount.toInt = 0 ∨ e.amount.toInt = sign * amount.toNat)) ∧
      ((∀ k, (s'.account k).balance = (s.account k).balance) ∨
        amount ≠ 0 ∧ ∀ k, (s'.account k).balance =
          if k = key then (s.account k).balance + body.amount else (s.account k).balance)

/-- For these calls it comes down to the cast. -/
lemma keepsAmount_iff {sign : ℤ} {body : CreateEventBody} {amount : UInt64}
    (hto : body.transferTo = none ∨ body.settleReservation ≠ none) :
    KeepsAmount D sign body amount ↔ body.amount.toInt = sign * amount.toNat := by
  refine ⟨KeepsAmount.sent, fun hsent => ⟨hsent, ?_⟩⟩
  intro internalBucket allowReservedBucket req hsubmit env phase s s' key
  obtain ⟨hbucket, haccount, hamount, hsettle, hreqTo⟩ := CreateEventBody.submit_eq_ok hsubmit
  have hkey : (req.bucket, req.account) = key := by rw [hbucket, haccount]
  have hposts : Posts s s' key body.amount := by
    rw [← hkey, ← hamount]
    exact posts_of_createEvent env phase (by rwa [hsettle, hreqTo]) s
  constructor
  · obtain ⟨es, hminted, hes⟩ := hposts.minted
    refine ⟨es, hminted, fun e he => ⟨(hes e he).1, ?_⟩⟩
    rcases (hes e he).2 with hzero | hposted
    · rw [hzero]
      exact .inl rfl
    · rw [hposted]
      exact .inr hsent
  · rcases hposts.balance with hsame | hmoved
    · exact .inl hsame
    by_cases hzero : amount = 0
    · -- an amount of zero moves nothing
      have hbody : body.amount = 0 := by
        apply Int64.toInt.inj
        rw [hsent, hzero]
        simp
      refine .inl fun k => ?_
      rw [hmoved k, hbody, Int64.add_zero, ite_self]
    · exact .inr ⟨hzero, hmoved⟩

/-- The negated cast is exact up to `2 ^ 63`, the size of the least `i64`. -/
lemma toInt_neg_toInt64_iff {amount : UInt64} :
    (-amount.toInt64).toInt = -1 * amount.toNat ↔ amount.toNat ≤ 2 ^ 63 := by
  obtain ⟨k, hk⟩ := UInt64.toInt_toInt64_eq amount
  obtain ⟨j, hj⟩ := Int64.toInt_neg_eq amount.toInt64
  have hlow := (-amount.toInt64).le_toInt
  have hhigh := (-amount.toInt64).toInt_lt
  omega

/-- Beyond the bound the client says something else: a charge of `2 ^ 64 - 1` reaches the node as a
credit of `1`. -/
theorem not_keepsAmount_charge :
    let body := charge "uuid" "bucket" "alice" 0xffffffffffffffff none
    let env := Env.plain "node" 1000
    let s : SharedState Unit := .blank .empty
    (∃ req, body.submit "bucket" false = .ok req ∧
      (NodeM.exec (createEvent env .ready req).run s).2.minted.map Event.amount = [1] ∧
      ((NodeM.exec (createEvent env .ready req).run s).2.account ("bucket", "alice")).balance =
        1) ∧
      ¬ KeepsAmount Unit (-1) body 0xffffffffffffffff := by
  intro body env s
  have hsubmit : body.submit "bucket" false = .ok
      { bucket := "bucket"
        account := "alice"
        amount := 1
        note := none
        idempotencyNonce := "uuid"
        maxOverdraft := none
        holdAmount := none
        holdExpiresAtUnixMs := none
        settleReservation := none
        releaseReservation := none
        skipHold := none
        allowReservedBucket := false
        transferTo := none } := by decide +kernel
  refine ⟨⟨_, hsubmit, by decide +kernel, by decide +kernel⟩, fun h => ?_⟩
  have hsent := h.sent
  have hone : body.amount.toInt = 1 := by decide +kernel
  rw [hone] at hsent
  exact absurd hsent (by decide)

/-- **Amounts.**  Whatever the other arguments: a charge and a settle keep the amount up to
`2 ^ 63`, a credit below it, and none of them keeps any other amount. -/
theorem amounts_kept_iff (D : Type) (amount : UInt64) :
    (∀ uuid bucket account note,
      KeepsAmount D (-1) (charge uuid bucket account amount note) amount ↔
        amount.toNat ≤ 2 ^ 63) ∧
    (∀ uuid bucket account note,
      KeepsAmount D 1 (credit uuid bucket account amount note) amount ↔ amount.toNat < 2 ^ 63) ∧
    (∀ uuid bucket account reservationId opts,
      KeepsAmount D (-1) (settle uuid bucket account reservationId amount opts) amount ↔
        amount.toNat ≤ 2 ^ 63) := by
  refine ⟨fun uuid bucket account note => ?_, fun uuid bucket account note => ?_,
    fun uuid bucket account reservationId opts => ?_⟩
  · rw [keepsAmount_iff (.inl rfl)]
    exact toInt_neg_toInt64_iff
  · rw [keepsAmount_iff (.inl rfl), one_mul]
    exact UInt64.toInt_toInt64_iff
  · rw [keepsAmount_iff (.inr (Option.some_ne_none _))]
    exact toInt_neg_toInt64_iff

end Shardd.Sdk
