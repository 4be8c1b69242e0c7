import Shardd.Gateway.Submission
import Shardd.Ledger.Admission
import Shardd.Lib.Grouping
import Shardd.Node.Rules
import Shardd.Node.Startup

/-!
# The nonce of an address (`apps/gateway/src/evm_rpc.rs`)

The nonce of an address is kept nowhere.  Whenever it is asked for, the events of the bucket that
debit an account of that name are counted.  A transaction of value zero debits nobody and is not
counted, and everything else that debits the account is: charges and settles that no transaction has
asked for, the voids of its credits, and a transaction once more when a second node accepts it too.
-/

namespace Shardd

/-! ## Histories -/

/-- What a bucket's history is made of. -/
inductive BucketOp
  | evm (t : CheckedTransaction)
  | create (input : LocalCreateInput)
  | correct (winner loser : Event)

namespace BucketOp

/-- The account that an operation is on. -/
def account : BucketOp → String
  | .evm t => t.fromStr
  | .create input => input.account
  | .correct _ loser => loser.account

/-- What it posts there. -/
def amount : BucketOp → Int64
  | .evm t => -t.value
  | .create input => input.amount
  | .correct _ loser => -loser.amount

end BucketOp

section Posts

variable (D : Type)

/-- Some node answers the request with these events. -/
def LocalCreateInput.Emits (input : LocalCreateInput) (events : List Event) : Prop :=
  ∃ (env : Env D) (s s' : SharedState D) (primary : Event),
    NodeM.exec (createLocalEvents env input).run s =
      (some (.ok { primaryEvent := primary, emittedEvents := events }), s')

/-- Some node corrects a conflict with these events. -/
def CorrectsWith (winner loser : Event) (events : List Event) : Prop :=
  ∃ (env : Env D) (s s' : SharedState D), s.Unlocked ∧
    NodeM.exec (emitCorrections env winner loser) s = (some (), s') ∧
      s'.minted = s.minted ++ events

/-- The operation comes to these events.  A transaction has passed the checks of the gateway, which
has asked some node for the events; every other operation is one of the bucket. -/
def BucketOp.Posts (alloy : Alloy) (text : TextLib) (bucket rawBucket : String) :
    BucketOp → List Event → Prop
  | .evm t, events =>
      (∃ mesh params, checkSubmission alloy text mesh bucket rawBucket params = .ok t) ∧
        (t.request alloy bucket).input.Emits D events
  | .create input, events => input.bucket = bucket ∧ input.Emits D events
  | .correct winner loser, events => loser.bucket = bucket ∧ CorrectsWith D winner loser events

end Posts

/-- An operation with its events; there are none when it repeats an earlier one. -/
structure BucketEntry (D : Type) (alloy : Alloy) (text : TextLib) (bucket rawBucket : String) where
  op : BucketOp
  events : List Event
  posts : op.Posts D alloy text bucket rawBucket events

deriving instance DecidableEq for CheckedTransaction

variable {D : Type} {alloy : Alloy} {text : TextLib} {bucket rawBucket : String}

namespace BucketEntry

variable (entry : BucketEntry D alloy text bucket rawBucket) (address : String)

/-- The operation posts, and it is on an account of that name. -/
def IsOf : Prop :=
  entry.events ≠ [] ∧ text.lowercase entry.op.account = text.lowercase address

instance : Decidable (entry.IsOf address) := inferInstanceAs (Decidable (_ ∧ _))

/-- The transaction of the address that has been accepted. -/
def transaction : Option CheckedTransaction :=
  match entry.op with
  | .evm t => if entry.IsOf address then some t else none
  | _ => none

end BucketEntry

section History

variable (history : List (BucketEntry D alloy text bucket rawBucket)) (address : String)

def postedEvents : List Event := history.flatMap (·.events)

/-- The transactions of the address that have been accepted, with one occurrence for each node that
has done so. -/
def acceptedTransactions : List CheckedTransaction :=
  history.filterMap (·.transaction address)

/-- The mesh answers with the events of the history, in some order, and with those of other
buckets. -/
def MeshReplies.Lists (mesh : MeshReplies) (bucket : String) (events : List Event) : Prop :=
  ∃ listed, mesh.events = some listed ∧ (listed.filter (·.bucket = bucket)).Perm events

/-- At every point of the history the nonce of the address is the number of its transactions. -/
def CountsTransactions : Prop :=
  ∀ before, before <+: history → ∀ mesh : MeshReplies, mesh.Lists bucket (postedEvents before) →
    ethGetTransactionCount text mesh bucket (oneParam address) =
      .ok (.string (hexNumber (acceptedTransactions before address).toFinset.card))

/-- What the count supposes. -/
structure NonceSafe : Prop where
  /-- Every transaction of the address moves something. -/
  paying : ∀ entry ∈ history, ∀ t, entry.op = .evm t → entry.IsOf address → t.value ≠ 0
  /-- No two nodes have accepted the same one. -/
  once : (acceptedTransactions history address).Nodup
  /-- Nothing else debits the address. -/
  apart : ∀ entry ∈ history, (∀ t, entry.op ≠ .evm t) → entry.IsOf address → 0 ≤ entry.op.amount

end History

/-! ## What an operation posts -/

/-- Where an event is posted, and how much. -/
def Event.posting (e : Event) : BalanceKey × Int64 := (e.balanceKey, e.amount)

/-- One of the events is what the operation says, and the others debit nobody. -/
def PostsOnce (key : BalanceKey) (amount : Int64) (events : List Event) : Prop :=
  ∃ rest, (events.map Event.posting).Perm ((key, amount) :: rest) ∧
    ∀ p ∈ rest, p.1.1 = key.1 ∧ 0 ≤ p.2

section Shape

variable {env : Env D}

variable (env) in
lemma posting_mintDrafts (now : ℕ) (ds : List EventDraft) (s : SharedState D) :
    (SharedState.mintDrafts env now ds s).1.map Event.posting =
      ds.map fun d => (d.key, d.amount) := by
  induction ds generalizing s with
  | nil => rfl
  | cons d ds ih =>
      rw [SharedState.mintDrafts, List.map_cons, List.map_cons, ih]
      rfl

lemma PostsOnce.of_drafts {now : ℕ} {ds rest : List EventDraft} {d : EventDraft}
    {s s' : SharedState D} {events : List Event} (hds : ds.Perm (d :: rest))
    (hrest : ∀ d' ∈ rest, d'.key.1 = d.key.1 ∧ 0 ≤ d'.amount)
    (h : SharedState.mintDrafts env now ds s = (events, s')) :
    PostsOnce d.key d.amount events := by
  have hposting := posting_mintDrafts env now ds s
  rw [h] at hposting
  refine ⟨rest.map fun d => (d.key, d.amount), ?_, fun p hp => ?_⟩
  · rw [hposting]
    exact hds.map _
  · obtain ⟨d', hd', rfl⟩ := List.mem_map.1 hp
    exact hrest d' hd'

/-- A plan has one draft that posts the amount, and the others post nothing. -/
lemma LocalCreateMode.plan_perm {input : LocalCreateInput} {now now' : ℕ} {acc : AccountState}
    {mode : LocalCreateMode} {ds : List EventDraft} (hmode : mode.WellFormed input now')
    (h : mode.plan env input now acc = .ok ds) :
    ∃ d rest, ds.Perm (d :: rest) ∧ d.key = input.balanceKey ∧ d.amount = input.amount ∧
      ∀ d' ∈ rest, d'.key.1 = d.key.1 ∧ 0 ≤ d'.amount := by
  cases mode with
  | charge holdOverride =>
      simp only [plan] at h
      split at h <;> cases h
      refine ⟨input.chargeDraft, _, List.perm_append_comm, rfl, rfl, fun d' hd' => ?_⟩
      split at hd'
      · obtain rfl := List.mem_singleton.1 hd'
        exact ⟨rfl, Int64.le_refl 0⟩
      · cases hd'
  | reserve =>
      simp only [plan] at h
      split at h <;> cases h
      exact ⟨input.reserveDraft, [], .refl _, rfl, hmode.1.symm, by simp⟩
  | settle reservationId =>
      simp only [plan] at h
      split at h <;> cases h
      refine ⟨input.captureDraft, _, .refl _, rfl, rfl, fun d' hd' => ?_⟩
      obtain rfl := List.mem_singleton.1 hd'
      exact ⟨rfl, Int64.le_refl 0⟩
  | release reservationId =>
      simp only [plan] at h
      split at h <;> cases h
      exact ⟨input.releaseDraft reservationId, [], .refl _, rfl, hmode.2.symm, by simp⟩

lemma nonneg_of_checkedAbs {a c : Int64} (h : checkedAbs a = some c) : 0 ≤ c := by
  have hzero : (0 : Int64).toInt = 0 := rfl
  rw [Int64.le_iff_toInt_le, hzero]
  rcases toInt_of_checkedAbs h with ⟨hneg, hc⟩ | ⟨hpos, hc⟩ <;> omega

/-- A request comes to no events, or to one that posts its amount and to others that debit
nobody. -/
lemma LocalCreateInput.Emits.postsOnce {input : LocalCreateInput} {events : List Event}
    (h : input.Emits D events) : events = [] ∨ PostsOnce input.balanceKey input.amount events := by
  obtain ⟨env, s, s', primary, hrun⟩ := h
  obtain ⟨r, s₁, hcreated, hrun'⟩ := exec_createLocalEvents env input s
  rw [hrun] at hrun'
  obtain ⟨rfl, rfl⟩ := Prod.mk.inj hrun'
  cases hcreated with
  | cachedRetry _ _ _ _ => exact .inl rfl
  | storedRetry _ _ _ _ _ => exact .inl rfl
  | emitted _ hmode _ _ _ hemitted =>
      right
      have hwell := LocalCreateMode.wellFormed_of_fromInput hmode
      generalize hr : some (Except.ok _) = r at hemitted
      cases hemitted with
      | refused _ => cases hr
      | creditBlocked _ _ _ _ => cases hr
      | overflowed _ _ _ _ _ => cases hr
      | @unallocated _ r _ _ _ _ => cases r <;> cases hr
      | minted hplan _ _ hminted _ =>
          obtain ⟨d, rest, hperm, hkey, hamount, hrest⟩ := LocalCreateMode.plan_perm hwell hplan
          cases hr
          rw [← hkey, ← hamount]
          exact .of_drafts hperm hrest hminted
      | @transferred ds _ _ _ _ toAddr creditAmount hplan _ _ _ habs hminted _ =>
          obtain ⟨d, rest, hperm, hkey, hamount, hrest⟩ := LocalCreateMode.plan_perm hwell hplan
          cases hr
          rw [← hkey, ← hamount]
          refine .of_drafts (hperm.append_right _) (fun d' hd' => ?_) hminted
          rcases List.mem_append.1 hd' with hd' | hd'
          · exact hrest d' hd'
          · obtain rfl := List.mem_singleton.1 hd'
            exact ⟨by rw [hkey]; rfl, nonneg_of_checkedAbs habs⟩

/-- A correction comes to no events, or to the void and perhaps a release. -/
lemma CorrectsWith.postsOnce {winner loser : Event} {events : List Event}
    (h : CorrectsWith D winner loser events) :
    events = [] ∨ PostsOnce loser.balanceKey (-loser.amount) events := by
  obtain ⟨env, s, s', hfree, hrun, hminted⟩ := h
  obtain ⟨r, s₁, hcorrected, hrun'⟩ := exec_emitCorrections env winner loser hfree
  rw [hrun] at hrun'
  obtain ⟨rfl, rfl⟩ := Prod.mk.inj hrun'
  have hnone : s'.minted = s.minted → events = [] := fun hsame =>
    List.append_right_eq_self.1 (hminted.symm.trans hsame)
  generalize hr : some () = r at hcorrected
  cases hcorrected with
  | known _ => exact .inl (hnone rfl)
  | stored _ _ => exact .inl (hnone rfl)
  | unallocated _ _ hp _ => exact .inl (hnone hp.minted)
  | @voided s₁ _ _ _ _ hp hreleased =>
      right
      have hvoid := SharedState.minted_mintCorrection env (s := s₁) (voidDraft winner loser)
      rw [hp.minted] at hvoid
      change _ = s.minted ++ _ at hvoid
      cases hreleased with
      | noHold _ =>
          rw [hvoid] at hminted
          obtain rfl := List.append_cancel_left hminted
          exact ⟨[], .refl _, by simp⟩
      | known _ _ =>
          rw [hvoid] at hminted
          obtain rfl := List.append_cancel_left hminted
          exact ⟨[], .refl _, by simp⟩
      | unallocated _ _ hp' _ =>
          rw [hp'.minted, hvoid] at hminted
          obtain rfl := List.append_cancel_left hminted
          exact ⟨[], .refl _, by simp⟩
      | @released s₂ _ _ hp' =>
          have hrelease := SharedState.minted_mintCorrection env (s := s₂)
            (holdReleaseDraft winner loser)
          rw [hrelease, hp'.minted, hvoid, List.append_assoc] at hminted
          obtain rfl := List.append_cancel_left hminted
          refine ⟨[(loser.balanceKey, 0)], .refl _, fun p hp => ?_⟩
          obtain rfl := List.mem_singleton.1 hp
          exact ⟨rfl, Int64.le_refl 0⟩

end Shape

lemma of_bind_eq_ok {ε α β : Type*} {x : Except ε α} {f : α → Except ε β} {b : β}
    (h : x.bind f = .ok b) : ∃ a, x = .ok a ∧ f a = .ok b := by
  cases x with
  | error e => cases h
  | ok a => exact ⟨a, rfl, h⟩

lemma nonneg_of_transferValue {value : BitVec 256} {x : Int64} (h : transferValue value = .ok x) :
    0 ≤ x := by
  have hzero : (0 : Int64).toInt = 0 := rfl
  unfold transferValue at h
  split at h
  · cases h
  split at h
  · cases h
  split at h
  · cases h
  rename_i hsmall
  obtain rfl := Except.ok.inj h
  rw [Int64.le_iff_toInt_le, hzero, Int64.toInt_ofNat_of_lt (by omega)]
  exact Int.natCast_nonneg _

lemma CheckedTransaction.value_nonneg_of_check {t : CheckedTransaction} {mesh : MeshReplies}
    {params : Option Json}
    (h : checkSubmission alloy text mesh bucket rawBucket params = .ok t) : 0 ≤ t.value := by
  obtain ⟨rawHex, -, h⟩ := of_bind_eq_ok h
  obtain ⟨t', ht, h⟩ := of_bind_eq_ok h
  obtain ⟨-, -, h⟩ := of_bind_eq_ok h
  obtain rfl := Except.ok.inj h
  simp only [checkTransaction, pure_bind] at ht
  split at ht
  · cases ht
  split at ht
  · cases ht
  split at ht
  · cases ht
  split at ht
  swap
  · cases ht
  obtain ⟨expectedChain, -, ht⟩ := of_bind_eq_ok ht
  obtain ⟨value, hvalue, ht⟩ := of_bind_eq_ok ht
  obtain rfl := Except.ok.inj ht
  exact nonneg_of_transferValue hvalue

namespace BucketEntry

variable (entry : BucketEntry D alloy text bucket rawBucket)

lemma postsOnce :
    entry.events = [] ∨ PostsOnce (bucket, entry.op.account) entry.op.amount entry.events := by
  obtain ⟨op, events, hposts⟩ := entry
  cases op with
  | evm t => exact hposts.2.postsOnce
  | create input =>
      obtain ⟨rfl, hemits⟩ := hposts
      exact hemits.postsOnce
  | correct winner loser =>
      obtain ⟨rfl, hcorrects⟩ := hposts
      exact hcorrects.postsOnce

lemma bucket_of_mem {e : Event} (he : e ∈ entry.events) : e.bucket = bucket := by
  rcases entry.postsOnce with hnil | ⟨rest, hperm, hrest⟩
  · rw [hnil] at he
    cases he
  · have hmem := hperm.mem_iff.1 (List.mem_map_of_mem (f := Event.posting) he)
    rcases List.mem_cons.1 hmem with heq | hmem
    · exact congrArg (·.1.1) heq
    · exact (hrest _ hmem).1

/-- The operation debits the address. -/
def Debits (address : String) : Prop := entry.IsOf address ∧ entry.op.amount < 0

instance (address : String) : Decidable (entry.Debits address) :=
  inferInstanceAs (Decidable (_ ∧ _))

/-- An operation adds at most one to the nonce of an address. -/
lemma nonceOf_events (address : String) :
    nonceOf text entry.events address = if entry.Debits address then 1 else 0 := by
  rcases entry.postsOnce with hnil | ⟨rest, hperm, hrest⟩
  · have hnot : ¬ entry.Debits address := fun h => h.1.1 hnil
    rw [if_neg hnot, hnil]
    rfl
  · have hne : entry.events ≠ [] := by
      intro hnil
      rw [hnil] at hperm
      exact List.cons_ne_nil _ _ hperm.nil_eq.symm
    have hcount : nonceOf text entry.events address =
        (entry.events.map Event.posting).countP fun p =>
          decide (text.lowercase p.1.2 = text.lowercase address ∧ p.2 < 0) := by
      rw [List.countP_map]
      rfl
    have hzero : rest.countP (fun p =>
        decide (text.lowercase p.1.2 = text.lowercase address ∧ p.2 < 0)) = 0 := by
      refine List.countP_eq_zero.2 fun p hp hdebit => ?_
      exact Int64.not_lt.2 (hrest p hp).2 (of_decide_eq_true hdebit).2
    rw [hcount, hperm.countP_eq, List.countP_cons, hzero]
    simp [Debits, IsOf, hne]

/-- What a transaction moves is not negative. -/
lemma debits_evm_iff {t : CheckedTransaction} (hop : entry.op = .evm t) (address : String) :
    entry.Debits address ↔ entry.IsOf address ∧ t.value ≠ 0 := by
  have hposts := entry.posts
  rw [hop] at hposts
  obtain ⟨⟨mesh, params, hcheck⟩, -⟩ := hposts
  have hvalue := t.value_nonneg_of_check hcheck
  have hamount : entry.op.amount = -t.value := by rw [hop, BucketOp.amount]
  have hzero : (0 : Int64).toInt = 0 := rfl
  have hhigh := t.value.toInt_lt
  rw [Int64.le_iff_toInt_le, hzero] at hvalue
  have hneg : (-t.value).toInt = -t.value.toInt :=
    Int64.toInt_neg_iff.2 (by unfold Int64.Fits; omega)
  refine and_congr_right fun _ => ?_
  rw [hamount, Int64.lt_iff_toInt_lt, hzero, hneg, Ne, ← Int64.toInt_inj, hzero]
  omega

end BucketEntry

/-! ## The nonce of a history -/

namespace BucketEntry

variable {entry : BucketEntry D alloy text bucket rawBucket} {address : String}

lemma transaction_eq_some_iff {t : CheckedTransaction} :
    entry.transaction address = some t ↔ entry.op = .evm t ∧ entry.IsOf address := by
  unfold transaction
  cases entry.op with
  | evm t' => by_cases h : entry.IsOf address <;> simp [h]
  | create input => simp
  | correct winner loser => simp

/-- An accepted transaction of the address debits it exactly when it moves something. -/
lemma debits_iff_of_transaction {t : CheckedTransaction} (h : entry.transaction address = some t) :
    entry.Debits address ↔ t.value ≠ 0 := by
  obtain ⟨hop, hof⟩ := transaction_eq_some_iff.1 h
  rw [entry.debits_evm_iff hop, and_iff_right hof]

end BucketEntry

section History

variable {history : List (BucketEntry D alloy text bucket rawBucket)} {address : String}

/-- The nonce counts the operations that debit the address. -/
lemma nonceOf_postedEvents :
    nonceOf text (postedEvents history) address =
      history.countP fun entry => entry.Debits address := by
  induction history with
  | nil => rfl
  | cons entry rest ih =>
      have happend : nonceOf text (postedEvents (entry :: rest)) address =
          nonceOf text entry.events address + nonceOf text (postedEvents rest) address :=
        List.countP_append
      rw [happend, ih, entry.nonceOf_events, List.countP_cons, Nat.add_comm]
      simp

lemma MeshReplies.Lists.nonceOf {mesh : MeshReplies} {events : List Event}
    (h : mesh.Lists bucket events) :
    nonceOf text (mesh.getBucketEventsSorted bucket) address =
      Shardd.nonceOf text events address := by
  obtain ⟨listed, hlisted, hperm⟩ := h
  refine List.Perm.countP_eq _ ((sortBy_perm _).trans ?_)
  rw [hlisted]
  exact hperm

/-- A mesh that answers with the history. -/
lemma lists_postedEvents :
    (⟨some (postedEvents history), none⟩ : MeshReplies).Lists bucket (postedEvents history) := by
  refine ⟨_, rfl, List.Perm.of_eq (List.filter_eq_self.2 fun e he => ?_)⟩
  obtain ⟨entry, -, he⟩ := List.mem_flatMap.1 he
  exact decide_eq_true (entry.bucket_of_mem he)

lemma countsTransactions_iff_countP :
    CountsTransactions history address ↔ ∀ before, before <+: history →
      before.countP (fun entry => entry.Debits address) =
        (before.filterMap (·.transaction address)).toFinset.card := by
  refine forall₂_congr fun before _ => ⟨fun h => ?_, fun h mesh hmesh => ?_⟩
  · have hcount := h _ lists_postedEvents
    simp only [ethGetTransactionCount, extractParamStr_oneParam, lists_postedEvents.nonceOf,
      nonceOf_postedEvents] at hcount
    exact hexNumber_injective (Json.string.inj (Except.ok.inj hcount))
  · rw [acceptedTransactions, ← h, ← nonceOf_postedEvents, ← hmesh.nonceOf]
    rfl

/-- **The nonce.**  At every point of a history the nonce of an address is the number of its
accepted transactions exactly when each of them has moved something, no two nodes have accepted the
same one, and nothing else has debited the address. -/
theorem countsTransactions_iff :
    CountsTransactions history address ↔ NonceSafe history address := by
  have hkey : ∀ a ∈ history, ∀ b ∈ history, ∀ t, a.transaction address = some t →
      b.transaction address = some t → (a.Debits address ↔ b.Debits address) :=
    fun a _ b _ t ha hb => (BucketEntry.debits_iff_of_transaction ha).trans
      (BucketEntry.debits_iff_of_transaction hb).symm
  rw [countsTransactions_iff_countP, countP_prefix_iff hkey]
  constructor
  · rintro ⟨hall, hnodup⟩
    refine ⟨fun entry he t hop hof => ?_, hnodup, fun entry he hother hof => ?_⟩
    · have htx := BucketEntry.transaction_eq_some_iff.2 ⟨hop, hof⟩
      have hdebits : entry.Debits address := (hall entry he).2 (by rw [htx]; rfl)
      exact (BucketEntry.debits_iff_of_transaction htx).1 hdebits
    · have hnone : ¬ (entry.transaction address).isSome = true := by
        intro hsome
        obtain ⟨t, ht⟩ := Option.isSome_iff_exists.1 hsome
        exact hother t (BucketEntry.transaction_eq_some_iff.1 ht).1
      have hdebits : ¬ entry.Debits address := fun h => hnone ((hall entry he).1 h)
      exact Int64.not_lt.1 fun hneg => hdebits ⟨hof, hneg⟩
  · rintro ⟨hpaying, honce, hapart⟩
    refine ⟨fun entry he => ⟨fun hdebits => ?_, fun hsome => ?_⟩, honce⟩
    · by_contra hnone
      refine Int64.not_lt.2 (hapart entry he (fun t hop => ?_) hdebits.1) hdebits.2
      exact hnone (Option.isSome_iff_exists.2
        ⟨t, BucketEntry.transaction_eq_some_iff.2 ⟨hop, hdebits.1⟩⟩)
    · obtain ⟨t, ht⟩ := Option.isSome_iff_exists.1 hsome
      obtain ⟨hop, hof⟩ := BucketEntry.transaction_eq_some_iff.1 ht
      exact (BucketEntry.debits_iff_of_transaction ht).2 (hpaying entry he t hop hof)

end History

/-! ### A transaction of value zero -/

def zeroRawBytes : List UInt8 :=
  [0xf8, 0x64, 0x80, 0x80, 0x82, 0x52, 0x08, 0x94, 0x00, 0x00, 0x00, 0x00, 0x00, 0x00, 0x00,
    0x00, 0x00, 0x00, 0x00, 0x00, 0x00, 0x00, 0x00, 0x00, 0x00, 0x00, 0x00, 0x01, 0x80, 0x80,
    0x85, 0x01, 0x38, 0x45, 0xfe, 0xe2, 0xa0, 0x5e, 0x23, 0x61, 0x33, 0xb5, 0x37, 0x74, 0x7f,
    0x7b, 0x37, 0xca, 0xd4, 0x68, 0xc9, 0xff, 0xd4, 0x8b, 0xaa, 0xa9, 0xb0, 0xc5, 0x0b, 0xfb,
    0xb3, 0x1f, 0x64, 0x18, 0x3a, 0x03, 0x5f, 0x09, 0x29, 0xa0, 0x23, 0xff, 0x54, 0x61, 0x12,
    0x66, 0xce, 0xbc, 0x62, 0xcc, 0x76, 0x3f, 0x95, 0x49, 0x9d, 0x8b, 0x5d, 0x8e, 0xee, 0x55,
    0x0a, 0x1f, 0x15, 0x45, 0xfa, 0x38, 0x1b, 0x05, 0x96, 0x47, 0xea, 0x8d]

def keccakZeroTx : B256 where
  bytes := [0x20, 0x48, 0x7a, 0x24, 0x45, 0x9c, 0x5a, 0x6c, 0xd1, 0xca, 0xe0, 0x0f, 0x6a,
    0x78, 0x66, 0xfa, 0xd0, 0x76, 0x49, 0x67, 0x25, 0x75, 0x18, 0x7d, 0xa0, 0xee, 0xec, 0xb7,
    0x33, 0xef, 0xfe, 0x0f]
  length_bytes := rfl

def zeroSigned : SignedTransaction where
  tx := { testTx with value := 0 }
  signature :=
    { r := 0x5e236133b537747f7b37cad468c9ffd48baaa9b0c50bfbb31f64183a035f0929
      s := 0x23ff54611266cebc62cc763f95499d8b5d8eee550a1f1545fa381b059647ea8d
      yParity := true }

/-- A library that knows this transaction and the hash of `test`. -/
def zeroAlloy : Alloy where
  keccak256 bytes := if bytes = zeroRawBytes then keccakZeroTx else keccakTest
  rlpDecodeSigned raw :=
    if raw = zeroRawBytes then .ok zeroSigned else .error "unexpected end of input"
  recoverSigner _ := some testSigner
  addressText := sendAlloy.addressText

def zeroChecked : CheckedTransaction where
  rawBytes := zeroRawBytes
  fromStr := sendAlloy.addressText testSigner
  toStr := "0x" ++ String.ofList (hexEncode (List.replicate 19 0 ++ [1]))
  value := 0
  nonce := 0
  expectedChain := 2619539295

lemma checkSubmission_zero :
    checkSubmission zeroAlloy plainText ⟨none, none⟩ "b" "test"
      (oneParam ("0x" ++ String.ofList (hexEncode zeroRawBytes))) = .ok zeroChecked := by
  have hhex : hexDecode (trimHexPrefix ("0x" ++ String.ofList (hexEncode zeroRawBytes)).toList) =
      some zeroRawBytes := by
    have htext : ("0x" ++ String.ofList (hexEncode zeroRawBytes)).toList =
        '0' :: 'x' :: hexEncode zeroRawBytes := by
      simp
    rw [htext, trimHexPrefix,
      trimHexPrefix_of_hexDigits fun c hc => isHexDigit_of_mem_hexEncode hc, hexDecode_hexEncode]
  have hevents : (⟨none, none⟩ : MeshReplies).getBucketEventsSorted "b" = [] :=
    List.mergeSort_nil
  have hcheck : checkTransaction zeroAlloy "test" ("0x" ++ String.ofList (hexEncode zeroRawBytes)) =
      .ok zeroChecked := by
    rw [checkTransaction, hhex]
    rfl
  rw [checkSubmission, extractParamStr_oneParam, hevents]
  dsimp only [bind, Except.bind]
  rw [hcheck]
  rfl

def zeroInput : LocalCreateInput := (zeroChecked.request zeroAlloy "b").input

def zeroDebit : Event := zeroInput.chargeDraft.event "0" "node" (1, 1) 1000

def zeroCredit : Event :=
  (zeroInput.creditDraft zeroChecked.toStr 0).event "1" "node" (1, 2) 1000

/-- A node accepts the transaction. -/
def zeroEntry : BucketEntry Unit zeroAlloy plainText "b" "test" where
  op := .evm zeroChecked
  events := [zeroDebit, zeroCredit]
  posts := by
    have hrun : (NodeM.exec (createLocalEvents (Env.plain "node" 1000) zeroInput).run
        (.blank .empty)).1 = some (.ok ⟨zeroDebit, [zeroDebit, zeroCredit]⟩) := by
      decide +kernel
    exact ⟨⟨_, _, checkSubmission_zero⟩, _, _, _, _, Prod.ext hrun rfl⟩

/-- It is accepted, and the nonce of its sender stays zero. -/
theorem nonce_of_zero_transaction : ¬ CountsTransactions [zeroEntry] zeroChecked.fromStr := by
  intro h
  have hcount := countsTransactions_iff_countP.1 h _ (List.prefix_refl _)
  revert hcount
  decide +kernel

end Shardd
