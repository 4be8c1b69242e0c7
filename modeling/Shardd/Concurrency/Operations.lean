import Shardd.Node.Network
import Shardd.Node.Nonces

/-!
# Operations and their keys

An operation of a client is known by the key of its request; the events it yields are the primary
one, the companions the node emits with it (a hold, the credit of a transfer, the release of a
settled hold), and the corrections of those of them that lose a conflict.  The nonces of companions
and corrections are derived from the client's nonce and from event ids, in one namespace with the
nonces that clients choose.

`Separate` says of the requests that may be submitted that no client nonce looks derived, no settle
is filed under an event id and no two requests of different keys share a companion key.  Then every
key belongs to one operation.
-/

namespace Shardd

variable {D : Type} {ν : Type}

/-! ## Operations and their keys -/

section Operations

variable (env : ν → Env D) (R : LocalCreateInput → Prop)

/-- The request may be given a hold at some node. -/
def LocalCreateInput.Holds (input : LocalCreateInput) : Prop :=
  ∃ n checkedAt mode, LocalCreateMode.fromInput input checkedAt = .ok mode ∧
    mode.MayHold (env n).hold input

/-- The request is dispatched to a settle. -/
def LocalCreateInput.Settles (input : LocalCreateInput) : Prop :=
  ∃ checkedAt reservationId,
    LocalCreateMode.fromInput input checkedAt = .ok (.settle reservationId)

/-- A draft that a request of this mode emits on a node with these hold settings. -/
def LocalCreateMode.Emits (cfg : HoldConfig) (input : LocalCreateInput) (d : EventDraft)
    (mode : LocalCreateMode) : Prop :=
  mode.Drafts input d ∧
    (d.idempotencyNonce = "reserve:" ++ input.idempotencyNonce → mode.MayHold cfg input)

/-- The events of the operation with the key `key`; `M` are the events there are. -/
inductive Yields (M : Event → Prop) : IdemKey → Event → Prop
  | request {n : ν} {input : LocalCreateInput} {checkedAt : ℕ} {mode : LocalCreateMode}
      {d : EventDraft} (eventId : String) (id : ℕ × ℕ) (now : ℕ) (hinput : R input)
      (hmode : LocalCreateMode.fromInput input checkedAt = .ok mode)
      (hd : mode.Emits (env n).hold input d) :
      Yields M input.idempotencyKey (d.event eventId (env n).nodeId id now)
  | deletion {n : ν} (target : String) (reason : Option String) (eventId : String) (id : ℕ × ℕ)
      (now : ℕ) :
      Yields M (bucketDeleteDraft target reason).idempotencyKey
        ((bucketDeleteDraft target reason).event eventId (env n).nodeId id now)
  | correction {n : ν} {key : IdemKey} {winner loser : Event} {d : EventDraft} (eventId : String)
      (id : ℕ × ℕ) (now : ℕ) (hwinner : M winner) (hloser : M loser)
      (hyields : Yields M key winner) (hyields' : Yields M key loser)
      (hkey : winner.idempotencyKey = loser.idempotencyKey) (hd : CorrectionDraft winner loser d) :
      Yields M key (d.event eventId (env n).nodeId id now)

/-- Two operations whose companions have the same key. -/
structure Clash (input input' : LocalCreateInput) : Prop where
  distinct : input.idempotencyKey ≠ input'.idempotencyKey
  nonce : input.idempotencyNonce = input'.idempotencyNonce
  bucket : input.bucket = input'.bucket
  companions :
    input.account = input'.account ∧ input.Holds env ∧ input'.Holds env ∨
    input.account = input'.account ∧ input.Settles ∧ input'.Settles ∨
    ∃ toAddr creditAmount, input.Pays toAddr ∧ input'.Pays toAddr ∧
      checkedAbs input.amount = some creditAmount ∧ checkedAbs input'.amount = some creditAmount

/-- The requests that may be submitted keep the namespaces separate. -/
structure Separate : Prop where
  underived : ∀ input, R input → Underived input.idempotencyNonce
  undeleted : ∀ input, R input → ∀ target reason,
    input.idempotencyKey ≠ (bucketDeleteDraft target reason).idempotencyKey
  settled : ∀ input, R input → input.Settles → ∀ n k, (env n).freshId k ≠ input.idempotencyNonce
  clash : ∀ input input', R input → R input' → ¬ Clash env input input'

end Operations

/-! ## Keys determine operations -/

variable {env : ν → Env D} {R : LocalCreateInput → Prop}

/-- The key of a companion. -/
inductive CompanionKey (env : ν → Env D) (input : LocalCreateInput) : IdemKey → Prop
  | hold (h : input.Holds env) :
      CompanionKey env input
        ("reserve:" ++ input.idempotencyNonce, input.bucket, input.account, 0)
  | credit {toAddr : String} {creditAmount : Int64} (h : input.Pays toAddr)
      (habs : checkedAbs input.amount = some creditAmount) :
      CompanionKey env input
        ("credit:" ++ input.idempotencyNonce, input.bucket, toAddr, creditAmount)
  | release (h : input.Settles) :
      CompanionKey env input
        ("release:" ++ input.idempotencyNonce, input.bucket, input.account, 0)

/-- The keys of the events of an operation, its corrections aside. -/
inductive OperationKey (env : ν → Env D) (R : LocalCreateInput → Prop) : IdemKey → IdemKey → Prop
  | own {input : LocalCreateInput} (h : R input) :
      OperationKey env R input.idempotencyKey input.idempotencyKey
  | companion {input : LocalCreateInput} {key : IdemKey} (h : R input)
      (hkey : CompanionKey env input key) : OperationKey env R input.idempotencyKey key
  | deletion (target : String) (reason : Option String) :
      OperationKey env R (bucketDeleteDraft target reason).idempotencyKey
        (bucketDeleteDraft target reason).idempotencyKey

lemma CompanionKey.derived {input : LocalCreateInput} {key : IdemKey}
    (h : CompanionKey env input key) :
    ∃ p ∈ derivedPrefixes, key.1 = p ++ input.idempotencyNonce := by
  cases h with
  | hold h => exact ⟨_, derived_reserve, rfl⟩
  | credit h habs => exact ⟨_, derived_credit, rfl⟩
  | release h => exact ⟨_, derived_release, rfl⟩

/-- Companions of different operations have different keys. -/
lemma CompanionKey.unique {input input' : LocalCreateInput} {key key' : IdemKey}
    (hclash : ¬ Clash env input input') (h : CompanionKey env input key)
    (h' : CompanionKey env input' key') (hkey : key = key') :
    input.idempotencyKey = input'.idempotencyKey := by
  by_contra hne
  have hcross : ∀ {p q : String}, p ∈ derivedPrefixes → q ∈ derivedPrefixes → p ≠ q →
      p ++ input.idempotencyNonce ≠ q ++ input'.idempotencyNonce :=
    fun hp hq hpq heq => hpq (derived_inj hp hq heq).1
  cases h with
  | hold h =>
      cases h' with
      | hold h' =>
          simp only [Prod.mk.injEq, String.append_right_inj] at hkey
          exact hclash ⟨hne, hkey.1, hkey.2.1, .inl ⟨hkey.2.2.1, h, h'⟩⟩
      | credit h' habs' =>
          exact hcross derived_reserve derived_credit (by decide) (congrArg Prod.fst hkey)
      | release h' =>
          exact hcross derived_reserve derived_release (by decide) (congrArg Prod.fst hkey)
  | credit h habs =>
      cases h' with
      | hold h' =>
          exact hcross derived_credit derived_reserve (by decide) (congrArg Prod.fst hkey)
      | credit h' habs' =>
          simp only [Prod.mk.injEq, String.append_right_inj] at hkey
          obtain ⟨hnonce, hbucket, rfl, rfl⟩ := hkey
          exact hclash ⟨hne, hnonce, hbucket, .inr (.inr ⟨_, _, h, h', habs, habs'⟩)⟩
      | release h' =>
          exact hcross derived_credit derived_release (by decide) (congrArg Prod.fst hkey)
  | release h =>
      cases h' with
      | hold h' =>
          exact hcross derived_release derived_reserve (by decide) (congrArg Prod.fst hkey)
      | credit h' habs' =>
          exact hcross derived_release derived_credit (by decide) (congrArg Prod.fst hkey)
      | release h' =>
          simp only [Prod.mk.injEq, String.append_right_inj] at hkey
          exact hclash ⟨hne, hkey.1, hkey.2.1, .inr (.inl ⟨hkey.2.2.1, h, h'⟩)⟩

/-- A key belongs to one operation. -/
lemma OperationKey.unique (hsep : Separate env R) {op op' key key' : IdemKey}
    (h : OperationKey env R op key) (h' : OperationKey env R op' key') (hkey : key = key') :
    op = op' := by
  have hown : ∀ {input input' : LocalCreateInput} {key : IdemKey}, R input →
      CompanionKey env input' key → input.idempotencyKey ≠ key := by
    intro input input' key hinput hcompanion heq
    obtain ⟨p, hp, hnonce⟩ := hcompanion.derived
    exact (hsep.underived input hinput).ne hp _ (hnonce.symm.trans (congrArg Prod.fst heq.symm))
  have htombstone : ∀ {input : LocalCreateInput} {key : IdemKey} target reason,
      CompanionKey env input key → (bucketDeleteDraft target reason).idempotencyKey ≠ key := by
    intro input key target reason hcompanion heq
    obtain ⟨p, hp, hnonce⟩ := hcompanion.derived
    exact derived_ne_delete hp _ _ (hnonce.symm.trans (congrArg Prod.fst heq.symm))
  cases h with
  | own hinput =>
      cases h' with
      | own hinput' => exact hkey
      | companion hinput' hcompanion => exact absurd hkey (hown hinput hcompanion)
      | deletion target reason => exact absurd hkey (hsep.undeleted _ hinput _ _)
  | companion hinput hcompanion =>
      cases h' with
      | own hinput' => exact absurd hkey.symm (hown hinput' hcompanion)
      | companion hinput' hcompanion' =>
          exact hcompanion.unique (hsep.clash _ _ hinput hinput') hcompanion' hkey
      | deletion target reason => exact absurd hkey.symm (htombstone _ _ hcompanion)
  | deletion target reason =>
      cases h' with
      | own hinput' => exact absurd hkey.symm (hsep.undeleted _ hinput' _ _)
      | companion hinput' hcompanion => exact absurd hkey (htombstone _ _ hcompanion)
      | deletion target' reason' => exact hkey

/-- The drafts of a request have keys of its operation. -/
lemma LocalCreateMode.Emits.operationKey {n : ν} {input : LocalCreateInput} {checkedAt : ℕ}
    {mode : LocalCreateMode} {d : EventDraft} (hinput : R input)
    (hmode : LocalCreateMode.fromInput input checkedAt = .ok mode)
    (hd : mode.Emits (env n).hold input d) :
    OperationKey env R input.idempotencyKey d.idempotencyKey := by
  have hwf := LocalCreateMode.wellFormed_of_fromInput hmode
  obtain ⟨hd, hhold⟩ := hd
  cases mode with
  | charge holdOverride =>
      rcases hd with ⟨hold, _, rfl⟩ | rfl | ⟨toAddr, creditAmount, hto, habs, rfl⟩
      · exact .companion hinput (.hold ⟨n, checkedAt, _, hmode, hhold rfl⟩)
      · exact .own hinput
      · exact .companion hinput (.credit ⟨hto, checkedAt, holdOverride, hmode⟩ habs)
  | reserve =>
      obtain rfl : d = input.reserveDraft := hd
      have hkey : input.reserveDraft.idempotencyKey = input.idempotencyKey := by
        rw [LocalCreateInput.idempotencyKey, hwf.1]
        rfl
      rw [hkey]
      exact .own hinput
  | settle reservationId =>
      rcases hd with rfl | rfl
      · exact .own hinput
      · exact .companion hinput (.release ⟨checkedAt, reservationId, hmode⟩)
  | release reservationId =>
      obtain rfl : d = input.releaseDraft reservationId := hd
      have hkey : (input.releaseDraft reservationId).idempotencyKey = input.idempotencyKey := by
        rw [LocalCreateInput.idempotencyKey, hwf.2]
        rfl
      rw [hkey]
      exact .own hinput

/-- A request emits no voids. -/
lemma LocalCreateMode.Drafts.type_ne_void {input : LocalCreateInput} {mode : LocalCreateMode}
    {d : EventDraft} (h : mode.Drafts input d) : d.type ≠ .void := by
  cases mode with
  | charge holdOverride =>
      rcases h with ⟨_, _, rfl⟩ | rfl | ⟨_, _, _, _, rfl⟩ <;> exact EventType.noConfusion
  | reserve =>
      rcases h with rfl
      exact EventType.noConfusion
  | settle reservationId =>
      rcases h with rfl | rfl <;> exact EventType.noConfusion
  | release reservationId =>
      rcases h with rfl
      exact EventType.noConfusion

/-- The key of a correction belongs to no operation directly. -/
lemma OperationKey.ne_correction (hsep : Separate env R) {op key : IdemKey}
    (h : OperationKey env R op key) {winner loser : Event} {d : EventDraft}
    (hd : CorrectionDraft winner loser d) (hloser : ∃ n k, loser.eventId = (env n).freshId k) :
    key ≠ d.idempotencyKey := by
  obtain ⟨p, hp, hnonce⟩ : ∃ p ∈ derivedPrefixes, d.idempotencyNonce = p ++ loser.eventId := by
    rcases hd with rfl | rfl
    · exact ⟨_, derived_void, rfl⟩
    · exact ⟨_, derived_release, rfl⟩
  intro hkey
  have heq : key.1 = p ++ loser.eventId := (congrArg Prod.fst hkey).trans hnonce
  cases h with
  | own hinput => exact (hsep.underived _ hinput).ne hp _ heq.symm
  | deletion target reason => exact derived_ne_delete hp _ _ heq.symm
  | companion hinput hcompanion =>
      cases hcompanion with
      | hold h =>
          obtain ⟨rfl, -⟩ := derived_inj derived_reserve hp heq
          rcases hd with rfl | rfl <;>
            exact absurd (derived_inj (by decide) (by decide) hnonce).1 (by decide)
      | credit h habs =>
          obtain ⟨rfl, -⟩ := derived_inj derived_credit hp heq
          rcases hd with rfl | rfl <;>
            exact absurd (derived_inj (by decide) (by decide) hnonce).1 (by decide)
      | release h =>
          obtain ⟨-, hid⟩ := derived_inj derived_release hp heq
          obtain ⟨n, k, hk⟩ := hloser
          exact hsep.settled _ hinput h n k (hk.symm.trans hid.symm)

/-- The keys of corrections show what has been corrected. -/
lemma CorrectionDraft.loser_eventId {winner loser winner' loser' : Event} {d d' : EventDraft}
    (hd : CorrectionDraft winner loser d) (hd' : CorrectionDraft winner' loser' d')
    (h : d.idempotencyKey = d'.idempotencyKey) : loser.eventId = loser'.eventId := by
  have hnonce : d.idempotencyNonce = d'.idempotencyNonce := congrArg Prod.fst h
  rcases hd with rfl | rfl <;> rcases hd' with rfl | rfl <;>
    exact (derived_inj (by decide) (by decide) hnonce).2

section Yields

variable {M : Event → Prop} {op op' : IdemKey} {e e' : Event}

/-- An event of an operation is one of its own, or a correction. -/
lemma Yields.operationKey (h : Yields env R M op e) :
    OperationKey env R op e.idempotencyKey ∨
      ∃ winner loser d, M loser ∧ CorrectionDraft winner loser d ∧ Yields env R M op loser ∧
        e.idempotencyKey = d.idempotencyKey := by
  cases h with
  | request eventId id now hinput hmode hd => exact .inl (hd.operationKey hinput hmode)
  | deletion target reason eventId id now => exact .inl (.deletion target reason)
  | @correction n key winner loser d eventId id now hwinner hloser hyields hyields' hkey hd =>
      exact .inr ⟨winner, loser, d, hloser, hd, hyields', rfl⟩

/-- **Events of different operations have different keys.** -/
theorem Yields.unique (hsep : Separate env R)
    (hids : ∀ e, M e → ∃ n k, e.eventId = (env n).freshId k)
    (hinj : ∀ e e', M e → M e' → e.eventId = e'.eventId → e = e')
    (h : Yields env R M op e) (h' : Yields env R M op' e')
    (hkey : e.idempotencyKey = e'.idempotencyKey) : op = op' := by
  induction h generalizing op' e' with
  | request eventId id now hinput hmode hd =>
      rcases h'.operationKey with hop' | ⟨winner, loser, d', hloser, hd', -, hkey'⟩
      · exact (hd.operationKey hinput hmode).unique hsep hop' hkey
      · exact absurd (hkey.trans hkey')
          ((hd.operationKey hinput hmode).ne_correction hsep hd' (hids _ hloser))
  | deletion target reason eventId id now =>
      rcases h'.operationKey with hop' | ⟨winner, loser, d', hloser, hd', -, hkey'⟩
      · exact (OperationKey.deletion target reason).unique hsep hop' hkey
      · exact absurd (hkey.trans hkey')
          ((OperationKey.deletion target reason).ne_correction hsep hd' (hids _ hloser))
  | @correction n key winner loser d eventId id now hwinner hloser hyields hyields' hconf hd ih
      ih' =>
      rcases h'.operationKey with hop' | ⟨winner', loser', d', hloser', hd', hloser'', hkey'⟩
      · exact absurd hkey.symm (hop'.ne_correction hsep hd (hids _ hloser))
      · obtain rfl := hinj loser loser' hloser hloser' (hd.loser_eventId hd' (hkey.trans hkey'))
        exact ih' hloser'' rfl

/-- Whatever has the key of a request is yielded by its operation. -/
theorem Yields.eq_of_own (hsep : Separate env R)
    (hids : ∀ e, M e → ∃ n k, e.eventId = (env n).freshId k) {input : LocalCreateInput}
    (hinput : R input) (h : Yields env R M op e) (hkey : e.idempotencyKey = input.idempotencyKey) :
    op = input.idempotencyKey := by
  rcases h.operationKey with hop | ⟨winner, loser, d, hloser, hd, -, hkey'⟩
  · exact hop.unique hsep (.own hinput) hkey
  · exact absurd (hkey.symm.trans hkey')
      ((OperationKey.own hinput).ne_correction hsep hd (hids _ hloser))

lemma Yields.mono {M' : Event → Prop} (hM : ∀ e, M e → M' e) (h : Yields env R M op e) :
    Yields env R M' op e := by
  induction h with
  | request eventId id now hinput hmode hd => exact .request eventId id now hinput hmode hd
  | deletion target reason eventId id now => exact .deletion target reason eventId id now
  | correction eventId id now hwinner hloser _ _ hkey hd ih ih' =>
      exact .correction eventId id now (hM _ hwinner) (hM _ hloser) ih ih' hkey hd

end Yields

end Shardd
