import Shardd.Lib.Zoom
import Shardd.Node.Acts
import Shardd.Node.Rules

/-!
# Rules for concurrent requests

`CreateRules` lists what has to be shown of a judgement `At`, one rule for each thing a request does
between its suspensions, so that a request keeps a contract from its first step to its last
(`wp_createLocalEvents`).  The judgement speaks of the state in which the running segment began and
of the present one.  It depends on the identities the request has allocated and not yet used, and on
how far the request has got.

`CreateFrame` lists the rules for what all requests do, whatever their branch: with it a branch can
be taken on its own (`wp_createLocalEvents_of`), where it matters what the branch has checked.

The node may be a part of a larger state, as in a network.
-/

namespace Shardd

variable {D : Type}

/-- How far a request has got. -/
inductive CreateStage
  | idle
  | locked
  /-- The cache does not know the key. -/
  | missing
  | asked (rows : List Event)
  | found (e : Event)
  /-- The events have been minted; `credit` is the receiving account while its lock is held. -/
  | working (credit : Option BalanceKey) (es : List Event)
  | done (r : Except CreateLocalEventError LocalCreateResult)

namespace CreateStage

/-- What the request may send to the batch writer. -/
def events : CreateStage → List Event
  | working _ es => es
  | _ => []

/-- The stage in which the body of a request ends with a result. -/
def Ends (input : LocalCreateInput) :
    CreateStage → Except CreateLocalEventError LocalCreateResult → Prop
  | found e, .ok r => r = { primaryEvent := e, emittedEvents := [] }
  | working none es, .ok r =>
      r.emittedEvents = es ∧ r.primaryEvent ∈ es ∧
        r.primaryEvent.idempotencyKey = input.idempotencyKey
  | working none _, .error _ => True
  | _, _ => False

end CreateStage

/-- The key the event of a draft will have. -/
def EventDraft.idempotencyKey (d : EventDraft) : IdemKey :=
  (d.idempotencyNonce, d.key.1, d.key.2, d.amount)

@[simp] lemma EventDraft.idempotencyKey_event (d : EventDraft) (eventId nodeId : String)
    (id : ℕ × ℕ) (now : ℕ) :
    (d.event eventId nodeId id now).idempotencyKey = d.idempotencyKey := rfl

/-- The winner is one of the rows. -/
lemma mem_of_canonicalWinner {rows : List Event} {e : Event} (h : canonicalWinner rows = some e) :
    e ∈ rows := by
  cases rows with
  | nil => cases h
  | cons x rest =>
      have hfold : ∀ (rest : List Event) (best : Event),
          rest.foldl (fun best e' => if e'.beats best then e' else best) best ∈ best :: rest := by
        intro rest
        induction rest with
        | nil => exact fun best => List.mem_cons_self
        | cons y rest ih =>
            intro best
            rw [List.foldl_cons]
            split
            · exact List.mem_cons_of_mem _ (ih y)
            · rcases List.mem_cons.1 (ih best) with h | h
              · rw [h]
                exact List.mem_cons_self
              · exact List.mem_cons_of_mem _ (List.mem_cons_of_mem _ h)
      rw [← Option.some.inj h]
      exact hfold rest x

/-- A request of this mode may be given a hold, on a node with these hold settings. -/
def LocalCreateMode.MayHold (cfg : HoldConfig) (input : LocalCreateInput) :
    LocalCreateMode → Prop
  | .charge (some hold) => 0 < hold.1
  | .charge none => input.amount < 0 ∧ 0 < cfg.multiplier
  | _ => False

lemma LocalCreateMode.mayHold_of_chargeHold {cfg : HoldConfig} {input : LocalCreateInput}
    {acc : AccountState} {nodeId : String} {maxOverdraft : UInt64} {now : ℕ}
    {holdOverride : Option (UInt64 × ℕ)}
    (h : 0 < (chargeHold acc nodeId cfg input.amount maxOverdraft now holdOverride).1) :
    (LocalCreateMode.charge holdOverride).MayHold cfg input := by
  cases holdOverride with
  | some hold => exact h
  | none =>
      refine not_not.1 fun hraw => ?_
      have hzero : rawHold cfg input.amount = 0 := if_neg hraw
      have hle : ∀ x : UInt64, 0 ≤ x := fun x => UInt64.le_iff_toNat_le.2 (Nat.zero_le _)
      simp [chargeHold, hzero, saturatingSub, hle] at h

/-- The request is dispatched to a transfer to `toAddr`. -/
def LocalCreateInput.Pays (input : LocalCreateInput) (toAddr : String) : Prop :=
  input.transferTo = some toAddr ∧
    ∃ checkedAt holdOverride, LocalCreateMode.fromInput input checkedAt = .ok (.charge holdOverride)

section

variable {τ κ : Type} (ready : κ → τ → Bool) (enter : ℕ → τ → τ) (K : Contract τ κ)
  (C : κ → τ → Prop) (i : ℕ) (L : Lens τ (SharedState D)) (lab : Wait → κ) (env : Env D)

/-- What one step of a request outside its branch has to do for the judgement. -/
structure CreateFrame (input : LocalCreateInput)
    (At : List (ℕ × ℕ) → CreateStage → τ → τ → Prop) : Prop where
  rest : ∀ {st l s₀ s}, l.Free → At [] st s₀ s →
    K.Rests ready enter C i (lab l) (At [] st) s₀ s
  noted : ∀ {st s₀ s s'}, At [] st s₀ s → (L.get s).Noted st.events s' →
    At [] st s₀ (L.set s' s)
  refuse : ∀ {s₀ s} err, At [] .idle s₀ s → At [] (.done (.error err)) s₀ s
  lock : ∀ {s₀ s}, At [] .idle s₀ s →
    K.Rests ready enter C i (lab (.account input.balanceKey))
      (fun s₀ s => At [] .locked s₀ (L.set ((L.get s).lockAccount input.balanceKey) s)) s₀
      (L.set ((L.get s).ensureAccount input.balanceKey) s)
  hit : ∀ {e s₀ s}, At [] .locked s₀ s →
    (L.get s).idempotencyCache input.idempotencyKey = some e → At [] (.found e) s₀ s
  miss : ∀ {s₀ s}, At [] .locked s₀ s →
    (L.get s).idempotencyCache input.idempotencyKey = none → At [] .missing s₀ s
  ask : ∀ {s₀ s}, At [] .missing s₀ s →
    At [] (.asked ((L.get s).storage.findByIdempotencyKey input.idempotencyKey)) s₀ s
  reload : ∀ {rows e s₀ s}, At [] (.asked rows) s₀ s → canonicalWinner rows = some e →
    At [] (.found e) s₀ (L.set ((L.get s).remember input.idempotencyKey e) s)
  unknown : ∀ {rows s₀ s}, At [] (.asked rows) s₀ s → canonicalWinner rows = none →
    At [] (.working none []) s₀ s
  unanswered : ∀ {s₀ s}, At [] .missing s₀ s → At [] (.working none []) s₀ s
  unlock : ∀ {st r s₀ s}, At [] st s₀ s → st.Ends input r →
    At [] (.done r) s₀ (L.set ((L.get s).unlockAccount input.balanceKey) s)

/-- What one step of a request has to do for the judgement. -/
structure CreateRules (input : LocalCreateInput)
    (At : List (ℕ × ℕ) → CreateStage → τ → τ → Prop) : Prop
    extends CreateFrame ready enter K C i L lab input At where
  allocate : ∀ {ids credit es s₀ s}, At ids (.working credit es) s₀ s →
    ((allocate env input.bucket).run.zoom L lab).wp ready enter K C i
      (fun r => match r with
        | .ok id => At (ids ++ [id]) (.working credit es)
        | .error _ => At [] (.working credit es)) s₀ s
  mint : ∀ {id credit es s₀ s checkedAt mode} now d, At [id] (.working credit es) s₀ s →
    LocalCreateMode.fromInput input checkedAt = .ok mode → mode.Drafts input d →
    d.key = credit.getD input.balanceKey →
    (∀ e ∈ es, e.idempotencyNonce ≠ d.idempotencyNonce) →
    (d.idempotencyNonce = "reserve:" ++ input.idempotencyNonce → mode.MayHold env.hold input) →
    let e := d.event (env.freshId (L.get s).idsDrawn) env.nodeId id now
    At [] (.working credit (es ++ [e])) s₀ (L.set (((L.get s).built e).applyLocal e) s)
  settle : ∀ {id id' s₀ s checkedAt reservationId} now, At [id, id'] (.working none []) s₀ s →
    LocalCreateMode.fromInput input checkedAt = .ok (.settle reservationId) →
    let charge := input.captureDraft.event (env.freshId (L.get s).idsDrawn) env.nodeId id now
    let release := (input.settleReleaseDraft reservationId).event
      (env.freshId ((L.get s).idsDrawn + 1)) env.nodeId id' now
    At [] (.working none [charge, release]) s₀
      (L.set (((((L.get s).built charge).built release).applyLocal charge).applyLocal release) s)
  lockCredit : ∀ {es s₀ s toAddr}, At [] (.working none es) s₀ s → input.Pays toAddr →
    K.Rests ready enter C i (lab (.account (input.bucket, toAddr)))
      (fun s₀ s => At [] (.working (some (input.bucket, toAddr)) es) s₀
        (L.set ((L.get s).lockAccount (input.bucket, toAddr)) s)) s₀
      (L.set ((L.get s).ensureAccount (input.bucket, toAddr)) s)
  unlockCredit : ∀ {es key s₀ s}, At [] (.working (some key) es) s₀ s →
    At [] (.working none es) s₀ (L.set ((L.get s).unlockAccount key) s)

end

/-- The request stands where its body ends with `r`. -/
def CreateRules.Body {τ : Type} (input : LocalCreateInput)
    (At : List (ℕ × ℕ) → CreateStage → τ → τ → Prop)
    (r : Except CreateLocalEventError LocalCreateResult) (s₀ s : τ) : Prop :=
  ∃ st, At [] st s₀ s ∧ st.Ends input r

section

variable {τ κ : Type} {ready : κ → τ → Bool} {enter : ℕ → τ → τ} {K : Contract τ κ}
  {C : κ → τ → Prop} {i : ℕ} {L : Lens τ (SharedState D)} {lab : Wait → κ} {env : Env D}
  {input : LocalCreateInput} {At : List (ℕ × ℕ) → CreateStage → τ → τ → Prop} {s₀ s : τ}

namespace CreateFrame

/-! ## Steps -/

/-- Programs of bookkeeping leave a request where it is. -/
lemma wp_of_noted {α : Type} {st : CreateStage} {es : List Event} {t : NodeM D α}
    (h : CreateFrame ready enter K C i L lab input At)
    (ht : t.Only (SharedState.Noted es) Wait.Free) (hes : ∀ e ∈ es, e ∈ st.events)
    (hs : At [] st s₀ s) :
    (t.zoom L lab).wp ready enter K C i (fun _ => At [] st) s₀ s := by
  apply Proc.wp_zoom_of_only (R := SharedState.Noted es) (W := Wait.Free) _ _ ht hs
  · intro s₀ s s' hs hnoted
    exact h.noted hs (hnoted.mono hes)
  · intro l s₀ s hl hs
    exact h.rest hl hs

lemma wp_nowMs {st : CreateStage} (h : CreateFrame ready enter K C i L lab input At)
    (hs : At [] st s₀ s) :
    ((nowMs env).zoom L lab).wp ready enter K C i (fun _ => At [] st) s₀ s := by
  apply h.wp_of_noted (only_nowMs env) _ hs
  intro e he
  cases he

lemma wp_flushLocalEvents {es : List Event}
    (h : CreateFrame ready enter K C i L lab input At) (hs : At [] (.working none es) s₀ s) :
    ((flushLocalEvents env es).zoom L lab).wp ready enter K C i
      (fun _ => At [] (.working none es)) s₀ s := by
  apply h.wp_of_noted (only_flushLocalEvents env es) _ hs
  intro e he
  exact he

/-- The look-up of a request. -/
lemma wp_findExisting (h : CreateFrame ready enter K C i L lab input At)
    (hs : At [] .locked s₀ s) :
    ((findExisting env input.idempotencyKey).zoom L lab).wp ready enter K C i
      (fun r => match r with
        | some e => At [] (.found e)
        | none => At [] (.working none [])) s₀ s := by
  unfold findExisting
  apply Proc.wp_zoom_bind
  rw [Proc.wp_zoom_read]
  rcases hcache : (L.get s).idempotencyCache input.idempotencyKey with _ | e
  · have hmissing := h.miss hs hcache
    apply Proc.wp_zoom_bind
    unfold storageCall
    apply Proc.wp_zoom_bind
    apply Proc.wp_zoom_suspend
    refine (h.rest (Wait.free_request _) hmissing).mono fun s₁ s hs => ?_
    apply Proc.wp_zoom_bind
    rw [Proc.wp_zoom_readUpdate]
    have hcalled := h.noted hs ((noted_callStorage env
      (f := fun st => (st.findByIdempotencyKey input.idempotencyKey, st)) (fun _ => rfl)
      (fun _ => rfl) (L.get s)))
    have hasked := h.noted (h.ask hs) (noted_callStorage env
      (f := fun st => (st.findByIdempotencyKey input.idempotencyKey, st)) (fun _ => rfl)
      (fun _ => rfl) (L.get s))
    have hrows : ∀ rows, ((L.get s).callStorage env fun st =>
        (st.findByIdempotencyKey input.idempotencyKey, st)).1 = .ok rows →
        rows = (L.get s).storage.findByIdempotencyKey input.idempotencyKey := by
      intro rows hr
      exact SharedState.of_callStorage_ok env hr
    rcases hanswer : ((L.get s).callStorage env fun st =>
      (st.findByIdempotencyKey input.idempotencyKey, st)).1 with err | rows
    · apply Proc.wp_zoom_bind
      apply Proc.wp_zoom_suspend
      exact (h.rest (Wait.free_response _ _) hcalled).mono fun s₀ s hs => h.unanswered hs
    · rw [← hrows rows hanswer] at hasked
      apply Proc.wp_zoom_bind
      apply Proc.wp_zoom_suspend
      refine (h.rest (Wait.free_response _ _) hasked).mono fun s₀ s hs => ?_
      rw [Proc.wp_zoom_pure]
      dsimp only
      rcases hwinner : canonicalWinner rows with _ | e
      · exact h.unknown hs hwinner
      · exact h.reload hs hwinner
  · exact h.hit hs hcache

/-! ## The request -/

/-- **A request keeps a contract** whose rules its steps obey, if its branch does. -/
theorem wp_createLocalEvents_of (h : CreateFrame ready enter K C i L lab input At)
    (hbranch : ∀ {checkedAt mode s₀ s}, LocalCreateMode.fromInput input checkedAt = .ok mode →
      At [] (.working none []) s₀ s →
      ((do
          let now ← (nowMs env : NodeM D ℕ)
          emitLocked env input now mode :
        ExceptT CreateLocalEventError (NodeM D) LocalCreateResult).run.zoom L lab).wp ready enter
        K C i (CreateRules.Body input At) s₀ s)
    (hs : At [] .idle s₀ s) :
    ((createLocalEvents env input).run.zoom L lab).wp ready enter K C i
      (fun r => At [] (.done r)) s₀ s := by
  unfold createLocalEvents
  dsimp only
  split
  · exact h.refuse _ hs
  · apply Proc.wp_zoom_run_bind
    apply Proc.wp_zoom_run_lift
    rw [Proc.wp_zoom_read]
    dsimp only
    split
    · exact h.refuse _ hs
    · apply Proc.wp_zoom_run_bind
      apply Proc.wp_zoom_run_lift
      refine Proc.wp_mono (fun checkedAt s₀ s hs => ?_) (h.wp_nowMs hs)
      apply Proc.wp_zoom_run_bind
      rcases hmode : LocalCreateMode.fromInput input checkedAt with err | mode
      · exact h.refuse _ hs
      · change ((withAccount input.balanceKey _).zoom L lab).wp ready enter K C i _ s₀ s
        unfold withAccount
        apply Proc.wp_zoom_bind
        rw [Proc.wp_zoom_update]
        apply Proc.wp_zoom_bind
        apply Proc.wp_zoom_suspend
        refine (h.lock hs).mono fun s₀ s hs => ?_
        apply Proc.wp_zoom_bind
        rw [Proc.wp_zoom_update]
        apply Proc.wp_zoom_bind
        refine Proc.wp_mono (Q := CreateRules.Body input At) (fun r s₀ s hr => ?_) ?_
        · obtain ⟨st, hs, hends⟩ := hr
          exact h.unlock hs hends
        · apply Proc.wp_zoom_run_bind
          apply Proc.wp_zoom_run_lift
          refine Proc.wp_mono (fun r s₀ s hr => ?_) (h.wp_findExisting hs)
          cases r with
          | some e => exact ⟨_, hr, rfl⟩
          | none => exact hbranch hmode hr

end CreateFrame

namespace CreateRules

/-! ## Allocating and minting -/

/-- Allocating in a branch; the reading of the balance only matters for the error. -/
lemma wp_allocateFor (h : CreateRules ready enter K C i L lab env input At) {ids : List (ℕ × ℕ)}
    {credit : Option BalanceKey} {es : List Event} {key : BalanceKey} (now : ℕ)
    (hkey : key.1 = input.bucket) (hs : At ids (.working credit es) s₀ s) :
    ((allocateFor env key now).run.zoom L lab).wp ready enter K C i
      (fun r => match r with
        | .ok id => At (ids ++ [id]) (.working credit es)
        | .error _ => At [] (.working credit es)) s₀ s := by
  unfold allocateFor
  apply Proc.wp_zoom_run_bind
  apply Proc.wp_zoom_run_lift
  unfold readAccount
  rw [Proc.wp_zoom_read]
  unfold allocateOrFail
  apply Proc.wp_zoom_bind
  rw [hkey]
  refine Proc.wp_mono (fun r s₀ s hr => ?_) (h.allocate hs)
  cases r with
  | ok id => exact hr
  | error e => exact hr

/-- Minting in a branch. -/
lemma wp_mintLocal (h : CreateRules ready enter K C i L lab env input At)
    {credit : Option BalanceKey} {es : List Event} {checkedAt : ℕ} {mode : LocalCreateMode}
    (now : ℕ) {d : EventDraft}
    (hmode : LocalCreateMode.fromInput input checkedAt = .ok mode) (hd : mode.Drafts input d)
    (hkey : d.key = credit.getD input.balanceKey)
    (hfresh : ∀ e ∈ es, e.idempotencyNonce ≠ d.idempotencyNonce)
    (hhold : d.idempotencyNonce = "reserve:" ++ input.idempotencyNonce →
      mode.MayHold env.hold input)
    (hs : At [] (.working credit es) s₀ s) :
    ((mintLocal env now d).run.zoom L lab).wp ready enter K C i
      (fun r s₀ s => match r with
        | .ok e => At [] (.working credit (es ++ [e])) s₀ s ∧ e.idempotencyKey = d.idempotencyKey
        | .error _ => At [] (.working credit es) s₀ s) s₀ s := by
  unfold mintLocal
  apply Proc.wp_zoom_run_bind
  refine Proc.wp_mono (fun r s₀ s hr => ?_) (h.wp_allocateFor now hd.bucket hs)
  cases r with
  | error e => exact hr
  | ok id =>
      apply Proc.wp_zoom_run_bind
      apply Proc.wp_zoom_run_lift
      unfold buildEvent
      rw [Proc.wp_zoom_readUpdate]
      apply Proc.wp_zoom_run_bind
      apply Proc.wp_zoom_run_lift
      rw [Proc.wp_zoom_update, Lens.get_set, Lens.set_set]
      exact ⟨h.mint now d hr hmode hd hkey hfresh hhold, rfl⟩

/-! ## Branches -/

lemma reserve_ne (nonce : String) : "reserve:" ++ nonce ≠ nonce := by
  intro h
  have := congrArg String.length h
  simp at this

lemma credit_ne (nonce : String) : nonce ≠ "credit:" ++ nonce := by
  intro h
  have := congrArg String.length h
  simp at this

lemma reserve_ne_credit (nonce : String) : "reserve:" ++ nonce ≠ "credit:" ++ nonce := by
  intro h
  have hlength := congrArg String.length h
  rw [String.length_append, String.length_append] at hlength
  exact absurd (Nat.add_right_cancel hlength) (by decide)

/-- The hold of a charge. -/
lemma wp_emitHold (h : CreateRules ready enter K C i L lab env input At) {checkedAt : ℕ}
    {holdOverride : Option (UInt64 × ℕ)} (now : ℕ) {hold : UInt64 × ℕ}
    (hmode : LocalCreateMode.fromInput input checkedAt = .ok (.charge holdOverride))
    (hhold : 0 < hold.1 → (LocalCreateMode.charge holdOverride).MayHold env.hold input)
    (hs : At [] (.working none []) s₀ s) :
    ((emitHold env input now hold).run.zoom L lab).wp ready enter K C i
      (fun r s₀ s => match r with
        | .ok held => At [] (.working none held) s₀ s ∧
            ∀ e ∈ held, e.idempotencyNonce = "reserve:" ++ input.idempotencyNonce
        | .error _ => At [] (.working none []) s₀ s) s₀ s := by
  unfold emitHold
  split
  · rename_i hpos
    apply Proc.wp_zoom_run_bind
    refine Proc.wp_mono (fun r s₀ s hr => ?_) (h.wp_mintLocal now hmode
      (.inl ⟨hold, hpos, rfl⟩) rfl (fun e he => absurd he List.not_mem_nil)
      (fun _ => hhold hpos) hs)
    cases r with
    | error e => exact hr
    | ok e =>
        refine ⟨hr.1, fun x hx => ?_⟩
        rw [List.mem_singleton.1 hx]
        exact congrArg Prod.fst hr.2
  · exact ⟨hs, fun e he => absurd he List.not_mem_nil⟩

/-- The credit side of a transfer, lock and all. -/
lemma wp_emitCredit (h : CreateRules ready enter K C i L lab env input At) {checkedAt : ℕ}
    {holdOverride : Option (UInt64 × ℕ)} {es : List Event} (now : ℕ) {toAddr : String}
    (hmode : LocalCreateMode.fromInput input checkedAt = .ok (.charge holdOverride))
    (hto : input.transferTo = some toAddr)
    (hfresh : ∀ e ∈ es, e.idempotencyNonce ≠ "credit:" ++ input.idempotencyNonce)
    (hs : At [] (.working none es) s₀ s) :
    ((emitCredit env input now toAddr).run.zoom L lab).wp ready enter K C i
      (fun r s₀ s => match r with
        | .ok credited => At [] (.working none (es ++ credited)) s₀ s
        | .error _ => ∃ es, At [] (.working none es) s₀ s) s₀ s := by
  unfold emitCredit withAccount
  rw [ExceptT.run_mk]
  apply Proc.wp_zoom_bind
  rw [Proc.wp_zoom_update]
  apply Proc.wp_zoom_bind
  apply Proc.wp_zoom_suspend
  refine (h.lockCredit hs ⟨hto, checkedAt, holdOverride, hmode⟩).mono fun s₀ s hs => ?_
  apply Proc.wp_zoom_bind
  rw [Proc.wp_zoom_update]
  apply Proc.wp_zoom_bind
  split
  · exact ⟨es, h.unlockCredit hs⟩
  · rename_i creditAmount habs
    apply Proc.wp_zoom_run_bind
    refine Proc.wp_mono (fun r s₀ s hr => ?_) (h.wp_mintLocal now hmode
      (.inr (.inr ⟨toAddr, creditAmount, hto, habs, rfl⟩)) rfl hfresh
      (fun heq => absurd heq.symm (reserve_ne_credit _)) hs)
    cases r with
    | error e => exact ⟨es, h.unlockCredit hr⟩
    | ok e => exact h.unlockCredit hr.1

/-- A charge, a credit or a transfer. -/
lemma wp_emitChargeLocked (h : CreateRules ready enter K C i L lab env input At) {checkedAt : ℕ}
    {holdOverride : Option (UInt64 × ℕ)} (now : ℕ)
    (hmode : LocalCreateMode.fromInput input checkedAt = .ok (.charge holdOverride))
    (hs : At [] (.working none []) s₀ s) :
    ((emitChargeLocked env input now holdOverride).run.zoom L lab).wp ready enter K C i
      (Body input At) s₀ s := by
  unfold emitChargeLocked readAccount
  apply Proc.wp_zoom_run_bind
  apply Proc.wp_zoom_run_lift
  rw [Proc.wp_zoom_read]
  dsimp only
  split
  · exact ⟨_, hs, trivial⟩
  · apply Proc.wp_zoom_run_bind
    refine Proc.wp_mono (fun r s₀ s hr => ?_)
      (h.wp_emitHold now hmode LocalCreateMode.mayHold_of_chargeHold hs)
    cases r with
    | error e => exact ⟨_, hr, trivial⟩
    | ok held =>
        obtain ⟨hs, hheld⟩ := hr
        apply Proc.wp_zoom_run_bind
        refine Proc.wp_mono (fun r s₀ s hr => ?_) (h.wp_mintLocal now hmode (.inr (.inl rfl)) rfl
          (fun e he => by rw [hheld e he]; exact reserve_ne _)
          (fun heq => absurd heq.symm (reserve_ne _)) hs)
        cases r with
        | error e => exact ⟨_, hr, trivial⟩
        | ok charge =>
            obtain ⟨hs, hkey⟩ := hr
            have hfresh : ∀ e ∈ held ++ [charge],
                e.idempotencyNonce ≠ "credit:" ++ input.idempotencyNonce := by
              intro e he
              rcases List.mem_append.1 he with he | he
              · rw [hheld e he]
                exact reserve_ne_credit _
              · have hnonce : charge.idempotencyNonce = input.idempotencyNonce :=
                  congrArg Prod.fst hkey
                rw [List.mem_singleton.1 he, hnonce]
                exact credit_ne _
            have hcredited : ((emitTransfer env input now).run.zoom L lab).wp ready enter K C i
                (fun r s₀ s => match r with
                  | .ok credited => At [] (.working none (held ++ [charge] ++ credited)) s₀ s
                  | .error _ => ∃ es, At [] (.working none es) s₀ s) s₀ s := by
              unfold emitTransfer
              split
              · rename_i toAddr hto
                exact h.wp_emitCredit now hmode hto hfresh hs
              · rw [Proc.wp_zoom_run_pure]
                dsimp only
                rw [List.append_nil]
                exact hs
            apply Proc.wp_zoom_run_bind
            refine Proc.wp_mono (fun r s₀ s hr => ?_) hcredited
            cases r with
            | error e =>
                obtain ⟨es, hs⟩ := hr
                exact ⟨_, hs, trivial⟩
            | ok credited =>
                apply Proc.wp_zoom_run_bind
                apply Proc.wp_zoom_run_lift
                refine Proc.wp_mono (fun _ s₀ s hs => ?_) (h.wp_flushLocalEvents hr)
                exact ⟨_, hs, rfl, by simp, hkey⟩

/-- A branch that mints one event. -/
lemma wp_emitOne (h : CreateRules ready enter K C i L lab env input At) {checkedAt : ℕ}
    {mode : LocalCreateMode} (now : ℕ) {d : EventDraft}
    (hmode : LocalCreateMode.fromInput input checkedAt = .ok mode) (hd : mode.Drafts input d)
    (hkey : d.key = input.balanceKey) (hidem : d.idempotencyKey = input.idempotencyKey)
    (hs : At [] (.working none []) s₀ s) :
    ((do
        let e ← mintLocal env now d
        (flushLocalEvents env [e] : NodeM D Unit)
        return { primaryEvent := e, emittedEvents := [e] } :
      ExceptT CreateLocalEventError (NodeM D) LocalCreateResult).run.zoom L lab).wp ready enter K C
      i (Body input At) s₀ s := by
  apply Proc.wp_zoom_run_bind
  refine Proc.wp_mono (fun r s₀ s hr => ?_) (h.wp_mintLocal now hmode hd (by exact hkey)
    (fun e he => absurd he List.not_mem_nil)
    (fun heq => absurd (heq.symm.trans (congrArg Prod.fst hidem)) (reserve_ne _)) hs)
  cases r with
  | error e => exact ⟨_, hr, trivial⟩
  | ok e =>
      obtain ⟨hs, he⟩ := hr
      apply Proc.wp_zoom_run_bind
      apply Proc.wp_zoom_run_lift
      refine Proc.wp_mono (fun _ s₀ s hs => ?_) (h.wp_flushLocalEvents hs)
      exact ⟨_, hs, rfl, List.mem_singleton.2 rfl, he.trans hidem⟩

lemma wp_emitReserveLocked (h : CreateRules ready enter K C i L lab env input At) {checkedAt : ℕ}
    (now : ℕ) (hmode : LocalCreateMode.fromInput input checkedAt = .ok .reserve)
    (hs : At [] (.working none []) s₀ s) :
    ((emitReserveLocked env input now).run.zoom L lab).wp ready enter K C i
      (Body input At) s₀ s := by
  unfold emitReserveLocked readAccount
  apply Proc.wp_zoom_run_bind
  apply Proc.wp_zoom_run_lift
  rw [Proc.wp_zoom_read]
  dsimp only
  split
  · exact ⟨_, hs, trivial⟩
  · refine h.wp_emitOne now hmode rfl rfl ?_ hs
    have hamount := (LocalCreateMode.wellFormed_of_fromInput hmode).1
    rw [LocalCreateInput.idempotencyKey, hamount]
    rfl

lemma wp_emitReleaseLocked (h : CreateRules ready enter K C i L lab env input At) {checkedAt : ℕ}
    {reservationId : String} (now : ℕ)
    (hmode : LocalCreateMode.fromInput input checkedAt = .ok (.release reservationId))
    (hs : At [] (.working none []) s₀ s) :
    ((emitReleaseLocked env input now reservationId).run.zoom L lab).wp ready enter K C i
      (Body input At) s₀ s := by
  unfold emitReleaseLocked readAccount
  apply Proc.wp_zoom_run_bind
  apply Proc.wp_zoom_run_lift
  rw [Proc.wp_zoom_read]
  dsimp only
  split
  · exact ⟨_, hs, trivial⟩
  · refine h.wp_emitOne now hmode rfl rfl ?_ hs
    have hamount := (LocalCreateMode.wellFormed_of_fromInput hmode).2
    rw [LocalCreateInput.idempotencyKey, hamount]
    rfl

/-- A settle: both identities first, then both events. -/
lemma wp_emitSettleLocked (h : CreateRules ready enter K C i L lab env input At) {checkedAt : ℕ}
    {reservationId : String} (now : ℕ)
    (hmode : LocalCreateMode.fromInput input checkedAt = .ok (.settle reservationId))
    (hs : At [] (.working none []) s₀ s) :
    ((emitSettleLocked env input now reservationId).run.zoom L lab).wp ready enter K C i
      (Body input At) s₀ s := by
  unfold emitSettleLocked readAccount
  apply Proc.wp_zoom_run_bind
  apply Proc.wp_zoom_run_lift
  rw [Proc.wp_zoom_read]
  dsimp only
  split
  · exact ⟨_, hs, trivial⟩
  · apply Proc.wp_zoom_run_bind
    refine Proc.wp_mono (fun r s₀ s hr => ?_) (h.wp_allocateFor now rfl hs)
    cases r with
    | error e => exact ⟨_, hr, trivial⟩
    | ok id =>
        apply Proc.wp_zoom_run_bind
        refine Proc.wp_mono (fun r s₀ s hr => ?_) (h.wp_allocateFor now rfl hr)
        cases r with
        | error e => exact ⟨_, hr, trivial⟩
        | ok id' =>
            have hsettled := h.settle now hr hmode
            apply Proc.wp_zoom_run_bind
            apply Proc.wp_zoom_run_lift
            unfold buildEvent
            rw [Proc.wp_zoom_readUpdate]
            apply Proc.wp_zoom_run_bind
            apply Proc.wp_zoom_run_lift
            rw [Proc.wp_zoom_readUpdate, Lens.get_set, Lens.set_set]
            apply Proc.wp_zoom_run_bind
            apply Proc.wp_zoom_run_lift
            rw [Proc.wp_zoom_update, Lens.get_set, Lens.set_set]
            apply Proc.wp_zoom_run_bind
            apply Proc.wp_zoom_run_lift
            refine Proc.wp_mono (fun _ s₀ s hs => ?_) (h.wp_flushLocalEvents hsettled)
            exact ⟨_, hs, rfl, List.mem_cons_self, rfl⟩

/-- Every branch keeps the contract. -/
theorem wp_emitLocked (h : CreateRules ready enter K C i L lab env input At) {checkedAt : ℕ}
    {mode : LocalCreateMode} (now : ℕ)
    (hmode : LocalCreateMode.fromInput input checkedAt = .ok mode)
    (hs : At [] (.working none []) s₀ s) :
    ((emitLocked env input now mode).run.zoom L lab).wp ready enter K C i (Body input At)
      s₀ s := by
  cases mode with
  | charge holdOverride => exact h.wp_emitChargeLocked now hmode hs
  | reserve => exact h.wp_emitReserveLocked now hmode hs
  | settle reservationId => exact h.wp_emitSettleLocked now hmode hs
  | release reservationId => exact h.wp_emitReleaseLocked now hmode hs

/-- **A request keeps a contract** whose rules its steps obey. -/
theorem wp_createLocalEvents (h : CreateRules ready enter K C i L lab env input At)
    (hs : At [] .idle s₀ s) :
    ((createLocalEvents env input).run.zoom L lab).wp ready enter K C i
      (fun r => At [] (.done r)) s₀ s := by
  apply h.wp_createLocalEvents_of _ hs
  intro checkedAt mode s₀ s hmode hs
  apply Proc.wp_zoom_run_bind
  apply Proc.wp_zoom_run_lift
  refine Proc.wp_mono (fun now s₀ s hs => ?_) (h.wp_nowMs hs)
  exact h.wp_emitLocked now hmode hs

end CreateRules

end

end Shardd
