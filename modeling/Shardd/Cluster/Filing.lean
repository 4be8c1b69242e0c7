import Shardd.Concurrency.Operations
import Shardd.Lib.Contest
import Shardd.Node.Rules
import Shardd.Recovery.Booked

/-!
# What an operation files

Events are filed under their idempotency keys: every node keeps, for each key, the best event it
has compared.  A request files what it emits; a replicated event is filed, and the loser of a
conflict is voided by an event that is filed as well.  `Adds` says that an operation has minted,
queued and cached some events and nothing else, and the lemmas below say which ones, on a node whose
storage does not fail.
-/

namespace Shardd

variable {D : Type}

/-- The contest of the events that share an idempotency key.  What a request is known by, and what
voids a loser, is filed after a look at the cache. -/
def idempotency : Contest Event IdemKey where
  key := Event.idempotencyKey
  undo := voidIdemKey
  sole key := Underived key.1 ∨ ∃ id, key.1 = "void:" ++ id
  beats := Event.beats
  irrefl := Event.beats_irrefl
  trans := Event.beats_trans

/-- What is filed is in the order `es`. -/
def fileAll (cache : Map IdemKey Event) (es : List Event) : Map IdemKey Event :=
  es.foldl (fun m e => m.insert e.idempotencyKey e) cache

lemma fileAll_of_ne {key : IdemKey} {es : List Event} (cache : Map IdemKey Event)
    (h : ∀ e ∈ es, e.idempotencyKey ≠ key) : fileAll cache es key = cache key := by
  induction es generalizing cache with
  | nil => rfl
  | cons e es ih =>
      rw [fileAll, List.foldl_cons]
      refine (ih _ fun x hx => h x (List.mem_cons_of_mem _ hx)).trans ?_
      exact Map.insert_of_ne _ _ _ (Ne.symm (h e List.mem_cons_self))

/-- An operation has minted, queued and cached the events `new`. -/
structure Adds (s s' : SharedState D) (new : List Event) : Prop where
  minted : s'.minted = s.minted ++ new
  queue : s'.batchQueue = s.batchQueue ++ new
  cache : s'.idempotencyCache = fileAll s.idempotencyCache new

namespace Adds

variable {s s' s'' : SharedState D} {new new' : List Event}

lemma none (hminted : s'.minted = s.minted) (hqueue : s'.batchQueue = s.batchQueue)
    (hcache : s'.idempotencyCache = s.idempotencyCache) : Adds s s' [] where
  minted := by rw [hminted, List.append_nil]
  queue := by rw [hqueue, List.append_nil]
  cache := hcache

lemma trans (h : Adds s s' new) (h' : Adds s' s'' new') : Adds s s'' (new ++ new') where
  minted := by rw [h'.minted, h.minted, List.append_assoc]
  queue := by rw [h'.queue, h.queue, List.append_assoc]
  cache := by rw [h'.cache, h.cache, fileAll, fileAll, fileAll, List.foldl_append]

lemma prepared {env : Env D} {bucket : String} {r : Option (Except StorageError Unit)}
    (h : Prepared env bucket s r s') : Adds s s' [] := by
  rw [h.frame]
  exact .none rfl rfl rfl

lemma mintCorrection (env : Env D) (s : SharedState D) (d : EventDraft) :
    Adds s (s.mintCorrection env d) [s.draftEvent env (env.clock s.clockReads) d] := by
  unfold SharedState.mintCorrection
  dsimp only
  generalize s.draftEvent env (env.clock s.clockReads) d = e
  have hframe := SharedState.corrected_frame env (((s.takeNext d.key.1 env).tick).built e) e
  constructor <;> rw [hframe] <;> rfl

end Adds

/-! ## Allocation -/

/-- No entry of the node waits for a bump. -/
def SharedState.Settled (s : SharedState D) : Prop :=
  ∀ bucket a, s.entry bucket = some a → a.needsBump = false

namespace SharedState.Settled

variable {env : Env D} {s s' : SharedState D} {bucket : String}

lemma congr (h : s.Settled) (halloc : s'.bucketAllocators = s.bucketAllocators) : s'.Settled := by
  intro b a ha
  rw [entry, halloc] at ha
  exact h b a ha

lemma takeNext (env : Env D) (h : s.Settled) (bucket : String) :
    (s.takeNext bucket env).Settled := by
  intro b a ha
  by_cases hb : b = bucket
  · subst hb
    rw [entry_takeNext] at ha
    obtain ⟨x, hx, rfl⟩ := Option.map_eq_some_iff.1 ha
    exact h b x hx
  · rw [entry_takeNext_of_ne env hb] at ha
    exact h b a ha

lemma prepared (h : s.Settled) {r : Option (Except StorageError Unit)}
    (hp : Prepared env bucket s r s') : s'.Settled := by
  intro b a ha
  by_cases hb : b = bucket
  · subst hb
    cases hp with
    | hit _ => exact h b a ha
    | bumped _ _ _ =>
        rw [entry_modifyEntry] at ha
        obtain ⟨x, -, rfl⟩ := Option.map_eq_some_iff.1 ha
        rfl
    | installed _ _ =>
        have hnew : a = .new (s.bumped b env).currentEpoch (s.bumped b env).nextSeq false := by
          simpa [entry, installAllocator, eq_comm] using ha
        rw [hnew]
        rfl
    | failed _ _ => exact h b a ha
    | blocked _ _ _ => exact h b a ha
  · rw [entry, hp.bucketAllocators_of_ne hb] at ha
    exact h b a ha

/-- On a node whose storage does not fail, every allocation goes through. -/
lemma eq_ok (h : s.Settled) (hok : ∀ i, env.storageOutcome i = .ok)
    {r : Option (Except StorageError Unit)} (hp : Prepared env bucket s r s') :
    r = some (.ok ()) := by
  rw [← hp.canAllocate_iff]
  unfold CanAllocate
  split
  · rename_i a ha
    exact .inl (h bucket a ha)
  · exact ⟨hok _, hok _⟩

lemma mintCorrection (env : Env D) (h : s.Settled) (d : EventDraft) :
    (s.mintCorrection env d).Settled := by
  have htaken : (s.takeNext d.key.1 env).Settled := h.takeNext env d.key.1
  apply htaken.congr
  unfold SharedState.mintCorrection
  dsimp only
  rw [corrected_frame]
  rfl

lemma keepsBranch (input : LocalCreateInput) (mode : LocalCreateMode) (M : List Event) :
    KeepsBranch env input mode M fun _ => SharedState.Settled where
  prepared h hp := h.prepared hp
  mint now d h _ _ _ := (h.takeNext env d.key.1).congr rfl
  record h := by
    apply h.congr
    rw [recordLocal_frame]
  ensure _ h := h.congr rfl

lemma created (h : s.Settled) {input : LocalCreateInput}
    {r : Except CreateLocalEventError LocalCreateResult} (hc : Created env input s (some r) s') :
    s'.Settled := by
  cases hc with
  | rejected _ => exact h
  | malformed _ _ => exact h.congr rfl
  | cachedRetry _ _ _ _ => exact h.congr rfl
  | storedRetry _ _ _ _ _ => exact h.congr rfl
  | @emitted mode _ s₂ _ _ _ _ _ hemitted =>
      have hopened : (s.opened input.balanceKey).Settled := h.congr rfl
      obtain ⟨_, hs₂, -⟩ := (keepsBranch input mode s₂.minted).emitted hemitted
        (List.prefix_refl _) hopened
      exact hs₂.congr rfl

end SharedState.Settled

/-! ## Requests -/

section Requests

variable {env : Env D} {input : LocalCreateInput} {mode : LocalCreateMode} {now : ℕ}
  {acc : AccountState} {ds : List EventDraft} {s s' : SharedState D}

/-- The event has been made from the draft at this node. -/
def EventDraft.Makes (env : Env D) (d : EventDraft) (e : Event) : Prop :=
  ∃ eventId id now, e = d.event eventId env.nodeId id now

lemma EventDraft.Makes.key {env : Env D} {d : EventDraft} {e : Event} (h : d.Makes env e) :
    e.idempotencyKey = d.idempotencyKey := by
  obtain ⟨_, _, _, rfl⟩ := h
  rfl

/-- The events are what a request emits. -/
structure LocalCreateInput.Emissions (env : Env D) (input : LocalCreateInput) (es : List Event) :
    Prop where
  drafts : ∀ e ∈ es, ∃ checkedAt mode d, LocalCreateMode.fromInput input checkedAt = .ok mode ∧
    mode.Emits env.hold input d ∧ d.Makes env e
  keys : (es.map Event.idempotencyKey).Nodup
  primary : es ≠ [] → ∃ e ∈ es, e.idempotencyKey = input.idempotencyKey
  credit : es ≠ [] → ∀ toAddr creditAmount, input.Pays toAddr →
    checkedAbs input.amount = some creditAmount →
    ∃ e ∈ es, e.idempotencyKey = (input.creditDraft toAddr creditAmount).idempotencyKey

lemma LocalCreateInput.Emissions.nil : input.Emissions env [] :=
  ⟨nofun, List.nodup_nil, nofun, nofun⟩

/-- A request that is dispatched to a charge once is dispatched to no other branch. -/
lemma LocalCreateMode.charge_of_charge {t t' : ℕ} {o : Option (UInt64 × ℕ)}
    (h : LocalCreateMode.fromInput input t = .ok (.charge o))
    (h' : LocalCreateMode.fromInput input t' = .ok mode) : ∃ o', mode = .charge o' := by
  have hspends := LocalCreateMode.spends_of_fromInput h ⟨nofun, nofun⟩
  have hwf := LocalCreateMode.wellFormed_of_fromInput h'
  cases mode with
  | charge o' => exact ⟨o', rfl⟩
  | settle reservationId => exact absurd (hspends.1.symm.trans hwf.1) (Option.some_ne_none _).symm
  | release reservationId => exact absurd (hspends.2.symm.trans hwf.1) (Option.some_ne_none _).symm
  | reserve =>
      obtain ⟨hamount, hold, expires, hhold, hexpires, hpos, -⟩ := hwf
      have hexplicit : input.explicitHold = .ok (some (hold, expires)) := by
        simp [LocalCreateInput.explicitHold, hhold, hexpires]
      simp only [LocalCreateMode.fromInput, bind, Except.bind, pure, Except.pure, throw, throwThe,
        MonadExceptOf.throw, hexplicit, hspends, hamount, if_true] at h
      repeat' (split at h <;> try contradiction)
      cases h

/-- A plan consists of drafts of its branch, with nonces of their own. -/
lemma LocalCreateMode.plan_spec
    (hwf : ∃ checkedAt, LocalCreateMode.fromInput input checkedAt = .ok mode)
    (h : mode.plan env input now acc = .ok ds) :
    (∀ d ∈ ds, mode.Emits env.hold input d) ∧
    (ds.map EventDraft.idempotencyNonce).Nodup ∧
    "credit:" ++ input.idempotencyNonce ∉ ds.map EventDraft.idempotencyNonce ∧
    ∃ d ∈ ds, d.idempotencyKey = input.idempotencyKey := by
  obtain ⟨checkedAt, hmode⟩ := hwf
  have hwf := LocalCreateMode.wellFormed_of_fromInput hmode
  have hown : input.idempotencyNonce ≠ "reserve:" ++ input.idempotencyNonce :=
    fun heq => by simpa using heq.symm
  have hown' : input.idempotencyNonce ≠ "release:" ++ input.idempotencyNonce :=
    fun heq => by simpa using heq.symm
  have hdrafts := fun d hd => LocalCreateMode.drafts_of_mem_plan (d := d) h hd
  cases mode with
  | charge holdOverride =>
      simp only [plan] at h
      split at h <;> cases h
      refine ⟨fun d hd => ⟨hdrafts d hd, fun hreserve => ?_⟩, ?_, ?_, input.chargeDraft, by simp,
        rfl⟩
      · rcases List.mem_append.1 hd with hd | hd
        · split at hd
          · rename_i hpos
            exact LocalCreateMode.mayHold_of_chargeHold hpos
          · cases hd
        · rw [List.mem_singleton.1 hd] at hreserve
          exact absurd hreserve hown
      · split
        · simp [LocalCreateInput.holdDraft, LocalCreateInput.chargeDraft]
        · simp
      · split
        · simp [LocalCreateInput.holdDraft, LocalCreateInput.chargeDraft]
        · simp [LocalCreateInput.chargeDraft]
  | reserve =>
      simp only [plan] at h
      split at h <;> cases h
      refine ⟨fun d hd => ⟨hdrafts d hd, fun hreserve => ?_⟩, by simp, ?_, input.reserveDraft,
        by simp, ?_⟩
      · rw [List.mem_singleton.1 hd] at hreserve
        exact absurd hreserve hown
      · simp [LocalCreateInput.reserveDraft]
      · rw [LocalCreateInput.idempotencyKey, hwf.1]
        rfl
  | settle reservationId =>
      simp only [plan] at h
      split at h <;> cases h
      refine ⟨fun d hd => ⟨hdrafts d hd, fun hreserve => ?_⟩, ?_, ?_, input.captureDraft,
        by simp, rfl⟩
      · rcases List.mem_pair.1 hd with rfl | rfl
        · exact absurd hreserve hown
        · exact absurd (derived_inj derived_release derived_reserve hreserve).1 (by decide)
      · simp [LocalCreateInput.captureDraft, LocalCreateInput.settleReleaseDraft, hown']
      · simp [LocalCreateInput.captureDraft, LocalCreateInput.settleReleaseDraft]
  | release reservationId =>
      simp only [plan] at h
      split at h <;> cases h
      refine ⟨fun d hd => ⟨hdrafts d hd, fun hreserve => ?_⟩, by simp, ?_,
        input.releaseDraft reservationId, by simp, ?_⟩
      · rw [List.mem_singleton.1 hd] at hreserve
        exact absurd hreserve hown
      · simp [LocalCreateInput.releaseDraft]
      · rw [LocalCreateInput.idempotencyKey, hwf.2]
        rfl

/-- What minting a list of drafts files. -/
lemma mintDrafts_spec (env : Env D) (now : ℕ) (ds : List EventDraft) (s : SharedState D) :
    let r := SharedState.mintDrafts env now ds s
    r.2.minted = s.minted ++ r.1 ∧ r.2.batchQueue = s.batchQueue ∧
      r.2.idempotencyCache = fileAll s.idempotencyCache r.1 ∧
      r.1.map Event.idempotencyKey = ds.map EventDraft.idempotencyKey ∧
      ∀ e ∈ r.1, ∃ d ∈ ds, d.Makes env e := by
  induction ds generalizing s with
  | nil => exact ⟨(List.append_nil _).symm, rfl, rfl, rfl, nofun⟩
  | cons d ds ih =>
      obtain ⟨hminted, hqueue, hcache, hkeys, hmakes⟩ := ih (s.mint env (s.draftEvent env now d))
      dsimp only [SharedState.mintDrafts]
      refine ⟨?_, hqueue, hcache, ?_, fun e he => ?_⟩
      · rw [hminted, SharedState.minted_mint, List.append_assoc]
        rfl
      · rw [List.map_cons, List.map_cons, hkeys]
        rfl
      · rcases List.mem_cons.1 he with rfl | he
        · exact ⟨d, List.mem_cons_self, _, _, _, rfl⟩
        · obtain ⟨d', hd', hmakes⟩ := hmakes e he
          exact ⟨d', List.mem_cons_of_mem _ hd', hmakes⟩

/-- What is minted is recorded. -/
lemma Adds.recorded {s₁ s₂ : SharedState D} {es : List Event}
    (heq : SharedState.mintDrafts env now ds s₁ = (es, s₂)) :
    Adds s₁ (es.foldl (SharedState.recordLocal env) s₂) es := by
  have hspec := mintDrafts_spec env now ds s₁
  rw [heq] at hspec
  obtain ⟨hminted, hqueue, hcache, -, -⟩ := hspec
  have hrecord : ∀ (es : List Event) (t : SharedState D),
      (es.foldl (SharedState.recordLocal env) t).batchQueue = t.batchQueue ++ es ∧
        (es.foldl (SharedState.recordLocal env) t).idempotencyCache = t.idempotencyCache := by
    intro es
    induction es with
    | nil => exact fun t => ⟨(List.append_nil _).symm, rfl⟩
    | cons e es ih =>
        intro t
        obtain ⟨hq, hc⟩ := ih (t.recordLocal env e)
        have hframe := SharedState.recordLocal_frame env t e
        rw [List.foldl_cons, hq, hc]
        constructor
        · have hstep : (t.recordLocal env e).batchQueue = t.batchQueue ++ [e] := by rw [hframe]
          rw [hstep, List.append_assoc]
          rfl
        · rw [hframe]
  obtain ⟨hq, hc⟩ := hrecord es s₂
  constructor
  · rw [SharedState.minted_foldl_recordLocal, hminted]
  · rw [hq, hqueue]
  · rw [hc, hcache]

/-- What the branch of a request files. -/
lemma Emitted.adds
    (hwf : ∃ checkedAt, LocalCreateMode.fromInput input checkedAt = .ok mode)
    (hne : input.amount ≠ Int64.minValue) {r : Except CreateLocalEventError LocalCreateResult}
    (he : Emitted env input now mode s (some r) s') :
    ∃ es, Adds s s' es ∧ input.Emissions env es := by
  -- the drafts of a plan, and of a plan with a credit, are emitted once they are minted
  have hemits : ∀ {ds : List EventDraft} {s₁ s₂ : SharedState D} {es : List Event},
      (∀ d ∈ ds, mode.Emits env.hold input d) → (ds.map EventDraft.idempotencyNonce).Nodup →
      (∃ d ∈ ds, d.idempotencyKey = input.idempotencyKey) →
      (∀ toAddr creditAmount, input.Pays toAddr → checkedAbs input.amount = some creditAmount →
        input.creditDraft toAddr creditAmount ∈ ds) →
      SharedState.mintDrafts env now ds s₁ = (es, s₂) → input.Emissions env es := by
    intro ds s₁ s₂ es hemits hnodup hprimary hcredit heq
    have hspec := mintDrafts_spec env now ds s₁
    rw [heq] at hspec
    obtain ⟨-, -, -, hkeys, hmakes⟩ := hspec
    dsimp only at hkeys hmakes
    have hevent : ∀ d ∈ ds, ∃ e ∈ es, e.idempotencyKey = d.idempotencyKey := by
      intro d hd
      have hmem : d.idempotencyKey ∈ es.map Event.idempotencyKey := by
        rw [hkeys]
        exact List.mem_map_of_mem hd
      exact List.mem_map.1 hmem
    refine ⟨fun e he => ?_, ?_, fun _ => ?_, fun _ toAddr creditAmount hpays habs => ?_⟩
    · obtain ⟨d, hd, hmakes⟩ := hmakes e he
      obtain ⟨checkedAt, hmode⟩ := hwf
      exact ⟨checkedAt, mode, d, hmode, hemits d hd, hmakes⟩
    · rw [hkeys]
      apply List.Nodup.of_map Prod.fst
      rw [List.map_map]
      exact hnodup
    · obtain ⟨d, hd, hkey⟩ := hprimary
      rw [← hkey]
      exact hevent d hd
    · exact hevent _ (hcredit toAddr creditAmount hpays habs)
  generalize hr : some r = o at he
  cases he with
  | refused _ => exact ⟨[], .none rfl rfl rfl, .nil⟩
  | unallocated _ hp _ => exact ⟨[], .prepared hp, .nil⟩
  | @minted _ _ _ _ es hplan hp hto heq _ =>
      obtain ⟨hdrafts, hnodup, -, hprimary⟩ := LocalCreateMode.plan_spec hwf hplan
      refine ⟨es, (Adds.prepared hp).trans (.recorded heq),
        hemits hdrafts hnodup hprimary (fun toAddr _ hpays _ => ?_) heq⟩
      -- a transfer is dispatched to a charge
      obtain ⟨htransfer, _, _, hcharge⟩ := hpays
      obtain ⟨_, hmode⟩ := hwf
      obtain ⟨o, rfl⟩ := LocalCreateMode.charge_of_charge hcharge hmode
      exact absurd (htransfer.symm.trans hto) (Option.some_ne_none _)
  | creditBlocked _ _ _ _ => cases hr
  | overflowed _ _ _ _ habs => exact absurd (checkedAbs_eq_none_iff.1 habs) hne
  | @transferred _ _ _ _ es _ _ hplan hp hto _ habs heq _ =>
      obtain ⟨hdrafts, hnodup, hcredit, d, hd, hkey⟩ := LocalCreateMode.plan_spec hwf hplan
      refine ⟨es, (Adds.prepared hp).trans (.recorded heq), hemits (fun d hd => ?_) ?_
        ⟨d, List.mem_append_left _ hd, hkey⟩ (fun toAddr' creditAmount' hpays habs' => ?_) heq⟩
      · rcases List.mem_append.1 hd with hd | hd
        · exact hdrafts d hd
        · rw [List.mem_singleton.1 hd]
          refine ⟨LocalCreateMode.drafts_creditDraft hto habs, fun hreserve => ?_⟩
          exact absurd (derived_inj derived_credit derived_reserve hreserve).1 (by decide)
      · rw [List.map_append, List.nodup_append]
        refine ⟨hnodup, List.nodup_singleton _, fun x hx y hy hxy => ?_⟩
        rw [hxy, List.mem_singleton.1 hy] at hx
        exact hcredit hx
      · rw [habs] at habs'
        cases habs'
        have hto' := (LocalCreateMode.creditTo_eq_some hto).2.symm.trans hpays.1
        cases hto'
        exact List.mem_append_right _ (List.mem_singleton_self _)

/-- What a request files, on a node that has cached whatever it has stored. -/
lemma Created.adds (hne : input.amount ≠ Int64.minValue)
    (hstored : ∀ e ∈ s.storage.events, s.idempotencyCache e.idempotencyKey ≠ none)
    {r : Except CreateLocalEventError LocalCreateResult} (hc : Created env input s (some r) s') :
    ∃ es, Adds s s' es ∧ input.Emissions env es ∧
      (es ≠ [] → s.idempotencyCache input.idempotencyKey = none) := by
  generalize hr : some r = o at hc
  cases hc with
  | rejected _ => exact ⟨[], .none rfl rfl rfl, .nil, nofun⟩
  | malformed _ _ => exact ⟨[], .none rfl rfl rfl, .nil, nofun⟩
  | blocked _ _ _ => cases hr
  | cachedRetry _ _ _ _ => exact ⟨[], .none rfl rfl rfl, .nil, nofun⟩
  | @storedRetry _ e _ _ _ hnone hwinner =>
      unfold SharedState.storedWinner at hwinner
      split at hwinner
      · obtain ⟨hmem, hkey⟩ := List.mem_filter.1 (mem_of_canonicalWinner hwinner)
        exact absurd (of_decide_eq_true hkey ▸ hnone) (hstored e hmem)
      · cases hwinner
  | @emitted mode r' s₂ _ hmode _ hnone _ hemitted =>
      obtain ⟨es, hadds, hemissions⟩ := hemitted.adds ⟨_, hmode⟩ hne
      refine ⟨es, ?_, hemissions, fun _ => hnone⟩
      exact ⟨hadds.minted, hadds.queue, hadds.cache⟩
  | stuck _ _ _ _ _ _ => cases hr

end Requests

/-! ## Conflicts -/

section Conflicts

variable {env : Env D} {winner loser : Event} {s s' : SharedState D}

/-- What is added to correct a conflict in the state `s`: nothing if the loser has been voided, and
otherwise its void, and the release of a hold that has not been released. -/
inductive Corrections (env : Env D) (winner loser : Event) (s : SharedState D) :
    List Event → Prop
  | known : s.Knows (voidIdemKey loser) → Corrections env winner loser s []
  | void {v : Event} : ¬ s.Knows (voidIdemKey loser) → (voidDraft winner loser).Makes env v →
      (loser.hasHold = true → s.Knows (releaseIdemKey loser)) →
      Corrections env winner loser s [v]
  | release {v r : Event} : ¬ s.Knows (voidIdemKey loser) → (voidDraft winner loser).Makes env v →
      loser.hasHold = true → ¬ s.Knows (releaseIdemKey loser) →
      (holdReleaseDraft winner loser).Makes env r → Corrections env winner loser s [v, r]

lemma releaseIdemKey_ne_voidIdemKey (e e' : Event) : releaseIdemKey e ≠ voidIdemKey e' := fun h =>
  absurd (derived_inj derived_release derived_void (congrArg Prod.fst h)).1 (by decide)

namespace Corrections

variable {new : List Event}

lemma nodup (h : Corrections env winner loser s new) : (new.map Event.idempotencyKey).Nodup := by
  cases h with
  | known _ => exact List.nodup_nil
  | void _ _ _ => exact List.nodup_singleton _
  | @release v r _ hmakes _ _ hmakes' =>
      refine List.nodup_cons.2 ⟨fun hmem => ?_, List.nodup_singleton _⟩
      have heq : v.idempotencyKey = r.idempotencyKey := List.mem_singleton.1 hmem
      rw [hmakes.key, hmakes'.key] at heq
      exact releaseIdemKey_ne_voidIdemKey loser loser heq.symm

lemma unknown (h : Corrections env winner loser s new) :
    ∀ x ∈ new, ¬ s.Knows x.idempotencyKey := by
  cases h with
  | known _ => exact List.forall_mem_nil _
  | @void v hknown hmakes _ =>
      intro x hx
      rw [List.mem_singleton.1 hx, hmakes.key]
      exact hknown
  | @release v r hknown hmakes _ hreleased hmakes' =>
      intro x hx
      rcases List.mem_pair.1 hx with rfl | rfl
      · rw [hmakes.key]
        exact hknown
      · rw [hmakes'.key]
        exact hreleased

lemma makes (h : Corrections env winner loser s new) : ∀ x ∈ new,
    (voidDraft winner loser).Makes env x ∨ (holdReleaseDraft winner loser).Makes env x := by
  cases h with
  | known _ => exact List.forall_mem_nil _
  | @void v _ hmakes _ =>
      intro x hx
      rw [List.mem_singleton.1 hx]
      exact .inl hmakes
  | @release v r _ hmakes _ _ hmakes' =>
      intro x hx
      rcases List.mem_pair.1 hx with rfl | rfl
      · exact .inl hmakes
      · exact .inr hmakes'

/-- With the void of a hold, the release is known or one of the corrections. -/
lemma released (h : Corrections env winner loser s new) {v : Event} (hv : v ∈ new)
    (hhold : loser.hasHold = true) : s.Knows (releaseIdemKey loser) ∨
      ∃ r ∈ new, (holdReleaseDraft winner loser).Makes env r := by
  cases h with
  | known _ => cases hv
  | void _ _ hreleased => exact .inl (hreleased hhold)
  | @release v r _ _ _ _ hmakes' => exact .inr ⟨r, by simp, hmakes'⟩

end Corrections

/-- The corrections of a conflict, on a node whose storage does not fail and that has cached
whatever it has stored. -/
lemma Corrected.adds (hsettled : s.Settled) (hok : ∀ i, env.storageOutcome i = .ok)
    (hstored : ∀ e ∈ s.storage.events, s.idempotencyCache e.idempotencyKey ≠ none) {r : Unit}
    (hc : Corrected env winner loser s (some r) s') :
    ∃ new, Adds s s' new ∧ Corrections env winner loser s new ∧ s'.Settled ∧
      s'.Knows (voidIdemKey loser) := by
  have hasked' : s.asked.Settled := hsettled.congr rfl
  generalize hr : some r = o at hc
  cases hc with
  | known hknown => exact ⟨[], .none rfl rfl rfl, .known hknown, hsettled, hknown⟩
  | stored hknown hstores =>
      obtain ⟨e, he⟩ := List.exists_mem_of_ne_nil _ hstores.2
      obtain ⟨hmem, hkey⟩ := List.mem_filter.1 he
      have hkey : e.idempotencyKey = voidIdemKey loser := of_decide_eq_true hkey
      exact absurd (hkey ▸ hstored e hmem) hknown
  | unallocated _ _ hp hne => exact absurd (hasked'.eq_ok hok hp) hne
  | @voided s₁ _ _ hknown _ hp hreleased =>
      set v := s₁.draftEvent env (env.clock s₁.clockReads) (voidDraft winner loser) with hv
      have hmakes : (voidDraft winner loser).Makes env v := ⟨_, _, _, rfl⟩
      have hasked : Adds s s.asked [] := .none rfl rfl rfl
      have hvoid : Adds s (s₁.mintCorrection env (voidDraft winner loser)) [v] :=
        (hasked.trans (.prepared hp)).trans (.mintCorrection env s₁ _)
      have hsettled₁ : s₁.Settled := hasked'.prepared hp
      have hsettled₂ := hsettled₁.mintCorrection env (voidDraft winner loser)
      have hself : (s₁.mintCorrection env (voidDraft winner loser)).Knows (voidIdemKey loser) := by
        rw [SharedState.Knows, hvoid.cache]
        exact fun h => Option.some_ne_none _ ((Map.insert_self _ _ _).symm.trans h)
      have hrelease : (s₁.mintCorrection env (voidDraft winner loser)).Knows
          (releaseIdemKey loser) ↔ s.Knows (releaseIdemKey loser) := by
        rw [SharedState.Knows, hvoid.cache, fileAll_of_ne]
        · rfl
        · intro e he
          rw [List.mem_singleton.1 he]
          exact (releaseIdemKey_ne_voidIdemKey loser loser).symm
      cases hreleased with
      | noHold hhold =>
          refine ⟨[v], hvoid, .void hknown hmakes fun h => ?_, hsettled₂, hself⟩
          rw [hhold] at h
          cases h
      | known hhold hreleased =>
          exact ⟨[v], hvoid, .void hknown hmakes fun _ => hrelease.1 hreleased, hsettled₂, hself⟩
      | unallocated _ _ hp' hne => exact absurd (hsettled₂.eq_ok hok hp') hne
      | @released s₃ hhold hreleased hp' =>
          set rel := s₃.draftEvent env (env.clock s₃.clockReads) (holdReleaseDraft winner loser)
            with hrel
          have hmakes' : (holdReleaseDraft winner loser).Makes env rel := ⟨_, _, _, rfl⟩
          have hboth : Adds s (s₃.mintCorrection env (holdReleaseDraft winner loser)) [v, rel] :=
            (hvoid.trans (.prepared hp')).trans (.mintCorrection env s₃ _)
          have hknows : (s₃.mintCorrection env (holdReleaseDraft winner loser)).Knows
              (voidIdemKey loser) := by
            have hlast : Adds s₃ (s₃.mintCorrection env (holdReleaseDraft winner loser)) [rel] :=
              .mintCorrection env s₃ _
            rw [SharedState.Knows, hlast.cache, fileAll_of_ne]
            · rw [(Adds.prepared hp').cache]
              exact hself
            · intro e he
              rw [List.mem_singleton.1 he]
              exact releaseIdemKey_ne_voidIdemKey loser loser
          exact ⟨[v, rel], hboth,
            .release hknown hmakes hhold (fun h => hreleased (hrelease.2 h)) hmakes',
            (hsettled₂.prepared hp').mintCorrection env _, hknows⟩

/-- What a replicated event files. -/
inductive Receives (env : Env D) (e : Event) (s s' : SharedState D) : List Event → Prop
  | ignored : s' = s → Receives env e s s' []
  /-- The first event of its key, or itself. -/
  | filed : s.eventIsPresent e = false → s.conflicting e = none → s'.minted = s.minted →
      s'.batchQueue = s.batchQueue ++ [e] →
      s'.idempotencyCache = s.idempotencyCache.insert e.idempotencyKey e → Receives env e s s' []
  | contested {b w l : Event} {t : SharedState D} {new : List Event} :
      s.idempotencyCache e.idempotencyKey = some b → b.eventId ≠ e.eventId →
      idempotencyWinner b e = (w, l) → t.minted = s.minted →
      t.batchQueue = s.batchQueue ++ [e] →
      t.idempotencyCache = s.idempotencyCache.insert e.idempotencyKey w →
      Adds t s' new → Corrections env w l t new → s'.Knows (voidIdemKey l) → Receives env e s s' new

lemma Inserted.receives {e : Event} (hsettled : s.Settled)
    (hok : ∀ i, env.storageOutcome i = .ok)
    (hstored : ∀ e ∈ s.storage.events, s.idempotencyCache e.idempotencyKey ≠ none) {r : Bool}
    (hi : Inserted env e s (some r) s') : s'.Settled ∧ ∃ new, Receives env e s s' new := by
  have hframe := SharedState.accepted_frame env s e
  have hsettled' : (s.accepted env e).Settled := by
    apply hsettled.congr
    rw [hframe]
  generalize hr : some r = o at hi
  cases hi with
  | deleted _ => exact ⟨hsettled, [], .ignored rfl⟩
  | present _ _ => exact ⟨hsettled, [], .ignored rfl⟩
  | occupied _ _ _ => exact ⟨hsettled, [], .ignored rfl⟩
  | filed _ hpresent _ hnone =>
      refine ⟨hsettled', [], .filed hpresent hnone ?_ ?_ ?_⟩
      · change (s.accepted env e).minted = s.minted
        rw [hframe]
      · change (s.accepted env e).batchQueue = s.batchQueue ++ [e]
        rw [hframe]
      · change (s.accepted env e).idempotencyCache.insert e.idempotencyKey e = _
        rw [hframe]
  | @conflict b r' _ _ hpresent _ hconflict hcorrected =>
      obtain ⟨hcache, hid⟩ := Option.filter_eq_some_iff.1 hconflict
      have hid : b.eventId ≠ e.eventId := of_decide_eq_true hid
      set t := (s.accepted env e).remember e.idempotencyKey (idempotencyWinner b e).1 with ht
      have hcache' : t.idempotencyCache =
          s.idempotencyCache.insert e.idempotencyKey (idempotencyWinner b e).1 := by
        change (s.accepted env e).idempotencyCache.insert _ _ = _
        rw [hframe]
      have hevents : t.storage.events = s.storage.events := by
        change (s.accepted env e).storage.events = _
        rw [hframe]
      rcases r' with _ | ⟨⟩
      · cases hr
      obtain ⟨new, hadds, hcorrections, hsettled'', hknows⟩ :=
        Corrected.adds (s := t) hsettled' hok (fun x hx => by
          rw [hcache']
          exact Contest.Files.insert_ne_none (c := idempotency) _ (hstored x (hevents ▸ hx)))
          hcorrected
      refine ⟨hsettled'', new, .contested hcache hid rfl ?_ ?_ hcache' hadds hcorrections hknows⟩
      · change (s.accepted env e).minted = s.minted
        rw [hframe]
      · change (s.accepted env e).batchQueue = s.batchQueue ++ [e]
        rw [hframe]

end Conflicts

end Shardd
