import Shardd.Node.Calls
import Shardd.Node.Nonces
import Shardd.Node.Startup

/-!
# Retries of a request

A node runs any number of requests concurrently, retries among them, together with its batch writer
and its sweep.  For every key whose nonce is none that the node derives itself, at most one event is
minted, every request that succeeds is answered with the same event, and a balance is moved by what
has been minted on it.

What carries the argument is that the idempotency cache is written under the lock of the key's
own account: while a request holds that lock nobody else fills the entry, and an entry once filled
stays.
-/

namespace Shardd

variable {D : Type}

/-! ## The contract -/

/-- The account of a key. -/
def IdemKey.balanceKey (key : IdemKey) : BalanceKey := (key.2.1, key.2.2.1)

/-- The node has this event, in the cache, in the storage or on its way there. -/
def SharedState.Has (s : SharedState D) (e : Event) : Prop :=
  (∃ key, s.idempotencyCache key = some e) ∨ e ∈ s.storage.events ∨ e ∈ s.batchQueue

/-- A node in a run that began in `start`. -/
structure Remembers (start s : SharedState D) : Prop where
  cached : ∀ {key e}, s.idempotencyCache key = some e → e.idempotencyKey = key
  minted : ∀ {key : IdemKey}, Underived key.1 →
    s.minted.filter (·.idempotencyKey = key) = [] ∨
      ∃ e, s.minted.filter (·.idempotencyKey = key) = [e] ∧ s.idempotencyCache key = some e
  balance : ∀ k, (s.account k).balance =
    (s.minted.filter (·.balanceKey = k)).foldl (fun b e => b + e.amount) (start.account k).balance
  has : ∀ {e}, s.Has e → start.Has e ∨ e ∈ s.minted

/-- What call `i` does to the locks and entries of the others: nothing. -/
structure Respects (i : ℕ) (s s' : SharedState D) : Prop where
  locks : ∀ key k, k ≠ i → (s.accountLocks key = some k ↔ s'.accountLocks key = some k)
  owned : ∀ {key : IdemKey} {k}, Underived key.1 → k ≠ i →
    s.accountLocks key.balanceKey = some k → s'.idempotencyCache key = s.idempotencyCache key
  kept : ∀ {key : IdemKey} {e}, Underived key.1 → s.idempotencyCache key = some e →
    s'.idempotencyCache key = some e
  minted : s.minted <+: s'.minted

lemma Respects.refl (i : ℕ) (s : SharedState D) : Respects i s s :=
  ⟨fun _ _ _ => Iff.rfl, fun _ _ _ => rfl, fun _ h => h, List.prefix_refl _⟩

lemma Respects.trans {i : ℕ} {s s' s'' : SharedState D} (h : Respects i s s')
    (h' : Respects i s' s'') : Respects i s s'' where
  locks key k hk := (h.locks key k hk).trans (h'.locks key k hk)
  owned hkey hk hlock :=
    (h'.owned hkey hk ((h.locks _ _ hk).1 hlock)).trans (h.owned hkey hk hlock)
  kept hkey he := h'.kept hkey (h.kept hkey he)
  minted := h.minted.trans h'.minted

/-- What is known of a finished call. -/
def Answered (a : NodeAnswer) (s : SharedState D) : Prop :=
  match a with
  | .created input (.ok r) =>
      Underived input.idempotencyNonce →
        s.idempotencyCache input.idempotencyKey = some r.primaryEvent
  | _ => True

def retryContract (start : SharedState D) : Contract (SharedState D) Wait where
  inv := Remembers start
  guar := Respects
  absent _ _ := True
  pause _ _ _ := True

/-! ## The stages of a request -/

/-- What call `i` knows of a request at a stage, whatever the others do. -/
def Standing (i : ℕ) (input : LocalCreateInput) (start s : SharedState D) : CreateStage → Prop
  | .idle => True
  | .locked => s.accountLocks input.balanceKey = some i
  | .missing =>
      s.accountLocks input.balanceKey = some i ∧
        (Underived input.idempotencyNonce → s.idempotencyCache input.idempotencyKey = none)
  | .asked rows =>
      s.accountLocks input.balanceKey = some i ∧
        (Underived input.idempotencyNonce → s.idempotencyCache input.idempotencyKey = none) ∧
        ∀ e ∈ rows, e.idempotencyKey = input.idempotencyKey ∧ (start.Has e ∨ e ∈ s.minted)
  | .found e =>
      s.accountLocks input.balanceKey = some i ∧
        (Underived input.idempotencyNonce → s.idempotencyCache input.idempotencyKey = some e)
  | .working credit es =>
      s.accountLocks input.balanceKey = some i ∧
        (∀ key, credit = some key →
          key ≠ input.balanceKey ∧ s.accountLocks key = some i) ∧
        (∀ e ∈ es, e ∈ s.minted) ∧
        (Underived input.idempotencyNonce →
          (∀ e ∈ es, e.idempotencyKey = input.idempotencyKey →
            s.idempotencyCache input.idempotencyKey = some e) ∧
          ((∀ e ∈ es, e.idempotencyKey ≠ input.idempotencyKey) →
            s.idempotencyCache input.idempotencyKey = none))
  | .done r => Answered (.created input r) s

section Stable

variable {i j : ℕ} {input : LocalCreateInput} {start s s' : SharedState D}

lemma Respects.lock (h : Respects j s s') (hj : j ≠ i) {key : BalanceKey}
    (hlock : s.accountLocks key = some i) : s'.accountLocks key = some i :=
  (h.locks key i hj.symm).1 hlock

/-- The entry of a request's key, while the request holds its lock. -/
lemma Respects.entry (h : Respects j s s') (hj : j ≠ i)
    (hlock : s.accountLocks input.balanceKey = some i) (hnonce : Underived input.idempotencyNonce) :
    s'.idempotencyCache input.idempotencyKey = s.idempotencyCache input.idempotencyKey := by
  have hkey : Underived input.idempotencyKey.1 := hnonce
  exact h.owned hkey hj.symm hlock

lemma Respects.answered (h : Respects j s s') {a : NodeAnswer} (ha : Answered a s) :
    Answered a s' := by
  unfold Answered at ha ⊢
  split
  · rename_i input r
    intro hnonce
    have hkey : Underived input.idempotencyKey.1 := hnonce
    exact h.kept hkey (ha hnonce)
  · trivial

/-- A stage speaks of the locks, the cache and what is minted. -/
lemma Standing.congr {st : CreateStage} (h : Standing i input start s st)
    (hlocks : s'.accountLocks = s.accountLocks)
    (hcache : s'.idempotencyCache = s.idempotencyCache) (hminted : s'.minted = s.minted) :
    Standing i input start s' st := by
  unfold Standing Answered at h ⊢
  rw [hlocks, hcache, hminted]
  exact h

/-- Nobody else disturbs a stage. -/
lemma Standing.stable (i : ℕ) (input : LocalCreateInput) (start : SharedState D)
    (st : CreateStage) : (retryContract start).Stable i fun s => Standing i input start s st := by
  intro j s s' hj hs hguar
  change Respects j s s' at hguar
  cases st with
  | idle => trivial
  | locked => exact hguar.lock hj hs
  | missing =>
      obtain ⟨hlock, hnone⟩ := hs
      refine ⟨hguar.lock hj hlock, fun hnonce => ?_⟩
      rw [hguar.entry hj hlock hnonce]
      exact hnone hnonce
  | asked rows =>
      obtain ⟨hlock, hnone, hrows⟩ := hs
      refine ⟨hguar.lock hj hlock, fun hnonce => ?_, fun e he => ?_⟩
      · rw [hguar.entry hj hlock hnonce]
        exact hnone hnonce
      · exact ⟨(hrows e he).1, (hrows e he).2.imp id fun hm => hguar.minted.subset hm⟩
  | found e =>
      obtain ⟨hlock, hfound⟩ := hs
      refine ⟨hguar.lock hj hlock, fun hnonce => ?_⟩
      rw [hguar.entry hj hlock hnonce]
      exact hfound hnonce
  | working credit es =>
      obtain ⟨hlock, hcredit, hes, hentry⟩ := hs
      refine ⟨hguar.lock hj hlock,
        fun key hkey => ⟨(hcredit key hkey).1, hguar.lock hj (hcredit key hkey).2⟩,
        fun e he => hguar.minted.subset (hes e he), fun hnonce => ?_⟩
      rw [hguar.entry hj hlock hnonce]
      exact hentry hnonce
  | done r => exact hguar.answered hs

end Stable

/-! ## Steps -/

section Steps

variable {i : ℕ} {input : LocalCreateInput} {start s₀ s s' : SharedState D} {e : Event}

lemma Remembers.congr (h : Remembers start s) (hcache : s'.idempotencyCache = s.idempotencyCache)
    (hminted : s'.minted = s.minted)
    (hbalance : ∀ k, (s'.account k).balance = (s.account k).balance)
    (hhas : ∀ e, s'.Has e → s.Has e ∨ e ∈ s.minted) : Remembers start s' where
  cached he := h.cached (hcache ▸ he)
  minted hkey := by
    rw [hminted, hcache]
    exact h.minted hkey
  balance k := by
    rw [hminted, hbalance]
    exact h.balance k
  has he := by
    rw [hminted]
    rcases hhas _ he with he | he
    · exact h.has he
    · exact .inr he

lemma Respects.congr (hlocks : ∀ key k, k ≠ i →
      (s.accountLocks key = some k ↔ s'.accountLocks key = some k))
    (hcache : s'.idempotencyCache = s.idempotencyCache) (hminted : s'.minted = s.minted) :
    Respects i s s' where
  locks := hlocks
  owned _ _ _ := by rw [hcache]
  kept _ he := by rwa [hcache]
  minted := by rw [hminted]

/-- The key of a minted event was unknown, unless its nonce is derived. -/
lemma Remembers.mint (h : Remembers start s)
    (hnone : Underived e.idempotencyNonce → s.idempotencyCache e.idempotencyKey = none) :
    Remembers start ((s.built e).applyLocal e) where
  cached {key x} hx := by
    change s.idempotencyCache.insert e.idempotencyKey e key = some x at hx
    by_cases hkey : key = e.idempotencyKey
    · subst hkey
      rw [Map.insert_self] at hx
      cases hx
      rfl
    · rw [Map.insert_of_ne _ _ _ hkey] at hx
      exact h.cached hx
  minted {key} hu := by
    change (s.minted ++ [e]).filter _ = [] ∨ ∃ x, (s.minted ++ [e]).filter _ = [x] ∧
      s.idempotencyCache.insert e.idempotencyKey e key = some x
    rw [List.filter_append]
    by_cases hkey : key = e.idempotencyKey
    · subst hkey
      refine .inr ⟨e, ?_, Map.insert_self _ _ _⟩
      rcases h.minted hu with hnil | ⟨x, -, hx⟩
      · rw [hnil]
        simp
      · rw [hnone hu] at hx
        cases hx
    · have hnil : [e].filter (·.idempotencyKey = key) = [] := by simp [Ne.symm hkey]
      rw [Map.insert_of_ne _ _ _ hkey, hnil, List.append_nil]
      exact h.minted hu
  balance k := by
    change _ = ((s.minted ++ [e]).filter _).foldl _ _
    rw [SharedState.account_built_applyLocal, List.filter_append, List.foldl_append, ← h.balance k]
    by_cases hk : k = e.balanceKey
    · subst hk
      simp
    · simp [hk, Ne.symm hk]
  has {x} hx := by
    change start.Has x ∨ x ∈ s.minted ++ [e]
    rw [List.mem_append, List.mem_singleton]
    rcases hx with ⟨key, hx⟩ | hx | hx
    · change s.idempotencyCache.insert e.idempotencyKey e key = some x at hx
      by_cases hkey : key = e.idempotencyKey
      · subst hkey
        rw [Map.insert_self] at hx
        cases hx
        exact .inr (.inr rfl)
      · rw [Map.insert_of_ne _ _ _ hkey] at hx
        exact (h.has (.inl ⟨key, hx⟩)).imp id .inl
    · exact (h.has (.inr (.inl hx))).imp id .inl
    · exact (h.has (.inr (.inr hx))).imp id .inl

lemma Respects.mint (hlock : s.accountLocks e.balanceKey = some i)
    (hnone : Underived e.idempotencyNonce → s.idempotencyCache e.idempotencyKey = none) :
    Respects i s ((s.built e).applyLocal e) where
  locks _ _ _ := Iff.rfl
  owned {key k} _ hk hlock' := by
    change s.idempotencyCache.insert e.idempotencyKey e key = _
    apply Map.insert_of_ne
    rintro rfl
    change s.accountLocks e.balanceKey = some k at hlock'
    rw [hlock] at hlock'
    exact hk (Option.some.inj hlock').symm
  kept {key x} hu hx := by
    change s.idempotencyCache.insert e.idempotencyKey e key = some x
    rw [Map.insert_of_ne]
    · exact hx
    · rintro rfl
      rw [hnone hu] at hx
      cases hx
  minted := List.prefix_append _ _

/-- What a request does to its own lock. -/
lemma Respects.of_lock (key : BalanceKey) (owner : Option ℕ)
    (hbefore : ∀ k, s.accountLocks key = some k → k = i) (hafter : ∀ k, owner = some k → k = i)
    (hlocks : s'.accountLocks = fun k => if k = key then owner else s.accountLocks k)
    (hcache : s'.idempotencyCache = s.idempotencyCache) (hminted : s'.minted = s.minted) :
    Respects i s s' := by
  apply Respects.congr _ hcache hminted
  intro k j hj
  rw [hlocks]
  dsimp only
  split
  · rename_i hk
    subst hk
    exact ⟨fun h => absurd (hbefore j h) hj, fun h => absurd (hafter j h) hj⟩
  · exact Iff.rfl

end Steps

/-! ## The request -/

/-- The judgement: the contract holds so far, and the request stands at a stage. -/
structure RetryAt (i : ℕ) (input : LocalCreateInput) (start : SharedState D) (_ids : List (ℕ × ℕ))
    (st : CreateStage) (s₀ s : SharedState D) : Prop where
  inv : Remembers start s
  guar : Respects i s₀ s
  running : s.running = i
  standing : Standing i input start s st

namespace RetryAt

variable {i : ℕ} {input : LocalCreateInput} {start s₀ s s' : SharedState D} {ids : List (ℕ × ℕ)}
  {st : CreateStage}

/-- An act that changes no entry, no balance and nothing that is minted. -/
lemma keep {ids' : List (ℕ × ℕ)} {st' : CreateStage} (h : RetryAt i input start ids st s₀ s)
    (hrespects : Respects i s s') (hcache : s'.idempotencyCache = s.idempotencyCache)
    (hminted : s'.minted = s.minted)
    (hbalance : ∀ k, (s'.account k).balance = (s.account k).balance)
    (hhas : ∀ e, s'.Has e → s.Has e ∨ e ∈ s.minted) (hrunning : s'.running = s.running)
    (hst : Standing i input start s' st') : RetryAt i input start ids' st' s₀ s' where
  inv := h.inv.congr hcache hminted hbalance hhas
  guar := h.guar.trans hrespects
  running := hrunning.trans h.running
  standing := hst

lemma quiet {es : List Event} (h : RetryAt i input start ids st s₀ s) (hq : s.Quiet es s')
    (hes : ∀ e ∈ es, e ∈ s.minted) : RetryAt i input start ids st s₀ s' := by
  have hhas : ∀ e, s'.Has e → s.Has e ∨ e ∈ s.minted := by
    rintro e (he | he | he)
    · rw [hq.idempotencyCache] at he
      exact .inl (.inl he)
    · rw [hq.events] at he
      exact .inl (.inr (.inl he))
    · rcases hq.queue e he with he | he
      · exact .inl (.inr (.inr he))
      · exact .inr (hes e he)
  refine h.keep (.congr (fun key k _ => ?_) hq.idempotencyCache hq.minted) hq.idempotencyCache
    hq.minted (fun k => ?_) hhas hq.running ?_
  · rw [hq.accountLocks]
  · rw [hq.account]
  · exact h.standing.congr hq.accountLocks hq.idempotencyCache hq.minted

/-- The request may be suspended wherever it stands. -/
lemma rests {ready : Wait → SharedState D → Bool} {C : Wait → SharedState D → Prop} {l : Wait}
    (h : RetryAt i input start ids st s₀ s) :
    (retryContract start).Rests ready SharedState.resumed C i l (RetryAt i input start ids st)
      s₀ s := by
  refine ⟨h.inv, h.guar, (Standing i input start · st), Standing.stable i input start st,
    h.standing, fun _ _ _ => trivial, fun s' hinv hst _ _ => ?_⟩
  exact ⟨hinv.congr rfl rfl (fun _ => rfl) fun _ he => .inl he,
    .congr (fun _ _ _ => Iff.rfl) rfl rfl, rfl, hst.congr rfl rfl rfl⟩

variable {ready : Wait → SharedState D → Bool} {C : Wait → SharedState D → Prop}

/-- A request that takes a free lock. -/
lemma locked (h : RetryAt i input start ids st s₀ s) {key : BalanceKey} {st' : CreateStage}
    (hfree : s.accountLocks key = none) (hst : Standing i input start (s.lockAccount key) st') :
    RetryAt i input start ids st' s₀ (s.lockAccount key) := by
  refine h.keep ?_ rfl rfl (fun _ => rfl) (fun _ he => .inl he) rfl hst
  refine Respects.of_lock key (some i) (fun k hk => ?_) (fun k hk => ?_) ?_ rfl
    rfl
  · rw [hfree] at hk
    cases hk
  · exact (Option.some.inj hk).symm
  · funext k
    change s.accountLocks.insert key s.running k = _
    rw [Map.insert_apply, h.running]

/-- A request that gives a lock back. -/
lemma unlocked (h : RetryAt i input start ids st s₀ s) {key : BalanceKey} {st' : CreateStage}
    (hlock : s.accountLocks key = some i)
    (hst : Standing i input start (s.unlockAccount key) st') :
    RetryAt i input start ids st' s₀ (s.unlockAccount key) := by
  refine h.keep ?_ rfl rfl (fun _ => rfl) (fun _ he => .inl he) rfl hst
  refine Respects.of_lock key none (fun k hk => ?_) (fun k hk => ?_) ?_ rfl rfl
  · rw [hlock] at hk
    exact (Option.some.inj hk).symm
  · cases hk
  · funext k
    exact Map.remove_apply _ _ _

/-- Waiting for a lock. -/
lemma rests_lock (h : RetryAt i input start ids st s₀ s) {key : BalanceKey}
    {J : SharedState D → SharedState D → Prop}
    (hnext : ∀ s₀ s, RetryAt i input start ids st s₀ s → s.accountLocks key = none → J s₀ s) :
    (retryContract start).Rests Wait.ready SharedState.resumed C i (.account key) J s₀
      (s.ensureAccount key) := by
  have hensured : RetryAt i input start ids st s₀ (s.ensureAccount key) := by
    refine h.keep (.congr (fun _ _ _ => Iff.rfl) rfl rfl) rfl rfl (fun k => ?_)
      (fun _ he => .inl he) rfl (h.standing.congr rfl rfl rfl)
    rw [SharedState.account_ensureAccount]
  have hrests : (retryContract start).Rests Wait.ready SharedState.resumed C i (.account key)
      (RetryAt i input start ids st) s₀ (s.ensureAccount key) := hensured.rests
  obtain ⟨hinv, hguar, P, hstable, hP, hpause, hresume⟩ := hrests
  refine ⟨hinv, hguar, P, hstable, hP, hpause, fun s' h₁ h₂ hready h₄ => ?_⟩
  apply hnext _ _ (hresume s' h₁ h₂ hready h₄)
  exact Option.isNone_iff_eq_none.1 hready

/-- A look-up that found a stored event. -/
lemma reload (h : RetryAt i input start ids st s₀ s) {e : Event}
    (hlock : s.accountLocks input.balanceKey = some i)
    (hnone : Underived input.idempotencyNonce →
      s.idempotencyCache input.idempotencyKey = none)
    (he : e.idempotencyKey = input.idempotencyKey) (hhas : start.Has e ∨ e ∈ s.minted) :
    RetryAt i input start ids (.found e) s₀ (s.remember input.idempotencyKey e) where
  inv :=
    { cached := by
        intro key x hx
        change s.idempotencyCache.insert input.idempotencyKey e key = some x at hx
        by_cases hkey : key = input.idempotencyKey
        · subst hkey
          rw [Map.insert_self] at hx
          cases hx
          exact he
        · rw [Map.insert_of_ne _ _ _ hkey] at hx
          exact h.inv.cached hx
      minted := by
        intro key hu
        change s.minted.filter _ = [] ∨ ∃ x, s.minted.filter _ = [x] ∧
          s.idempotencyCache.insert input.idempotencyKey e key = some x
        by_cases hkey : key = input.idempotencyKey
        · subst hkey
          refine .inl ((h.inv.minted hu).resolve_right ?_)
          rintro ⟨x, -, hx⟩
          rw [hnone hu] at hx
          cases hx
        · rw [Map.insert_of_ne _ _ _ hkey]
          exact h.inv.minted hu
      balance := h.inv.balance
      has := by
        rintro x (⟨key, hx⟩ | hx)
        · change s.idempotencyCache.insert input.idempotencyKey e key = some x at hx
          by_cases hkey : key = input.idempotencyKey
          · subst hkey
            rw [Map.insert_self] at hx
            cases hx
            exact hhas
          · rw [Map.insert_of_ne _ _ _ hkey] at hx
            exact h.inv.has (.inl ⟨key, hx⟩)
        · exact h.inv.has (.inr hx) }
  guar := by
    refine h.guar.trans ⟨fun _ _ _ => Iff.rfl, fun {key k} _ hk hlock' => ?_,
      fun {key x} hu hx => ?_, List.prefix_refl _⟩
    · apply Map.insert_of_ne
      rintro rfl
      change s.accountLocks input.balanceKey = some k at hlock'
      rw [hlock] at hlock'
      exact hk (Option.some.inj hlock').symm
    · change s.idempotencyCache.insert input.idempotencyKey e key = some x
      rw [Map.insert_of_ne]
      · exact hx
      · rintro rfl
        rw [hnone hu] at hx
        cases hx
  running := h.running
  standing := ⟨hlock, fun _ => Map.insert_self _ _ _⟩

/-- Minting one event of a request. -/
lemma mint (env : Env D) (id : ℕ × ℕ) (now : ℕ) (d : EventDraft) {credit : Option BalanceKey}
    {es : List Event} {checkedAt : ℕ} {mode : LocalCreateMode}
    (h : RetryAt i input start ids (.working credit es) s₀ s)
    (hmode : LocalCreateMode.fromInput input checkedAt = .ok mode) (hd : mode.Drafts input d)
    (hkey : d.key = credit.getD input.balanceKey)
    (hfresh : ∀ e ∈ es, e.idempotencyNonce ≠ d.idempotencyNonce) :
    let e := d.event (env.freshId s.idsDrawn) env.nodeId id now
    RetryAt i input start [] (.working credit (es ++ [e])) s₀ ((s.built e).applyLocal e) := by
  intro e
  obtain ⟨hlock, hcredit, hes, hentry⟩ := h.standing
  have hown : s.accountLocks e.balanceKey = some i := by
    change s.accountLocks d.key = some i
    rw [hkey]
    cases credit with
    | none => exact hlock
    | some key => exact (hcredit key rfl).2
  -- the only draft with an underived nonce is the primary one, which has not been minted yet
  have hnone : Underived e.idempotencyNonce → s.idempotencyCache e.idempotencyKey = none := by
    intro hu
    have hprimary : e.idempotencyKey = input.idempotencyKey := hd.key_of_underived hmode hu
    have hnonce : e.idempotencyNonce = input.idempotencyNonce := congrArg Prod.fst hprimary
    rw [hprimary]
    apply (hentry (hnonce ▸ hu)).2
    intro x hx hxkey
    exact hfresh x hx ((congrArg Prod.fst hxkey).trans hnonce.symm)
  refine ⟨h.inv.mint hnone, h.guar.trans (.mint hown hnone), h.running, hlock, hcredit, ?_, ?_⟩
  · intro x hx
    rcases List.mem_append.1 hx with hx | hx
    · exact List.mem_append_left _ (hes x hx)
    · exact List.mem_append_right _ hx
  · intro hu
    change (∀ x ∈ es ++ [e], x.idempotencyKey = input.idempotencyKey →
        s.idempotencyCache.insert e.idempotencyKey e input.idempotencyKey = some x) ∧
      ((∀ x ∈ es ++ [e], x.idempotencyKey ≠ input.idempotencyKey) →
        s.idempotencyCache.insert e.idempotencyKey e input.idempotencyKey = none)
    by_cases hprimary : input.idempotencyKey = e.idempotencyKey
    · rw [hprimary, Map.insert_self]
      refine ⟨fun x hx hxkey => ?_, fun hne => ?_⟩
      · rcases List.mem_append.1 hx with hx | hx
        · exact absurd (congrArg Prod.fst hxkey) (hfresh x hx)
        · rw [List.mem_singleton.1 hx]
      · exact absurd rfl (hne e (List.mem_append_right _ (List.mem_singleton.2 rfl)))
    · rw [Map.insert_of_ne _ _ _ hprimary]
      refine ⟨fun x hx hxkey => ?_, fun hne => ?_⟩
      · rcases List.mem_append.1 hx with hx | hx
        · exact (hentry hu).1 x hx hxkey
        · rw [List.mem_singleton.1 hx] at hxkey
          exact absurd hxkey.symm hprimary
      · exact (hentry hu).2 fun x hx => hne x (List.mem_append_left _ hx)

end RetryAt

/-- **Every step of a request keeps the contract.** -/
theorem retryRules (env : Env D) (i : ℕ) (input : LocalCreateInput) (start : SharedState D)
    (C : Wait → SharedState D → Prop) :
    CreateRules Wait.ready SharedState.resumed (retryContract start) C i (Lens.whole _) id env input
      (RetryAt i input start) where
  rest _ hs := hs.rests
  noted {st s₀ s s'} hs hnoted := by
    refine hs.quiet hnoted.toQuiet fun e he => ?_
    cases st with
    | working credit es => exact hs.standing.2.2.1 e he
    | _ => cases he
  refuse {s₀ s} err hs :=
    hs.keep (.refl i s) rfl rfl (fun _ => rfl) (fun _ he => .inl he) rfl trivial
  lock hs := by
    apply hs.rests_lock
    intro s₀ s hs hfree
    refine hs.locked hfree ?_
    change s.accountLocks.insert _ s.running _ = some i
    rw [Map.insert_self, hs.running]
  hit {e s₀ s} hs he :=
    hs.keep (.refl i s) rfl rfl (fun _ => rfl) (fun _ he => .inl he) rfl
      ⟨hs.standing, fun _ => he⟩
  miss {s₀ s} hs hnone :=
    hs.keep (.refl i s) rfl rfl (fun _ => rfl) (fun _ he => .inl he) rfl
      ⟨hs.standing, fun _ => hnone⟩
  ask {s₀ s} hs := by
    refine hs.keep (.refl i s) rfl rfl (fun _ => rfl) (fun _ he => .inl he) rfl
      ⟨hs.standing.1, hs.standing.2, fun e he => ?_⟩
    obtain ⟨he, hkey⟩ := List.mem_filter.1 he
    exact ⟨of_decide_eq_true hkey, hs.inv.has (.inr (.inl he))⟩
  reload {rows e s₀ s} hs hwinner := by
    obtain ⟨hlock, hnone, hrows⟩ := hs.standing
    obtain ⟨hkey, hhas⟩ := hrows e (mem_of_canonicalWinner hwinner)
    exact hs.reload hlock hnone hkey hhas
  unknown {rows s₀ s} hs _ := by
    refine hs.keep (.refl i s) rfl rfl (fun _ => rfl) (fun _ he => .inl he) rfl
      ⟨hs.standing.1, ?_, ?_, fun hu => ⟨?_, fun _ => hs.standing.2.1 hu⟩⟩
    · rintro key ⟨⟩
    · rintro e ⟨⟩
    · rintro e ⟨⟩
  unanswered {s₀ s} hs := by
    refine hs.keep (.refl i s) rfl rfl (fun _ => rfl) (fun _ he => .inl he) rfl
      ⟨hs.standing.1, ?_, ?_, fun hu => ⟨?_, fun _ => hs.standing.2 hu⟩⟩
    · rintro key ⟨⟩
    · rintro e ⟨⟩
    · rintro e ⟨⟩
  allocate {ids credit es s₀ s} hs := by
    rw [Proc.zoom_whole]
    refine Proc.wp_mono (fun r s₀ s hs => ?_) (Proc.wp_of_only
      (J := RetryAt i input start [] (.working credit es)) (fun s₀ s s' hs hq => hs.quiet hq ?_)
      (fun l s₀ s _ hs => hs.rests) (only_allocate env input.bucket) ⟨hs.1, hs.2, hs.3, hs.4⟩)
    · cases r with
      | ok id => exact ⟨hs.1, hs.2, hs.3, hs.4⟩
      | error _ => exact hs
    · rintro e ⟨⟩
  mint {id} _ _ _ _ _ _ now d hs hmode hd hkey hfresh _ :=
    hs.mint env id now d hmode hd hkey hfresh
  settle {id id' s₀ s checkedAt reservationId} now hs hmode := by
    have hcharge := hs.mint env id now input.captureDraft hmode (.inl rfl) rfl
      fun e he => absurd he List.not_mem_nil
    refine hcharge.mint env id' now (input.settleReleaseDraft reservationId) hmode (.inr rfl) rfl
      fun e he hnonce => ?_
    rw [List.mem_singleton.1 he] at hnonce
    have hlength := congrArg String.length hnonce
    simp [EventDraft.event, LocalCreateInput.captureDraft,
      LocalCreateInput.settleReleaseDraft] at hlength
  lockCredit {es s₀ s toAddr} hs _ := by
    apply hs.rests_lock
    intro s₀ s hs hfree
    obtain ⟨hlock, -, hes, hentry⟩ := hs.standing
    have hne : input.balanceKey ≠ (input.bucket, toAddr) := by
      intro heq
      rw [heq, hfree] at hlock
      cases hlock
    refine hs.locked hfree ⟨?_, ?_, hes, hentry⟩
    · change s.accountLocks.insert _ s.running _ = some i
      rw [Map.insert_of_ne _ _ _ hne]
      exact hlock
    · rintro key ⟨⟩
      refine ⟨hne.symm, ?_⟩
      change s.accountLocks.insert _ s.running _ = some i
      rw [Map.insert_self, hs.running]
  unlockCredit {es key s₀ s} hs := by
    obtain ⟨hlock, hcredit, hes, hentry⟩ := hs.standing
    refine hs.unlocked (hcredit key rfl).2 ⟨?_, ?_, hes, hentry⟩
    · change s.accountLocks.remove key _ = some i
      rw [Map.remove_of_ne _ _ (hcredit key rfl).1.symm]
      exact hlock
    · rintro key ⟨⟩
  unlock {st r s₀ s} hs hends := by
    cases st with
    | found e =>
        obtain ⟨hlock, hfound⟩ := hs.standing
        refine hs.unlocked hlock ?_
        cases r with
        | error _ => cases hends
        | ok r =>
            subst hends
            exact hfound
    | working credit es =>
        obtain ⟨hlock, -, -, hentry⟩ := hs.standing
        refine hs.unlocked hlock ?_
        cases credit with
        | some key => cases hends
        | none =>
            cases r with
            | error _ => trivial
            | ok r =>
                obtain ⟨-, hmem, hkey⟩ := hends
                exact fun hu => (hentry hu).1 _ hmem hkey
    | _ => cases hends

/-! ## The other calls -/

/-- The judgement of the batch writer and of the sweep; `es` is what the writer has taken. -/
structure WriterAt (i : ℕ) (start : SharedState D) (es : List Event) (s₀ s : SharedState D) :
    Prop where
  inv : Remembers start s
  guar : Respects i s₀ s
  has : ∀ e ∈ es, start.Has e ∨ e ∈ s.minted

section Writer

variable {i : ℕ} {start s₀ s s' : SharedState D} {es : List Event}

lemma WriterAt.wrote (h : WriterAt i start es s₀ s) (hw : s.Wrote es s') :
    WriterAt i start es s₀ s' where
  inv := by
    have haccount : ∀ k, s'.account k = s.account k := fun k => by
      rw [SharedState.account, hw.accounts, SharedState.account]
    refine
      { cached := fun hx => h.inv.cached (by rw [hw.idempotencyCache] at hx; exact hx)
        minted := fun hu => by rw [hw.minted, hw.idempotencyCache]; exact h.inv.minted hu
        balance := fun k => by rw [hw.minted, haccount]; exact h.inv.balance k
        has := fun {x} hx => ?_ }
    rw [hw.minted]
    rcases hx with ⟨key, hx⟩ | hx | hx
    · rw [hw.idempotencyCache] at hx
      exact h.inv.has (.inl ⟨key, hx⟩)
    · rcases hw.events x hx with hx | hx
      · exact h.inv.has (.inr (.inl hx))
      · exact h.has x hx
    · rw [hw.queue] at hx
      exact h.inv.has (.inr (.inr hx))
  guar := by
    refine h.guar.trans (.congr (fun key k _ => ?_) hw.idempotencyCache hw.minted)
    rw [hw.accountLocks]
  has e he := by
    rw [hw.minted]
    exact h.has e he

lemma WriterAt.rests {ready : Wait → SharedState D → Bool} {C : Wait → SharedState D → Prop}
    {l : Wait} (h : WriterAt i start es s₀ s) :
    (retryContract start).Rests ready SharedState.resumed C i l (WriterAt i start es) s₀ s := by
  refine ⟨h.inv, h.guar, fun s => ∀ e ∈ es, start.Has e ∨ e ∈ s.minted, ?_, h.has,
    fun _ _ _ => trivial, fun s' hinv hes _ _ => ?_⟩
  · intro j s s' _ hes hguar e he
    exact (hes e he).imp id fun hm => hguar.minted.subset hm
  · exact ⟨hinv.congr rfl rfl (fun _ => rfl) fun _ he => .inl he,
      .congr (fun _ _ _ => Iff.rfl) rfl rfl, hes⟩

end Writer

/-- The contract is kept from the first step of every call to its last. -/
lemma retry_startsKept (env : Env D) (start : SharedState D) :
    Pool.StartsKept (nodeScheduler env NodeCall.Local) (retryContract start) (fun _ _ => True)
      fun _ => Answered where
  absent i := .true _ i
  stable _ _ _ _ _ _ ha hguar := Respects.answered hguar ha
  pause _ _ _ _ _ _ _ := trivial
  start := by
    rintro l t ⟨-, c, hc, rfl⟩ i s hinv - - -
    have hresumed : Respects i s (s.resumed i) := .congr (fun _ _ _ => Iff.rfl) rfl rfl
    have hinv' : Remembers start (s.resumed i) :=
      Remembers.congr hinv rfl rfl (fun _ => rfl) fun _ he => .inl he
    cases c with
    | insert _ => exact absurd hc id
    | delete _ _ => exact absurd hc id
    | scan _ _ => exact absurd hc id
    | create input =>
        have hidle : RetryAt i input start [] .idle s (s.resumed i) :=
          ⟨hinv', hresumed, rfl, trivial⟩
        refine Proc.wp_mono (fun a s₀ s ha => ?_)
          (wp_create (retryRules env i input start fun _ _ => True) hidle)
        obtain ⟨r, rfl, hs⟩ := ha
        exact ⟨hs.inv, hs.guar, hs.standing⟩
    | writeBatch first size =>
        have hbatch : WriterAt i start (((s.resumed i).batchQueue.drop first).take size) s
            (s.resumed i) := by
          refine ⟨hinv', hresumed, fun e he => hinv'.has (.inr (.inr ?_))⟩
          exact List.mem_of_mem_drop (List.mem_of_mem_take he)
        refine Proc.wp_mono (fun a s₀ s ha => ?_) (wp_writeBatch (J := WriterAt i start _)
          (Proc.wp_of_only (fun _ _ _ hs hw => hs.wrote hw) (fun _ _ _ _ hs => hs.rests)
            (only_doFlush env _) hbatch))
        obtain ⟨rfl, hs⟩ := ha
        exact ⟨hs.inv, hs.guar, trivial⟩
    | sweep =>
        have hbalance : ∀ (s : SharedState D) now k,
            ((s.sweepExpired now).account k).balance = (s.account k).balance := by
          intro s now k
          rcases SharedState.account_sweepExpired now k with h | h <;> rw [h]
          rfl
        refine ⟨hinv'.congr rfl rfl (fun k => hbalance _ _ k) fun _ he => .inl he, ?_, trivial⟩
        exact hresumed.trans (.congr (fun _ _ _ => Iff.rfl) rfl rfl)

/-! ## Local idempotency -/

/-- The events of an account, but for the one event of a key. -/
lemma foldl_amount_of_filter {l : List Event} {key : IdemKey} {e : Event}
    (h : l.filter (·.idempotencyKey = key) = [e]) (b : Int64) :
    (l.filter (·.balanceKey = key.balanceKey)).foldl (fun b e => b + e.amount) b =
      (l.filter fun x => x.balanceKey = key.balanceKey ∧ x.idempotencyKey ≠ key).foldl
        (fun b e => b + e.amount) b + e.amount := by
  have hcomm : ∀ (l : List Event) (b c : Int64), l.foldl (fun b e => b + e.amount) (b + c) =
      l.foldl (fun b e => b + e.amount) b + c := by
    intro l
    induction l with
    | nil => exact fun _ _ => rfl
    | cons x l ih =>
        intro b c
        rw [List.foldl_cons, List.foldl_cons, ← ih, Int64.add_assoc, Int64.add_comm c,
          ← Int64.add_assoc]
  have hkey : ∀ x : Event, x.idempotencyKey = key → x.balanceKey = key.balanceKey := by
    rintro x rfl
    rfl
  induction l generalizing b with
  | nil => cases h
  | cons x l ih =>
      by_cases hx : x.idempotencyKey = key
      · -- this is the event, and no later one has the key
        rw [List.filter_cons_of_pos (by simpa using hx)] at h
        obtain ⟨rfl, hnil⟩ := List.cons.inj h
        have hrest : l.filter (fun x => x.balanceKey = key.balanceKey ∧ x.idempotencyKey ≠ key) =
            l.filter (·.balanceKey = key.balanceKey) := by
          apply List.filter_congr
          intro y hy
          have hne := List.filter_eq_nil_iff.1 hnil y hy
          simp only [decide_eq_true_eq] at hne
          simp [hne]
        rw [List.filter_cons_of_pos (by simpa using hkey x hx),
          List.filter_cons_of_neg (by simpa using fun _ => hx), hrest, List.foldl_cons, hcomm]
      · rw [List.filter_cons_of_neg (by simpa using hx)] at h
        by_cases hacc : x.balanceKey = key.balanceKey
        · rw [List.filter_cons_of_pos (by simpa using hacc),
            List.filter_cons_of_pos (by simpa using ⟨hacc, hx⟩), List.foldl_cons, List.foldl_cons]
          exact ih h _
        · rw [List.filter_cons_of_neg (by simpa using hacc),
            List.filter_cons_of_neg (by simpa using fun hacc' => absurd hacc' hacc)]
          exact ih h _

/-- **Local idempotency.**  In every interleaving of requests at one node, at most one event is
minted for a key with an underived nonce; the requests of the key that succeed are answered with one
event, which is the minted one unless it is from an earlier run; and the minted event moves the
balance of its account by its amount, once. -/
theorem answers_of_retries {env : Env D} {start : SharedState D}
    {p : Pool (SharedState D) Wait NodeAnswer} (hminted : start.minted = [])
    (hcached : ∀ key e, start.idempotencyCache key = some e → e.idempotencyKey = key)
    (h : NodeReach env NodeCall.Local start p) {key : IdemKey} (hkey : Underived key.1) :
    (p.shared.minted.filter (·.idempotencyKey = key)).length ≤ 1 ∧
    (∀ i j input input' r r', p.calls i = .finished (.created input (.ok r)) →
      p.calls j = .finished (.created input' (.ok r')) → input.idempotencyKey = key →
      input'.idempotencyKey = key → r'.primaryEvent = r.primaryEvent) ∧
    (∀ i input r, p.calls i = .finished (.created input (.ok r)) → input.idempotencyKey = key →
      r.primaryEvent.idempotencyKey = key ∧
        (p.shared.minted.filter (·.idempotencyKey = key) = [r.primaryEvent] ∨
          p.shared.minted.filter (·.idempotencyKey = key) = [] ∧ start.Has r.primaryEvent)) ∧
    ∀ e, p.shared.minted.filter (·.idempotencyKey = key) = [e] →
      (p.shared.account key.balanceKey).balance =
        (p.shared.minted.filter fun x =>
            x.balanceKey = key.balanceKey ∧ x.idempotencyKey ≠ key).foldl
          (fun b x => b + x.amount) (start.account key.balanceKey).balance + e.amount := by
  have hstart : Remembers start start := by
    refine ⟨fun he => hcached _ _ he, fun _ => .inl ?_, fun k => ?_, fun he => .inl he⟩
    · rw [hminted]
      rfl
    · rw [hminted]
      rfl
  have hsound := Pool.sound_of_reach (retry_startsKept env start) hstart (fun _ => trivial) h
  have hinv : Remembers start p.shared := hsound.inv
  have hanswer : ∀ i input r, p.calls i = .finished (.created input (.ok r)) →
      input.idempotencyKey = key → p.shared.idempotencyCache key = some r.primaryEvent := by
    rintro i input r hi rfl
    exact hsound.finished i _ hi hkey
  refine ⟨?_, fun i j input input' r r' hi hj hin hin' => ?_, fun i input r hi hin => ?_,
    fun e he => ?_⟩
  · rcases hinv.minted hkey with hnil | ⟨e, he, -⟩
    · rw [hnil]
      exact Nat.zero_le _
    · rw [he]
      exact Nat.le_refl _
  · have hfirst := hanswer i input r hi hin
    rw [hanswer j input' r' hj hin'] at hfirst
    exact Option.some.inj hfirst
  · have hentry := hanswer i input r hi hin
    refine ⟨hinv.cached hentry, ?_⟩
    rcases hinv.minted hkey with hnil | ⟨e, he, hcache⟩
    · refine .inr ⟨hnil, (hinv.has (.inl ⟨key, hentry⟩)).resolve_right fun hm => ?_⟩
      have hmem : r.primaryEvent ∈ p.shared.minted.filter (·.idempotencyKey = key) :=
        List.mem_filter.2 ⟨hm, decide_eq_true (hinv.cached hentry)⟩
      rw [hnil] at hmem
      cases hmem
    · rw [hentry] at hcache
      rw [he, Option.some.inj hcache]
      exact .inl rfl
  · rw [hinv.balance, foldl_amount_of_filter he]

/-- Two requests with one nonce: the second waits for the first, and is answered with its event. -/
theorem answers_of_retries_twice :
    let input := LocalCreateInput.legacy "bucket" "alice" 10 none 0 "n1" false
    let p := playCalls (Env.plain "node" 1000) NodeCall.Local (fun _ _ => True) (.blank .empty)
      [.create input, .create input] [0, 1, 0, 0, 0, 0, 0, 0, 0, 0, 0, 1, 1, 1]
    ∃ r r', succeeded p 0 = some (input, r) ∧ succeeded p 1 = some (input, r') ∧
      r'.primaryEvent = r.primaryEvent ∧ (p.shared.account ("bucket", "alice")).balance = 10 := by
  intro input p
  have hfirst : ((succeeded p 0).map Prod.fst) = some input := by decide +kernel
  have hsecond : ((succeeded p 1).map Prod.fst) = some input := by decide +kernel
  have hbalance : (p.shared.account ("bucket", "alice")).balance = 10 := by decide +kernel
  have hreach : NodeReach (Env.plain "node" 1000) NodeCall.Local (.blank .empty) p := by
    apply reach_playCalls
    rintro c (- | ⟨- , - | ⟨-, ⟨⟩⟩⟩) <;> trivial
  obtain ⟨⟨_, r⟩, hr, rfl⟩ := Option.map_eq_some_iff.1 hfirst
  obtain ⟨⟨_, r'⟩, hr', hin'⟩ := Option.map_eq_some_iff.1 hsecond
  dsimp only at hin'
  subst hin'
  clear_value p
  have hnonce : Underived input.idempotencyKey.1 := by decide
  have hanswers := answers_of_retries rfl (fun key e he => by cases he) hreach hnonce
  exact ⟨r, r', hr, hr', hanswers.2.1 0 1 _ _ r r' (calls_of_succeeded hr) (calls_of_succeeded hr')
    rfl rfl, hbalance⟩

end Shardd
