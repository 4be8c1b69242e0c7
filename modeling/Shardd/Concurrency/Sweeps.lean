import Shardd.Concurrency.Captures
import Shardd.Lib.Coupling

/-!
# Sweeps are invisible

Two runs of a node play one schedule from one state, the first as it is and the second after a sweep
at the instant `t`.  Their states differ in what the accounts remember of holds that had expired at
`t` (`Swept`).  All programs of the node are in step: where one reads an account to decide something
it has just read the clock, later than `t`, when such holds count for nothing, and what it does to
an account it does to both.

What arrives late is harmless because ids are unique: a reservation that arrives again, or after its
release, is the hold that the sweep has forgotten, and has expired.

The calls that were suspended when the sweep came are in step as well.  Before the sweep the two
runs are one, and a call decides in the segment in which it reads the clock.
-/

namespace Shardd

variable {D : Type}

/-! ## Accounts -/

namespace AccountState

variable {t now : ℕ} {gone : String → Prop} {acc acc' : AccountState} {e : Event} {id : String}

lemma Agree.refl (t : ℕ) (gone : String → Prop) (acc : AccountState) : acc.Agree t gone acc :=
  ⟨rfl, rfl, fun _ => .inl ⟨rfl, Iff.rfl⟩⟩

lemma Agree.mono {gone' : String → Prop} (h : acc.Agree t gone acc')
    (hsub : ∀ id, gone id → gone' id) : acc.Agree t gone' acc' :=
  { h with hold := fun id => (h.hold id).imp_right (And.imp_left (hsub id)) }

lemma Lapsed.applyEvent (h : acc.Lapsed t id)
    (he : id = e.eventId → e.holdExpiresAtUnixMs ≤ t) : (acc.applyEvent e).Lapsed t id := by
  intro r hr
  rw [lookup_applyEvent] at hr
  split at hr
  · rename_i hhold
    obtain rfl := Option.some.inj hr
    exact he hhold.2
  · exact h r hr

/-- An event is applied to both; if its hold is gone it has expired. -/
lemma Agree.applyEvent (h : acc.Agree t gone acc')
    (he : gone e.eventId → e.holdExpiresAtUnixMs ≤ t) :
    (acc.applyEvent e).Agree t gone (acc'.applyEvent e) := by
  constructor
  · rw [balance_applyEvent, balance_applyEvent, h.balance]
  · rw [eventCount_applyEvent, eventCount_applyEvent, h.eventCount]
  · intro id
    rcases h.hold id with ⟨hlookup, hmark⟩ | ⟨hgone, hacc, hacc'⟩
    · refine .inl ⟨?_, ?_⟩
      · rw [lookup_applyEvent, lookup_applyEvent, hlookup]
      · rw [mem_released_applyEvent, mem_released_applyEvent, hmark]
    · have hexpired : id = e.eventId → e.holdExpiresAtUnixMs ≤ t := fun hid => he (hid ▸ hgone)
      exact .inr ⟨hgone, hacc.applyEvent hexpired, hacc'.applyEvent hexpired⟩

/-- A correction is applied to both. -/
lemma Agree.correct (h : acc.Agree t gone acc') (amount : Int64) (e : Event) :
    ((acc.post amount).applyReleaseOf e).Agree t gone ((acc'.post amount).applyReleaseOf e) := by
  have hposted : (acc.post amount).Agree t gone (acc'.post amount) := by
    refine ⟨?_, ?_, h.hold⟩
    · exact congrArg (· + amount) h.balance
    · exact congrArg (· + 1) h.eventCount
  have hreleased : ∀ r, ((acc.post amount).applyRelease r).Agree t gone
      ((acc'.post amount).applyRelease r) := by
    intro r
    refine ⟨hposted.balance, hposted.eventCount, fun id => (hposted.hold id).imp_left ?_⟩
    rintro ⟨hlookup, hmark⟩
    refine ⟨hlookup, ?_⟩
    unfold applyRelease
    rw [Finset.mem_insert, Finset.mem_insert, hmark]
  unfold applyReleaseOf
  split
  · exact hreleased _
  · exact hposted

lemma lookup_sweepExpired (acc : AccountState) (now : ℕ) (id : String) :
    (acc.sweepExpired now).reservations.lookup id =
      (acc.reservations.lookup id).filter fun r => decide (now < r.expiresAtUnixMs) :=
  Finmap.lookup_filter _ _ _

lemma mem_released_sweepExpired (acc : AccountState) (now : ℕ) (id : String) :
    id ∈ (acc.sweepExpired now).released ↔ id ∈ acc.released ∧
      ((acc.reservations.lookup id).all fun r => decide (now < r.expiresAtUnixMs)) = true :=
  Finset.mem_filter

lemma Lapsed.sweepExpired (h : acc.Lapsed t id) (now : ℕ) : (acc.sweepExpired now).Lapsed t id := by
  intro r hr
  rw [lookup_sweepExpired, Option.filter_eq_some_iff] at hr
  exact h r hr.1

/-- A sweep of both. -/
lemma Agree.sweepExpired (h : acc.Agree t gone acc') (now : ℕ) :
    (acc.sweepExpired now).Agree t gone (acc'.sweepExpired now) := by
  refine ⟨h.balance, h.eventCount, fun id => ?_⟩
  rcases h.hold id with ⟨hlookup, hmark⟩ | ⟨hgone, hacc, hacc'⟩
  · refine .inl ⟨?_, ?_⟩
    · rw [lookup_sweepExpired, lookup_sweepExpired, hlookup]
    · rw [mem_released_sweepExpired, mem_released_sweepExpired, hlookup, hmark]
  · exact .inr ⟨hgone, hacc.sweepExpired now, hacc'.sweepExpired now⟩

/-- A sweep of one of them. -/
lemma agree_sweepExpired (hgone : ∀ id r, acc.reservations.lookup id = some r →
    r.expiresAtUnixMs ≤ t → gone id) : acc.Agree t gone (acc.sweepExpired t) := by
  refine ⟨rfl, rfl, fun id => ?_⟩
  rcases hr : acc.reservations.lookup id with _ | r
  · refine .inl ⟨?_, ?_⟩
    · rw [lookup_sweepExpired, hr]
      rfl
    · rw [mem_released_sweepExpired, hr]
      simp
  · by_cases hlive : t < r.expiresAtUnixMs
    · refine .inl ⟨?_, ?_⟩
      · rw [lookup_sweepExpired, hr, Option.filter_some, if_pos (decide_eq_true hlive)]
      · rw [mem_released_sweepExpired, hr]
        simp [hlive]
    · have hexp : r.expiresAtUnixMs ≤ t := by omega
      have hlapsed : acc.Lapsed t id := by
        intro r' hr'
        rw [hr] at hr'
        obtain rfl := Option.some.inj hr'
        exact hexp
      exact .inr ⟨hgone id r hr hexp, hlapsed, hlapsed.sweepExpired t⟩

section Decisions

variable (nodeId : String) (cfg : HoldConfig) (amount : Int64) (maxOverdraft : UInt64)

lemma Alike.headroom (h : acc.Alike now acc') :
    Shardd.headroom acc amount maxOverdraft now = Shardd.headroom acc' amount maxOverdraft now := by
  unfold Shardd.headroom
  rw [h.availableBalance]

lemma Alike.chargeHold (h : acc.Alike now acc') (holdOverride : Option (UInt64 × ℕ)) :
    Shardd.chargeHold acc nodeId cfg amount maxOverdraft now holdOverride =
      Shardd.chargeHold acc' nodeId cfg amount maxOverdraft now holdOverride := by
  unfold Shardd.chargeHold activeHoldTotalForOrigin
  rw [h.headroom, h.activeReservations]

lemma Alike.overdraftGuard (h : acc.Alike now acc') (holdAmount : UInt64) :
    Shardd.overdraftGuard acc amount maxOverdraft now holdAmount =
      Shardd.overdraftGuard acc' amount maxOverdraft now holdAmount := by
  unfold Shardd.overdraftGuard
  rw [h.availableBalance, h.balance]

lemma Alike.reserveGuard (h : acc.Alike now acc') (holdAmount : UInt64) :
    Shardd.reserveGuard acc maxOverdraft now holdAmount =
      Shardd.reserveGuard acc' maxOverdraft now holdAmount := by
  unfold Shardd.reserveGuard
  rw [h.availableBalance, h.balance]

end Decisions

end AccountState

/-! ## States -/

/-- A hold the node knows of has this id, and has expired at `t`. -/
def SharedState.Expired (W : Event → Prop) (t : ℕ) (s : SharedState D) (id : String) : Prop :=
  ∃ x, s.Heard W x ∧ x.eventId = id ∧ x.holdExpiresAtUnixMs ≤ t

def SharedState.withAccounts (s : SharedState D) (accounts : Map BalanceKey AccountState) :
    SharedState D := { s with accounts := accounts }

/-- `s'` is `s`, but for what the accounts remember of holds that have expired at `t`; unless the
two are the same, the clock has gone past `t`. -/
structure Swept (env : Env D) (W : Event → Prop) (t : ℕ) (s s' : SharedState D) : Prop where
  frame : s' = s.withAccounts s'.accounts
  agree : ∀ key, (s.account key).Agree t (s.Expired W t) (s'.account key)
  unique : UniqueIds (s.Heard W)
  tracked : s.Tracked W
  later : s'.accounts = s.accounts ∨ ∀ n, s.clockReads ≤ n → t ≤ env.clock n

/-- The run without the sweep and the run with it, as long as no two events have the same id. -/
def sweepCoupling (env : Env D) (W : Event → Prop) (t : ℕ) : Coupling (SharedState D) where
  rel := Swept env W t
  ok s := UniqueIds (s.Heard W)
  enter := SharedState.resumed
  rel_enter i s s' h := by
    rw [h.frame]
    exact { h with frame := rfl }
  ok_enter _ _ h := h

section States

variable {env : Env D} {W : Event → Prop} {t : ℕ} {s s' u u' : SharedState D}

lemma SharedState.heard_mono (h : s.minted <+: u.minted) {x : Event} (hx : s.Heard W x) :
    u.Heard W x := hx.imp id fun hx => h.subset hx

lemma SharedState.Expired.mono (h : s.minted <+: u.minted) {id : String} (hid : s.Expired W t id) :
    u.Expired W t id := by
  obtain ⟨x, hx, hrest⟩ := hid
  exact ⟨x, SharedState.heard_mono h hx, hrest⟩

/-- The reservations of the second state are those of the first, or known holds. -/
def SharedState.Backed (W : Event → Prop) (s u : SharedState D) : Prop :=
  ∀ key r reservation, (u.account key).reservations.lookup r = some reservation →
    (s.account key).reservations.lookup r = some reservation ∨
      ∃ x, u.Heard W x ∧ x.Backs key r reservation

/-- One act in both runs. -/
lemma Swept.act (h : Swept env W t s s') (hframe : u' = u.withAccounts u'.accounts)
    (hclock : s.clockReads ≤ u.clockReads) (hminted : s.minted <+: u.minted)
    (hok : UniqueIds (u.Heard W))
    (hagree : ∀ key, (s.account key).Agree t (u.Expired W t) (s'.account key) →
      (u.account key).Agree t (u.Expired W t) (u'.account key))
    (hbacked : s.Backed W u) (hequal : s'.accounts = s.accounts → u'.accounts = u.accounts) :
    Swept env W t u u' where
  frame := hframe
  agree key := hagree key ((h.agree key).mono fun _ hid => hid.mono hminted)
  unique := hok
  tracked key r reservation hr := by
    rcases hbacked key r reservation hr with hr | hr
    · obtain ⟨x, hx, hbacks⟩ := h.tracked key r reservation hr
      exact ⟨x, SharedState.heard_mono hminted hx, hbacks⟩
    · exact hr
  later := h.later.imp hequal fun hlater n hn => hlater n (hclock.trans hn)

/-- An act that does not see the accounts. -/
structure Blind {α : Type} (f : SharedState D → α × SharedState D) : Prop where
  answer : ∀ s accounts, (f (s.withAccounts accounts)).1 = (f s).1
  state : ∀ s accounts, (f (s.withAccounts accounts)).2 = (f s).2.withAccounts accounts
  clockReads : ∀ s, s.clockReads ≤ (f s).2.clockReads
  minted : ∀ s, s.minted <+: (f s).2.minted

lemma Blind.accounts {α : Type} {f : SharedState D → α × SharedState D} (h : Blind f)
    (s : SharedState D) : (f s).2.accounts = s.accounts := by
  have hstate : (f s).2 = (f s).2.withAccounts s.accounts := h.state s s.accounts
  rw [hstate]
  rfl

lemma Swept.blind {α : Type} {f : SharedState D → α × SharedState D} (h : Swept env W t s s')
    (hf : Blind f) (hok : UniqueIds ((f s).2.Heard W)) :
    Swept env W t (f s).2 (f s').2 ∧ (f s').1 = (f s).1 := by
  have hstate : (f s').2 = (f s).2.withAccounts s'.accounts := by
    rw [h.frame]
    exact hf.state s s'.accounts
  have haccount : ∀ key, (f s).2.account key = s.account key := fun key => by
    rw [SharedState.account, hf.accounts, SharedState.account]
  have haccount' : ∀ key, (f s').2.account key = s'.account key := fun key => by
    rw [hstate]
    rfl
  refine ⟨h.act (by rw [hstate]; rfl) (hf.clockReads s) (hf.minted s) hok (fun key hagree => ?_)
    (fun key r reservation hr => .inl ?_) fun hequal => ?_, ?_⟩
  · rw [haccount, haccount']
    exact hagree
  · rw [haccount] at hr
    exact hr
  · rw [hstate, hf.accounts]
    exact hequal
  · rw [h.frame]
    exact hf.answer s s'.accounts

end States

/-! ## Acts on accounts -/

section Acts

variable {env : Env D} {W : Event → Prop} {t : ℕ} {s s' : SharedState D}

lemma SharedState.account_sweepExpired_eq (s : SharedState D) (now : ℕ) (key : BalanceKey) :
    (s.sweepExpired now).account key =
      if (s.accountLocks key).isNone then (s.account key).sweepExpired now else s.account key := by
  unfold account sweepExpired
  dsimp only
  split
  · rcases s.accounts key with _ | acc <;> rfl
  · rfl

namespace Swept

lemma modifyAccount (h : Swept env W t s s') (key : BalanceKey) {f : AccountState → AccountState}
    (hagree : ∀ {acc acc' : AccountState}, acc.Agree t (s.Expired W t) acc' →
      (f acc).Agree t (s.Expired W t) (f acc'))
    (hgrows : ∀ acc : AccountState, acc.Grows (s.Heard W) key (f acc)) :
    Swept env W t (s.modifyAccount key f) (s'.modifyAccount key f) := by
  refine h.act ?_ (Nat.le_refl _) (List.prefix_refl _) h.unique (fun k hk => ?_)
    (fun k r reservation hr => ?_) fun hequal => ?_
  · rw [h.frame]
    rfl
  · rw [SharedState.account_modifyAccount, SharedState.account_modifyAccount]
    split
    · exact hagree hk
    · exact hk
  · rw [SharedState.account_modifyAccount] at hr
    split at hr
    · rename_i hkey
      subst hkey
      exact (hgrows _).reservations hr
    · exact .inl hr
  · show s'.accounts.insert key (f (s'.account key)) = s.accounts.insert key (f (s.account key))
    rw [SharedState.account, SharedState.account, hequal]

/-- A known event is applied. -/
lemma applyEvent (h : Swept env W t s s') {e : Event} (he : s.Heard W e) :
    Swept env W t (s.modifyAccount e.balanceKey fun acc => acc.applyEvent e)
      (s'.modifyAccount e.balanceKey fun acc => acc.applyEvent e) := by
  refine h.modifyAccount e.balanceKey (fun hacc => hacc.applyEvent fun hexpired => ?_)
    fun acc => .applyEvent he acc
  -- the hold that has this id is the event itself
  obtain ⟨x, hx, hid, hexp⟩ := hexpired
  obtain rfl := h.unique x e hx he hid
  exact hexp

lemma correct (h : Swept env W t s s') (e : Event) :
    Swept env W t (s.modifyAccount e.balanceKey fun acc => (acc.post e.amount).applyReleaseOf e)
      (s'.modifyAccount e.balanceKey fun acc => (acc.post e.amount).applyReleaseOf e) :=
  h.modifyAccount e.balanceKey (fun hacc => hacc.correct e.amount e)
    fun acc => .applyReleaseOf _ _ acc e.amount e

lemma ensureAccount (h : Swept env W t s s') (key : BalanceKey) :
    Swept env W t (s.ensureAccount key) (s'.ensureAccount key) := by
  refine h.act ?_ (Nat.le_refl _) (List.prefix_refl _) h.unique (fun k hk => ?_)
    (fun k r reservation hr => ?_) fun hequal => ?_
  · rw [h.frame]
    rfl
  · rw [SharedState.account_ensureAccount, SharedState.account_ensureAccount]
    exact hk
  · rw [SharedState.account_ensureAccount] at hr
    exact .inl hr
  · unfold SharedState.ensureAccount
    dsimp only
    rw [hequal]

lemma stripBucket (h : Swept env W t s s') (target : String) :
    Swept env W t (s.stripBucket target) (s'.stripBucket target) := by
  refine h.act ?_ (Nat.le_refl _) (List.prefix_refl _) h.unique (fun k hk => ?_)
    (fun k r reservation hr => ?_) fun hequal => ?_
  · rw [h.frame]
    rfl
  · rw [SharedState.account_stripBucket, SharedState.account_stripBucket]
    split
    · exact .refl t _ _
    · exact hk
  · rw [SharedState.account_stripBucket] at hr
    split at hr
    · cases hr
    · exact .inl hr
  · show (s'.accounts.retain fun k => k.1 != target) = s.accounts.retain fun k => k.1 != target
    rw [hequal]

/-- A later sweep of both. -/
lemma sweepExpired (h : Swept env W t s s') (now : ℕ) :
    Swept env W t (s.sweepExpired now) (s'.sweepExpired now) := by
  have hlocks : s'.accountLocks = s.accountLocks := by
    rw [h.frame]
    rfl
  refine h.act ?_ (Nat.le_refl _) (List.prefix_refl _) h.unique (fun k hk => ?_)
    (fun k r reservation hr => ?_) fun hequal => ?_
  · rw [h.frame]
    rfl
  · rw [SharedState.account_sweepExpired_eq, SharedState.account_sweepExpired_eq, hlocks]
    split
    · exact hk.sweepExpired now
    · exact hk
  · rw [SharedState.account_sweepExpired_eq] at hr
    split at hr
    · rw [AccountState.lookup_sweepExpired, Option.filter_eq_some_iff] at hr
      exact .inl hr.1
    · exact .inl hr
  · unfold SharedState.sweepExpired
    dsimp only
    rw [hequal, hlocks]

end Swept

end Acts

/-! ## Programs that decide nothing by an account -/

section Programs

variable {env : Env D} {W : Event → Prop} {t : ℕ}

lemma uniform_blind {α : Type} {f : SharedState D → α × SharedState D} (hf : Blind f) :
    (Proc.readUpdate f : NodeM D α).Uniform (sweepCoupling env W t) :=
  Proc.uniform_readUpdate
    (fun s hok => hok.mono fun _ hx => SharedState.heard_mono (hf.minted s) hx)
    fun _ _ hrel hok => hrel.blind hf hok

/-- An update that neither sees the accounts nor reads the clock nor mints. -/
lemma uniform_plain {f : SharedState D → SharedState D}
    (hf : ∀ (s : SharedState D) accounts,
      f (s.withAccounts accounts) = (f s).withAccounts accounts ∧
        (f s).clockReads = s.clockReads ∧ (f s).minted = s.minted) :
    (Proc.update f : NodeM D Unit).Uniform (sweepCoupling env W t) := by
  have hminted : ∀ s, (f s).minted = s.minted := fun s => (hf s s.accounts).2.2
  have hblind : Blind fun s => ((), f s) :=
    ⟨fun _ _ => rfl, fun s accounts => (hf s accounts).1, fun s => (hf s s.accounts).2.1.ge,
      fun s => by rw [hminted]⟩
  refine Proc.uniform_update (fun s hok => hok.mono fun _ hx => ?_) fun _ _ hrel hok => ?_
  · exact SharedState.heard_mono (by rw [hminted]) hx
  · exact (hrel.blind hblind hok).1

/-- What does not see the accounts reads alike. -/
lemma uniform_look {α : Type} {f : SharedState D → α}
    (hf : ∀ (s : SharedState D) accounts, f (s.withAccounts accounts) = f s) :
    (Proc.read f : NodeM D α).Uniform (sweepCoupling env W t) :=
  Proc.uniform_read fun s s' hrel => by
    rw [hrel.frame]
    exact hf s s'.accounts

variable (env) in
lemma blind_callStorage {α : Type} (f : Storage D → α × Storage D) :
    Blind fun s => s.callStorage env f := by
  constructor
  · intro s accounts
    unfold SharedState.callStorage SharedState.withAccounts
    cases env.storageOutcome s.storageCalls <;> rfl
  · intro s accounts
    unfold SharedState.callStorage SharedState.withAccounts
    cases env.storageOutcome s.storageCalls <;> rfl
  · intro s
    rw [SharedState.callStorage_snd]
    rfl
  · intro s
    rw [SharedState.callStorage_snd]
    exact List.prefix_refl _

lemma uniform_storageCall {α : Type} (op : StorageOp) (f : Storage D → α × Storage D) :
    (storageCall env op f).run.Uniform (sweepCoupling env W t) := by
  refine (Proc.uniform_suspend _).bind fun _ => ?_
  refine (uniform_blind (blind_callStorage env f)).bind fun r => ?_
  exact (Proc.uniform_suspend _).bind fun _ => Proc.uniform_pure _

variable (env) in
lemma blind_nowMs : Blind fun s : SharedState D =>
    (env.clock s.clockReads, { s with clockReads := s.clockReads + 1 }) where
  answer _ _ := rfl
  state _ _ := rfl
  clockReads _ := Nat.le_succ _
  minted _ := List.prefix_refl _

lemma uniform_nowMs : (nowMs env).Uniform (sweepCoupling env W t) := uniform_blind (blind_nowMs env)

lemma blind_buildEvent (id : ℕ × ℕ) (now : ℕ) (d : EventDraft) :
    Blind fun s : SharedState D =>
      let e := d.event (env.freshId s.idsDrawn) env.nodeId id now
      (e, { s with idsDrawn := s.idsDrawn + 1, minted := s.minted ++ [e] }) where
  answer _ _ := rfl
  state _ _ := rfl
  clockReads _ := Nat.le_refl _
  minted _ := List.prefix_append _ _

/-! ### Allocation -/

section Allocate

variable (bucket : String) (i : ℕ)

lemma uniform_modifyAllocator (f : SharedState D → BucketAllocator → BucketAllocator)
    (hf : ∀ (s : SharedState D) accounts, f (s.withAccounts accounts) = f s) :
    (Proc.update fun s => s.modifyAllocator bucket i (f s) : NodeM D Unit).Uniform
      (sweepCoupling env W t) := by
  refine uniform_plain fun s accounts => ⟨?_, rfl, rfl⟩
  rw [hf]
  rfl

lemma uniform_bumpBucketEpoch :
    (bumpBucketEpoch env bucket).run.Uniform (sweepCoupling env W t) := uniform_storageCall _ _

lemma uniform_lookupAllocator :
    (lookupAllocator env bucket).run.Uniform (sweepCoupling env W t) := by
  have hcurrent : (Proc.read fun s => (s.bucketAllocators bucket).current :
      NodeM D (Option ℕ)).Uniform (sweepCoupling env W t) := uniform_look fun _ _ => rfl
  refine hcurrent.run_lift.run_bind fun r => ?_
  cases r with
  | some i => exact Proc.uniform_pure _
  | none =>
      refine (uniform_bumpBucketEpoch bucket).run_bind fun epoch => ?_
      refine Proc.Uniform.run_bind (uniform_storageCall _ _) fun rows => ?_
      refine Proc.Uniform.run_lift (uniform_blind ⟨fun _ _ => rfl, fun _ _ => rfl, ?_, ?_⟩)
      · exact fun _ => Nat.le_refl _
      · exact fun _ => List.prefix_refl _

lemma uniform_lazyBump : (lazyBump env bucket i).run.Uniform (sweepCoupling env W t) := by
  have hread : (Proc.read fun s => (s.allocator bucket i).needsBump :
      NodeM D Bool).Uniform (sweepCoupling env W t) := uniform_look fun _ _ => rfl
  refine hread.run_lift.run_bind fun needsBump => ?_
  cases needsBump with
  | false => exact Proc.uniform_pure _
  | true =>
      refine (Proc.uniform_suspend _).bind fun _ => ?_
      refine (uniform_modifyAllocator bucket i (fun s a => { a with bumpLock := some s.running })
        fun _ _ => rfl).bind fun _ => ?_
      refine Proc.Uniform.bind (hread.run_lift.run_bind fun needsBump => ?_) fun r => ?_
      · cases needsBump with
        | false => exact Proc.uniform_pure _
        | true =>
            refine (uniform_bumpBucketEpoch bucket).run_bind fun newEpoch => ?_
            exact (uniform_modifyAllocator bucket i _ fun _ _ => rfl).run_lift
      · exact (uniform_modifyAllocator bucket i _ fun _ _ => rfl).bind fun _ => Proc.uniform_pure _

lemma uniform_allocate : (allocate env bucket).run.Uniform (sweepCoupling env W t) := by
  refine (uniform_lookupAllocator bucket).run_bind fun i => ?_
  refine (uniform_lazyBump bucket i).run_bind fun _ => ?_
  refine Proc.Uniform.run_lift (uniform_blind ⟨fun _ _ => rfl, fun _ _ => rfl, ?_, ?_⟩)
  · exact fun _ => Nat.le_refl _
  · exact fun _ => List.prefix_refl _

end Allocate

/-! ### Heads and the batch writer -/

lemma SharedState.drainPending_withAccounts (s : SharedState D)
    (accounts : Map BalanceKey AccountState) (key : EpochKey) (seq : ℕ) :
    (s.withAccounts accounts).drainPending key seq =
      ((s.drainPending key seq).1, (s.drainPending key seq).2.withAccounts accounts) := by
  have hpending : (s.withAccounts accounts).pendingSeqs = s.pendingSeqs := rfl
  unfold drainPending
  rw [hpending]
  cases s.pendingSeqs key <;> rfl

lemma blind_advanceHeadLocked (key : EpochKey) (seq : ℕ) :
    Blind fun s : SharedState D => s.advanceHeadLocked env.hasher key seq := by
  have hcommutes : ∀ (s : SharedState D) accounts,
      (s.withAccounts accounts).advanceHeadLocked env.hasher key seq =
        ((s.advanceHeadLocked env.hasher key seq).1,
          (s.advanceHeadLocked env.hasher key seq).2.withAccounts accounts) := by
    intro s accounts
    have hhead : (s.withAccounts accounts).head key = s.head key := rfl
    unfold SharedState.advanceHeadLocked
    dsimp only
    rw [SharedState.drainPending_withAccounts, hhead]
    split
    · rfl
    · split <;> rfl
  constructor
  · intro s accounts
    rw [hcommutes]
  · intro s accounts
    rw [hcommutes]
  · intro s
    rw [SharedState.advanceHeadLocked_frame]
  · intro s
    rw [SharedState.advanceHeadLocked_frame]

lemma uniform_advanceHead (key : EpochKey) (seq : ℕ) :
    (advanceHead env key seq).Uniform (sweepCoupling env W t) := by
  refine (uniform_blind (blind_advanceHeadLocked key seq)).bind fun moved => ?_
  cases moved with
  | none => exact Proc.uniform_pure _
  | some moved => exact Proc.Uniform.bind (uniform_storageCall _ _) fun _ => Proc.uniform_pure _

lemma uniform_recordNewLocalEvent (e : Event) :
    (recordNewLocalEvent env e).Uniform (sweepCoupling env W t) := by
  refine Proc.Uniform.bind (uniform_plain fun _ _ => ⟨rfl, rfl, rfl⟩) fun _ => ?_
  refine (uniform_advanceHead e.epochKey e.originSeq).bind fun _ => ?_
  refine Proc.Uniform.bind (uniform_plain fun _ _ => ⟨rfl, rfl, rfl⟩) fun _ => ?_
  exact uniform_plain fun _ _ => ⟨rfl, rfl, rfl⟩

lemma uniform_flushLocalEvents (es : List Event) :
    (flushLocalEvents env es).Uniform (sweepCoupling env W t) := by
  induction es with
  | nil => exact Proc.uniform_pure _
  | cons e es ih => exact (uniform_recordNewLocalEvent e).bind fun _ => ih

lemma uniform_markPersisted (keys : List OriginKey) :
    (Proc.update fun s => s.markPersisted keys : NodeM D Unit).Uniform
      (sweepCoupling env W t) := by
  have hkey : ∀ (s : SharedState D) key accounts,
      (s.withAccounts accounts).markPersistedKey key =
        (s.markPersistedKey key).withAccounts accounts := by
    intro s key accounts
    unfold SharedState.markPersistedKey
    dsimp only
    split <;> split <;> first | rfl | contradiction
  refine uniform_plain fun s accounts => ⟨?_, ?_, ?_⟩
  · induction keys generalizing s with
    | nil => rfl
    | cons key keys ih =>
        show ((s.withAccounts accounts).markPersistedKey key).markPersisted keys = _
        rw [hkey]
        exact ih _
  · rw [SharedState.markPersisted_frame]
  · rw [SharedState.markPersisted_frame]

lemma uniform_doFlush (es : List Event) : (doFlush env es).Uniform (sweepCoupling env W t) := by
  refine Proc.Uniform.bind (uniform_storageCall _ _) fun r => ?_
  cases r with
  | ok _ => exact uniform_markPersisted _
  | error err => exact Proc.uniform_pure _

lemma uniform_scanOrphans (keys : List OriginKey) (ageThresholdMs : ℕ) :
    (scanOrphans env keys ageThresholdMs).Uniform (sweepCoupling env W t) := by
  refine uniform_nowMs.bind fun now => ?_
  refine (uniform_look fun _ _ => rfl).bind fun orphans => ?_
  split
  · exact uniform_doFlush orphans
  · exact Proc.uniform_pure _

lemma uniform_findExisting (key : IdemKey) :
    (findExisting env key).Uniform (sweepCoupling env W t) := by
  refine (uniform_look fun _ _ => rfl).bind fun r => ?_
  cases r with
  | some e => exact Proc.uniform_pure _
  | none =>
      refine Proc.Uniform.bind (uniform_storageCall _ _) fun r => ?_
      cases r with
      | error err => exact Proc.uniform_pure _
      | ok found =>
          dsimp only
          split
          · exact Proc.uniform_pure _
          · refine Proc.Uniform.bind (uniform_plain fun _ _ => ⟨rfl, rfl, rfl⟩) fun _ => ?_
            exact Proc.uniform_pure _

/-! ### Locks -/

lemma uniform_ensureAccount (key : BalanceKey) :
    (Proc.update fun s => s.ensureAccount key : NodeM D Unit).Uniform (sweepCoupling env W t) :=
  Proc.uniform_update (fun _ hok => hok) fun _ _ hrel _ => hrel.ensureAccount key

lemma uniform_lockAccount (key : BalanceKey) :
    (Proc.update fun s => s.lockAccount key : NodeM D Unit).Uniform (sweepCoupling env W t) :=
  uniform_plain fun _ _ => ⟨rfl, rfl, rfl⟩

lemma uniform_unlockAccount (key : BalanceKey) :
    (Proc.update fun s => s.unlockAccount key : NodeM D Unit).Uniform (sweepCoupling env W t) :=
  uniform_plain fun _ _ => ⟨rfl, rfl, rfl⟩

lemma uniform_withAccount {α : Type} (key : BalanceKey) {body : NodeM D α}
    (h : body.Uniform (sweepCoupling env W t)) :
    (withAccount key body).Uniform (sweepCoupling env W t) := by
  refine (uniform_ensureAccount key).bind fun _ => ?_
  refine (Proc.uniform_suspend _).bind fun _ => ?_
  refine (uniform_lockAccount key).bind fun _ => ?_
  refine h.bind fun r => ?_
  exact (uniform_unlockAccount key).bind fun _ => Proc.uniform_pure _

/-! ### Corrections -/

lemma uniform_correct (e : Event) :
    (Proc.update fun s => s.modifyAccount e.balanceKey fun acc =>
      (acc.post e.amount).applyReleaseOf e : NodeM D Unit).Uniform (sweepCoupling env W t) :=
  Proc.uniform_update (fun _ hok => hok) fun _ _ hrel _ => Swept.correct hrel e

lemma uniform_applyCorrectionEvent (e : Event) :
    (applyCorrectionEvent env e).Uniform (sweepCoupling env W t) := by
  refine Proc.Uniform.bind (uniform_plain fun _ _ => ⟨rfl, rfl, rfl⟩) fun _ => ?_
  refine Proc.Uniform.bind (uniform_withAccount _ (uniform_correct e)) fun _ => ?_
  refine (uniform_advanceHead e.epochKey e.originSeq).bind fun _ => ?_
  refine Proc.Uniform.bind (uniform_plain fun _ _ => ⟨rfl, rfl, rfl⟩) fun _ => ?_
  exact uniform_plain fun _ _ => ⟨rfl, rfl, rfl⟩

/-- A correction is minted and applied. -/
lemma uniform_mintCorrection {α : Type} (id : ℕ × ℕ) (d : EventDraft) {k : NodeM D α}
    (hk : k.Uniform (sweepCoupling env W t)) :
    (do
        let now ← nowMs env
        let e ← buildEvent env id now d
        applyCorrectionEvent env e
        k : NodeM D α).Uniform (sweepCoupling env W t) := by
  refine uniform_nowMs.bind fun now => ?_
  refine (uniform_blind (blind_buildEvent id now d)).bind fun e => ?_
  exact (uniform_applyCorrectionEvent e).bind fun _ => hk

lemma uniform_emitHoldRelease (winner loser : Event) :
    (emitHoldRelease env winner loser).Uniform (sweepCoupling env W t) := by
  unfold emitHoldRelease
  split
  · refine (uniform_look fun _ _ => rfl).bind fun released => ?_
    split
    · exact Proc.uniform_pure _
    · refine Proc.Uniform.bind (uniform_allocate _) fun r => ?_
      cases r with
      | error err => exact Proc.uniform_pure _
      | ok id =>
          refine uniform_nowMs.bind fun now => ?_
          refine (uniform_blind (blind_buildEvent id now _)).bind fun e => ?_
          exact uniform_applyCorrectionEvent e
  · exact Proc.uniform_pure _

lemma uniform_emitCorrections (winner loser : Event) :
    (emitCorrections env winner loser).Uniform (sweepCoupling env W t) := by
  refine (uniform_look fun _ _ => rfl).bind fun voided => ?_
  split
  · exact Proc.uniform_pure _
  · refine Proc.Uniform.bind (uniform_storageCall _ _) fun r => ?_
    split
    · exact Proc.uniform_pure _
    · refine Proc.Uniform.bind (uniform_allocate _) fun r => ?_
      cases r with
      | error err => exact Proc.uniform_pure _
      | ok id => exact uniform_mintCorrection id _ (uniform_emitHoldRelease winner loser)

lemma uniform_checkIdempotencyConflict (e : Event) :
    (checkIdempotencyConflict env e).Uniform (sweepCoupling env W t) := by
  refine (uniform_look fun _ _ => rfl).bind fun r => ?_
  cases r with
  | none => exact uniform_plain fun _ _ => ⟨rfl, rfl, rfl⟩
  | some existing =>
      refine Proc.Uniform.bind (uniform_plain fun _ _ => ⟨rfl, rfl, rfl⟩) fun _ => ?_
      exact uniform_emitCorrections _ _

/-! ### Replicated events and deletions -/

lemma uniform_applyEvent {e : Event} (he : W e) :
    (Proc.update fun s => s.modifyAccount e.balanceKey fun acc => acc.applyEvent e :
      NodeM D Unit).Uniform (sweepCoupling env W t) :=
  Proc.uniform_update (fun _ hok => hok) fun _ _ hrel _ => Swept.applyEvent hrel (.inl he)

lemma uniform_applyBucketDeleteCascade (bucket : String) :
    (applyBucketDeleteCascade env bucket).Uniform (sweepCoupling env W t) := by
  unfold applyBucketDeleteCascade
  split
  · exact Proc.uniform_pure _
  · refine Proc.Uniform.bind (uniform_storageCall _ _) fun _ => ?_
    exact Proc.uniform_update (fun _ hok => hok) fun _ _ hrel _ => hrel.stripBucket bucket

lemma uniform_cascadeOf (e : Event) : (cascadeOf env e).Uniform (sweepCoupling env W t) := by
  unfold cascadeOf
  split
  · split
    · refine Proc.Uniform.bind (uniform_plain fun _ _ => ⟨rfl, rfl, rfl⟩) fun _ => ?_
      exact uniform_applyBucketDeleteCascade _
    · exact Proc.uniform_pure _
  · exact Proc.uniform_pure _

lemma uniform_insertEvent {e : Event} (he : W e) :
    (insertEvent env e).Uniform (sweepCoupling env W t) := by
  refine (uniform_look fun _ _ => rfl).bind fun deleted => ?_
  split
  · exact Proc.uniform_pure _
  refine (uniform_look fun _ _ => rfl).bind fun present => ?_
  split
  · exact Proc.uniform_pure _
  refine Proc.Uniform.bind (uniform_blind ?_) fun taken => ?_
  · have hbuffer : ∀ (s : SharedState D) accounts,
        (s.withAccounts accounts).eventBuffer = s.eventBuffer := fun _ _ => rfl
    constructor
    · intro s accounts
      rw [hbuffer]
      cases s.eventBuffer e.originKey <;> rfl
    · intro s accounts
      rw [hbuffer]
      cases s.eventBuffer e.originKey <;> rfl
    · intro s
      split <;> exact Nat.le_refl _
    · intro s
      split <;> exact List.prefix_refl _
  split
  · exact Proc.uniform_pure _
  refine (uniform_cascadeOf e).bind fun _ => ?_
  refine Proc.Uniform.bind (uniform_withAccount _ (uniform_applyEvent he)) fun _ => ?_
  refine Proc.Uniform.bind (uniform_plain fun _ _ => ⟨rfl, rfl, rfl⟩) fun _ => ?_
  refine (uniform_advanceHead e.epochKey e.originSeq).bind fun _ => ?_
  refine Proc.Uniform.bind (uniform_plain fun _ _ => ⟨rfl, rfl, rfl⟩) fun _ => ?_
  refine Proc.Uniform.bind (uniform_plain fun _ _ => ⟨rfl, rfl, rfl⟩) fun _ => ?_
  exact (uniform_checkIdempotencyConflict e).bind fun _ => Proc.uniform_pure _

lemma uniform_createMetaBucketDelete (target : String) (reason : Option String) :
    (createMetaBucketDelete env target reason).run.Uniform (sweepCoupling env W t) := by
  unfold createMetaBucketDelete
  dsimp only
  split
  · exact Proc.uniform_pure _
  refine Proc.Uniform.run_bind (uniform_look fun _ _ => rfl).run_lift fun deleted => ?_
  split
  · exact Proc.uniform_pure _
  refine Proc.Uniform.run_bind (uniform_allocate metaBucket).run_lift fun r => ?_
  cases r with
  | error err => exact Proc.uniform_pure _
  | ok id =>
      refine Proc.Uniform.run_bind uniform_nowMs.run_lift fun now => ?_
      refine Proc.Uniform.run_bind (uniform_blind (blind_buildEvent id now _)).run_lift
        fun e => ?_
      refine Proc.Uniform.run_bind (Proc.Uniform.run_lift (uniform_plain fun _ _ =>
        ⟨rfl, rfl, rfl⟩)) fun _ => ?_
      refine Proc.Uniform.run_bind (uniform_applyBucketDeleteCascade target).run_lift fun _ => ?_
      refine Proc.Uniform.run_bind (uniform_recordNewLocalEvent e).run_lift fun _ => ?_
      exact Proc.uniform_pure _

lemma uniform_sweepExpiredHolds : (sweepExpiredHolds env).Uniform (sweepCoupling env W t) := by
  refine uniform_nowMs.bind fun now => ?_
  exact Proc.uniform_update (fun _ hok => hok) fun _ _ hrel _ => hrel.sweepExpired now

end Programs

/-! ## Requests -/

section Requests

variable {env : Env D} {W : Event → Prop} {t i : ℕ} {s s' : SharedState D}

lemma Swept.applyLocal (h : Swept env W t s s') {e : Event} (he : s.Heard W e) :
    Swept env W t (s.applyLocal e) (s'.applyLocal e) := by
  have hcache : Blind fun s : SharedState D => ((), s.cacheEvent e) :=
    ⟨fun _ _ => rfl, fun _ _ => rfl, fun _ => Nat.le_refl _, fun _ => List.prefix_refl _⟩
  exact ((h.applyEvent he).blind hcache h.unique).1

/-! ### Minting -/

lemma inStep_buildEvent (id : ℕ × ℕ) (now : ℕ) (d : EventDraft) (hrel : Swept env W t s s') :
    (buildEvent env id now d).InStep (sweepCoupling env W t) i
      (fun e e' u u' => e = e' ∧ u = s.built e ∧ Swept env W t u u') (buildEvent env id now d)
      s s' := by
  refine Proc.inStep_readUpdate fun hok => ?_
  obtain ⟨hbuilt, hevent⟩ := hrel.blind (blind_buildEvent id now d) hok
  exact ⟨hevent.symm, rfl, hbuilt⟩

/-- The reading of the account only matters for the error. -/
lemma steady_allocateFor (key : BalanceKey) (now : ℕ) :
    Proc.Steady (sweepCoupling env W t) (allocateFor env key now) := by
  constructor
  · refine Proc.Only.run_bind (Proc.only_read (fun _ hok => hok) _).run_lift fun acc => ?_
    refine Proc.Only.bind (uniform_allocate key.1).lasting fun r => ?_
    cases r <;> trivial
  · intro i s s' hrel
    refine Proc.InStep.run_lift_bind (Proc.inStep_read fun _ => ?_)
    refine Proc.InStep.bind (((uniform_allocate key.1).inStep hrel).mono ?_)
    rintro r _ s s' ⟨rfl, hrel⟩
    cases r with
    | ok id => exact ⟨rfl, hrel⟩
    | error err => exact ⟨rfl, hrel⟩

lemma steady_mintLocal (now : ℕ) (d : EventDraft) :
    Proc.Steady (sweepCoupling env W t) (mintLocal env now d) := by
  constructor
  · refine (steady_allocateFor d.key now).lasting.run_bind fun id => ?_
    refine Proc.Only.run_bind (uniform_blind (blind_buildEvent id now d)).lasting.run_lift
      fun e => ?_
    exact Proc.Only.run_bind (Proc.only_update fun _ hok => hok).run_lift fun _ => trivial
  · intro i s s' hrel
    refine ((steady_allocateFor d.key now).inStep i s s' hrel).run_bind (fun id s s' hrel => ?_)
      fun _ _ _ _ hrel => ⟨rfl, hrel⟩
    refine Proc.InStep.run_lift_bind ((inStep_buildEvent id now d hrel).mono ?_)
    rintro e _ _ u' ⟨rfl, rfl, hbuilt⟩
    refine Proc.InStep.run_lift_bind (Proc.inStep_update fun _ => ?_)
    exact ⟨rfl, hbuilt.applyLocal (.inr (List.mem_append_right _ (List.mem_singleton_self _)))⟩

lemma lasting_withAccount {α : Type} (key : BalanceKey) {body : NodeM D α}
    (h : body.Lasting (sweepCoupling env W t)) :
    (withAccount key body).Lasting (sweepCoupling env W t) := by
  refine (uniform_ensureAccount key).lasting.bind fun _ => ?_
  refine (Proc.only_suspend trivial).bind fun _ => ?_
  refine (uniform_lockAccount key).lasting.bind fun _ => ?_
  refine h.bind fun r => ?_
  exact (uniform_unlockAccount key).lasting.bind fun _ => trivial

lemma inStep_withAccount {α : Type} (key : BalanceKey) {P : α → α → Prop} {body : NodeM D α}
    (h : ∀ s s', Swept env W t s s' → body.InStep (sweepCoupling env W t) i
      (fun r r' s s' => P r r' ∧ Swept env W t s s') body s s') (hrel : Swept env W t s s') :
    (withAccount key body).InStep (sweepCoupling env W t) i
      (fun r r' s s' => P r r' ∧ Swept env W t s s') (withAccount key body) s s' := by
  refine Proc.InStep.bind (((uniform_ensureAccount key).inStep hrel).mono ?_)
  rintro _ _ s s' ⟨-, hrel⟩
  refine Proc.InStep.bind (((Proc.uniform_suspend (Wait.account key)).inStep hrel).mono ?_)
  rintro _ _ s s' ⟨-, hrel⟩
  refine Proc.InStep.bind (((uniform_lockAccount key).inStep hrel).mono ?_)
  rintro _ _ s s' ⟨-, hrel⟩
  refine Proc.InStep.bind ((h s s' hrel).mono ?_)
  rintro r r' s s' ⟨hr, hrel⟩
  refine Proc.InStep.bind (((uniform_unlockAccount key).inStep hrel).mono ?_)
  rintro _ _ s s' ⟨-, hrel⟩
  exact ⟨hr, hrel⟩

lemma steady_withAccount {ε α : Type} (key : BalanceKey) {body : ExceptT ε (NodeM D) α}
    (h : Proc.Steady (sweepCoupling env W t) body) :
    Proc.Steady (sweepCoupling env W t) (ExceptT.mk (withAccount key body.run)) where
  lasting := lasting_withAccount key h.lasting
  inStep i _ _ hrel := inStep_withAccount key (h.inStep i) hrel

/-! ### Branches -/

section Branches

variable (input : LocalCreateInput) (now : ℕ)

/-- The last lines of a branch. -/
lemma steady_report (es : List Event) (result : LocalCreateResult) :
    Proc.Steady (sweepCoupling env W t)
      (do
        (flushLocalEvents env es : NodeM D Unit)
        return result : ExceptT CreateLocalEventError (NodeM D) LocalCreateResult) :=
  Proc.Uniform.steady ((uniform_flushLocalEvents es).run_lift.run_bind fun _ =>
    Proc.uniform_pure _)

lemma steady_mintOne (d : EventDraft) :
    Proc.Steady (sweepCoupling env W t)
      (do
        let e ← mintLocal env now d
        (flushLocalEvents env [e] : NodeM D Unit)
        return { primaryEvent := e, emittedEvents := [e] } :
          ExceptT CreateLocalEventError (NodeM D) LocalCreateResult) :=
  (steady_mintLocal now d).bind fun e => steady_report [e] _

lemma steady_emitTransfer :
    Proc.Steady (sweepCoupling env W t) (emitTransfer env input now) := by
  unfold emitTransfer
  split
  · refine steady_withAccount _ ?_
    split
    · exact Proc.Uniform.steady (Proc.uniform_pure _)
    · exact (steady_mintLocal now _).bind fun e => Proc.steady_pure _
  · exact Proc.steady_pure _

lemma steady_finishCharge (hold : UInt64 × ℕ) :
    Proc.Steady (sweepCoupling env W t)
      (do
        let held ← emitHold env input now hold
        let charge ← mintLocal env now input.chargeDraft
        let credited ← emitTransfer env input now
        let emitted := held ++ [charge] ++ credited
        (flushLocalEvents env emitted : NodeM D Unit)
        return { primaryEvent := charge, emittedEvents := emitted } :
          ExceptT CreateLocalEventError (NodeM D) LocalCreateResult) := by
  have hhold : Proc.Steady (sweepCoupling env W t) (emitHold env input now hold) := by
    unfold emitHold
    split
    · exact (steady_mintLocal now _).bind fun e => Proc.steady_pure _
    · exact Proc.steady_pure _
  refine hhold.bind fun held => ?_
  refine (steady_mintLocal now _).bind fun charge => ?_
  refine (steady_emitTransfer input now).bind fun credited => ?_
  exact steady_report _ _

/-- Both events of a settle are built and applied in one segment. -/
lemma steady_finishSettle (reservationId : String) :
    Proc.Steady (sweepCoupling env W t)
      (do
        let chargeId ← allocateFor env input.balanceKey now
        let releaseId ← allocateFor env input.balanceKey now
        let charge ← (buildEvent env chargeId now input.captureDraft : NodeM D Event)
        let release ← (buildEvent env releaseId now (input.settleReleaseDraft reservationId) :
          NodeM D Event)
        (Proc.update fun s => (s.applyLocal charge).applyLocal release : NodeM D Unit)
        (flushLocalEvents env [charge, release] : NodeM D Unit)
        return { primaryEvent := charge, emittedEvents := [charge, release] } :
          ExceptT CreateLocalEventError (NodeM D) LocalCreateResult) := by
  refine (steady_allocateFor _ now).bind fun chargeId => ?_
  refine (steady_allocateFor _ now).bind fun releaseId => ?_
  constructor
  · refine Proc.Only.run_bind (uniform_blind (blind_buildEvent chargeId now _)).lasting.run_lift
      fun charge => ?_
    refine Proc.Only.run_bind (uniform_blind (blind_buildEvent releaseId now _)).lasting.run_lift
      fun release => ?_
    refine Proc.Only.run_bind (Proc.only_update fun _ hok => hok).run_lift fun _ => ?_
    exact (steady_report _ _).lasting
  · intro i s s' hrel
    refine Proc.InStep.run_lift_bind ((inStep_buildEvent chargeId now _ hrel).mono ?_)
    rintro charge _ _ u' ⟨rfl, rfl, hcharge⟩
    refine Proc.InStep.run_lift_bind ((inStep_buildEvent releaseId now _ hcharge).mono ?_)
    rintro release _ _ v' ⟨rfl, rfl, hrelease⟩
    refine Proc.InStep.run_lift_bind (Proc.inStep_update fun _ => ?_)
    have happlied := hrelease.applyLocal (.inr (List.mem_append_left _
      (List.mem_append_right _ (List.mem_singleton_self charge))))
    exact (steady_report _ _).inStep i _ _ (happlied.applyLocal
      (.inr (List.mem_append_right _ (List.mem_singleton_self release))))

lemma lasting_emitLocked (mode : LocalCreateMode) :
    (emitLocked env input now mode).run.Lasting (sweepCoupling env W t) := by
  cases mode with
  | charge holdOverride =>
      refine Proc.Only.run_bind (Proc.only_read (fun _ hok => hok) _).run_lift fun acc => ?_
      dsimp only
      split
      · trivial
      · exact (steady_finishCharge input now _).lasting
  | reserve =>
      refine Proc.Only.run_bind (Proc.only_read (fun _ hok => hok) _).run_lift fun acc => ?_
      split
      · trivial
      · exact (steady_mintOne now _).lasting
  | settle reservationId =>
      refine Proc.Only.run_bind (Proc.only_read (fun _ hok => hok) _).run_lift fun acc => ?_
      split
      · trivial
      · exact (steady_finishSettle input now reservationId).lasting
  | release reservationId =>
      refine Proc.Only.run_bind (Proc.only_read (fun _ hok => hok) _).run_lift fun acc => ?_
      split
      · trivial
      · exact (steady_mintOne now _).lasting

/-- A branch decides by the account as it finds it. -/
lemma inStep_emitLocked (mode : LocalCreateMode) (hrel : Swept env W t s s')
    (halike : (s.account input.balanceKey).Alike now (s'.account input.balanceKey)) :
    (emitLocked env input now mode).run.InStep (sweepCoupling env W t) i
      (fun r r' s s' => r.toOption = r'.toOption ∧ Swept env W t s s')
      (emitLocked env input now mode).run s s' := by
  cases mode with
  | charge holdOverride =>
      refine Proc.InStep.run_lift_bind (Proc.inStep_read fun _ => ?_)
      dsimp only
      rw [← halike.chargeHold, ← halike.overdraftGuard]
      split
      · exact ⟨rfl, hrel⟩
      · exact (steady_finishCharge input now _).inStep i s s' hrel
  | reserve =>
      refine Proc.InStep.run_lift_bind (Proc.inStep_read fun _ => ?_)
      rw [← halike.reserveGuard]
      split
      · exact ⟨rfl, hrel⟩
      · exact (steady_mintOne now _).inStep i s s' hrel
  | settle reservationId =>
      refine Proc.InStep.run_lift_bind (Proc.inStep_read fun _ => ?_)
      have hcheck := halike.settleCheck reservationId input.amount
      generalize (s.account input.balanceKey).settleCheck reservationId input.amount now = r
        at hcheck ⊢
      generalize (s'.account input.balanceKey).settleCheck reservationId input.amount now = r'
        at hcheck ⊢
      cases r with
      | error err =>
          cases r' with
          | error err' => exact ⟨rfl, hrel⟩
          | ok _ => cases hcheck
      | ok _ =>
          cases r' with
          | error err' => cases hcheck
          | ok _ => exact (steady_finishSettle input now reservationId).inStep i s s' hrel
  | release reservationId =>
      refine Proc.InStep.run_lift_bind (Proc.inStep_read fun _ => ?_)
      have hopen := halike.openReservation reservationId
      generalize (s.account input.balanceKey).openReservation reservationId now = r at hopen ⊢
      generalize (s'.account input.balanceKey).openReservation reservationId now = r' at hopen ⊢
      cases r with
      | error err =>
          cases r' with
          | error err' => exact ⟨rfl, hrel⟩
          | ok _ => cases hopen
      | ok _ =>
          cases r' with
          | error err' => cases hopen
          | ok _ => exact (steady_mintOne now _).inStep i s s' hrel

end Branches

/-- The clock is read, and what follows depends on the account at that time. -/
lemma inStep_decide (input : LocalCreateInput) (mode : LocalCreateMode)
    (hrel : Swept env W t s s') :
    (do
        let now ← (nowMs env : NodeM D ℕ)
        emitLocked env input now mode :
      ExceptT CreateLocalEventError (NodeM D) LocalCreateResult).run.InStep (sweepCoupling env W t)
      i (fun r r' s s' => r.toOption = r'.toOption ∧ Swept env W t s s')
      (do
        let now ← (nowMs env : NodeM D ℕ)
        emitLocked env input now mode :
      ExceptT CreateLocalEventError (NodeM D) LocalCreateResult).run s s' := by
  refine Proc.InStep.run_lift_bind (Proc.inStep_readUpdate fun hok => ?_)
  obtain ⟨hread, hnow⟩ := hrel.blind (blind_nowMs env) hok
  rw [hnow]
  refine inStep_emitLocked input _ mode hread ?_
  rcases hrel.later with hequal | hlater
  · have haccount : s'.account input.balanceKey = s.account input.balanceKey := by
      rw [SharedState.account, SharedState.account, hequal]
    show (s.account input.balanceKey).Alike _ (s'.account input.balanceKey)
    rw [haccount]
    exact .refl _ _
  · exact (hrel.agree input.balanceKey).alike (hlater s.clockReads (Nat.le_refl _))

/-- **Requests.**  A request succeeds with the same answer, or fails in both runs. -/
theorem steady_createLocalEvents (input : LocalCreateInput) :
    Proc.Steady (sweepCoupling env W t) (createLocalEvents env input) := by
  have hdeleted : (Proc.read fun s => s.deletedBuckets.containsKey input.bucket :
      NodeM D Bool).Uniform (sweepCoupling env W t) := uniform_look fun _ _ => rfl
  constructor
  · unfold createLocalEvents
    dsimp only
    split
    · trivial
    refine Proc.Only.run_bind hdeleted.lasting.run_lift fun deleted => ?_
    split
    · trivial
    refine Proc.Only.run_bind uniform_nowMs.lasting.run_lift fun checkedAt => ?_
    refine Proc.Only.run_bind (by trivial) fun mode => ?_
    refine lasting_withAccount _ ?_
    refine Proc.Only.run_bind (uniform_findExisting _).lasting.run_lift fun r => ?_
    cases r with
    | some existing => trivial
    | none =>
        refine Proc.Only.run_bind uniform_nowMs.lasting.run_lift fun now => ?_
        exact lasting_emitLocked input now mode
  · intro i s s' hrel
    unfold createLocalEvents
    dsimp only
    split
    · exact ⟨rfl, hrel⟩
    refine Proc.InStep.run_lift_bind ((hdeleted.inStep hrel).mono ?_)
    rintro deleted _ s s' ⟨rfl, hrel⟩
    split
    · exact ⟨rfl, hrel⟩
    refine Proc.InStep.run_lift_bind ((uniform_nowMs.inStep hrel).mono ?_)
    rintro checkedAt _ s s' ⟨rfl, hrel⟩
    rcases hmode : LocalCreateMode.fromInput input checkedAt with err | mode
    · exact ⟨rfl, hrel⟩
    · refine inStep_withAccount _ (fun s s' hrel => ?_) hrel
      refine Proc.InStep.run_lift_bind (((uniform_findExisting _).inStep hrel).mono ?_)
      rintro r _ s s' ⟨rfl, hrel⟩
      cases r with
      | some existing => exact ⟨rfl, hrel⟩
      | none => exact inStep_decide input mode hrel

end Requests


/-! ## Runs -/

/-- Two answers that say the same; the errors of two requests may differ. -/
def NodeAnswer.Alike : NodeAnswer → NodeAnswer → Prop
  | .created input r, .created input' r' => input = input' ∧ r.toOption = r'.toOption
  | a, a' => a = a'

section Runs

variable {env : Env D} {W : Event → Prop} {t : ℕ} {st : Storage D} {start : SharedState D}
  {p : Pool (SharedState D) Wait NodeAnswer}

lemma uniform_writeBatch (first size : ℕ) :
    (writeBatch env first size).Uniform (sweepCoupling env W t) :=
  (uniform_look fun _ _ => rfl).bind fun batch => uniform_doFlush batch

/-- A uniform program whose result is the answer of a call. -/
lemma inStep_answer {α : Type} {s s' : SharedState D} {i : ℕ} {body : NodeM D α}
    {answer : α → NodeAnswer} (h : body.Uniform (sweepCoupling env W t))
    (halike : ∀ a, (answer a).Alike (answer a)) (hrel : Swept env W t s s') :
    (body >>= fun a => pure (answer a)).InStep (sweepCoupling env W t) i
      (fun a a' s s' => a.Alike a' ∧ Swept env W t s s') (body >>= fun a => pure (answer a))
      s s' := by
  refine Proc.InStep.bind ((h.inStep hrel).mono ?_)
  rintro a _ s s' ⟨rfl, hrel⟩
  exact ⟨halike a, hrel⟩

/-- The calls of a node cannot make ids unique, and are in step. -/
theorem couples_node : (nodeScheduler env (NodeCall.Sparing W fun _ => False)).Couples
    (sweepCoupling env W t) NodeAnswer.Alike where
  ready l s s' hrel := by
    show Wait.ready l s = Wait.ready l s'
    rw [hrel.frame]
    cases l <;> rfl
  enter := rfl
  lasting l program hstarts := by
    obtain ⟨-, c, hc, rfl⟩ := hstarts
    cases c with
    | create input => exact Proc.Only.bind (steady_createLocalEvents input).lasting fun _ => trivial
    | insert e => exact Proc.Only.bind (uniform_insertEvent hc.1).lasting fun _ => trivial
    | delete target reason =>
        exact Proc.Only.bind (uniform_createMetaBucketDelete target reason).lasting fun _ => trivial
    | writeBatch first size =>
        exact Proc.Only.bind (uniform_writeBatch first size).lasting fun _ => trivial
    | scan keys ageThresholdMs =>
        exact Proc.Only.bind (uniform_scanOrphans keys ageThresholdMs).lasting fun _ => trivial
    | sweep => exact Proc.Only.bind uniform_sweepExpiredHolds.lasting fun _ => trivial
  start l program hstarts i s s' hrel := by
    have hentered : Swept env W t (s.resumed i) (s'.resumed i) :=
      (sweepCoupling env W t).rel_enter i s s' hrel
    obtain ⟨-, c, hc, rfl⟩ := hstarts
    cases c with
    | create input =>
        refine Proc.InStep.bind (((steady_createLocalEvents input).inStep i _ _ hentered).mono ?_)
        rintro r r' s s' ⟨hr, hrel⟩
        exact ⟨⟨rfl, hr⟩, hrel⟩
    | insert e => exact inStep_answer (uniform_insertEvent hc.1) (fun _ => rfl) hentered
    | delete target reason =>
        exact inStep_answer (uniform_createMetaBucketDelete target reason) (fun _ => rfl) hentered
    | writeBatch first size =>
        exact inStep_answer (uniform_writeBatch first size) (fun _ => rfl) hentered
    | scan keys ageThresholdMs =>
        exact inStep_answer (uniform_scanOrphans keys ageThresholdMs) (fun _ => rfl) hentered
    | sweep => exact inStep_answer uniform_sweepExpiredHolds (fun _ => rfl) hentered

/-- A state is related to itself. -/
lemma Swept.refl {s : SharedState D} (hids : UniqueIds (s.Heard W)) (htracked : s.Tracked W) :
    Swept env W t s s where
  frame := rfl
  agree _ := .refl t _ _
  unique := hids
  tracked := htracked
  later := .inl rfl

/-- The sweep comes now. -/
lemma Swept.sweep {s : SharedState D} (hids : UniqueIds (s.Heard W)) (htracked : s.Tracked W)
    (hlater : ∀ n, s.clockReads ≤ n → t ≤ env.clock n) : Swept env W t s (s.sweepExpired t) where
  frame := rfl
  agree key := by
    rw [SharedState.account_sweepExpired_eq]
    split
    · refine AccountState.agree_sweepExpired fun id r hr hexpired => ?_
      obtain ⟨x, hx, hbacks⟩ := htracked key id r hr
      exact ⟨x, hx, hbacks.eventId, hbacks.expires.trans_le hexpired⟩
    · exact .refl t _ _
  unique := hids
  tracked := htracked
  later := .inr hlater

/-- **Sweeps are invisible.**  From any state a node reaches, any schedule is played twice: as it
is, but for one reading of the clock, and after a sweep at that reading.  If the clock does not go
back behind it and no two events have the same id, the two runs mint the same events, every call has
got equally far in both, and answers alike, and the available balances are the same. -/
theorem sweep_invisible (hstart : Starts env st start) (hstored : ∀ e ∈ st.events, W e)
    (h : NodeReach env (NodeCall.Sparing W fun _ => False) start p)
    (hlater : ∀ n, p.shared.clockReads ≤ n → env.clock p.shared.clockReads ≤ env.clock n)
    {moves : List (Pool.Move (SharedState D) Wait NodeAnswer)}
    (hmoves : ∀ m ∈ moves, m.Fair (nodeScheduler env (NodeCall.Sparing W fun _ => False)))
    {plain swept : Pool (SharedState D) Wait NodeAnswer}
    (hplain : plain = Pool.play (nodeScheduler env (NodeCall.Sparing W fun _ => False))
      (fun _ _ => True) { p with shared := (NodeM.exec (nowMs env) p.shared).2 } moves)
    (hswept : swept = Pool.play (nodeScheduler env (NodeCall.Sparing W fun _ => False))
      (fun _ _ => True) { p with shared := (NodeM.exec (sweepExpiredHolds env) p.shared).2 } moves)
    (hids : UniqueIds (plain.shared.Heard W)) :
    swept.shared.minted = plain.shared.minted ∧
      (∀ i, Call.Alike NodeAnswer.Alike (plain.calls i) (swept.calls i)) ∧
      ∀ key now, env.clock p.shared.clockReads ≤ now →
        (swept.shared.account key).availableBalance now =
          (plain.shared.account key).availableBalance now := by
  subst hplain hswept
  generalize ht : env.clock p.shared.clockReads = t at hlater
  have hcouples : (nodeScheduler env (NodeCall.Sparing W fun _ => False)).Couples
      (sweepCoupling env W t) NodeAnswer.Alike := couples_node
  obtain ⟨hlasting, hok₀⟩ := h.lasting hcouples
  have hlasting' : Pool.Lasting (sweepCoupling env W t)
      { p with shared := (NodeM.exec (nowMs env) p.shared).2 } := hlasting
  have hok : UniqueIds (p.shared.Heard W) := (hlasting'.play hcouples hmoves).2 hids
  -- before the sweep the two runs are one
  have hself := h.coupled hcouples (Swept.refl (hok₀ hok) (hstart.tracked hstored)) hok
  have hnow : Swept env W t (NodeM.exec (nowMs env) p.shared).2
      (NodeM.exec (sweepExpiredHolds env) p.shared).2 := by
    have hexec : (NodeM.exec (sweepExpiredHolds env) p.shared).2 =
        (NodeM.exec (nowMs env) p.shared).2.sweepExpired t := by
      rw [← ht]
      rfl
    rw [hexec]
    exact .sweep hok hself.shared.tracked fun n hn => hlater n (Nat.le_of_succ_le hn)
  have hpools : Pool.Coupled (nodeScheduler env (NodeCall.Sparing W fun _ => False))
      (sweepCoupling env W t) NodeAnswer.Alike
      { p with shared := (NodeM.exec (nowMs env) p.shared).2 }
      { p with shared := (NodeM.exec (sweepExpiredHolds env) p.shared).2 } := ⟨hnow, hself.calls⟩
  have hcoupled := hpools.play hcouples hlasting' hmoves hids
  refine ⟨?_, fun i => (hcoupled.calls i).alike, fun key now hle => ?_⟩
  · rw [hcoupled.shared.frame]
    rfl
  · exact (((hcoupled.shared.agree key).alike (ht ▸ hle)).availableBalance).symm

end Runs
section Examples

/-- A node whose clock goes on by a second at each reading. -/
private def tickingEnv : Env Unit :=
  { Env.plain "node" 1000 with clock := fun n => 1000 + 1000 * n }

private def lapsingHold : LocalCreateInput :=
  { LocalCreateInput.legacy "bucket" "alice" 0 none 100 "r1" false with
    holdAmount := some 30
    holdExpiresAtUnixMs := some 3500 }

private def lateSettle : LocalCreateInput :=
  { LocalCreateInput.legacy "bucket" "alice" (-20) none 100 "s1" false with
    settleReservation := some "0" }

private def tickingStart : SharedState Unit :=
  (NodeM.exec (newSharedState tickingEnv) (.blank .empty)).2

/-- The hold has been placed. -/
private def lapsed : Pool (SharedState Unit) Wait NodeAnswer :=
  playCalls tickingEnv (NodeCall.Sparing (fun _ => False) fun _ => False) (fun _ _ => True)
    tickingStart [.create lapsingHold] (List.replicate 20 0)

/-- After the hold has expired it is settled. -/
private def afterwards (s : SharedState Unit) : Pool (SharedState Unit) Wait NodeAnswer :=
  Pool.play (nodeScheduler tickingEnv (NodeCall.Sparing (fun _ => False) fun _ => False))
    (fun _ _ => True) { lapsed with shared := s }
    (.start 1 .start ((NodeCall.create lateSettle).program tickingEnv) ::
      List.replicate 20 (.resume 1))

/-- Only one run remembers the hold; both refuse the settle. -/
theorem sweep_invisible_lapsed :
    (((afterwards (NodeM.exec (nowMs tickingEnv) lapsed.shared).2).shared.account
      ("bucket", "alice")).reservations.lookup "0").isSome = true ∧
    ((afterwards (NodeM.exec (sweepExpiredHolds tickingEnv) lapsed.shared).2).shared.account
      ("bucket", "alice")).reservations.lookup "0" = none ∧
    Call.Alike NodeAnswer.Alike
      ((afterwards (NodeM.exec (nowMs tickingEnv) lapsed.shared).2).calls 1)
      ((afterwards (NodeM.exec (sweepExpiredHolds tickingEnv) lapsed.shared).2).calls 1) := by
  have hstart : Starts tickingEnv .empty tickingStart := by
    obtain ⟨calls, h⟩ := exec_newSharedState_empty tickingEnv
    exact ⟨by rw [tickingStart, h], fun _ _ => rfl⟩
  have hreach : NodeReach tickingEnv (NodeCall.Sparing (fun _ => False) fun _ => False)
      tickingStart lapsed :=
    reach_playCalls fun c hc => by
      obtain rfl := List.mem_singleton.1 hc
      trivial
  have hlater : ∀ n, lapsed.shared.clockReads ≤ n →
      tickingEnv.clock lapsed.shared.clockReads ≤ tickingEnv.clock n := by
    intro n hn
    show 1000 + 1000 * _ ≤ 1000 + 1000 * n
    omega
  have hnodup : ((afterwards (NodeM.exec (nowMs tickingEnv) lapsed.shared).2).shared.minted.map
      Event.eventId).Nodup := by decide +kernel
  refine ⟨by decide +kernel, by decide +kernel, ?_⟩
  refine (sweep_invisible hstart (fun e he => absurd he List.not_mem_nil) hreach hlater ?_
    rfl rfl ?_).2.1 1
  · intro m hm
    rcases List.mem_cons.1 hm with rfl | hm
    · exact ⟨rfl, .create lateSettle, trivial, rfl⟩
    · obtain rfl := List.eq_of_mem_replicate hm
      trivial
  · rintro x y (⟨⟨⟩⟩ | hx) (⟨⟨⟩⟩ | hy) heq
    exact List.inj_on_of_nodup_map hnodup hx hy heq

end Examples

end Shardd
