import Mathlib.Algebra.BigOperators.Group.Finset.Basic
import Mathlib.Algebra.Order.Ring.Int
import Mathlib.Data.Finset.Max
import Mathlib.Data.List.Perm.Basic
import Mathlib.Order.Bounds.Basic
import Shardd.Node.ReplicateSpec
import Shardd.Node.StartupSpec

/-!
# Replicas converge

A replica that has been given a set of events, in any order, any number of times, one by one or in
batches, with flushes in between, is in a state that depends on the set only.  The invariant names
the order in which the events were first accepted; what is read off the state does not depend on
it, because applying two different events commutes.
-/

namespace Shardd

/-! ## Applying events commutes -/

namespace AccountState

/-- The hold an event releases. -/
def releasedBy (e : Event) : Option String := if e.type = .holdRelease then e.voidRef else none

variable (acc : AccountState) (e : Event)

lemma reservations_applyEvent : (acc.applyEvent e).reservations =
    if e.hasHold then
      acc.reservations.insert e.eventId
        { originNodeId := e.originNodeId
          amount := e.holdAmount
          expiresAtUnixMs := e.holdExpiresAtUnixMs }
    else acc.reservations := by
  unfold applyEvent applyReleaseOf trackReservation
  split <;> split <;> rfl

lemma released_applyEvent : (acc.applyEvent e).released =
    match releasedBy e with
    | some eventId => insert eventId acc.released
    | none => acc.released := by
  have hreleased : ((acc.post e.amount).trackReservation e).released = acc.released := by
    unfold trackReservation
    split <;> rfl
  unfold applyEvent applyReleaseOf releasedBy
  rcases htype : e.type with _ | _ | _ | _ | _ <;> rcases e.voidRef with _ | eventId <;>
    simp [hreleased, applyRelease]

variable {e} {e' : Event}

/-- Events with different ids may be applied in either order. -/
theorem applyEvent_comm (h : e.eventId ≠ e'.eventId) :
    (acc.applyEvent e).applyEvent e' = (acc.applyEvent e').applyEvent e := by
  have hreservations : ((acc.applyEvent e).applyEvent e').reservations =
      ((acc.applyEvent e').applyEvent e).reservations := by
    simp only [reservations_applyEvent]
    split <;> split
    · exact Finmap.insert_insert_of_ne _ h
    all_goals rfl
  have hreleased : ((acc.applyEvent e).applyEvent e').released =
      ((acc.applyEvent e').applyEvent e).released := by
    simp only [released_applyEvent]
    rcases releasedBy e with _ | x <;> rcases releasedBy e' with _ | y
    · rfl
    · rfl
    · rfl
    · exact Finset.insert_comm _ _ _
  have hbalance : ((acc.applyEvent e).applyEvent e').balance =
      ((acc.applyEvent e').applyEvent e).balance := by
    simp only [balance_applyEvent]
    rw [Int64.add_assoc, Int64.add_comm e.amount, ← Int64.add_assoc]
  have hcount : ((acc.applyEvent e).applyEvent e').eventCount =
      ((acc.applyEvent e').applyEvent e).eventCount := by
    simp only [eventCount_applyEvent]
  generalize (acc.applyEvent e).applyEvent e' = a at *
  generalize (acc.applyEvent e').applyEvent e = b at *
  cases a
  cases b
  simp_all

/-- The account after a list of events. -/
def replay (es : List Event) : AccountState := es.foldl applyEvent .new

lemma balance_replay (es : List Event) :
    (replay es).balance = Int64.ofInt (es.map fun e => e.amount.toInt).sum := by
  have h : ∀ acc : AccountState, (es.foldl applyEvent acc).balance =
      acc.balance + Int64.ofInt (es.map fun e => e.amount.toInt).sum := by
    induction es with
    | nil => simp
    | cons e es ih =>
        intro acc
        rw [List.foldl_cons, ih, balance_applyEvent, List.map_cons, List.sum_cons, Int64.ofInt_add,
          Int64.ofInt_toInt, Int64.add_assoc]
  rw [replay, h]
  exact Int64.zero_add _

lemma eventCount_replay (es : List Event) : (replay es).eventCount = es.length := by
  have h : ∀ acc : AccountState, (es.foldl applyEvent acc).eventCount =
      acc.eventCount + es.length := by
    induction es with
    | nil => simp
    | cons e es ih =>
        intro acc
        rw [List.foldl_cons, ih, eventCount_applyEvent, List.length_cons]
        omega
  rw [replay, h]
  exact Nat.zero_add _

end AccountState

/-! ## Replicas -/

/-- What a replica is asked to do. -/
inductive ReplicaOp
  | insertEvent (e : Event)
  | insertEventsBatch (es : List Event)
  | flush (es : List Event)
  | markPersisted (keys : List OriginKey)

namespace ReplicaOp

/-- The events an operation delivers. -/
def delivered : ReplicaOp → List Event
  | .insertEvent e => [e]
  | .insertEventsBatch es => es
  | .flush _ | .markPersisted _ => []

variable {D : Type}

/-- The state after an operation. -/
def after (env : Env D) (s : SharedState D) : ReplicaOp → SharedState D
  | .insertEvent e => (NodeM.exec (Shardd.insertEvent env e) s).2
  | .insertEventsBatch es => (NodeM.exec (Shardd.insertEventsBatch env es) s).2
  | .flush es => (NodeM.exec (doFlush env es) s).2
  | .markPersisted keys => s.markPersisted keys

end ReplicaOp

/-- Events that do not interfere: they delete no bucket, their seqs count from `1`, and no two share
an id, an origin key or an idempotency key. -/
structure Replicable (E : Finset Event) : Prop where
  type : ∀ e ∈ E, e.type ≠ .bucketDelete
  pos : ∀ e ∈ E, 1 ≤ e.originSeq
  eventId : ∀ e ∈ E, ∀ e' ∈ E, e.eventId = e'.eventId → e = e'
  originKey : ∀ e ∈ E, ∀ e' ∈ E, e.originKey = e'.originKey → e = e'
  idempotencyKey : ∀ e ∈ E, ∀ e' ∈ E, e.idempotencyKey = e'.idempotencyKey → e = e'

/-- The operations deliver the events of `E`, all of them and no others. -/
def Delivers (E : Finset Event) (ops : List ReplicaOp) : Prop :=
  ∀ e, e ∈ E ↔ ∃ op ∈ ops, e ∈ op.delivered

variable {D : Type}

/-- The replica that has started on an empty storage and run the operations. -/
def replica (env : Env D) (ops : List ReplicaOp) : SharedState D :=
  ops.foldl (ReplicaOp.after env) (NodeM.exec (newSharedState env) (.blank .empty)).2

/-- The two replicas show the same, now and at every later instant. -/
structure SharedState.Agree (s s' : SharedState D) : Prop where
  balance : ∀ key, (s.account key).balance = (s'.account key).balance
  eventCount : ∀ key, (s.account key).eventCount = (s'.account key).eventCount
  activeReservations : ∀ key nowMs,
    (s.account key).activeReservations nowMs = (s'.account key).activeReservations nowMs
  availableBalance : ∀ key nowMs,
    (s.account key).availableBalance nowMs = (s'.account key).availableBalance nowMs
  head : ∀ key, s.head key = s'.head key
  pending : ∀ key, s.pending key = s'.pending key
  maxKnownSeqs : s.maxKnownSeqs = s'.maxKnownSeqs
  digests : s.digests = s'.digests

/-! ## The invariant -/

/-- The replica has accepted the events of `accepted`, in this order. -/
structure ReplicaOf (env : Env D) (accepted : List Event) (s : SharedState D) : Prop where
  nodup : accepted.Nodup
  log : LogOf env.hasher accepted.toFinset s
  account : ∀ key,
    s.account key = AccountState.replay (accepted.filter fun e => e.balanceKey = key)
  maxKnownSeqs : ∀ key m,
    s.maxKnownSeqs key = some m ↔ IsGreatest (seqsOf accepted.toFinset key : Set ℕ) m
  cache : ∀ key e, s.idempotencyCache key = some e → e ∈ accepted ∧ e.idempotencyKey = key
  unlocked : s.Unlocked
  deletedBuckets : ∀ bucket, s.deletedBuckets bucket = none

namespace ReplicaOf

variable {env : Env D} {accepted : List Event} {s : SharedState D}

variable (env) in
lemma fresh (clockReads calls : ℕ) : ReplicaOf env [] (.fresh clockReads calls) where
  nodup := List.nodup_nil
  log := .empty (fun _ => rfl) (fun _ => rfl) (fun _ => rfl) fun _ => rfl
  account _ := rfl
  maxKnownSeqs key m := by
    refine iff_of_false (by simp [SharedState.fresh, SharedState.blank]) fun h => ?_
    have := h.1
    simp [seqsOf] at this
  cache key e h := by cases h
  unlocked _ := rfl
  deletedBuckets _ := rfl

/-- A change of state that none of the fields shows. -/
lemma congr {s' : SharedState D} (h : ReplicaOf env accepted s)
    (hlog : LogOf env.hasher accepted.toFinset s') (haccounts : s'.accounts = s.accounts)
    (hmax : s'.maxKnownSeqs = s.maxKnownSeqs) (hcache : s'.idempotencyCache = s.idempotencyCache)
    (hlocks : s'.accountLocks = s.accountLocks)
    (hdeleted : s'.deletedBuckets = s.deletedBuckets) : ReplicaOf env accepted s' where
  nodup := h.nodup
  log := hlog
  account key := by
    rw [SharedState.account, haccounts]
    exact h.account key
  maxKnownSeqs := by
    rw [hmax]
    exact h.maxKnownSeqs
  cache := by
    rw [hcache]
    exact h.cache
  unlocked key := by
    rw [hlocks]
    exact h.unlocked key
  deletedBuckets := by
    rw [hdeleted]
    exact h.deletedBuckets

/-- The maximum of the seqs after one more. -/
lemma isGreatest_insert {S : Finset ℕ} {o : Option ℕ} {n m : ℕ} :
    (∀ m, o = some m ↔ IsGreatest (S : Set ℕ) m) →
    (some (match o with | some m => if m < n then n else m | none => n) = some m ↔
      IsGreatest (insert n S : Finset ℕ) m) := by
  intro h
  rcases o with _ | k
  · have hempty : S = ∅ := by
      by_contra hne
      obtain ⟨x, hx⟩ := Finset.nonempty_iff_ne_empty.2 hne
      have hmax := (h (S.max' ⟨x, hx⟩)).2 (S.isGreatest_max' ⟨x, hx⟩)
      cases hmax
    rw [hempty, Finset.coe_insert, Finset.coe_empty, insert_empty_eq, Option.some.injEq]
    exact ⟨fun h => h ▸ isGreatest_singleton, fun h => isGreatest_singleton.unique h⟩
  · have hk := (h k).1 rfl
    have hgreatest : IsGreatest (insert n S : Finset ℕ) (max n k) := by
      rw [Finset.coe_insert]
      exact hk.insert n
    have hmax : (if k < n then n else k) = max n k := by
      split <;> omega
    simp only [hmax, Option.some.injEq]
    exact ⟨fun h => h ▸ hgreatest, fun h => hgreatest.unique h⟩

/-- A new event is accepted. -/
lemma insert_new {E : Finset Event} (hE : Replicable E) (h : ReplicaOf env accepted s)
    (hsub : ∀ e ∈ accepted, e ∈ E) {e : Event} (he : e ∈ E) (hnew : e ∉ accepted) :
    ReplicaOf env (accepted ++ [e]) ((s.accepted env e).cacheEvent e) := by
  have hkey : ∀ e' ∈ accepted.toFinset, e'.originKey ≠ e.originKey := by
    intro e' he' hkey
    rw [List.mem_toFinset] at he'
    exact hnew (hE.originKey e' (hsub e' he') e he hkey ▸ he')
  have hset : (accepted ++ [e]).toFinset = insert e accepted.toFinset := by
    ext x
    simp
  have hlog := h.log.accepted (hE.pos e he) hkey
  refine ⟨?_, ?_, fun key => ?_, fun key m => ?_, fun key x hx => ?_, fun key => ?_, ?_⟩
  · exact List.nodup_append.2 ⟨h.nodup, List.nodup_singleton e, by
      intro a ha b hb
      rw [List.mem_singleton.1 hb]
      exact fun hab => hnew (hab ▸ ha)⟩
  · rw [hset]
    exact hlog.of_sameLog ⟨rfl, rfl, rfl, rfl⟩
  · have hacc := SharedState.account_accepted env (s := s) (e := e) key
    change (s.accepted env e).account key = _
    rw [hacc, h.account, List.filter_append]
    by_cases hk : key = e.balanceKey
    · simp [hk, AccountState.replay]
    · simp [hk, Ne.symm hk]
  · change (s.accepted env e).maxKnownSeqs key = some m ↔ _
    rw [SharedState.maxKnownSeqs_accepted, hset, seqsOf_insert, Map.insert_apply]
    by_cases hk : key = e.epochKey
    · subst hk
      rw [if_pos rfl, if_pos rfl]
      exact isGreatest_insert (h.maxKnownSeqs e.epochKey)
    · rw [if_neg hk, if_neg (Ne.symm hk)]
      exact h.maxKnownSeqs key m
  · have hcache : ((s.accepted env e).cacheEvent e).idempotencyCache =
        s.idempotencyCache.insert e.idempotencyKey e := by
      rw [SharedState.cacheEvent, SharedState.accepted_frame]
    rw [hcache, Map.insert_apply] at hx
    split at hx
    · rename_i hk
      cases hx
      exact ⟨by simp, hk.symm⟩
    · obtain ⟨hmem, hk⟩ := h.cache key x hx
      exact ⟨List.mem_append_left _ hmem, hk⟩
  · rw [SharedState.cacheEvent, SharedState.accepted_frame]
    exact h.unlocked key
  · rw [SharedState.cacheEvent, SharedState.accepted_frame]
    exact h.deletedBuckets

variable {E : Finset Event}

/-- The step lemma: an event that has been accepted changes nothing, and a new one is accepted. -/
lemma insertEvent (hE : Replicable E) (h : ReplicaOf env accepted s)
    (hsub : ∀ e ∈ accepted, e ∈ E) {e : Event} (he : e ∈ E) :
    ∃ new s', NodeM.exec (Shardd.insertEvent env e) s = (some new, s') ∧
      ReplicaOf env (if e ∈ accepted then accepted else accepted ++ [e]) s' := by
  obtain ⟨r, s', hinserted, hrun⟩ := exec_insertEvent env e
    (Event.metaTargetBucket_eq_none (hE.type e he)) h.unlocked
  rw [hrun]
  by_cases hmem : e ∈ accepted
  · have hpresent := h.log.isPresent (List.mem_toFinset.2 hmem)
    rw [if_pos hmem]
    cases hinserted with
    | deleted _ => exact ⟨_, _, rfl, h⟩
    | present _ _ => exact ⟨_, _, rfl, h⟩
    | occupied _ _ _ => exact ⟨_, _, rfl, h⟩
    | filed _ hp _ _ => simp [hpresent] at hp
    | conflict _ hp _ _ _ => simp [hpresent] at hp
  · have hkey : ∀ e' ∈ accepted.toFinset, e'.originKey ≠ e.originKey := by
      intro e' he' hkey
      rw [List.mem_toFinset] at he'
      exact hmem (hE.originKey e' (hsub e' he') e he hkey ▸ he')
    obtain ⟨hbuffer, hpresent⟩ := h.log.not_isPresent (hE.pos e he) hkey
    have hconflict : s.conflicting e = none := by
      unfold SharedState.conflicting
      rcases hc : s.idempotencyCache e.idempotencyKey with _ | x
      · rfl
      · obtain ⟨hx, hxkey⟩ := h.cache _ _ hc
        exact absurd (hE.idempotencyKey x (hsub x hx) e he hxkey ▸ hx) hmem
    rw [if_neg hmem]
    cases hinserted with
    | deleted hd => simp [Map.containsKey, h.deletedBuckets] at hd
    | present _ hp => simp [hpresent] at hp
    | occupied _ _ hb => exact absurd hbuffer hb
    | filed _ _ _ _ => exact ⟨_, _, rfl, h.insert_new hE hsub he hmem⟩
    | conflict _ _ _ hc _ => simp [hconflict] at hc

/-- A batch delivers its events one after the other. -/
lemma insertEventsBatch (hE : Replicable E) (h : ReplicaOf env accepted s)
    (hsub : ∀ e ∈ accepted, e ∈ E) {es : List Event} (hes : ∀ e ∈ es, e ∈ E) :
    ∃ accepted', ReplicaOf env accepted' (NodeM.exec (Shardd.insertEventsBatch env es) s).2 ∧
      ∀ e, e ∈ accepted' ↔ e ∈ accepted ∨ e ∈ es := by
  induction es generalizing accepted s with
  | nil => exact ⟨accepted, h, by simp⟩
  | cons e es ih =>
      obtain ⟨new, s', hrun, h'⟩ := h.insertEvent hE hsub (hes e List.mem_cons_self)
      have hmem : ∀ x, x ∈ (if e ∈ accepted then accepted else accepted ++ [e]) ↔
          x ∈ accepted ∨ x = e := by
        intro x
        split
        · rename_i he
          exact ⟨.inl, fun hx => hx.elim id (· ▸ he)⟩
        · simp
      obtain ⟨accepted', hreplica, hacc⟩ := ih h'
        (fun x hx => ((hmem x).1 hx).elim (hsub x) (· ▸ hes e List.mem_cons_self))
        fun x hx => hes x (List.mem_cons_of_mem _ hx)
      refine ⟨accepted', ?_, fun x => ?_⟩
      · have hsnd : (NodeM.exec (Shardd.insertEventsBatch env (e :: es)) s).2 =
            (NodeM.exec (Shardd.insertEventsBatch env es) s').2 := by
          simp only [NodeM.exec] at hrun
          simp only [Shardd.insertEventsBatch, NodeM.exec, Proc.exec_bind, hrun, Proc.andThen_some]
          rcases Proc.exec Wait.ready (Shardd.insertEventsBatch env es) s' with ⟨_ | _, _⟩ <;> rfl
        rw [hsnd]
        exact hreplica
      · rw [hacc, hmem, List.mem_cons, or_assoc]

lemma markPersisted (h : ReplicaOf env accepted s) (keys : List OriginKey) :
    ReplicaOf env accepted (s.markPersisted keys) := by
  apply h.congr (h.log.markPersisted keys) <;> rw [SharedState.markPersisted_frame]

lemma doFlush (h : ReplicaOf env accepted s) (es : List Event) :
    ReplicaOf env accepted (NodeM.exec (Shardd.doFlush env es) s).2 := by
  obtain ⟨s₁, ⟨st, calls, -, rfl⟩, hrun⟩ := exec_doFlush env es s
  have hset : ReplicaOf env accepted (s.setStorage st calls) :=
    h.congr (h.log.of_sameLog ⟨rfl, rfl, rfl, rfl⟩) rfl rfl rfl rfl rfl
  rcases hrun with hrun | hrun
  · rw [hrun]
    exact hset.markPersisted (es.map Event.originKey)
  · rw [hrun]
    exact hset

/-- The run lemma: a replica has accepted what has been delivered to it. -/
lemma run (hE : Replicable E) (h : ReplicaOf env accepted s) (hsub : ∀ e ∈ accepted, e ∈ E)
    (ops : List ReplicaOp) (hops : ∀ op ∈ ops, ∀ e ∈ op.delivered, e ∈ E) :
    ∃ accepted', ReplicaOf env accepted' (ops.foldl (ReplicaOp.after env) s) ∧
      ∀ e, e ∈ accepted' ↔ e ∈ accepted ∨ ∃ op ∈ ops, e ∈ op.delivered := by
  induction ops generalizing accepted s with
  | nil => exact ⟨accepted, h, by simp⟩
  | cons op ops ih =>
      obtain ⟨mid, hmid, hacc⟩ : ∃ mid, ReplicaOf env mid (op.after env s) ∧
          ∀ e, e ∈ mid ↔ e ∈ accepted ∨ e ∈ op.delivered := by
        cases op with
        | insertEvent e =>
            obtain ⟨new, s', hrun, h'⟩ := h.insertEvent hE hsub
              (hops _ List.mem_cons_self e (List.mem_singleton.2 rfl))
            refine ⟨_, by rw [ReplicaOp.after, hrun]; exact h', fun x => ?_⟩
            rw [ReplicaOp.delivered, List.mem_singleton]
            split
            · rename_i he
              exact ⟨.inl, fun hx => hx.elim id (· ▸ he)⟩
            · simp
        | insertEventsBatch es => exact h.insertEventsBatch hE hsub (hops _ List.mem_cons_self)
        | flush es => exact ⟨accepted, h.doFlush es, by simp [ReplicaOp.delivered]⟩
        | markPersisted keys =>
            exact ⟨accepted, h.markPersisted keys, by simp [ReplicaOp.delivered]⟩
      obtain ⟨accepted', hreplica, hacc'⟩ := ih hmid
        (fun e he => ((hacc e).1 he).elim (hsub e) (hops op List.mem_cons_self e))
        fun op' hop' => hops op' (List.mem_cons_of_mem _ hop')
      refine ⟨accepted', hreplica, fun e => ?_⟩
      rw [hacc', hacc]
      simp [or_assoc]

variable (env) in
/-- A replica that has been delivered `E` has accepted `E`. -/
lemma replica (hE : Replicable E) {ops : List ReplicaOp} (hops : Delivers E ops) :
    ∃ accepted, ReplicaOf env accepted (Shardd.replica env ops) ∧ accepted.toFinset = E := by
  obtain ⟨calls, hstart⟩ := exec_newSharedState_empty env
  obtain ⟨accepted, h, hacc⟩ := (fresh env 1 calls).run hE (by simp)
    ops fun op hop e he => (hops e).2 ⟨op, hop, he⟩
  refine ⟨accepted, ?_, ?_⟩
  · rw [Shardd.replica, hstart]
    exact h
  · ext e
    rw [List.mem_toFinset, hacc, hops]
    simp

/-- The account of a replica does not depend on the order of acceptance. -/
lemma account_eq_of_perm (hE : Replicable E) {accepted' : List Event}
    (hperm : accepted.Perm accepted') (hsub : ∀ e ∈ accepted, e ∈ E) (key : BalanceKey) :
    AccountState.replay (accepted.filter fun e => e.balanceKey = key) =
      AccountState.replay (accepted'.filter fun e => e.balanceKey = key) := by
  refine (hperm.filter _).foldl_eq' (fun x hx y hy acc => ?_) _
  by_cases hid : x.eventId = y.eventId
  · rw [hE.eventId x (hsub x (List.mem_of_mem_filter hx)) y
      (hsub y (List.mem_of_mem_filter hy)) hid]
  · exact AccountState.applyEvent_comm acc hid

/-- Two replicas that have accepted the same events agree. -/
lemma agree (hE : Replicable E) {env' : Env D} {accepted' : List Event} {s' : SharedState D}
    (hhasher : env.hasher = env'.hasher) (h : ReplicaOf env accepted s)
    (h' : ReplicaOf env' accepted' s') (hset : accepted.toFinset = E)
    (hset' : accepted'.toFinset = E) : s.Agree s' := by
  have hperm : accepted.Perm accepted' :=
    List.perm_of_nodup_nodup_toFinset_eq h.nodup h'.nodup (hset.trans hset'.symm)
  have haccount : ∀ key, s.account key = s'.account key := fun key => by
    rw [h.account, h'.account]
    exact account_eq_of_perm hE hperm (fun e he => hset ▸ List.mem_toFinset.2 he) key
  have hlog := h.log
  have hlog' := h'.log
  rw [hset] at hlog
  rw [hset'] at hlog'
  have hhead : ∀ key, s.head key = s'.head key := fun key =>
    (hlog.head key).head_unique (hlog'.head key)
  refine ⟨fun key => by rw [haccount], fun key => by rw [haccount],
    fun key nowMs => by rw [haccount],
    fun key nowMs => by rw [haccount], hhead, fun key =>
      (hlog.head key).pending_unique (hlog'.head key), ?_, ?_⟩
  · funext key
    refine Option.ext fun m => ?_
    rw [h.maxKnownSeqs, h'.maxKnownSeqs, hset, hset']
  · funext key
    obtain ⟨d, hd, hdigest⟩ := hlog.digest key
    obtain ⟨d', hd', hdigest'⟩ := hlog'.digest key
    rw [← hhead] at hd' hdigest'
    rw [← hhasher] at hd'
    rw [hdigest, hdigest', hd.unique hlog.eq_of_originKey hd']

end ReplicaOf

/-- **Convergence.**  Two replicas that started empty and have been delivered the same events agree,
and on each of them every event counts exactly once. -/
theorem replicas_converge {E : Finset Event} (hE : Replicable E) (env env' : Env D)
    (hhasher : env.hasher = env'.hasher) {ops ops' : List ReplicaOp} (hops : Delivers E ops)
    (hops' : Delivers E ops') :
    (replica env ops).Agree (replica env' ops') ∧
      ∀ key,
        ((replica env ops).account key).balance =
            Int64.ofInt (∑ e ∈ E.filter fun e => e.balanceKey = key, e.amount.toInt) ∧
          ((replica env ops).account key).eventCount =
            (E.filter fun e => e.balanceKey = key).card := by
  obtain ⟨accepted, h, hset⟩ := ReplicaOf.replica env hE hops
  obtain ⟨accepted', h', hset'⟩ := ReplicaOf.replica env' hE hops'
  refine ⟨h.agree hE hhasher h' hset hset', fun key => ?_⟩
  have hnodup : (accepted.filter fun e => e.balanceKey = key).Nodup := h.nodup.filter _
  have hfilter : (accepted.filter fun e => e.balanceKey = key).toFinset =
      E.filter fun e => e.balanceKey = key := by
    rw [List.toFinset_filter, hset]
    simp
  rw [h.account, AccountState.balance_replay, AccountState.eventCount_replay, ← hfilter,
    List.sum_toFinset _ hnodup, List.toFinset_card_of_nodup hnodup]
  exact ⟨rfl, rfl⟩

/-- Two events of a third node, the second of them first, against a batch with duplicates. -/
theorem replicas_converge_two :
    let e := (LocalCreateInput.legacy "bucket" "alice" 5 none 0 "n1" false).chargeDraft.event
      "e1" "c" (1, 1) 10
    let e' := (LocalCreateInput.legacy "bucket" "alice" (-3) none 0 "n2" false).chargeDraft.event
      "e2" "c" (1, 2) 20
    (replica (Env.plain "a" 100) [.insertEvent e', .insertEvent e]).Agree
      (replica (Env.plain "b" 200)
        [.insertEventsBatch [e, e', e], .flush [e, e'], .insertEvent e']) := by
  intro e e'
  have hE : Replicable {e, e'} :=
    { type := by decide +kernel
      pos := by decide +kernel
      eventId := by decide +kernel
      originKey := by decide +kernel
      idempotencyKey := by decide +kernel }
  clear_value e e'
  refine (replicas_converge hE (Env.plain "a" 100) (Env.plain "b" 200) rfl
    (fun x => ?_) fun x => ?_).1
  · simp [ReplicaOp.delivered, or_comm]
  · simp [ReplicaOp.delivered, or_comm, or_left_comm]

end Shardd
