import Shardd.Concurrency.Deadlock
import Shardd.Ledger.Overdraft
import Shardd.Lib.Recorded
import Shardd.Node.DeleteRules
import Shardd.Recovery.Accounts
import Shardd.Recovery.Start

/-!
# One-shot capture

A node runs any number of settles and releases of one reservation, while replicated events, the
sweep and the other calls of the node change the reservations, the released ids and the locks.  Of
these requests at most one mints, and a settle that mints takes no more than what the reservation
holds, before it expires, and before any release of it has been applied.

The run is recorded, so that what has been applied can be spoken of even where the sweep has
forgotten it.  The sweep forgets a release only with its reservation, and only when that has
expired: a release that has been applied at any time leaves the reservation closed
(`SharedState.Closed`).
A settle or a release finds the reservation open, so no release of it has been applied before; and
from the check to the mint the lock keeps the account as it is.
-/

namespace Shardd

variable {D : Type}

/-! ## Reservations -/

/-- The reservation a settle or a release is about. -/
def LocalCreateInput.subject (input : LocalCreateInput) : Option String :=
  input.settleReservation <|> input.releaseReservation

/-- The event is the hold behind a reservation of an account. -/
structure Event.Backs (x : Event) (key : BalanceKey) (r : String) (reservation : ReservationState) :
    Prop where
  eventId : x.eventId = r
  balanceKey : x.balanceKey = key
  hasHold : x.hasHold = true
  amount : x.holdAmount = reservation.amount
  expires : x.holdExpiresAtUnixMs = reservation.expiresAtUnixMs

/-- No two events have the same id. -/
def UniqueIds (P : Event → Prop) : Prop := ∀ x y, P x → P y → x.eventId = y.eventId → x = y

lemma UniqueIds.mono {P Q : Event → Prop} (h : UniqueIds Q) (hsub : ∀ x, P x → Q x) :
    UniqueIds P :=
  fun x y hx hy heq => h x y (hsub x hx) (hsub y hy) heq

/-- The reservations of an account come from events of the kind `P`, and no release is forgotten. -/
structure AccountState.Grows (P : Event → Prop) (key : BalanceKey) (acc acc' : AccountState) :
    Prop where
  reservations : ∀ {r reservation}, acc'.reservations.lookup r = some reservation →
    acc.reservations.lookup r = some reservation ∨ ∃ x, P x ∧ x.Backs key r reservation
  released : acc.released ⊆ acc'.released

namespace AccountState

variable {P : Event → Prop} {key : BalanceKey} {acc acc' : AccountState} {e : Event}

lemma Grows.refl (P : Event → Prop) (key : BalanceKey) (acc : AccountState) :
    acc.Grows P key acc :=
  ⟨fun h => .inl h, Finset.Subset.refl _⟩

lemma Grows.applyEvent (he : P e) (acc : AccountState) :
    acc.Grows P e.balanceKey (acc.applyEvent e) where
  reservations {r reservation} h := by
    rw [lookup_applyEvent] at h
    split at h
    · rename_i hhold
      obtain rfl := Option.some.inj h
      exact .inr ⟨e, he, hhold.2.symm, rfl, hhold.1, rfl, rfl⟩
    · exact .inl h
  released r hr := (mem_released_applyEvent acc e r).2 (.inr hr)

lemma Grows.applyReleaseOf (P : Event → Prop) (key : BalanceKey) (acc : AccountState)
    (amount : Int64) (e : Event) : acc.Grows P key ((acc.post amount).applyReleaseOf e) := by
  unfold AccountState.applyReleaseOf
  split
  · exact ⟨fun h => .inl h, Finset.subset_insert _ _⟩
  · exact ⟨fun h => .inl h, Finset.Subset.refl _⟩

end AccountState

/-- What an insertion does to an account. -/
lemma InsertStage.Effect.grows {P : Event → Prop} {e : Event} {st : InsertStage} {key : BalanceKey}
    {f : AccountState → AccountState} (h : st.Effect e key f) (he : P e) (acc : AccountState) :
    acc.Grows P key (f acc) := by
  cases h with
  | applied => exact .applyEvent he acc
  | corrected x _ => exact .applyReleaseOf P _ acc x.amount x

/-! ## The contract -/

/-- The event is one of `W`, or the node has minted it. -/
def SharedState.Heard (W : Event → Prop) (s : SharedState D) (e : Event) : Prop :=
  W e ∨ e ∈ s.minted

/-- The reservation has been released, or it has expired before the clock was last read. -/
def SharedState.Closed (env : Env D) (W : Event → Prop) (s : SharedState D) (key : BalanceKey)
    (r : String) : Prop :=
  r ∈ (s.account key).released ∨
    ∃ x n, s.Heard W x ∧ x.eventId = r ∧ n < s.clockReads ∧ x.holdExpiresAtUnixMs ≤ env.clock n

/-- Every reservation of an account comes from a known hold. -/
def SharedState.Tracked (W : Event → Prop) (s : SharedState D) : Prop :=
  ∀ key r reservation, (s.account key).reservations.lookup r = some reservation →
    ∃ x, s.Heard W x ∧ x.Backs key r reservation

/-- What the accounts say of holds; the buckets `B` are not deleted. -/
structure Accounted (env : Env D) (W : Event → Prop) (B : String → Prop)
    (R : Recorded (SharedState D)) : Prop where
  tracked : R.node.Tracked W
  closed : ∀ {k t key r}, B key.1 → R.Began k t → r ∈ (t.account key).released →
    R.node.Closed env W key r

/-- What call `i` does to the accounts that others have locked: nothing. -/
structure Leaves (B : String → Prop) (i : ℕ) (s s' : SharedState D) : Prop where
  account : ∀ key k, B key.1 → k ≠ i → s.accountLocks key = some k →
    s'.account key = s.account key
  minted : s.minted <+: s'.minted
  clockReads : s.clockReads ≤ s'.clockReads

namespace Leaves

variable {B : String → Prop} {i : ℕ} {s s' s'' : SharedState D}

lemma trans (h : Leaves B i s s') (hlocks : KeepsLocks i s s') (h' : Leaves B i s' s'') :
    Leaves B i s s'' where
  account key k hkey hk hlock :=
    (h'.account key k hkey hk ((hlocks key k hk).1 hlock)).trans (h.account key k hkey hk hlock)
  minted := h.minted.trans h'.minted
  clockReads := h.clockReads.trans h'.clockReads

lemma heard (h : Leaves B i s s') {W : Event → Prop} {e : Event} (he : s.Heard W e) :
    s'.Heard W e :=
  he.imp id fun he => h.minted.subset he

end Leaves

/-- Between the two, a settle of `r` has been minted: its charge takes no more than what the hold
`x` covers, and comes before that expires. -/
def Captures (input : LocalCreateInput) (r : String) (x : Event) (es es' : List Event) : Prop :=
  ∃ charge release : Event, es' = es ++ [charge, release] ∧
    charge.balanceKey = input.balanceKey ∧ charge.amount = input.amount ∧
    unsignedAbs charge.amount ≤ x.holdAmount ∧
    charge.createdAtUnixMs < x.holdExpiresAtUnixMs ∧ release.voidRef = some r

/-- The `k`-th segment, from `s` to `t`, has taken the reservation `r`: no release of it has been
applied before, and now one has.  A settle has captured what an open hold covers. -/
structure Took (W : Event → Prop) (input : LocalCreateInput) (r : String)
    (R : Recorded (SharedState D)) (k : ℕ) (s t : SharedState D) : Prop where
  released : r ∈ (t.account input.balanceKey).released
  fresh : UniqueIds (R.node.Heard W) → ∀ j u, j ≤ k → R.Began j u →
    r ∉ (u.account input.balanceKey).released
  hold : ∃ x, R.node.Heard W x ∧ x.eventId = r ∧ x.balanceKey = input.balanceKey ∧
    x.hasHold = true ∧ (input.settleReservation = some r → Captures input r x s.minted t.minted)

/-- Every segment of call `i` that minted has taken the reservation the request is about. -/
def Takes (W : Event → Prop) (B : String → Prop) (i : ℕ) (input : LocalCreateInput)
    (R : Recorded (SharedState D)) : Prop :=
  B input.bucket → ∀ r, input.subject = some r → ∀ k s t, R.Ran k i s t →
    t.minted = s.minted ∨ Took W input r R k s t

def captureContract (env : Env D) (W : Event → Prop) (B : String → Prop) :
    Contract (Recorded (SharedState D)) (NodeCall × Wait) where
  inv := Accounted env W B
  guar i R R' := R.Next i R' ∧ KeepsLocks i R.node R'.node ∧ Leaves B i R.node R'.node
  absent i R := Holds i [] R.node ∧ ∀ k s t, ¬ R.Ran k i s t
  pause i l R := ∀ input, l.1 = .create input → Takes W B i input R

section Contract

variable {env : Env D} {W : Event → Prop} {B : String → Prop} {i j : ℕ} {input : LocalCreateInput}
  {R R' : Recorded (SharedState D)} {s' : SharedState D}

/-- One act of a segment. -/
lemma Accounted.act (h : Accounted env W B R) (hminted : R.node.minted <+: s'.minted)
    (hclock : R.node.clockReads ≤ s'.clockReads)
    (hgrows : ∀ key, (R.node.account key).Grows (s'.Heard W) key (s'.account key) ∨
      ¬ B key.1 ∧ s'.account key = .new) :
    Accounted env W B { R with node := s' } where
  tracked key r reservation hr := by
    change (s'.account key).reservations.lookup r = some reservation at hr
    rcases hgrows key with hkey | ⟨-, hnew⟩
    · rcases hkey.reservations hr with hr | hr
      · obtain ⟨x, hx, hbacks⟩ := h.tracked key r reservation hr
        exact ⟨x, hx.imp id fun hx => hminted.subset hx, hbacks⟩
      · exact hr
    · rw [hnew] at hr
      cases hr
  closed {k t key r} hkey ht hr := by
    rcases h.closed hkey ht hr with hr | ⟨x, n, hx, hid, hn, hexpires⟩
    · rcases hgrows key with hgrows | ⟨hnot, -⟩
      · exact .inl (hgrows.released hr)
      · exact absurd hkey hnot
    · exact .inr ⟨x, n, hx.imp id fun hx => hminted.subset hx, hid, hn.trans_le hclock, hexpires⟩

/-- The sweep forgets a release with its reservation only, when that has expired. -/
lemma Accounted.sweep (h : Accounted env W B R) {n : ℕ} (hn : n < R.node.clockReads) :
    Accounted env W B { R with node := R.node.sweepExpired (env.clock n) } where
  tracked key r reservation hr := by
    refine h.tracked key r reservation ?_
    change ((R.node.sweepExpired (env.clock n)).account key).reservations.lookup r = _ at hr
    rcases SharedState.account_sweepExpired (s := R.node) (env.clock n) key with hacc | hacc
    · rw [hacc] at hr
      exact hr
    · rw [hacc] at hr
      rw [AccountState.sweepExpired, Finmap.lookup_filter, Option.filter_eq_some_iff] at hr
      exact hr.1
  closed {k t key r} hkey ht hr := by
    rcases h.closed hkey ht hr with hmem | hexpired
    · change r ∈ ((R.node.sweepExpired (env.clock n)).account key).released ∨ _
      rcases SharedState.account_sweepExpired (s := R.node) (env.clock n) key with hacc | hacc
      · rw [hacc]
        exact .inl hmem
      · rw [hacc]
        by_cases hlive : ((R.node.account key).reservations.lookup r).all
            fun reservation => decide (env.clock n < reservation.expiresAtUnixMs)
        · exact .inl (Finset.mem_filter.2 ⟨hmem, hlive⟩)
        · -- the reservation is there, and its hold has expired
          rcases hlookup : (R.node.account key).reservations.lookup r with _ | reservation
          · rw [hlookup] at hlive
            exact absurd rfl hlive
          · rw [hlookup] at hlive
            obtain ⟨x, hx, hbacks⟩ := h.tracked key r reservation hlookup
            refine .inr ⟨x, n, hx, hbacks.eventId, hn, ?_⟩
            rw [hbacks.expires]
            simpa using hlive
    · exact .inr hexpired

/-- A call is resumed. -/
lemma Accounted.enter (h : Accounted env W B R) (i : ℕ) :
    Accounted env W B (R.enter SharedState.resumed i) where
  tracked := h.tracked
  closed {k t key r} hkey ht hr := by
    rcases (R.next_enter (i := i) SharedState.resumed).began_iff.1 ht with ht | ⟨-, rfl⟩
    · exact h.closed hkey ht hr
    · exact .inl hr

/-- One segment more changes nothing in what has been taken. -/
lemma Took.next {r : String} {k : ℕ} {s t : SharedState D} (h : Took W input r R k s t)
    (hk : k < R.past.length) (hnext : R.Next j R') (hminted : R.node.minted <+: R'.node.minted) :
    Took W input r R' k s t where
  released := h.released
  fresh hids l u hl hu := by
    have hsub : ∀ x, R.node.Heard W x → R'.node.Heard W x :=
      fun x hx => hx.imp id fun hx => hminted.subset hx
    rcases hnext.began_iff.1 hu with hu | ⟨rfl, -⟩
    · exact h.fresh (hids.mono hsub) l u hl hu
    · exact absurd hk (Nat.not_lt.2 hl)
  hold := by
    obtain ⟨x, hx, hrest⟩ := h.hold
    exact ⟨x, hx.imp id fun hx => hminted.subset hx, hrest⟩

/-- Nobody else mints for a request. -/
lemma Takes.other (h : Takes W B i input R) (hij : j ≠ i) (hnext : R.Next j R')
    (hminted : R.node.minted <+: R'.node.minted) : Takes W B i input R' := by
  intro hb r hr k s t hran
  rcases hnext.ran_iff.1 hran with hran | ⟨-, rfl, -⟩
  · exact (h hb r hr k s t hran).imp id fun htook => htook.next hran.lt hnext hminted
  · exact absurd rfl hij

lemma Takes.enter (h : Takes W B i input R) :
    Takes W B i input (R.enter SharedState.resumed i) := by
  have hnext : R.Next i (R.enter SharedState.resumed i) := R.next_enter SharedState.resumed
  intro hb r hr k s t hran
  rcases hnext.ran_iff.1 hran with hran | ⟨-, -, rfl, rfl⟩
  · exact (h hb r hr k s t hran).imp id fun htook => htook.next hran.lt hnext (List.prefix_refl _)
  · exact .inl rfl

lemma Takes.of_absent (h : ∀ k s t, ¬ R.Ran k i s t) : Takes W B i input R :=
  fun _ _ _ k s t hran => absurd hran (h k s t)

/-- The state of the running segment is not what an earlier one has taken. -/
lemma Took.set {r : String} {k : ℕ} {s t t' : SharedState D} (h : Took W input r R k s t)
    (hminted : R.node.minted <+: s'.minted) (ht : t'.minted = t.minted)
    (hreleased : (t.account input.balanceKey).released ⊆ (t'.account input.balanceKey).released) :
    Took W input r { R with node := s' } k s t' where
  released := hreleased h.released
  fresh hids l u hl hu :=
    h.fresh (hids.mono fun x hx => hx.imp id fun hx => hminted.subset hx) l u hl hu
  hold := by
    obtain ⟨x, hx, hrest⟩ := h.hold
    rw [ht]
    exact ⟨x, hx.imp id fun hx => hminted.subset hx, hrest⟩

/-- An act that neither mints nor forgets a release. -/
lemma Takes.act (h : Takes W B i input R) (hminted : s'.minted = R.node.minted)
    (hreleased : B input.bucket →
      (R.node.account input.balanceKey).released ⊆ (s'.account input.balanceKey).released) :
    Takes W B i input { R with node := s' } := by
  intro hb r hr k s t hran
  have hprefix : R.node.minted <+: s'.minted := by rw [hminted]
  rcases Nat.lt_or_eq_of_le (Nat.succ_le_of_lt hran.lt) with hk | hk
  · have hpast : ({ R with node := s' } : Recorded (SharedState D)).past = R.past := rfl
    have hran' : R.Ran k i s t := (Recorded.ran_iff_of_lt hpast hk).1 hran
    exact (h hb r hr k s t hran').imp id fun htook => htook.set hprefix rfl (Finset.Subset.refl _)
  · -- the running segment
    have ht : t = s' := hran.eq_node hk
    subst ht
    have hran' : R.Ran k i s R.node := ⟨hran.1, .inr ⟨hk, rfl⟩⟩
    exact (h hb r hr k s R.node hran').imp hminted.trans
      fun htook => htook.set hprefix hminted (hreleased hb)

end Contract

/-! ## The judgements -/

/-- The contract has been kept so far, and the call holds these locks. -/
structure SegmentAt (env : Env D) (W : Event → Prop) (B : String → Prop) (i : ℕ)
    (held : List BalanceKey) (R₀ R : Recorded (SharedState D)) : Prop where
  inv : Accounted env W B R
  next : R₀.Next i R
  leaves : Leaves B i R₀.node R.node
  holdsAt : HoldsAt i held R₀.node R.node

/-- A node whose run is recorded. -/
def recordedNode (env : Env D) (kinds : NodeCall → Prop) :
    Scheduler (Recorded (SharedState D)) (NodeCall × Wait) NodeAnswer :=
  (nodeScheduler env kinds).recorded fun c l t => l = .start ∧ kinds c ∧ t = c.program env

/-- Every run of a node can be recorded. -/
theorem recorded_of_reach {env : Env D} {kinds : NodeCall → Prop} {start : SharedState D}
    {p : Pool (SharedState D) Wait NodeAnswer} (h : NodeReach env kinds start p) :
    ∃ q, Pool.Reach (recordedNode env kinds) (fun _ _ => True) ⟨start, []⟩ q ∧
      Pool.Records p q := by
  apply h.recorded
  rintro l t ⟨hl, c, hc, ht⟩
  exact ⟨c, hl, hc, ht⟩

section Segments

variable {env : Env D} {W : Event → Prop} {B : String → Prop} {i : ℕ} {held held' : List BalanceKey}
  {R₀ R : Recorded (SharedState D)} {s' : SharedState D} {kinds : NodeCall → Prop}
  {C : NodeCall × Wait → Recorded (SharedState D) → Prop}

/-- The next segment of a call begins. -/
lemma Accounted.segmentAt (h : Accounted env W B R) (hholds : Holds i held R.node)
    (hnodup : held.Nodup) : SegmentAt env W B i held R (R.enter SharedState.resumed i) where
  inv := h.enter i
  next := R.next_enter SharedState.resumed
  leaves := ⟨fun _ _ _ _ _ => rfl, List.prefix_refl _, Nat.le_refl _⟩
  holdsAt := ⟨fun _ _ _ => Iff.rfl, rfl, hholds, hnodup⟩

namespace SegmentAt

lemma act (h : SegmentAt env W B i held R₀ R) (hinv : Accounted env W B { R with node := s' })
    (hleaves : Leaves B i R.node s') (hholds : HoldsAt i held' R₀.node s') :
    SegmentAt env W B i held' R₀ { R with node := s' } where
  inv := hinv
  next := h.next
  leaves := h.leaves.trans h.holdsAt.guar hleaves
  holdsAt := hholds

/-- An act that touches no account, or deletes some that may be. -/
lemma keep (h : SegmentAt env W B i held R₀ R)
    (haccount : ∀ key, s'.account key = R.node.account key ∨
      ¬ B key.1 ∧ s'.account key = .new)
    (hminted : R.node.minted <+: s'.minted) (hclock : R.node.clockReads ≤ s'.clockReads)
    (hholds : HoldsAt i held' R₀.node s') : SegmentAt env W B i held' R₀ { R with node := s' } := by
  refine h.act (h.inv.act hminted hclock fun key => (haccount key).imp (fun heq => ?_) id)
    ⟨fun key _ hkey _ _ => (haccount key).resolve_right fun hnot => hnot.1 hkey, hminted, hclock⟩
    hholds
  rw [heq]
  exact .refl _ key _

lemma frame (h : SegmentAt env W B i held R₀ R) (haccounts : s'.accounts = R.node.accounts)
    (hlocks : s'.accountLocks = R.node.accountLocks) (hminted : R.node.minted <+: s'.minted)
    (hclock : R.node.clockReads ≤ s'.clockReads) (hrunning : s'.running = R.node.running) :
    SegmentAt env W B i held R₀ { R with node := s' } := by
  refine h.keep (fun key => .inl ?_) hminted hclock (h.holdsAt.congr hlocks hrunning)
  rw [SharedState.account, haccounts, SharedState.account]

lemma quiet {es : List Event} (h : SegmentAt env W B i held R₀ R) (hq : R.node.Quiet es s') :
    SegmentAt env W B i held R₀ { R with node := s' } :=
  h.frame hq.accounts hq.accountLocks (by rw [hq.minted]) hq.clockReads hq.running

lemma wrote {es : List Event} (h : SegmentAt env W B i held R₀ R) (hw : R.node.Wrote es s') :
    SegmentAt env W B i held R₀ { R with node := s' } :=
  h.frame hw.accounts hw.accountLocks (by rw [hw.minted]) hw.clockReads hw.running

/-- An act on an account whose lock the call holds, or nobody. -/
lemma modify (h : SegmentAt env W B i held R₀ R) (key : BalanceKey)
    (hown : ∀ k, R.node.accountLocks key = some k → k = i)
    (haccount : ∀ k, k ≠ key → s'.account k = R.node.account k)
    (hgrows : (R.node.account key).Grows (s'.Heard W) key (s'.account key))
    (hminted : R.node.minted <+: s'.minted) (hclock : R.node.clockReads ≤ s'.clockReads)
    (hholds : HoldsAt i held' R₀.node s') : SegmentAt env W B i held' R₀ { R with node := s' } := by
  refine h.act (h.inv.act hminted hclock fun k => .inl ?_)
    ⟨fun k j _ hj hlock => ?_, hminted, hclock⟩ hholds
  · by_cases hk : k = key
    · subst hk
      exact hgrows
    · rw [haccount k hk]
      exact .refl _ k _
  · apply haccount
    rintro rfl
    exact hj (hown j hlock)

/-- A request mints an event on an account whose lock it holds. -/
lemma mint {e : Event} (h : SegmentAt env W B i held R₀ R) (hkey : e.balanceKey ∈ held) :
    SegmentAt env W B i held R₀ { R with node := (R.node.built e).applyLocal e } := by
  have haccount := SharedState.account_built_applyLocal (s := R.node) (e := e)
  have hown : R.node.accountLocks e.balanceKey = some i := (h.holdsAt.holds _).2 hkey
  refine h.modify e.balanceKey (fun k hk => ?_) (fun k hk => ?_) ?_ (List.prefix_append _ _)
    (Nat.le_refl _) (h.holdsAt.congr rfl rfl)
  · rw [hown] at hk
    exact (Option.some.inj hk).symm
  · rw [haccount, if_neg hk]
  · rw [haccount, if_pos rfl]
    exact .applyEvent (.inr (List.mem_append_right _ (List.mem_singleton.2 rfl))) _

/-- The call may be suspended; what it relies on must be its own. -/
lemma rests {l : NodeCall × Wait} {P : Recorded (SharedState D) → Prop}
    {J : Recorded (SharedState D) → Recorded (SharedState D) → Prop}
    (h : SegmentAt env W B i held R₀ R) (hstable : (captureContract env W B).Stable i P) (hP : P R)
    (hpause : ∀ R', P R' → (captureContract env W B).pause i l R')
    (hnext : ∀ R', SegmentAt env W B i held R' (R'.enter SharedState.resumed i) → P R' →
      l.2.ready R'.node = true → J R' (R'.enter SharedState.resumed i)) :
    (captureContract env W B).Rests (recordedNode env kinds).ready (recordedNode env kinds).enter C
      i l J R₀ R := by
  refine ⟨h.inv, ⟨h.next, h.holdsAt.guar, h.leaves⟩,
    fun R => Holds i held R.node ∧ P R, ?_, ⟨h.holdsAt.holds, hP⟩,
    fun R' _ hP' => hpause R' hP'.2, fun R' hinv hP' hready _ => ?_⟩
  · intro j R R' hj hR hguar
    refine ⟨fun key => ?_, hstable j R R' hj hR.2 hguar⟩
    rw [← hguar.2.1 key i hj.symm]
    exact hR.1 key
  · exact hnext R' (Accounted.segmentAt hinv hP'.1 h.holdsAt.nodup) hP'.2 hready

/-- So may a call that is no request, wherever it is. -/
lemma rests_plain {c : NodeCall} {l : Wait} (hc : ∀ input, c ≠ .create input)
    (h : SegmentAt env W B i held R₀ R) :
    (captureContract env W B).Rests (recordedNode env kinds).ready (recordedNode env kinds).enter C
      i (c, l) (SegmentAt env W B i held) R₀ R :=
  h.rests (Contract.Stable.true _ i) trivial (fun _ _ input hinput => absurd hinput (hc input))
    fun _ hnext _ _ => hnext

end SegmentAt

end Segments

/-! ## Requests -/

/-- A request that holds these locks: what it has minted it has taken. -/
structure CaptureAt (env : Env D) (W : Event → Prop) (B : String → Prop) (i : ℕ)
    (input : LocalCreateInput) (held : List BalanceKey) (R₀ R : Recorded (SharedState D)) :
    Prop where
  segment : SegmentAt env W B i held R₀ R
  takes : Takes W B i input R

section Requests

variable {env : Env D} {W : Event → Prop} {B : String → Prop} {i : ℕ} {input : LocalCreateInput}
  {R₀ R : Recorded (SharedState D)} {s' : SharedState D} {kinds : NodeCall → Prop}
  {C : NodeCall × Wait → Recorded (SharedState D) → Prop}

/-- What a request has taken is its own. -/
lemma takes_stable (env : Env D) (W : Event → Prop) (B : String → Prop) (i : ℕ)
    (input : LocalCreateInput) : (captureContract env W B).Stable i (Takes W B i input) :=
  fun _ _ _ hj h hguar => h.other hj hguar.1 hguar.2.2.minted

namespace CaptureAt

variable {held : List BalanceKey}

lemma frame (h : CaptureAt env W B i input held R₀ R) (haccounts : s'.accounts = R.node.accounts)
    (hlocks : s'.accountLocks = R.node.accountLocks) (hminted : s'.minted = R.node.minted)
    (hclock : R.node.clockReads ≤ s'.clockReads) (hrunning : s'.running = R.node.running) :
    CaptureAt env W B i input held R₀ { R with node := s' } where
  segment := h.segment.frame haccounts hlocks (by rw [hminted]) hclock hrunning
  takes := by
    refine h.takes.act hminted fun _ => ?_
    rw [SharedState.account, SharedState.account, haccounts]

/-- Bookkeeping. -/
lemma quiet {es : List Event} (h : CaptureAt env W B i input held R₀ R) (hq : R.node.Quiet es s') :
    CaptureAt env W B i input held R₀ { R with node := s' } :=
  h.frame hq.accounts hq.accountLocks hq.minted hq.clockReads hq.running

lemma pause {R : Recorded (SharedState D)} {l : Wait} (h : Takes W B i input R) :
    (captureContract env W B).pause i (.create input, l) R := by
  intro input' heq
  cases heq
  exact h

lemma rests {l : Wait} (h : CaptureAt env W B i input held R₀ R) :
    (captureContract env W B).Rests (recordedNode env kinds).ready (recordedNode env kinds).enter C
      i (.create input, l) (CaptureAt env W B i input held) R₀ R :=
  h.segment.rests (takes_stable env W B i input) h.takes (fun _ htakes => pause htakes)
    fun _ hnext htakes _ => ⟨hnext, htakes.enter⟩

/-- The request waits for a lock and takes it. -/
lemma rests_lock {key : BalanceKey} (h : CaptureAt env W B i input held R₀ R) :
    (captureContract env W B).Rests (recordedNode env kinds).ready (recordedNode env kinds).enter C
      i (.create input, .account key)
      (fun R₀ R => CaptureAt env W B i input (key :: held) R₀
        (Recorded.present.set (R.node.lockAccount key) R)) R₀
      (Recorded.present.set (R.node.ensureAccount key) R) := by
  have hensured : SegmentAt env W B i held R₀
      { R with node := R.node.ensureAccount key } :=
    h.segment.keep (fun k => .inl (SharedState.account_ensureAccount k)) (List.prefix_refl _)
      (Nat.le_refl _) (h.segment.holdsAt.congr rfl rfl)
  have htakes : Takes W B i input { R with node := R.node.ensureAccount key } := by
    refine h.takes.act rfl fun _ => ?_
    rw [SharedState.account_ensureAccount]
  refine hensured.rests (takes_stable env W B i input) htakes (fun _ ht => pause ht)
    fun R hnext ht hready => ?_
  have hfree : R.node.accountLocks key = none := Option.isNone_iff_eq_none.1 hready
  exact ⟨hnext.keep (fun _ => .inl rfl) (List.prefix_refl _) (Nat.le_refl _)
    (hnext.holdsAt.lock hfree), ht.enter.act rfl fun _ => Finset.Subset.refl _⟩

/-- The request gives its latest lock back. -/
lemma unlock {key : BalanceKey} (h : CaptureAt env W B i input (key :: held) R₀ R) :
    CaptureAt env W B i input held R₀ { R with node := R.node.unlockAccount key } where
  segment := h.segment.keep (fun _ => .inl rfl) (List.prefix_refl _) (Nat.le_refl _)
    h.segment.holdsAt.unlock
  takes := h.takes.act rfl fun _ => Finset.Subset.refl _

end CaptureAt

/-- What every request does, whatever its branch. -/
theorem captureFrame (env : Env D) (W : Event → Prop) (B : String → Prop) (i : ℕ)
    (input : LocalCreateInput) (kinds : NodeCall → Prop)
    (C : NodeCall × Wait → Recorded (SharedState D) → Prop) :
    CreateFrame (recordedNode env kinds).ready (recordedNode env kinds).enter
      (captureContract env W B) C i Recorded.present (Prod.mk (.create input)) input
      fun _ st => CaptureAt env W B i input (st.held input) where
  rest _ hs := hs.rests
  noted hs hnoted := hs.quiet hnoted.toQuiet
  refuse _ hs := hs
  lock hs := hs.rests_lock
  hit hs _ := hs
  miss hs _ := hs
  ask hs := hs
  reload hs _ := hs.frame rfl rfl rfl (Nat.le_refl _) rfl
  unknown hs _ := hs
  unanswered hs := hs
  unlock {st r R₀ R} hs hends := by
    cases st with
    | found e => exact hs.unlock
    | working credit es =>
        cases credit with
        | none => exact hs.unlock
        | some key => cases hends
    | _ => cases hends

/-- A request about no reservation of the buckets may mint what it likes. -/
theorem captureRules (env : Env D) (W : Event → Prop) (B : String → Prop) (i : ℕ)
    {input : LocalCreateInput} (kinds : NodeCall → Prop)
    (C : NodeCall × Wait → Recorded (SharedState D) → Prop)
    (hnone : B input.bucket → input.subject = none) :
    CreateRules (recordedNode env kinds).ready (recordedNode env kinds).enter
      (captureContract env W B) C i Recorded.present (Prod.mk (.create input)) env input
      fun _ st => CaptureAt env W B i input (st.held input) where
  toCreateFrame := captureFrame env W B i input kinds C
  allocate {ids credit es R₀ R} hs := by
    refine Proc.wp_mono (fun r R₀ R hs => ?_) (Proc.wp_zoom_of_only
      (J := CaptureAt env W B i input ((CreateStage.working credit es).held input))
      (fun _ _ _ hs hq => hs.quiet hq)
      (fun _ _ _ _ hs => hs.rests) (only_allocate env input.bucket) hs)
    cases r <;> exact hs
  mint {id credit es R₀ R checkedAt mode} now d hs hmode hd hkey hfresh hhold := by
    refine ⟨?_, fun hb r hr => ?_⟩
    · have hmem : d.key ∈ (CreateStage.working credit es).held input := by
        rw [hkey]
        cases credit with
        | none => exact List.mem_cons_self
        | some key => exact List.mem_cons_self
      have hminted := hs.segment.mint
        (e := d.event (env.freshId R.node.idsDrawn) env.nodeId id now) hmem
      cases credit <;> exact hminted
    · rw [hnone hb] at hr
      cases hr
  settle {id id' R₀ R checkedAt reservationId} now hs hmode := by
    refine ⟨?_, fun hb r hr => ?_⟩
    · have hcharge := hs.segment.mint
        (e := input.captureDraft.event (env.freshId R.node.idsDrawn) env.nodeId id now)
        List.mem_cons_self
      exact hcharge.mint (e := (input.settleReleaseDraft reservationId).event
        (env.freshId (R.node.idsDrawn + 1)) env.nodeId id' now) List.mem_cons_self
    · rw [hnone hb] at hr
      cases hr
  lockCredit hs _ := hs.rests_lock
  unlockCredit hs := hs.unlock

end Requests

/-! ## Settles and releases -/

/-- A request that is dispatched to a release is no settle. -/
lemma LocalCreateMode.settle_of_release {input : LocalCreateInput} {now : ℕ} {r : String}
    (h : LocalCreateMode.fromInput input now = .ok (.release r)) :
    input.settleReservation = none := by
  rcases hsettle : input.settleReservation with _ | id
  · rfl
  · simp only [LocalCreateMode.fromInput, bind, Except.bind, pure, Except.pure, throw, throwThe,
      MonadExceptOf.throw, hsettle] at h
    repeat' (split at h <;> try contradiction)
    all_goals cases h

/-- No release of `r` has ever been applied to the account. -/
structure Untaken (W : Event → Prop) (key : BalanceKey) (r : String)
    (R : Recorded (SharedState D)) : Prop where
  unreleased : r ∉ (R.node.account key).released
  fresh : UniqueIds (R.node.Heard W) → ∀ k u, R.Began k u → r ∉ (u.account key).released

/-- A settle or a release that has found the hold `x` open, and has not minted. -/
structure OpenAt (env : Env D) (W : Event → Prop) (B : String → Prop) (i : ℕ)
    (input : LocalCreateInput) (r : String) (x : Event) (R₀ R : Recorded (SharedState D)) :
    Prop where
  capture : CaptureAt env W B i input [input.balanceKey] R₀ R
  untaken : Untaken W input.balanceKey r R
  heard : R.node.Heard W x

section Branches

variable {env : Env D} {W : Event → Prop} {B : String → Prop} {i j : ℕ} {input : LocalCreateInput}
  {r : String} {x : Event} {key : BalanceKey} {R₀ R R' : Recorded (SharedState D)}
  {s' : SharedState D} {kinds : NodeCall → Prop}
  {C : NodeCall × Wait → Recorded (SharedState D) → Prop}

lemma Untaken.act (h : Untaken W key r R) (hminted : R.node.minted <+: s'.minted)
    (haccount : s'.account key = R.node.account key) :
    Untaken W key r { R with node := s' } where
  unreleased := by
    change r ∉ (s'.account key).released
    rw [haccount]
    exact h.unreleased
  fresh hids k u hu :=
    h.fresh (hids.mono fun x hx => hx.imp id fun hx => hminted.subset hx) k u hu

lemma Untaken.next (h : Untaken W key r R) (hnext : R.Next j R')
    (hminted : R.node.minted <+: R'.node.minted)
    (haccount : R'.node.account key = R.node.account key) : Untaken W key r R' where
  unreleased := by
    rw [haccount]
    exact h.unreleased
  fresh hids k u hu := by
    rcases hnext.began_iff.1 hu with hu | ⟨-, rfl⟩
    · exact h.fresh (hids.mono fun x hx => hx.imp id fun hx => hminted.subset hx) k u hu
    · exact h.unreleased

/-- An open reservation has not been taken: whatever closed it earlier would still show, or it would
have expired. -/
lemma Accounted.untaken (h : Accounted env W B R) (hclock : Monotone env.clock) {n : ℕ}
    (hn : R.node.clockReads = n + 1) (hkey : B key.1) {reservation : ReservationState}
    (hopen : (R.node.account key).openReservation r (env.clock n) = .ok reservation) :
    Untaken W key r R ∧ env.clock n < reservation.expiresAtUnixMs ∧
      ∃ x, R.node.Heard W x ∧ x.Backs key r reservation := by
  obtain ⟨hlookup, hactive⟩ := openReservation_eq_ok hopen
  simp only [AccountState.isActive, Bool.and_eq_true, decide_eq_true_eq] at hactive
  obtain ⟨hlive, hunreleased⟩ := hactive
  obtain ⟨x, hx, hbacks⟩ := h.tracked key r reservation hlookup
  refine ⟨⟨hunreleased, fun hids k u hu hr => ?_⟩, hlive, x, hx, hbacks⟩
  rcases h.closed hkey hu hr with hr | ⟨y, m, hy, hid, hm, hexpired⟩
  · exact hunreleased hr
  · -- the hold that has expired is the one that is open
    have heq : y = x := hids y x hy hx (hid.trans hbacks.eventId.symm)
    subst heq
    have hle : env.clock m ≤ env.clock n := hclock (by omega)
    have hexpires := hbacks.expires
    omega

namespace OpenAt

lemma quiet {es : List Event} (h : OpenAt env W B i input r x R₀ R) (hq : R.node.Quiet es s') :
    OpenAt env W B i input r x R₀ { R with node := s' } where
  capture := h.capture.quiet hq
  untaken := h.untaken.act (by rw [hq.minted]) (hq.account input.balanceKey)
  heard := h.heard.imp id fun hx => by rw [hq.minted]; exact hx

/-- Nobody touches the account while the request holds its lock. -/
lemma rests {l : Wait} (hb : B input.bucket) (h : OpenAt env W B i input r x R₀ R) :
    (captureContract env W B).Rests (recordedNode env kinds).ready (recordedNode env kinds).enter C
      i (.create input, l) (OpenAt env W B i input r x) R₀ R := by
  let P : Recorded (SharedState D) → Prop := fun R =>
    (R.node.accountLocks input.balanceKey = some i ∧ Untaken W input.balanceKey r R ∧
      R.node.Heard W x) ∧ Takes W B i input R
  have hstable : (captureContract env W B).Stable i P := by
    refine Contract.Stable.and ?_ (takes_stable env W B i input)
    rintro j R R' hj ⟨hlock, huntaken, hx⟩ ⟨hnext, hlocks, hleaves⟩
    refine ⟨(hlocks _ i hj.symm).1 hlock, huntaken.next hnext hleaves.minted ?_, hleaves.heard hx⟩
    exact hleaves.account _ i hb hj.symm hlock
  have hlock := (h.capture.segment.holdsAt.holds _).2 List.mem_cons_self
  refine h.capture.segment.rests hstable ⟨⟨hlock, h.untaken, h.heard⟩, h.capture.takes⟩
    (fun _ hP => CaptureAt.pause hP.2) fun R' hnext hP _ => ?_
  exact ⟨⟨hnext, hP.2.enter⟩, hP.1.2.1.next (R'.next_enter SharedState.resumed)
    (List.prefix_refl _) rfl, hP.1.2.2⟩

/-- The request mints: this segment has taken the reservation. -/
lemma takes {es : List Event} (h : OpenAt env W B i input r x R₀ R)
    (hsubject : input.subject = some r) (hminted : s'.minted = R.node.minted ++ es)
    (hreleased : r ∈ (s'.account input.balanceKey).released)
    (hhold : x.eventId = r ∧ x.balanceKey = input.balanceKey ∧ x.hasHold = true)
    (hcaptures : input.settleReservation = some r →
      Captures input r x R.node.minted s'.minted) :
    Takes W B i input { R with node := s' } := by
  intro hb r' hr' k s t hran
  obtain rfl : r = r' := Option.some.inj (hsubject.symm.trans hr')
  have hprefix : R.node.minted <+: s'.minted := by
    rw [hminted]
    exact List.prefix_append _ _
  rcases Nat.lt_or_eq_of_le (Nat.succ_le_of_lt hran.lt) with hk | hk
  · have hpast : ({ R with node := s' } : Recorded (SharedState D)).past = R.past := rfl
    have hran' : R.Ran k i s t := (Recorded.ran_iff_of_lt hpast hk).1 hran
    exact (h.capture.takes hb r hr' k s t hran').imp id
      fun htook => htook.set hprefix rfl (Finset.Subset.refl _)
  · -- the running segment, which had minted nothing so far
    have ht : t = s' := hran.eq_node hk
    subst ht
    have hran' : R.Ran k i s R.node := ⟨hran.1, .inr ⟨hk, rfl⟩⟩
    rcases h.capture.takes hb r hr' k s R.node hran' with hsame | htook
    · have hsub : ∀ y, R.node.Heard W y → t.Heard W y :=
        fun y hy => hy.imp id fun hy => hprefix.subset hy
      refine .inr ⟨hreleased, fun hids l u _ hu => ?_, x, hsub x h.heard, hhold.1, hhold.2.1,
        hhold.2.2, fun hsettle => ?_⟩
      · exact h.untaken.fresh (hids.mono hsub) l u hu
      · rw [← hsame]
        exact hcaptures hsettle
    · exact absurd htook.released h.untaken.unreleased

end OpenAt

/-- Allocating for a request is quiet. -/
lemma only_allocateFor (env : Env D) (key : BalanceKey) (now : ℕ) :
    (allocateFor env key now).run.Only (SharedState.Quiet []) Wait.Free := by
  refine Proc.Only.run_bind (Proc.Only.run_lift (Proc.only_read (SharedState.Quiet.refl []) _))
    fun acc => ?_
  refine (only_allocate env key.1).bind fun r => ?_
  cases r <;> trivial

lemma wp_allocateFor_open {now : ℕ} (hb : B input.bucket)
    (h : OpenAt env W B i input r x R₀ R) :
    ((allocateFor env input.balanceKey now).run.zoom Recorded.present
      (Prod.mk (NodeCall.create input))).wp (recordedNode env kinds).ready
      (recordedNode env kinds).enter (captureContract env W B) C i
      (fun _ => OpenAt env W B i input r x) R₀ R :=
  Proc.wp_zoom_of_only (fun _ _ _ h hq => h.quiet hq) (fun _ _ _ _ h => h.rests hb)
    (only_allocateFor env input.balanceKey now) h

/-- The release of a settle or a release is applied when it is minted. -/
lemma mem_released_built_applyLocal {s : SharedState D} {e : Event}
    (h : AccountState.releasedBy e = some r) :
    r ∈ (((s.built e).applyLocal e).account e.balanceKey).released := by
  rw [SharedState.account_built_applyLocal, if_pos rfl, AccountState.mem_released_applyEvent]
  exact .inl h

/-- A branch begins with a reading of the clock. -/
lemma wp_readClock {α : Type} {held : List BalanceKey} {k : ℕ → ExceptT CreateLocalEventError
      (NodeM D) α}
    {Q : Except CreateLocalEventError α → Recorded (SharedState D) → Recorded (SharedState D) →
      Prop}
    (h : CaptureAt env W B i input held R₀ R)
    (hk : ∀ n R₀ R, CaptureAt env W B i input held R₀ R → R.node.clockReads = n + 1 →
      ((k (env.clock n)).run.zoom Recorded.present (Prod.mk (NodeCall.create input))).wp
        (recordedNode env kinds).ready (recordedNode env kinds).enter (captureContract env W B) C i
        Q R₀ R) :
    ((do
        let now ← (nowMs env : NodeM D ℕ)
        k now :
      ExceptT CreateLocalEventError (NodeM D) α).run.zoom Recorded.present
      (Prod.mk (NodeCall.create input))).wp (recordedNode env kinds).ready
      (recordedNode env kinds).enter (captureContract env W B) C i Q R₀ R := by
  apply Proc.wp_zoom_run_bind
  apply Proc.wp_zoom_run_lift
  unfold nowMs
  rw [Proc.wp_zoom_readUpdate]
  have hread : CaptureAt env W B i input held R₀
      { R with node := { R.node with clockReads := R.node.clockReads + 1 } } :=
    h.frame rfl rfl rfl (Nat.le_succ _) rfl
  exact hk R.node.clockReads R₀ _ hread rfl

/-- The branch of a settle. -/
lemma wp_settle (hclock : Monotone env.clock) (hb : B input.bucket)
    (hsettle : input.settleReservation = some r)
    (h : CaptureAt env W B i input [input.balanceKey] R₀ R) :
    ((do
        let now ← (nowMs env : NodeM D ℕ)
        emitLocked env input now (.settle r) :
      ExceptT CreateLocalEventError (NodeM D) LocalCreateResult).run.zoom Recorded.present
      (Prod.mk (NodeCall.create input))).wp (recordedNode env kinds).ready
      (recordedNode env kinds).enter (captureContract env W B) C i
      (CreateRules.Body input fun _ st => CaptureAt env W B i input (st.held input)) R₀ R := by
  have hsubject : input.subject = some r := by
    unfold LocalCreateInput.subject
    rw [hsettle]
    rfl
  refine wp_readClock h fun n R₀ R hread hn => ?_
  unfold emitLocked emitSettleLocked readAccount
  apply Proc.wp_zoom_run_bind
  apply Proc.wp_zoom_run_lift
  rw [Proc.wp_zoom_read]
  dsimp only
  split
  · exact ⟨.working none [], hread, trivial⟩
  · rename_i hcheck
    obtain ⟨reservation, hopen, hcovers⟩ := settleCheck_eq_ok hcheck
    obtain ⟨huntaken, hlive, x, hx, hbacks⟩ :=
      hread.segment.inv.untaken hclock hn hb hopen
    have hfound : OpenAt env W B i input r x R₀ _ := ⟨hread, huntaken, hx⟩
    apply Proc.wp_zoom_run_bind
    refine Proc.wp_mono (fun id R₀ R hs => ?_) (wp_allocateFor_open hb hfound)
    cases id with
    | error e => exact ⟨.working none [], hs.capture, trivial⟩
    | ok id =>
        apply Proc.wp_zoom_run_bind
        refine Proc.wp_mono (fun id' R₀ R hs => ?_) (wp_allocateFor_open hb hs)
        cases id' with
        | error e => exact ⟨.working none [], hs.capture, trivial⟩
        | ok id' =>
            apply Proc.wp_zoom_run_bind
            apply Proc.wp_zoom_run_lift
            unfold buildEvent
            rw [Proc.wp_zoom_readUpdate]
            apply Proc.wp_zoom_run_bind
            apply Proc.wp_zoom_run_lift
            rw [Proc.wp_zoom_readUpdate, Lens.get_set, Lens.set_set]
            apply Proc.wp_zoom_run_bind
            apply Proc.wp_zoom_run_lift
            rw [Proc.wp_zoom_update, Lens.get_set, Lens.set_set]
            dsimp only
            let charge := input.captureDraft.event (env.freshId R.node.idsDrawn) env.nodeId id
              (env.clock n)
            let release := (input.settleReleaseDraft r).event (env.freshId (R.node.idsDrawn + 1))
              env.nodeId id' (env.clock n)
            let s' := ((((R.node.built charge).built release).applyLocal charge).applyLocal release)
            have hminted : s'.minted = R.node.minted ++ [charge, release] :=
              List.append_assoc R.node.minted [charge] [release]
            have hreleased : r ∈ (s'.account input.balanceKey).released :=
              mem_released_built_applyLocal (s := (R.node.built charge).applyLocal charge)
                (e := release) rfl
            have htakes : Takes W B i input { R with node := s' } := by
              refine hs.takes hsubject hminted hreleased
                ⟨hbacks.eventId, hbacks.balanceKey, hbacks.hasHold⟩ fun _ => ?_
              refine ⟨charge, release, hminted, rfl, rfl, ?_, ?_, rfl⟩
              · rw [hbacks.amount]
                exact UInt64.not_lt.1 hcovers
              · rw [hbacks.expires]
                exact hlive
            have hsegment : SegmentAt env W B i [input.balanceKey] R₀ { R with node := s' } :=
              (hs.capture.segment.mint (e := charge) List.mem_cons_self).mint (e := release)
                List.mem_cons_self
            have hworking : CaptureAt env W B i input
                ((CreateStage.working none [charge, release]).held input) R₀
                { R with node := s' } :=
              ⟨hsegment, htakes⟩
            apply Proc.wp_zoom_run_bind
            apply Proc.wp_zoom_run_lift
            refine Proc.wp_mono (fun _ R₀ R hs => ?_)
              ((captureFrame env W B i input kinds C).wp_flushLocalEvents hworking)
            exact ⟨_, hs, rfl, List.mem_cons_self, rfl⟩

/-- The branch of a release. -/
lemma wp_release (hclock : Monotone env.clock) (hb : B input.bucket)
    (hsettle : input.settleReservation = none) (hrelease : input.releaseReservation = some r)
    (hamount : input.amount = 0) (h : CaptureAt env W B i input [input.balanceKey] R₀ R) :
    ((do
        let now ← (nowMs env : NodeM D ℕ)
        emitLocked env input now (.release r) :
      ExceptT CreateLocalEventError (NodeM D) LocalCreateResult).run.zoom Recorded.present
      (Prod.mk (NodeCall.create input))).wp (recordedNode env kinds).ready
      (recordedNode env kinds).enter (captureContract env W B) C i
      (CreateRules.Body input fun _ st => CaptureAt env W B i input (st.held input)) R₀ R := by
  have hsubject : input.subject = some r := by
    unfold LocalCreateInput.subject
    rw [hsettle]
    exact hrelease
  refine wp_readClock h fun n R₀ R hread hn => ?_
  unfold emitLocked emitReleaseLocked readAccount
  apply Proc.wp_zoom_run_bind
  apply Proc.wp_zoom_run_lift
  rw [Proc.wp_zoom_read]
  dsimp only
  split
  · exact ⟨.working none [], hread, trivial⟩
  · rename_i reservation hopen
    obtain ⟨huntaken, -, x, hx, hbacks⟩ := hread.segment.inv.untaken hclock hn hb hopen
    have hfound : OpenAt env W B i input r x R₀ _ := ⟨hread, huntaken, hx⟩
    apply Proc.wp_zoom_run_bind
    unfold mintLocal
    apply Proc.wp_zoom_run_bind
    refine Proc.wp_mono (fun id R₀ R hs => ?_) (wp_allocateFor_open hb hfound)
    cases id with
    | error e => exact ⟨.working none [], hs.capture, trivial⟩
    | ok id =>
        apply Proc.wp_zoom_run_bind
        apply Proc.wp_zoom_run_lift
        unfold buildEvent
        rw [Proc.wp_zoom_readUpdate]
        apply Proc.wp_zoom_run_bind
        apply Proc.wp_zoom_run_lift
        rw [Proc.wp_zoom_update, Lens.get_set, Lens.set_set]
        let release := (input.releaseDraft r).event (env.freshId R.node.idsDrawn) env.nodeId id
          (env.clock n)
        let s' := (R.node.built release).applyLocal release
        have hreleased : r ∈ (s'.account input.balanceKey).released :=
          mem_released_built_applyLocal (s := R.node) (e := release) rfl
        have htakes : Takes W B i input { R with node := s' } := by
          refine hs.takes hsubject rfl hreleased
            ⟨hbacks.eventId, hbacks.balanceKey, hbacks.hasHold⟩ fun hsettle' => ?_
          rw [hsettle] at hsettle'
          cases hsettle'
        have hworking : CaptureAt env W B i input
            ((CreateStage.working none [release]).held input) R₀ { R with node := s' } :=
          ⟨hs.capture.segment.mint (e := release) List.mem_cons_self, htakes⟩
        apply Proc.wp_zoom_run_bind
        apply Proc.wp_zoom_run_lift
        refine Proc.wp_mono (fun _ R₀ R hs => ?_)
          ((captureFrame env W B i input kinds C).wp_flushLocalEvents hworking)
        refine ⟨_, hs, rfl, List.mem_cons_self, ?_⟩
        rw [LocalCreateInput.idempotencyKey, hamount]
        rfl

/-- **Every request keeps the contract.** -/
theorem wp_capture (hclock : Monotone env.clock)
    (h : CaptureAt env W B i input [] R₀ R) :
    ((createLocalEvents env input).run.zoom Recorded.present
      (Prod.mk (NodeCall.create input))).wp (recordedNode env kinds).ready
      (recordedNode env kinds).enter (captureContract env W B) C i
      (fun _ => CaptureAt env W B i input []) R₀ R := by
  by_cases hnone : B input.bucket → input.subject = none
  · exact (captureRules env W B i kinds C hnone).wp_createLocalEvents h
  · obtain ⟨hb, hsubject⟩ := Classical.not_imp.1 hnone
    refine (captureFrame env W B i input kinds C).wp_createLocalEvents_of
      (fun {checkedAt mode R₀ R} hmode hs => ?_) h
    cases mode with
    | settle r => exact wp_settle hclock hb (LocalCreateMode.wellFormed_of_fromInput hmode).1 hs
    | release r =>
        obtain ⟨hrelease, hamount⟩ := LocalCreateMode.wellFormed_of_fromInput hmode
        exact wp_release hclock hb (LocalCreateMode.settle_of_release hmode) hrelease hamount hs
    | charge hold =>
        obtain ⟨hs, hr⟩ := LocalCreateMode.spends_of_fromInput hmode
          ⟨fun _ => LocalCreateMode.noConfusion, fun _ => LocalCreateMode.noConfusion⟩
        refine absurd ?_ hsubject
        unfold LocalCreateInput.subject
        rw [hs, hr]
        rfl
    | reserve =>
        obtain ⟨hs, hr⟩ := LocalCreateMode.spends_of_fromInput hmode
          ⟨fun _ => LocalCreateMode.noConfusion, fun _ => LocalCreateMode.noConfusion⟩
        refine absurd ?_ hsubject
        unfold LocalCreateInput.subject
        rw [hs, hr]
        rfl

end Branches

/-! ## The other calls -/

/-- The calls of a node that events of `W` are replicated to, and that deletes none of the buckets
`B`. -/
def NodeCall.Sparing (W : Event → Prop) (B : String → Prop) : NodeCall → Prop
  | .insert e => W e ∧ ∀ target, e.metaTargetBucket = some target → ¬ B target
  | .delete target _ => ¬ B target
  | _ => True

section Others

variable {env : Env D} {W : Event → Prop} {B : String → Prop} {i : ℕ} {held : List BalanceKey}
  {R₀ R : Recorded (SharedState D)} {kinds : NodeCall → Prop}
  {C : NodeCall × Wait → Recorded (SharedState D) → Prop}

/-- The accounts of a deleted bucket are gone. -/
lemma SharedState.account_stripBucket {s : SharedState D} (target : String) (key : BalanceKey) :
    (s.stripBucket target).account key = if key.1 = target then .new else s.account key := by
  change ((s.accounts.retain fun k => k.1 != target) key).getD .new = _
  rw [Map.retain_apply]
  by_cases hkey : key.1 = target
  · rw [if_pos hkey, bne_eq_false_iff_eq.2 hkey]
    rfl
  · rw [if_neg hkey, bne_iff_ne.2 hkey]
    rfl

/-- Deleting another bucket. -/
lemma SegmentAt.cascade (h : SegmentAt env W B i held R₀ R) (target : String) :
    SegmentAt env W B i held R₀ { R with
      node := (R.node.callStorage env fun st => ((), st.deleteBucketCascade target)).2 } := by
  unfold SharedState.callStorage
  split <;> exact h.frame rfl rfl (List.prefix_refl _) (Nat.le_refl _) rfl

lemma SegmentAt.strip (h : SegmentAt env W B i held R₀ R) {target : String} (htarget : ¬ B target) :
    SegmentAt env W B i held R₀ { R with node := R.node.stripBucket target } := by
  refine h.keep (fun key => ?_) (List.prefix_refl _) (Nat.le_refl _) (h.holdsAt.congr rfl rfl)
  rw [SharedState.account_stripBucket]
  by_cases hkey : key.1 = target
  · rw [if_pos hkey]
    exact .inr ⟨by rw [hkey]; exact htarget, rfl⟩
  · rw [if_neg hkey]
    exact .inl rfl

/-- The sweep passes over an account whose lock is taken. -/
lemma SegmentAt.sweep (h : SegmentAt env W B i held R₀ R) {n : ℕ} (hn : n < R.node.clockReads) :
    SegmentAt env W B i held R₀ { R with node := R.node.sweepExpired (env.clock n) } := by
  refine h.act (h.inv.sweep hn) ⟨fun key k _ _ hlock => ?_, List.prefix_refl _, Nat.le_refl _⟩
    (h.holdsAt.congr rfl rfl)
  unfold SharedState.account SharedState.sweepExpired
  dsimp only
  rw [hlock]
  rfl

theorem captureInsertRules (env : Env D) (W : Event → Prop) (B : String → Prop) (i : ℕ) {e : Event}
    (he : W e ∧ ∀ target, e.metaTargetBucket = some target → ¬ B target) (kinds : NodeCall → Prop)
    (C : NodeCall × Wait → Recorded (SharedState D) → Prop) :
    InsertRules (recordedNode env kinds).ready (recordedNode env kinds).enter
      (captureContract env W B) C i Recorded.present (Prod.mk (.insert e)) env e
      fun _ => SegmentAt env W B i [] where
  rest _ hs := hs.rests_plain fun _ => NodeCall.noConfusion
  noted hs hnoted := hs.quiet hnoted.toQuiet
  quiet hs hq := hs.quiet hq
  tombstone hs _ := hs.frame rfl rfl (List.prefix_refl _) (Nat.le_refl _) rfl
  cascade hs _ := hs.cascade _
  strip hs htarget := hs.strip (he.2 _ htarget)
  account {st R₀ R} key f hs heffect := by
    have hensured : SegmentAt env W B i [] R₀ { R with node := R.node.ensureAccount key } :=
      hs.keep (fun k => .inl (SharedState.account_ensureAccount k)) (List.prefix_refl _)
        (Nat.le_refl _) (hs.holdsAt.congr rfl rfl)
    refine hensured.rests (P := fun _ => True) (.true _ i) trivial
      (fun _ _ _ hcreate => NodeCall.noConfusion hcreate) fun R hnext _ hready => ?_
    have hfree : R.node.accountLocks key = none := Option.isNone_iff_eq_none.1 hready
    have haccount : ∀ k, ((((R.node.resumed i).lockAccount key).modifyAccount key f).unlockAccount
        key).account k = if k = key then f (R.node.account k) else R.node.account k := fun k =>
      SharedState.account_modifyAccount (s := (R.node.resumed i).lockAccount key) key k f
    have hlocked := hnext.holdsAt.lock hfree
    refine hnext.modify key (fun k hk => ?_) (fun k hk => ?_) ?_ (List.prefix_refl _)
      (Nat.le_refl _) ?_
    · change R.node.accountLocks key = some k at hk
      rw [hfree] at hk
      cases hk
    · exact (haccount k).trans (if_neg hk)
    · change AccountState.Grows _ key (R.node.account key)
        (((((R.node.resumed i).lockAccount key).modifyAccount key f).unlockAccount key).account key)
      rw [haccount, if_pos rfl]
      exact heffect.grows (.inl he.1) _
    · have hmodified : HoldsAt i [key] R.node (((R.node.resumed i).lockAccount key).modifyAccount
          key f) := hlocked.congr rfl rfl
      exact hmodified.unlock
  cache hs _ := hs.frame rfl rfl (List.prefix_refl _) (Nat.le_refl _) rfl
  conflict hs _ := hs.frame rfl rfl (List.prefix_refl _) (Nat.le_refl _) rfl
  correct _ _ _ hs _ := hs.frame rfl rfl (List.prefix_append _ _) (Nat.le_refl _) rfl
  cacheCorrection hs _ := hs.frame rfl rfl (List.prefix_refl _) (Nat.le_refl _) rfl

theorem captureDeleteRules (env : Env D) (W : Event → Prop) (B : String → Prop) (i : ℕ)
    {target : String} (reason : Option String) (htarget : ¬ B target) (kinds : NodeCall → Prop)
    (C : NodeCall × Wait → Recorded (SharedState D) → Prop) :
    DeleteRules (recordedNode env kinds).ready (recordedNode env kinds).enter
      (captureContract env W B) C i Recorded.present (Prod.mk (.delete target reason)) env target
      reason fun _ => SegmentAt env W B i [] where
  rest _ hs := hs.rests_plain fun _ => NodeCall.noConfusion
  noted hs hnoted := hs.quiet hnoted.toQuiet
  quiet hs hq := hs.quiet hq
  refuse _ hs := hs
  mint _ _ hs _ := hs.frame rfl rfl (List.prefix_append _ _) (Nat.le_refl _) rfl
  cascade hs := hs.cascade target
  strip hs := hs.strip htarget
  finish hs := hs

/-- What is known of a finished call. -/
def TakesAnswer (W : Event → Prop) (B : String → Prop) (i : ℕ) (a : NodeAnswer)
    (R : Recorded (SharedState D)) : Prop :=
  ∀ input r, a = .created input r → Takes W B i input R

/-- The contract is kept from the first step of every call to its last. -/
lemma capture_startsKept (hclock : Monotone env.clock) :
    Pool.StartsKept (recordedNode env (NodeCall.Sparing W B)) (captureContract env W B)
      (fun _ _ => True) (TakesAnswer W B) where
  absent i := by
    rintro j R R' hj ⟨hholds, hnone⟩ ⟨hnext, hlocks, -⟩
    refine ⟨fun key => ?_, fun k s t hran => ?_⟩
    · rw [← hlocks key i hj.symm]
      exact hholds key
    · rcases hnext.ran_iff.1 hran with hran | ⟨-, rfl, -⟩
      · exact hnone k s t hran
      · exact hj rfl
  stable i a j R R' hj ha hguar input r heq :=
    (ha input r heq).other hj hguar.1 hguar.2.2.minted
  pause _ _ _ i R _ habsent input _ := Takes.of_absent habsent.2
  start := by
    rintro ⟨c, l⟩ t ⟨t', ⟨-, hc, rfl⟩, rfl⟩ i R hinv habsent - -
    have hstart : SegmentAt env W B i [] R (R.enter SharedState.resumed i) :=
      Accounted.segmentAt hinv habsent.1 List.nodup_nil
    have hplain : ∀ {R₀ R : Recorded (SharedState D)} {a}, SegmentAt env W B i [] R₀ R →
        (∀ input r, a ≠ .created input r) → Accounted env W B R ∧
          (captureContract env W B).guar i R₀ R ∧ TakesAnswer W B i a R :=
      fun hs ha => ⟨hs.inv, ⟨hs.next, hs.holdsAt.guar, hs.leaves⟩,
        fun input r heq => absurd heq (ha input r)⟩
    cases c with
    | create input =>
        have hidle : CaptureAt env W B i input [] R (R.enter SharedState.resumed i) :=
          ⟨hstart, (Takes.of_absent habsent.2).enter⟩
        apply Proc.wp_zoom_bind
        refine Proc.wp_mono (fun r R₀ R hs => ?_) (wp_capture hclock hidle)
        refine ⟨hs.segment.inv, ⟨hs.segment.next, hs.segment.holdsAt.guar, hs.segment.leaves⟩, ?_⟩
        rintro input' r' ⟨⟩
        exact hs.takes
    | insert e =>
        apply Proc.wp_zoom_bind
        refine Proc.wp_mono (fun new R₀ R hs => ?_)
          ((captureInsertRules env W B i hc _ _).wp_insertEvent hstart)
        obtain ⟨st, hs⟩ := hs
        exact hplain hs fun _ _ => NodeAnswer.noConfusion
    | delete target reason =>
        apply Proc.wp_zoom_bind
        refine Proc.wp_mono (fun r R₀ R hs => ?_)
          ((captureDeleteRules env W B i reason hc _ _).wp_createMetaBucketDelete hstart)
        exact hplain hs fun _ _ => NodeAnswer.noConfusion
    | writeBatch first size =>
        apply Proc.wp_zoom_bind
        unfold writeBatch
        apply Proc.wp_zoom_bind
        rw [Proc.wp_zoom_read]
        refine Proc.wp_mono (fun _ R₀ R hs => ?_) (Proc.wp_zoom_of_only
          (J := SegmentAt env W B i []) (fun _ _ _ hs hw => hs.wrote hw)
          (fun _ _ _ _ hs => hs.rests_plain fun _ => NodeCall.noConfusion)
          (only_doFlush env _) hstart)
        exact hplain hs fun _ _ => NodeAnswer.noConfusion
    | scan keys ageThresholdMs =>
        apply Proc.wp_zoom_bind
        unfold scanOrphans
        apply Proc.wp_zoom_bind
        refine Proc.wp_mono (fun now R₀ R hs => ?_) (Proc.wp_zoom_of_only
          (J := SegmentAt env W B i []) (fun _ _ _ hs hn => hs.quiet hn.toQuiet)
          (fun _ _ _ _ hs => hs.rests_plain fun _ => NodeCall.noConfusion) (W := fun _ => True)
          (only_nowMs env) hstart)
        apply Proc.wp_zoom_bind
        rw [Proc.wp_zoom_read]
        split
        · refine Proc.wp_mono (fun _ R₀ R hs => ?_) (Proc.wp_zoom_of_only
            (J := SegmentAt env W B i []) (fun _ _ _ hs hw => hs.wrote hw)
            (fun _ _ _ _ hs => hs.rests_plain fun _ => NodeCall.noConfusion)
            (only_doFlush env _) hs)
          exact hplain hs fun _ _ => NodeAnswer.noConfusion
        · exact hplain hs fun _ _ => NodeAnswer.noConfusion
    | sweep =>
        apply Proc.wp_zoom_bind
        unfold sweepExpiredHolds nowMs
        apply Proc.wp_zoom_bind
        rw [Proc.wp_zoom_readUpdate, Proc.wp_zoom_update, Lens.get_set, Lens.set_set]
        have hticked : SegmentAt env W B i [] R { R.enter SharedState.resumed i with
            node := { R.node.resumed i with clockReads := R.node.clockReads + 1 } } :=
          hstart.frame rfl rfl (List.prefix_refl _) (Nat.le_succ _) rfl
        exact hplain (hticked.sweep (Nat.lt_succ_self _)) fun _ _ => NodeAnswer.noConfusion

end Others

/-! ## One-shot capture -/

section Runs

variable {env : Env D} {W : Event → Prop} {B : String → Prop} {st : Storage D}
  {start : SharedState D} {p : Pool (Recorded (SharedState D)) (NodeCall × Wait) NodeAnswer}

/-- Call `i` is this request, whether it has been answered or not. -/
def Asks (p : Pool (Recorded (SharedState D)) (NodeCall × Wait) NodeAnswer) (i : ℕ)
    (input : LocalCreateInput) : Prop :=
  (∃ l t, p.calls i = .waiting (.create input, l) t) ∨ ∃ r, p.calls i = .finished (.created input r)

/-- The reservations a start rebuilds are holds of stored events. -/
lemma backs_of_rebuild {now : ℕ} {key : BalanceKey} {r : String} {reservation : ReservationState}
    {es : List Event} (hkey : ∀ e ∈ es, e.balanceKey = key) {acc : AccountState}
    (h : (es.foldl (AccountState.rebuild now) acc).reservations.lookup r = some reservation) :
    acc.reservations.lookup r = some reservation ∨ ∃ x ∈ es, x.Backs key r reservation := by
  induction es generalizing acc with
  | nil => exact .inl h
  | cons e es ih =>
      rw [List.foldl_cons] at h
      rcases ih (fun x hx => hkey x (List.mem_cons_of_mem _ hx)) h with hfirst | ⟨x, hx, hbacks⟩
      · obtain ⟨-, -, -, hreservations⟩ := AccountState.rebuild_eq now acc e
        rw [hreservations] at hfirst
        split at hfirst
        · exact .inl hfirst
        · rw [AccountState.lookup_applyEvent] at hfirst
          split at hfirst
          · rename_i hhold
            obtain rfl := Option.some.inj hfirst
            exact .inr ⟨e, List.mem_cons_self, hhold.2.symm, hkey e List.mem_cons_self, hhold.1,
              rfl, rfl⟩
          · exact .inl hfirst
      · exact .inr ⟨x, List.mem_cons_of_mem _ hx, hbacks⟩

/-- The reservations of a node that has just come up are those of stored holds. -/
lemma Starts.tracked (hstart : Starts env st start) (hstored : ∀ e ∈ st.events, W e) :
    start.Tracked W := by
  intro key r reservation hr
  rw [hstart.rebuilt.account] at hr
  have hkey : ∀ e ∈ st.queryAllEventsSorted.filter fun e => e.balanceKey = key,
      e.balanceKey = key := fun e he => of_decide_eq_true (List.mem_filter.1 he).2
  rcases backs_of_rebuild hkey hr with hr | ⟨x, hx, hbacks⟩
  · cases hr
  · have hmem : x ∈ st.events := (List.mem_insertionSort _).1 (List.mem_filter.1 hx).1
    exact ⟨x, .inl (hstored x hmem), hbacks⟩

/-- A node that has just come up. -/
lemma Accounted.of_starts (hstart : Starts env st start) (hstored : ∀ e ∈ st.events, W e) :
    Accounted env W B ⟨start, []⟩ where
  tracked := hstart.tracked hstored
  closed _ ht _ := absurd ht.lt (Nat.not_lt_zero _)

/-- What a request has minted it has taken, in every run. -/
lemma takes_of_reach (hclock : Monotone env.clock) (hstart : Starts env st start)
    (hstored : ∀ e ∈ st.events, W e)
    (h : Pool.Reach (recordedNode env (NodeCall.Sparing W B)) (fun _ _ => True) ⟨start, []⟩ p)
    {i : ℕ} {input : LocalCreateInput} (hi : Asks p i input) : Takes W B i input p.shared := by
  have habsent : ∀ i, (captureContract env W B).absent i ⟨start, []⟩ := by
    refine fun i => ⟨fun key => ?_, fun k s t hran => absurd hran.lt (Nat.not_lt_zero _)⟩
    rw [hstart.rebuilt.accountLocks]
    constructor
    · intro hlock
      cases hlock
    · exact fun hkey => absurd hkey List.not_mem_nil
  have hsound := Pool.sound_of_reach (capture_startsKept hclock)
    (Accounted.of_starts hstart hstored) habsent h
  rcases hi with ⟨l, t, hwait⟩ | ⟨r, hdone⟩
  · exact hsound.pause hwait input rfl
  · exact hsound.finished i _ hdone input r rfl

/-- A segment that has taken a reservation comes after no other. -/
lemma Took.not_lt {R : Recorded (SharedState D)} {input input' : LocalCreateInput} {r : String}
    {i j k k' : ℕ} {s t s' t' : SharedState D} (h : Took W input r R k s t)
    (h' : Took W input' r R k' s' t') (hids : UniqueIds (R.node.Heard W))
    (hkey : input.balanceKey = input'.balanceKey) (hran : R.Ran k i s t)
    (hran' : R.Ran k' j s' t') : ¬ k < k' := by
  intro hlt
  have hbegan : R.Began (k + 1) t := hran.began_succ (Nat.lt_of_le_of_lt hlt hran'.lt)
  apply h'.fresh hids (k + 1) t hlt hbegan
  rw [← hkey]
  exact h.released

/-- **One-shot capture.**  In every run of a node whose clock never goes back, if no two events have
the same id: of all settles and releases of a reservation, one segment of one request mints; and
what a settle mints takes no more than the hold it names, before that expires, and no release of it
has been applied to the account at any time before. -/
theorem captured_once (hclock : Monotone env.clock) (hstart : Starts env st start)
    (hstored : ∀ e ∈ st.events, W e)
    (h : Pool.Reach (recordedNode env (NodeCall.Sparing W B)) (fun _ _ => True) ⟨start, []⟩ p)
    (hids : UniqueIds (p.shared.node.Heard W)) :
    (∀ i j input input' r k k' s s' t t', Asks p i input → Asks p j input' → B input.bucket →
      B input'.bucket → input.subject = some r → input'.subject = some r →
      p.shared.Ran k i s t → p.shared.Ran k' j s' t' → t.minted ≠ s.minted →
      t'.minted ≠ s'.minted → i = j ∧ k = k') ∧
    ∀ i input r k s t, Asks p i input → B input.bucket → input.settleReservation = some r →
      p.shared.Ran k i s t → t.minted ≠ s.minted →
      (∃ x, p.shared.node.Heard W x ∧ x.eventId = r ∧ x.balanceKey = input.balanceKey ∧
        x.hasHold = true ∧ Captures input r x s.minted t.minted) ∧
      ∀ l u, l ≤ k → p.shared.Began l u → r ∉ (u.account input.balanceKey).released := by
  refine ⟨fun i j input input' r k k' s s' t t' hi hj hb hb' hr hr' hran hran' hm hm' => ?_,
    fun i input r k s t hi hb hr hran hm => ?_⟩
  · have htook := (takes_of_reach hclock hstart hstored h hi hb r hr k s t hran).resolve_left hm
    have htook' := (takes_of_reach hclock hstart hstored h hj hb' r hr' k' s' t'
      hran').resolve_left hm'
    -- both are about one account, since the hold is one event
    obtain ⟨x, hx, hid, hkey, -⟩ := htook.hold
    obtain ⟨y, hy, hid', hkey', -⟩ := htook'.hold
    have heq : x = y := hids x y hx hy (hid.trans hid'.symm)
    subst heq
    have hkeys : input.balanceKey = input'.balanceKey := hkey.symm.trans hkey'
    have hle : ¬ k < k' := htook.not_lt htook' hids hkeys hran hran'
    have hge : ¬ k' < k := htook'.not_lt htook hids hkeys.symm hran' hran
    obtain rfl : k = k' := by omega
    exact ⟨congrArg Prod.fst (Option.some.inj (hran.1.symm.trans hran'.1)), rfl⟩
  · have hsubject : input.subject = some r := by
      unfold LocalCreateInput.subject
      rw [hr]
      rfl
    have htook := (takes_of_reach hclock hstart hstored h hi hb r hsubject k s t hran).resolve_left
      hm
    obtain ⟨x, hx, hid, hkey, hhold, hcaptures⟩ := htook.hold
    exact ⟨⟨x, hx, hid, hkey, hhold, hcaptures hr⟩, htook.fresh hids⟩

end Runs

section Examples

/-- A hold of thirty until the instant 5000. -/
private def rivalHold : LocalCreateInput :=
  { LocalCreateInput.legacy "bucket" "alice" 0 none 100 "r1" false with
    holdAmount := some 30
    holdExpiresAtUnixMs := some 5000 }

/-- A settle of that hold. -/
private def rivalSettle : LocalCreateInput :=
  { LocalCreateInput.legacy "bucket" "alice" (-20) none 100 "s1" false with
    settleReservation := some "0" }

/-- A release of that hold. -/
private def rivalRelease : LocalCreateInput :=
  { LocalCreateInput.legacy "bucket" "alice" 0 none 100 "l1" false with
    releaseReservation := some "0" }

/-- A node that has just come up over an empty storage. -/
private def rivalStart : SharedState Unit :=
  (NodeM.exec (newSharedState (Env.plain "node" 1000)) (.blank .empty)).2

/-- A settle and a release of a reservation contend for the account. -/
private def rivals :
    Pool (Recorded (SharedState Unit)) (NodeCall × Wait) NodeAnswer :=
  let env := Env.plain "node" 1000
  let calls : List NodeCall := [.create rivalHold, .create rivalSettle, .create rivalRelease]
  Pool.play (recordedNode env (NodeCall.Sparing (fun _ => False) fun _ => True)) (fun _ _ => True)
    ⟨⟨rivalStart, []⟩, fun _ => .absent⟩
    ((calls.zipIdx.map fun c => .start c.2 (c.1, .start)
        ((c.1.program env).zoom Recorded.present (Prod.mk c.1))) ++
      (List.replicate 20 0 ++ (List.replicate 20 [1, 2]).flatten).map .resume)

/-- The settle wins, and the release finds the reservation released. -/
theorem captured_once_rivals :
    (rivals.shared.node.minted.map Event.voidRef) = [none, none, some "0"] ∧
      (succeeded rivals 1).isSome = true ∧ succeeded rivals 2 = none ∧
      ∀ i j k k' s s' t t', Asks rivals i rivalSettle → Asks rivals j rivalRelease →
        rivals.shared.Ran k i s t → rivals.shared.Ran k' j s' t' → t.minted ≠ s.minted →
        t'.minted ≠ s'.minted → i = j ∧ k = k' := by
  have hvoids : (rivals.shared.node.minted.map Event.voidRef) = [none, none, some "0"] := by
    decide +kernel
  have hnodup : (rivals.shared.node.minted.map Event.eventId).Nodup := by decide +kernel
  have hids : UniqueIds (rivals.shared.node.Heard fun _ => False) := by
    rintro x y (⟨⟨⟩⟩ | hx) (⟨⟨⟩⟩ | hy) heq
    exact List.inj_on_of_nodup_map hnodup hx hy heq
  have hstart : Starts (Env.plain "node" 1000) .empty rivalStart := by
    obtain ⟨calls, h⟩ := exec_newSharedState_empty (Env.plain "node" 1000)
    exact ⟨by rw [rivalStart, h], fun _ _ => rfl⟩
  have hreach : Pool.Reach (recordedNode (Env.plain "node" 1000)
      (NodeCall.Sparing (fun _ => False) fun _ => True)) (fun _ _ => True)
      ⟨rivalStart, []⟩ rivals := by
    apply Pool.Reach.init.play
    intro m hm
    rcases List.mem_append.1 hm with hm | hm
    · obtain ⟨⟨c, i⟩, hc, rfl⟩ := List.mem_map.1 hm
      refine ⟨_, ⟨rfl, ?_, rfl⟩, rfl⟩
      have hmem : c ∈ [NodeCall.create rivalHold, .create rivalSettle, .create rivalRelease] :=
        List.fst_mem_of_mem_zipIdx hc
      rcases List.mem_cons.1 hmem with rfl | hmem
      · trivial
      · rcases List.mem_pair.1 hmem with rfl | rfl <;> trivial
    · obtain ⟨i, -, rfl⟩ := List.mem_map.1 hm
      trivial
  refine ⟨hvoids, by decide +kernel, by decide +kernel, fun i j k k' s s' t t' hi hj => ?_⟩
  exact (captured_once monotone_const hstart (fun e he => absurd he List.not_mem_nil) hreach
    hids).1 i j _ _ "0" k k' s s' t t' hi hj trivial trivial rfl rfl

end Examples

end Shardd
