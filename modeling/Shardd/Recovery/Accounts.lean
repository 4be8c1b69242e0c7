import Shardd.Replication.Convergence

/-!
# Accounts that have forgotten expired holds

A sweep drops the holds of an account that have expired, and the rebuild of a start does not take
them in.  `Shows t acc full` says that `acc` differs from `full` by such holds only, all of them
expired at the instant `t`.  From `t` on the two answer alike: they have the same available balance
and they let the same settles and releases through.
-/

namespace Shardd

namespace AccountState

/-- The two accounts agree on a hold, or it has expired at `t`. -/
def SameHold (t : ℕ) (acc full : AccountState) (id : String) : Prop :=
  (acc.reservations.lookup id = full.reservations.lookup id ∧
    (id ∈ acc.released ↔ id ∈ full.released)) ∨
  ∃ r, full.reservations.lookup id = some r ∧ r.expiresAtUnixMs ≤ t ∧
    (acc.reservations.lookup id = none ∨ acc.reservations.lookup id = some r)

/-- `acc` is `full` without some of the holds that have expired at `t`. -/
structure Shows (t : ℕ) (acc full : AccountState) : Prop where
  balance : acc.balance = full.balance
  eventCount : acc.eventCount = full.eventCount
  hold : ∀ id, SameHold t acc full id

variable {t now : ℕ} {acc full : AccountState} {e : Event} {id : String}

lemma SameHold.mono {t' : ℕ} (h : SameHold t acc full id) (hle : t ≤ t') :
    SameHold t' acc full id := by
  rcases h with h | ⟨r, hr, hexp, hacc⟩
  · exact .inl h
  · exact .inr ⟨r, hr, hexp.trans hle, hacc⟩

namespace Shows

lemma refl (t : ℕ) (acc : AccountState) : Shows t acc acc := by
  constructor
  · rfl
  · rfl
  · intro id
    exact .inl ⟨rfl, Iff.rfl⟩

lemma mono {t' : ℕ} (h : Shows t acc full) (hle : t ≤ t') : Shows t' acc full where
  balance := h.balance
  eventCount := h.eventCount
  hold id := (h.hold id).mono hle

end Shows

/-! ## Events -/

lemma lookup_applyEvent (acc : AccountState) (e : Event) (id : String) :
    (acc.applyEvent e).reservations.lookup id =
      if e.hasHold = true ∧ id = e.eventId then
        some { originNodeId := e.originNodeId
               amount := e.holdAmount
               expiresAtUnixMs := e.holdExpiresAtUnixMs }
      else acc.reservations.lookup id := by
  rw [reservations_applyEvent]
  by_cases hhold : e.hasHold = true
  · rw [if_pos hhold]
    by_cases hid : id = e.eventId
    · subst hid
      rw [Finmap.lookup_insert, if_pos ⟨hhold, rfl⟩]
    · rw [Finmap.lookup_insert_of_ne _ hid, if_neg (fun h => hid h.2)]
  · rw [if_neg hhold, if_neg (fun h => hhold h.1)]

lemma mem_released_applyEvent (acc : AccountState) (e : Event) (id : String) :
    id ∈ (acc.applyEvent e).released ↔ releasedBy e = some id ∨ id ∈ acc.released := by
  rw [released_applyEvent]
  rcases releasedBy e with _ | x
  · simp
  · rw [Finset.mem_insert, Option.some.injEq]
    constructor
    · rintro (rfl | h)
      · exact .inl rfl
      · exact .inr h
    · rintro (rfl | h)
      · exact .inl rfl
      · exact .inr h

/-- A reservation is that of an event that has been applied. -/
lemma lookup_replay_eq_none {es : List Event} (h : ∀ e ∈ es, e.eventId ≠ id) :
    (replay es).reservations.lookup id = none := by
  suffices hs : ∀ acc : AccountState, acc.reservations.lookup id = none →
      (es.foldl applyEvent acc).reservations.lookup id = none from hs .new rfl
  induction es with
  | nil => exact fun acc hacc => hacc
  | cons e es ih =>
      intro acc hacc
      refine ih (fun x hx => h x (List.mem_cons_of_mem _ hx)) _ ?_
      rw [lookup_applyEvent, if_neg]
      · exact hacc
      · rintro ⟨-, rfl⟩
        exact h e List.mem_cons_self rfl

/-- An event whose id is new is applied to both. -/
lemma Shows.applyEvent (h : Shows t acc full) (hnew : full.reservations.lookup e.eventId = none) :
    Shows t (acc.applyEvent e) (full.applyEvent e) := by
  constructor
  · rw [balance_applyEvent, balance_applyEvent, h.balance]
  · rw [eventCount_applyEvent, eventCount_applyEvent, h.eventCount]
  · intro id
    unfold SameHold
    rw [lookup_applyEvent, lookup_applyEvent, mem_released_applyEvent, mem_released_applyEvent]
    by_cases hid : e.hasHold = true ∧ id = e.eventId
    · -- the hold is new to both
      rw [if_pos hid, if_pos hid]
      refine .inl ⟨rfl, ?_⟩
      rcases h.hold id with ⟨-, hreleased⟩ | ⟨r, hr, -, -⟩
      · rw [hreleased]
      · rw [hid.2, hnew] at hr
        cases hr
    · rw [if_neg hid, if_neg hid]
      rcases h.hold id with ⟨hlookup, hreleased⟩ | hexpired
      · exact .inl ⟨hlookup, by rw [hreleased]⟩
      · exact .inr hexpired

/-! ## Sweeps and rebuilds -/

/-- A sweep drops what has expired. -/
lemma Shows.sweepExpired (h : Shows t acc full) (now : ℕ) :
    Shows (max t now) (acc.sweepExpired now) full := by
  constructor
  · exact h.balance
  · exact h.eventCount
  · intro id
    have hlookup : (acc.sweepExpired now).reservations.lookup id =
        (acc.reservations.lookup id).filter fun r => decide (now < r.expiresAtUnixMs) :=
      Finmap.lookup_filter _ _ _
    have hreleased : id ∈ (acc.sweepExpired now).released ↔ id ∈ acc.released ∧
        ((acc.reservations.lookup id).all fun r => decide (now < r.expiresAtUnixMs)) = true :=
      Finset.mem_filter
    unfold SameHold
    rw [hlookup, hreleased]
    rcases h.hold id with ⟨hsame, hmark⟩ | ⟨r, hr, hexp, hacc⟩
    · rcases hr : acc.reservations.lookup id with _ | r
      · refine .inl ⟨by rw [← hsame, hr]; rfl, ?_⟩
        rw [hmark]
        simp
      · by_cases hlive : now < r.expiresAtUnixMs
        · refine .inl ⟨by rw [← hsame, hr]; simp [hlive], ?_⟩
          rw [hmark]
          simp [hlive]
        · refine .inr ⟨r, by rw [← hsame, hr], by omega, .inl ?_⟩
          simpa using hlive
    · refine .inr ⟨r, hr, by omega, ?_⟩
      rcases hacc with hacc | hacc
      · left
        rw [hacc]
        rfl
      · rw [hacc]
        by_cases hlive : now < r.expiresAtUnixMs
        · right
          simp [hlive]
        · left
          simpa using hlive

/-- One event of the rebuild; the balance has been summed up before. -/
def rebuild (now : ℕ) (acc : AccountState) (e : Event) : AccountState :=
  let acc := { acc with eventCount := acc.eventCount + 1 }
  let acc := if e.hasHold ∧ now < e.holdExpiresAtUnixMs then acc.trackReservation e else acc
  acc.applyReleaseOf e

/-- Apart from the balance, a rebuild applies an event, or drops its hold when that has expired. -/
lemma rebuild_eq (now : ℕ) (acc : AccountState) (e : Event) :
    (rebuild now acc e).balance = acc.balance ∧
    (rebuild now acc e).eventCount = acc.eventCount + 1 ∧
    (∀ id, id ∈ (rebuild now acc e).released ↔ id ∈ (acc.applyEvent e).released) ∧
    (rebuild now acc e).reservations =
      if e.hasHold = true ∧ e.holdExpiresAtUnixMs ≤ now then acc.reservations
      else (acc.applyEvent e).reservations := by
  have hrelease : ∀ a : AccountState, (a.applyReleaseOf e).balance = a.balance ∧
      (a.applyReleaseOf e).eventCount = a.eventCount ∧
      (a.applyReleaseOf e).reservations = a.reservations := by
    intro a
    unfold applyReleaseOf
    split <;> exact ⟨rfl, rfl, rfl⟩
  have hreleased : ∀ a : AccountState, a.released = acc.released → ∀ id,
      id ∈ (a.applyReleaseOf e).released ↔ id ∈ (acc.applyEvent e).released := by
    intro a ha id
    rw [mem_released_applyEvent, ← ha]
    unfold applyReleaseOf releasedBy
    rcases e.type with _ | _ | _ | _ | _ <;> rcases e.voidRef with _ | x <;>
      simp [applyRelease, eq_comm]
  rw [reservations_applyEvent]
  unfold rebuild
  dsimp only
  obtain ⟨hbalance, hcount, hreservations⟩ := hrelease
    (if e.hasHold = true ∧ now < e.holdExpiresAtUnixMs then
      AccountState.trackReservation { acc with eventCount := acc.eventCount + 1 } e
    else { acc with eventCount := acc.eventCount + 1 })
  rw [hbalance, hcount, hreservations]
  unfold trackReservation
  by_cases hhold : e.hasHold = true
  · by_cases hlive : now < e.holdExpiresAtUnixMs
    · have hnot : ¬ e.holdExpiresAtUnixMs ≤ now := by omega
      rw [if_pos ⟨hhold, hlive⟩, if_pos hhold, if_pos hhold, if_neg fun h => hnot h.2]
      exact ⟨rfl, rfl, hreleased _ rfl, rfl⟩
    · have hle : e.holdExpiresAtUnixMs ≤ now := by omega
      rw [if_neg fun h => hlive h.2, if_pos ⟨hhold, hle⟩]
      exact ⟨rfl, rfl, hreleased _ rfl, rfl⟩
  · rw [if_neg fun h => hhold h.1, if_neg fun h => hhold h.1, if_neg hhold]
    exact ⟨rfl, rfl, hreleased _ rfl, rfl⟩

/-- The holds after a rebuild are those after the replay. -/
lemma sameHold_rebuild (h : ∀ id, SameHold now acc full id)
    (hnew : full.reservations.lookup e.eventId = none) (id : String) :
    SameHold now (rebuild now acc e) (full.applyEvent e) id := by
  obtain ⟨-, -, hreleased, hreservations⟩ := rebuild_eq now acc e
  unfold SameHold
  rw [hreleased, hreservations]
  by_cases hexp : e.hasHold = true ∧ e.holdExpiresAtUnixMs ≤ now
  · rw [if_pos hexp, mem_released_applyEvent, mem_released_applyEvent, lookup_applyEvent]
    by_cases hid : id = e.eventId
    · -- the hold is left out
      rw [if_pos ⟨hexp.1, hid⟩]
      refine .inr ⟨_, rfl, hexp.2, .inl ?_⟩
      rcases h id with ⟨hlookup, -⟩ | ⟨r, hr, -, -⟩
      · rw [hlookup, hid, hnew]
      · rw [hid, hnew] at hr
        cases hr
    · rw [if_neg (fun hc => hid hc.2)]
      rcases h id with ⟨hlookup, hmark⟩ | hexpired
      · exact .inl ⟨hlookup, by rw [hmark]⟩
      · exact .inr hexpired
  · rw [if_neg hexp, lookup_applyEvent, lookup_applyEvent, mem_released_applyEvent,
      mem_released_applyEvent]
    by_cases hid : e.hasHold = true ∧ id = e.eventId
    · rw [if_pos hid, if_pos hid]
      refine .inl ⟨rfl, ?_⟩
      rcases h id with ⟨-, hmark⟩ | ⟨r, hr, -, -⟩
      · rw [hmark]
      · rw [hid.2, hnew] at hr
        cases hr
    · rw [if_neg hid, if_neg hid]
      rcases h id with ⟨hlookup, hmark⟩ | hexpired
      · exact .inl ⟨hlookup, by rw [hmark]⟩
      · exact .inr hexpired

/-- **Rebuilds.**  Summing up the balance and replaying the holds that have not expired shows what
the replay of all events shows. -/
lemma shows_rebuild {es : List Event} (hids : es.Pairwise fun a b => a.eventId ≠ b.eventId)
    (now : ℕ) :
    Shows now (es.foldl (rebuild now) { AccountState.new with balance := (replay es).balance })
      (replay es) := by
  have hfold : ∀ (es' es : List Event) (acc : AccountState),
      (es ++ es').Pairwise (fun a b => a.eventId ≠ b.eventId) →
      (∀ id, SameHold now acc (replay es) id) →
      (es'.foldl (rebuild now) acc).balance = acc.balance ∧
      (es'.foldl (rebuild now) acc).eventCount = acc.eventCount + es'.length ∧
      ∀ id, SameHold now (es'.foldl (rebuild now) acc) (replay (es ++ es')) id := by
    intro es'
    induction es' with
    | nil =>
        intro es acc _ hacc
        rw [List.append_nil]
        exact ⟨rfl, rfl, hacc⟩
    | cons e es' ih =>
        intro es acc hids hacc
        have hnew : (replay es).reservations.lookup e.eventId = none := by
          apply lookup_replay_eq_none
          intro x hx
          exact (List.pairwise_append.1 hids).2.2 x hx e List.mem_cons_self
        have hstep : ∀ id, SameHold now (rebuild now acc e) (replay (es ++ [e])) id := by
          intro id
          rw [replay, List.foldl_append]
          exact sameHold_rebuild hacc hnew id
        rw [List.append_cons] at hids ⊢
        obtain ⟨hbalance, hcount, hhold⟩ := ih (es ++ [e]) (rebuild now acc e) hids hstep
        obtain ⟨hbalance', hcount', -, -⟩ := rebuild_eq now acc e
        refine ⟨hbalance.trans hbalance', ?_, hhold⟩
        rw [List.foldl_cons, hcount, hcount', List.length_cons]
        omega
  obtain ⟨hbalance, hcount, hhold⟩ := hfold es []
    { AccountState.new with balance := (replay es).balance } hids fun id => .inl ⟨rfl, Iff.rfl⟩
  constructor
  · exact hbalance
  · rw [hcount, eventCount_replay]
    exact Nat.zero_add _
  · exact hhold

/-! ## What the accounts answer -/

/-- The accounts decide alike at `now`; only the errors may differ. -/
structure Alike (now : ℕ) (acc acc' : AccountState) : Prop where
  balance : acc.balance = acc'.balance
  activeReservations : acc.activeReservations now = acc'.activeReservations now
  openReservation : ∀ id,
    (acc.openReservation id now).toOption = (acc'.openReservation id now).toOption

namespace Alike

variable {acc' : AccountState}

lemma refl (now : ℕ) (acc : AccountState) : acc.Alike now acc := ⟨rfl, rfl, fun _ => rfl⟩

lemma availableBalance (h : acc.Alike now acc') :
    acc.availableBalance now = acc'.availableBalance now := by
  unfold AccountState.availableBalance activeHoldTotal
  rw [h.activeReservations, h.balance]

lemma settleCheck (h : acc.Alike now acc') (id : String) (amount : Int64) :
    (acc.settleCheck id amount now).toOption = (acc'.settleCheck id amount now).toOption := by
  have hopen := h.openReservation id
  unfold AccountState.settleCheck
  rcases hacc : acc.openReservation id now with err | r <;>
    rcases hacc' : acc'.openReservation id now with err' | r'
  · rfl
  · rw [hacc, hacc'] at hopen
    cases hopen
  · rw [hacc, hacc'] at hopen
    cases hopen
  · rw [hacc, hacc'] at hopen
    obtain rfl : r = r' := by simpa [Except.toOption] using hopen
    rfl

end Alike

/-- A reservation under this id has expired at `t`. -/
def Lapsed (t : ℕ) (acc : AccountState) (id : String) : Prop :=
  ∀ r, acc.reservations.lookup id = some r → r.expiresAtUnixMs ≤ t

/-- The accounts agree but for the holds `gone`, and those have expired at `t`. -/
structure Agree (t : ℕ) (gone : String → Prop) (acc acc' : AccountState) : Prop where
  balance : acc.balance = acc'.balance
  eventCount : acc.eventCount = acc'.eventCount
  hold : ∀ id, (acc.reservations.lookup id = acc'.reservations.lookup id ∧
      (id ∈ acc.released ↔ id ∈ acc'.released)) ∨
    gone id ∧ acc.Lapsed t id ∧ acc'.Lapsed t id

lemma Lapsed.filter_isActive (h : acc.Lapsed t id) (hle : t ≤ now) :
    (acc.reservations.lookup id).filter (fun r => acc.isActive now id r) = none := by
  rcases hr : acc.reservations.lookup id with _ | r
  · rfl
  · have hnot : ¬ now < r.expiresAtUnixMs := by
      have hexp := h r hr
      omega
    simp [isActive, hnot]

lemma Lapsed.openReservation (h : acc.Lapsed t id) (hle : t ≤ now) :
    (acc.openReservation id now).toOption = none := by
  unfold AccountState.openReservation
  rcases hr : acc.reservations.lookup id with _ | r
  · rfl
  · have hexp : r.expiresAtUnixMs ≤ now := (h r hr).trans hle
    dsimp only
    rw [if_pos hexp]
    split <;> rfl

/-- Holds that have expired decide nothing. -/
lemma Agree.alike {gone : String → Prop} {acc' : AccountState} (h : acc.Agree t gone acc')
    (hle : t ≤ now) : acc.Alike now acc' where
  balance := h.balance
  activeReservations := by
    refine Finmap.ext_lookup fun id => ?_
    unfold AccountState.activeReservations
    rw [Finmap.lookup_filter, Finmap.lookup_filter]
    rcases h.hold id with ⟨hlookup, hmark⟩ | ⟨-, hacc, hacc'⟩
    · rw [hlookup]
      congr 1
      funext r
      simp [isActive, hmark]
    · exact (hacc.filter_isActive hle).trans (hacc'.filter_isActive hle).symm
  openReservation id := by
    rcases h.hold id with ⟨hlookup, hmark⟩ | ⟨-, hacc, hacc'⟩
    · unfold AccountState.openReservation
      rw [hlookup]
      simp only [hmark]
    · exact (hacc.openReservation hle).trans (hacc'.openReservation hle).symm

namespace Shows

lemma agree (h : Shows t acc full) : acc.Agree t (fun _ => True) full where
  balance := h.balance
  eventCount := h.eventCount
  hold id := by
    refine (h.hold id).imp_right fun hexpired => ?_
    obtain ⟨r, hr, hexp, hacc⟩ := hexpired
    refine ⟨trivial, fun r' hr' => ?_, fun r' hr' => ?_⟩
    · rcases hacc with hacc | hacc
      · rw [hacc] at hr'
        cases hr'
      · rw [hacc] at hr'
        cases hr'
        exact hexp
    · rw [hr] at hr'
      cases hr'
      exact hexp

lemma alike (h : Shows t acc full) (hle : t ≤ now) : acc.Alike now full := h.agree.alike hle

lemma availableBalance (h : Shows t acc full) (hle : t ≤ now) :
    acc.availableBalance now = full.availableBalance now := (h.alike hle).availableBalance

/-- A reservation is open in both or in neither; only the error may differ. -/
lemma openReservation (h : Shows t acc full) (hle : t ≤ now) (id : String) :
    (acc.openReservation id now).toOption = (full.openReservation id now).toOption :=
  (h.alike hle).openReservation id

lemma settleCheck (h : Shows t acc full) (hle : t ≤ now) (id : String) (amount : Int64) :
    (acc.settleCheck id amount now).toOption = (full.settleCheck id amount now).toOption :=
  (h.alike hle).settleCheck id amount

end Shows

end AccountState

end Shardd
