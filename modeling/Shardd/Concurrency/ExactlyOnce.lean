import Shardd.Node.CreateSpec
import Shardd.Node.FineRules
import Shardd.Node.Startup

/-!
# Exactly-once application of a replicated event

Any number of insertions of one event runs interleaved at the single map operations, among flushes,
marks of persistence, head advances and insertions of other events.  An insertion finds the event
absent first and takes its slot in the buffer later; between the two another insertion may accept
the event and the persisted event be pruned from the buffer again.  As long as the event is still
beyond the head whenever a vacant slot is taken for it, its amount is added once and it is counted
once.

The history of an event is a trail: claimed, posted, counted, all by one call.  Once there is a
trail the slot stays occupied until the head has passed the event.
-/

namespace Shardd

variable {D : Type}

/-! ## Trails -/

/-- The deeds that belong to the identity of an event. -/
def Deed.about (e : Event) : Deed → Bool
  | .claimed x => x.originKey = e.originKey
  | .posted x => x = e
  | .counted x => x = e
  | _ => false

lemma Deed.about_posted (e : Event) : (Deed.posted e).about e = true := decide_eq_true rfl

lemma Deed.about_counted (e : Event) : (Deed.counted e).about e = true := decide_eq_true rfl

/-- What the calls have done about an event. -/
def FineState.trail (e : Event) (S : FineState D) : List (ℕ × Deed) :=
  S.log.filter fun p => p.2.about e

lemma FineState.trail_note (e : Event) (S : FineState D) (d : Deed) :
    (S.note d).trail e = S.trail e ++ if d.about e then [(S.node.running, d)] else [] := by
  change (S.log ++ [(S.node.running, d)]).filter _ = _
  rw [List.filter_append]
  congr 1
  cases habout : d.about e with
  | true => simp [habout]
  | false => simp [habout]

/-- The history of an identity: one call claims it, posts it and counts it. -/
inductive Trail (e : Event) : List (ℕ × Deed) → Prop
  | fresh : Trail e []
  | claimed {i : ℕ} {x : Event} (h : x.originKey = e.originKey) : Trail e [(i, .claimed x)]
  | posted {i : ℕ} : Trail e [(i, .claimed e), (i, .posted e)]
  | counted {i : ℕ} : Trail e [(i, .claimed e), (i, .posted e), (i, .counted e)]

/-- What a deed adds to an account. -/
def Deed.amountOn (key : BalanceKey) : Deed → Int64
  | .posted e | .corrected e => if e.balanceKey = key then e.amount else 0
  | _ => 0

/-- Whether a deed counts an event. -/
def Deed.counts : Deed → Bool
  | .counted _ | .countedCorrection _ => true
  | _ => false

/-- An event that the conflict check applies has an id that this node has drawn. -/
def Deed.Drawn (env : Env D) : Deed → Prop
  | .corrected e | .countedCorrection e => ∃ n, e.eventId = env.freshId n
  | _ => True

/-! ## The contract -/

structure AppliedOnce (env : Env D) (e : Event) (start : SharedState D) (S : FineState D) :
    Prop where
  trail : Trail e (S.trail e)
  slot : S.trail e ≠ [] →
    (S.node.eventBuffer e.originKey).isSome ∨ e.originSeq ≤ S.node.head e.epochKey
  balance : (S.node.account e.balanceKey).balance =
    S.log.foldl (fun b p => b + p.2.amountOn e.balanceKey) (start.account e.balanceKey).balance
  total : S.node.totalEventCount = start.totalEventCount + S.log.countP fun p => p.2.counts
  drawn : ∀ p ∈ S.log, p.2.Drawn env

/-- What call `i` leaves alone: the trails of the other calls, what the head has passed, and the
head while another call has the mutex of the epoch. -/
structure KeepsTrails (e : Event) (i : ℕ) (S S' : FineState D) : Prop where
  trail : ∀ j d rest, j ≠ i → S.trail e = (j, d) :: rest → S'.trail e = S.trail e
  head : e.originSeq ≤ S.node.head e.epochKey → e.originSeq ≤ S'.node.head e.epochKey
  locked : ∀ j, j ≠ i → S.headLocks e.epochKey = some j →
    S'.headLocks e.epochKey = some j ∧ S'.node.head e.epochKey = S.node.head e.epochKey

lemma KeepsTrails.trans {e : Event} {i : ℕ} {S S' S'' : FineState D} (h : KeepsTrails e i S S')
    (h' : KeepsTrails e i S' S'') : KeepsTrails e i S S'' where
  trail j d rest hj ht := by
    have hsame := h.trail j d rest hj ht
    rw [h'.trail j d rest hj (hsame.trans ht), hsame]
  head hle := h'.head (h.head hle)
  locked j hj hl := by
    obtain ⟨hl', hhead⟩ := h.locked j hj hl
    obtain ⟨hl'', hhead'⟩ := h'.locked j hj hl'
    exact ⟨hl'', hhead'.trans hhead⟩

def onceContract (env : Env D) (e : Event) (start : SharedState D) :
    Contract (FineState D) FineWait where
  inv := AppliedOnce env e start
  guar := KeepsTrails e
  absent _ _ := True
  pause _ _ _ := True

/-- When a vacant slot is taken, the event is still beyond the head. -/
def StillBeyond : FineWait → FineState D → Prop
  | .claim x, S =>
      S.node.eventBuffer x.originKey = none → S.node.head x.epochKey < x.originSeq
  | _, _ => True

instance (l : FineWait) (S : FineState D) : Decidable (StillBeyond l S) := by
  unfold StillBeyond
  split <;> infer_instance

/-! ## The judgement -/

/-- The contract has been kept so far; `own` is what call `i` has done about the event, if it is the
one that has claimed it, and `H` what it knows of the mutexes and of the head of its epoch. -/
structure OnceAt (env : Env D) (e : Event) (start : SharedState D) (i : ℕ) (own : List Deed)
    (H : Map EpochKey ℕ → ℕ → Prop) (S₀ S : FineState D) : Prop where
  inv : AppliedOnce env e start S
  guar : KeepsTrails e i S₀ S
  running : S.node.running = i
  own : own ≠ [] → S.trail e = own.map (Prod.mk i)
  holds : H S.headLocks (S.node.head e.epochKey)

/-- Nothing is known. -/
def Anything : Map EpochKey ℕ → ℕ → Prop := fun _ _ => True

/-- Call `i` has the mutex of `key`, and knows `P` of the head there. -/
def Holding (e : Event) (i : ℕ) (key : EpochKey) (P : ℕ → Prop) : Map EpochKey ℕ → ℕ → Prop :=
  fun locks head => key = e.epochKey → locks key = some i ∧ P head

/-- The head has passed the event, if `φ`. -/
def Passed (e : Event) (φ : Prop) : Map EpochKey ℕ → ℕ → Prop :=
  fun _ head => φ → e.originSeq ≤ head

/-- Knowledge that the other calls do not disturb. -/
def Undisturbed (e : Event) (i : ℕ) (H : Map EpochKey ℕ → ℕ → Prop) : Prop :=
  ∀ locks locks' head head', (e.originSeq ≤ head → e.originSeq ≤ head') →
    (locks e.epochKey = some i → locks' e.epochKey = some i ∧ head' = head) →
    H locks head → H locks' head'

lemma undisturbed_anything (e : Event) (i : ℕ) : Undisturbed e i Anything :=
  fun _ _ _ _ _ _ _ => trivial

lemma undisturbed_holding (e : Event) (i : ℕ) (key : EpochKey) (P : ℕ → Prop) :
    Undisturbed e i (Holding e i key P) := by
  rintro locks locks' head head' - hlocked hH rfl
  obtain ⟨hlock, hP⟩ := hH rfl
  obtain ⟨hlock', rfl⟩ := hlocked hlock
  exact ⟨hlock', hP⟩

lemma undisturbed_passed (e : Event) (i : ℕ) (φ : Prop) : Undisturbed e i (Passed e φ) :=
  fun _ _ _ _ hhead _ hH hφ => hhead (hH hφ)

/-- An act of the node that leaves the event's slot occupied, the head and the sums as they are. -/
structure Calm (e : Event) (s s' : SharedState D) : Prop where
  slot : (s.eventBuffer e.originKey).isSome →
    (s'.eventBuffer e.originKey).isSome ∨ e.originSeq ≤ s'.head e.epochKey
  head : s'.head e.epochKey = s.head e.epochKey
  balance : (s'.account e.balanceKey).balance = (s.account e.balanceKey).balance
  total : s'.totalEventCount = s.totalEventCount
  running : s'.running = s.running

/-- What a call has done about the event `e`, if the event `x` it inserts is that one. -/
def deedsOf (e x : Event) (ds : List Deed) : List Deed := if x = e then ds else []

lemma deedsOf_self (e : Event) (ds : List Deed) : deedsOf e e ds = ds := if_pos rfl

lemma deedsOf_append {e x : Event} (ds : List Deed) (d : Event → Deed)
    (hd : (d e).about e = true) :
    deedsOf e x (ds ++ [d e]) = [] ∨
      deedsOf e x (ds ++ [d e]) =
        if (d x).about e then deedsOf e x ds ++ [d x] else deedsOf e x ds := by
  by_cases hx : x = e
  · rw [hx, hd, deedsOf_self, deedsOf_self]
    exact .inr rfl
  · exact .inl (if_neg hx)

namespace OnceAt

variable {env : Env D} {e : Event} {start : SharedState D} {i : ℕ} {own : List Deed}
  {H H' : Map EpochKey ℕ → ℕ → Prop} {S₀ S : FineState D} {s' : SharedState D}

lemma mono (h : OnceAt env e start i own H S₀ S)
    (hH : H S.headLocks (S.node.head e.epochKey) → H' S.headLocks (S.node.head e.epochKey)) :
    OnceAt env e start i own H' S₀ S :=
  ⟨h.inv, h.guar, h.running, h.own, hH h.holds⟩

lemma forget (h : OnceAt env e start i own H S₀ S) : OnceAt env e start i own Anything S₀ S :=
  h.mono fun _ => trivial

/-- Between two segments. -/
lemma rests {l : FineWait} (h : OnceAt env e start i own H S₀ S) (hH : Undisturbed e i H) :
    (onceContract env e start).Rests FineWait.ready FineState.resumed StillBeyond i l
      (fun S₀ S => OnceAt env e start i own H S₀ S ∧ FineWait.ready l S₀ = true ∧ StillBeyond l S₀ ∧
        S = S₀.resumed i) S₀ S := by
  refine ⟨h.inv, h.guar, fun S => (own ≠ [] → S.trail e = own.map (Prod.mk i)) ∧
    H S.headLocks (S.node.head e.epochKey), ?_, ⟨h.own, h.holds⟩, fun _ _ _ => trivial, ?_⟩
  · rintro j S S' hj ⟨hown, hholds⟩ hguar
    change KeepsTrails e j S S' at hguar
    refine ⟨fun hne => ?_, hH _ _ _ _ hguar.head (hguar.locked i hj.symm) hholds⟩
    obtain ⟨d, rest, rfl⟩ := List.exists_cons_of_ne_nil hne
    rw [hguar.trail i d (rest.map (Prod.mk i)) hj.symm (hown hne)]
    exact hown hne
  · rintro S' hinv ⟨hown, hholds⟩ hready hC
    refine ⟨⟨⟨hinv.trail, hinv.slot, hinv.balance, hinv.total, hinv.drawn⟩, ?_, rfl, hown,
      hholds⟩, hready, hC, rfl⟩
    exact ⟨fun _ _ _ _ _ => rfl, fun h => h, fun _ _ h => ⟨h, rfl⟩⟩

lemma rests_step {l : FineWait} (h : OnceAt env e start i own H S₀ S) (hH : Undisturbed e i H) :
    (onceContract env e start).Rests FineWait.ready FineState.resumed StillBeyond i l
      (OnceAt env e start i own H) S₀ S := (h.rests hH).mono fun _ _ hs => hs.1

/-- A calm act. -/
lemma calm (h : OnceAt env e start i own H S₀ S) (hc : Calm e S.node s') :
    OnceAt env e start i own H S₀ { S with node := s' } where
  inv :=
    { trail := h.inv.trail
      slot := fun hne => by
        rcases h.inv.slot hne with hslot | hle
        · exact hc.slot hslot
        · exact .inr (hc.head.symm ▸ hle)
      balance := hc.balance.trans h.inv.balance
      total := hc.total.trans h.inv.total
      drawn := h.inv.drawn }
  guar := h.guar.trans ⟨fun _ _ _ _ _ => rfl, fun hle => hc.head.symm ▸ hle,
    fun _ _ hl => ⟨hl, hc.head⟩⟩
  running := hc.running.trans h.running
  own := h.own
  holds := by
    change H S.headLocks (s'.head e.epochKey)
    rw [hc.head]
    exact h.holds

/-- A calm act that is recorded; the sums grow by what the deed says. -/
lemma deed {d : Deed} {own' : List Deed} (h : OnceAt env e start i own H S₀ S)
    (hslot : s'.eventBuffer = S.node.eventBuffer)
    (hhead : s'.head e.epochKey = S.node.head e.epochKey)
    (hbalance : (s'.account e.balanceKey).balance =
      (S.node.account e.balanceKey).balance + d.amountOn e.balanceKey)
    (htotal : s'.totalEventCount = S.node.totalEventCount + if d.counts then 1 else 0)
    (hrunning : s'.running = S.node.running)
    (habout : d.about e = true → own ≠ [] ∧ Trail e ((own ++ [d]).map (Prod.mk i)))
    (hdrawn : d.Drawn env) (hown' : own' = [] ∨ own' = if d.about e then own ++ [d] else own) :
    OnceAt env e start i own' H S₀ (({ S with node := s' } : FineState D).note d) := by
  have htrail : (({ S with node := s' } : FineState D).note d).trail e =
      S.trail e ++ if d.about e then [(i, d)] else [] := by
    rw [FineState.trail_note]
    dsimp only
    rw [hrunning, h.running]
    rfl
  have hgrown : d.about e = true → (({ S with node := s' } : FineState D).note d).trail e =
      (own ++ [d]).map (Prod.mk i) := by
    intro hd
    rw [htrail, if_pos hd, h.own (habout hd).1, List.map_append]
    rfl
  have hsame : d.about e = false →
      (({ S with node := s' } : FineState D).note d).trail e = S.trail e := by
    intro hd
    rw [htrail, hd]
    exact List.append_nil _
  constructor
  · constructor
    · cases hd : d.about e with
      | true =>
          rw [hgrown hd]
          exact (habout hd).2
      | false =>
          rw [hsame hd]
          exact h.inv.trail
    · intro _
      change (s'.eventBuffer e.originKey).isSome ∨ e.originSeq ≤ s'.head e.epochKey
      rw [hslot, hhead]
      cases hd : d.about e with
      | true =>
          apply h.inv.slot
          rw [h.own (habout hd).1]
          simpa using (habout hd).1
      | false =>
          rename_i hne
          rw [hsame hd] at hne
          exact h.inv.slot hne
    · change (s'.account e.balanceKey).balance = (S.log ++ [(s'.running, d)]).foldl _ _
      rw [List.foldl_append, ← h.inv.balance, hbalance]
      rfl
    · change s'.totalEventCount = _ + (S.log ++ [(s'.running, d)]).countP _
      rw [List.countP_append, ← Nat.add_assoc, ← h.inv.total, htotal]
      cases hd : d.counts <;> simp [hd]
    · intro p hp
      rcases List.mem_append.1 hp with hp | hp
      · exact h.inv.drawn p hp
      · obtain rfl := List.mem_singleton.1 hp
        exact hdrawn
  · refine h.guar.trans ⟨fun j d' rest hj htr => ?_, fun hle => ?_, fun _ _ hl => ⟨hl, hhead⟩⟩
    · cases hd : d.about e with
      | true =>
          -- the trail is this call's
          obtain ⟨d₀, rest₀, hcons⟩ := List.exists_cons_of_ne_nil (habout hd).1
          have hown := h.own (habout hd).1
          rw [hcons, htr] at hown
          exact absurd (congrArg Prod.fst (List.cons.inj hown).1) hj
      | false => exact hsame hd
    · change e.originSeq ≤ s'.head e.epochKey
      rw [hhead]
      exact hle
  · exact hrunning.trans h.running
  · intro hne
    rcases hown' with rfl | rfl
    · exact absurd rfl hne
    · cases hd : d.about e with
      | true =>
          rw [hgrown hd, if_pos rfl]
      | false =>
          rw [hsame hd]
          rw [hd] at hne
          exact h.own hne
  · change H S.headLocks (s'.head e.epochKey)
    rw [hhead]
    exact h.holds

/-- The first call that takes the slot of an event. -/
lemma claim {x : Event} (h : OnceAt env e start i own H S₀ S)
    (hslot : S.node.eventBuffer x.originKey = none)
    (hbeyond : S.node.head x.epochKey < x.originSeq) :
    OnceAt env e start i (deedsOf e x [.claimed e]) H S₀
      (({ S with node := { S.node with
        eventBuffer := S.node.eventBuffer.insert x.originKey x } } : FineState D).note
          (.claimed x)) := by
  have hfresh : x.originKey = e.originKey → S.trail e = [] := by
    intro hkey
    obtain ⟨hepoch, hseq⟩ := Event.originKey_eq_iff.1 hkey
    by_contra hne
    rcases h.inv.slot hne with hfull | hpassed
    · rw [← hkey, hslot] at hfull
      cases hfull
    · rw [hepoch, hseq] at hbeyond
      omega
  have htrail : x.originKey = e.originKey →
      (({ S with node := { S.node with
        eventBuffer := S.node.eventBuffer.insert x.originKey x } } : FineState D).note
          (.claimed x)).trail e = [(i, .claimed x)] := by
    intro hkey
    have habout : (Deed.claimed x).about e = true := decide_eq_true hkey
    rw [FineState.trail_note, habout]
    change S.trail e ++ [(S.node.running, _)] = _
    rw [hfresh hkey, h.running]
    rfl
  have hsame : x.originKey ≠ e.originKey →
      (({ S with node := { S.node with
        eventBuffer := S.node.eventBuffer.insert x.originKey x } } : FineState D).note
          (.claimed x)).trail e = S.trail e := by
    intro hkey
    have habout : (Deed.claimed x).about e = false := decide_eq_false hkey
    rw [FineState.trail_note, habout]
    exact List.append_nil _
  have hfilled : (({ S.node with
      eventBuffer := S.node.eventBuffer.insert x.originKey x } : SharedState D).eventBuffer
        e.originKey).isSome ↔ x.originKey = e.originKey ∨
          (S.node.eventBuffer e.originKey).isSome := by
    dsimp only
    rw [Map.insert_apply]
    by_cases hkey : x.originKey = e.originKey
    · simp [hkey]
    · simp [hkey, Ne.symm hkey]
  constructor
  · constructor
    · by_cases hkey : x.originKey = e.originKey
      · rw [htrail hkey]
        exact .claimed hkey
      · rw [hsame hkey]
        exact h.inv.trail
    · intro hne
      by_cases hkey : x.originKey = e.originKey
      · exact .inl (hfilled.2 (.inl hkey))
      · rw [hsame hkey] at hne
        exact (h.inv.slot hne).imp_left fun hfull => hfilled.2 (.inr hfull)
    · change _ = (S.log ++ [(S.node.running, Deed.claimed x)]).foldl _ _
      rw [List.foldl_append, ← h.inv.balance]
      exact (Int64.add_zero _).symm
    · change _ = _ + (S.log ++ [(S.node.running, Deed.claimed x)]).countP _
      rw [List.countP_append, ← Nat.add_assoc, ← h.inv.total]
      rfl
    · intro p hp
      rcases List.mem_append.1 hp with hp | hp
      · exact h.inv.drawn p hp
      · obtain rfl := List.mem_singleton.1 hp
        trivial
  · refine h.guar.trans ⟨fun j d rest hj htr => hsame fun hkey => ?_, fun hle => hle,
      fun _ _ hl => ⟨hl, rfl⟩⟩
    rw [hfresh hkey] at htr
    cases htr
  · exact h.running
  · intro hne
    unfold deedsOf at hne ⊢
    split at hne
    · rename_i hx
      rw [if_pos hx, htrail (by rw [hx]), hx]
      rfl
    · exact absurd rfl hne
  · exact h.holds

/-- The call that has the mutex of an epoch raises its head. -/
lemma raise {key : EpochKey} (newHead : ℕ) {P : ℕ → Prop}
    (h : OnceAt env e start i own (Holding e i key P) S₀ S)
    (hle : key = e.epochKey → S.node.head e.epochKey ≤ newHead) :
    OnceAt env e start i own (Holding e i key fun head => head = newHead) S₀
      { S with node := { S.node with heads := S.node.heads.insert key newHead } } := by
  have hsame : key ≠ e.epochKey →
      ({ S.node with heads := S.node.heads.insert key newHead } : SharedState D).head e.epochKey =
        S.node.head e.epochKey := by
    intro hne
    unfold SharedState.head
    dsimp only
    rw [Map.insert_of_ne _ _ _ (Ne.symm hne)]
  have hnew : key = e.epochKey →
      ({ S.node with heads := S.node.heads.insert key newHead } : SharedState D).head e.epochKey =
        newHead := by
    rintro rfl
    unfold SharedState.head
    dsimp only
    rw [Map.insert_self]
    rfl
  have hup : e.originSeq ≤ S.node.head e.epochKey → e.originSeq ≤
      ({ S.node with heads := S.node.heads.insert key newHead } : SharedState D).head
        e.epochKey := by
    intro hpassed
    by_cases hkey : key = e.epochKey
    · rw [hnew hkey]
      exact hpassed.trans (hle hkey)
    · rw [hsame hkey]
      exact hpassed
  refine ⟨⟨h.inv.trail, fun hne => ?_, h.inv.balance, h.inv.total, h.inv.drawn⟩,
    h.guar.trans ⟨fun _ _ _ _ _ => rfl, hup, fun j hj hl => ⟨hl, ?_⟩⟩, h.running, h.own,
    fun hkey => ⟨(h.holds hkey).1, hnew hkey⟩⟩
  · exact (h.inv.slot hne).imp_right hup
  · by_cases hkey : key = e.epochKey
    · -- nobody else has the mutex
      obtain ⟨hlock, -⟩ := h.holds hkey
      rw [← hkey, hlock] at hl
      exact absurd (Option.some.inj hl).symm hj
    · exact hsame hkey

end OnceAt

/-! ## Steps -/

/-- A program keeps the contract from a state in which the segment began at `S₀`. -/
abbrev Runs {α : Type} (env : Env D) (e : Event) (start : SharedState D) (i : ℕ) (t : FineM D α)
    (Q : α → FineState D → FineState D → Prop) (S₀ S : FineState D) : Prop :=
  t.wp FineWait.ready FineState.resumed (onceContract env e start) StillBeyond i Q S₀ S

section Programs

variable {α : Type} {env : Env D} {e : Event} {start : SharedState D} {i : ℕ} {own : List Deed}
  {H : Map EpochKey ℕ → ℕ → Prop} {S₀ S : FineState D}

lemma runs_read {f : SharedState D → α} {Q : α → FineState D → FineState D → Prop}
    (hH : Undisturbed e i H) (h : OnceAt env e start i own H S₀ S)
    (hQ : ∀ S₀ S, OnceAt env e start i own H S₀ S → Q (f S.node) S₀ S) :
    Runs env e start i (step (Proc.read f)) Q S₀ S :=
  wp_step_read ((h.rests_step hH).mono hQ)

lemma runs_calm {W : Wait → Prop} {t : NodeM D α} (ht : t.Only (Calm e) W)
    (hH : Undisturbed e i H) (h : OnceAt env e start i own H S₀ S) :
    Runs env e start i (step t) (fun _ => OnceAt env e start i own H) S₀ S :=
  wp_step_of_only (fun _ _ _ hs hc => hs.calm hc) (fun _ _ _ _ hs => hs.rests_step hH) ht h

lemma runs_update {f : SharedState D → SharedState D} (hf : ∀ s, Calm e s (f s))
    (hH : Undisturbed e i H) (h : OnceAt env e start i own H S₀ S) :
    Runs env e start i (step (Proc.update f)) (fun _ => OnceAt env e start i own H) S₀ S :=
  runs_calm (W := fun _ => True) (Proc.only_update hf) hH h

/-- Acts that touch neither the buffer nor the heads, the accounts or the count. -/
lemma Calm.of_eq {s s' : SharedState D} (hbuffer : s'.eventBuffer = s.eventBuffer)
    (hheads : s'.heads = s.heads) (haccounts : s'.accounts = s.accounts)
    (htotal : s'.totalEventCount = s.totalEventCount) (hrunning : s'.running = s.running) :
    Calm e s s' where
  slot h := by
    rw [hbuffer]
    exact .inl h
  head := by rw [SharedState.head, hheads, SharedState.head]
  balance := by rw [SharedState.account, haccounts, SharedState.account]
  total := htotal
  running := hrunning

variable (env)

lemma calm_callStorage {f : Storage D → α × Storage D} (s : SharedState D) :
    Calm e s (s.callStorage env f).2 := by
  unfold SharedState.callStorage
  split <;> exact .of_eq rfl rfl rfl rfl rfl

lemma runs_storageCall {op : StorageOp} {f : Storage D → α × Storage D} (hH : Undisturbed e i H)
    (h : OnceAt env e start i own H S₀ S) :
    Runs env e start i (step (storageCall env op f).run) (fun _ => OnceAt env e start i own H)
      S₀ S :=
  runs_calm (W := fun _ => True) (only_storageCall env (calm_callStorage env) trivial
    fun _ => trivial) hH h

lemma runs_allocate (bucket : String) (hH : Undisturbed e i H)
    (h : OnceAt env e start i own H S₀ S) :
    Runs env e start i (step (allocate env bucket).run) (fun _ => OnceAt env e start i own H)
      S₀ S := by
  refine runs_calm ((only_allocate_frame env bucket).mono (fun s s' ha => ?_) fun _ h => h) hH h
  rw [ha.frame]
  exact .of_eq rfl rfl rfl rfl rfl

lemma runs_nowMs (hH : Undisturbed e i H) (h : OnceAt env e start i own H S₀ S) :
    Runs env e start i (step (nowMs env)) (fun _ => OnceAt env e start i own H) S₀ S :=
  runs_calm (W := fun _ => True)
    (Proc.only_readUpdate fun _ => .of_eq rfl rfl rfl rfl rfl) hH h

/-! ## Heads -/

lemma runs_chainFine (key : EpochKey) (seqs : List ℕ) (digest : D) (hH : Undisturbed e i H)
    (h : OnceAt env e start i own H S₀ S) :
    Runs env e start i (chainFine env key digest seqs) (fun _ => OnceAt env e start i own H)
      S₀ S := by
  induction seqs generalizing digest S₀ S with
  | nil => exact h
  | cons seq seqs ih =>
      apply Proc.wp_bind
      exact runs_read hH h fun S₀ S h => ih _ h

lemma runs_updateDigestFine (key : EpochKey) (oldHead newHead : ℕ) (hH : Undisturbed e i H)
    (h : OnceAt env e start i own H S₀ S) :
    Runs env e start i (updateDigestFine env key oldHead newHead)
      (fun _ => OnceAt env e start i own H) S₀ S := by
  apply Proc.wp_bind
  refine runs_read hH h fun S₀ S h => ?_
  apply Proc.wp_bind
  refine Proc.wp_mono (fun _ S₀ S h => ?_) (runs_chainFine env key _ _ hH h)
  apply Proc.wp_bind
  exact runs_update (fun _ => .of_eq rfl rfl rfl rfl rfl) hH h

/-- Emptying a slot whose event the head has passed. -/
lemma calm_remove {s : SharedState D} {key : OriginKey}
    (h : key = e.originKey → e.originSeq ≤ s.head e.epochKey) :
    Calm e s { s with eventBuffer := s.eventBuffer.remove key } where
  slot hslot := by
    by_cases hkey : key = e.originKey
    · exact .inr (h hkey)
    · refine .inl ?_
      change ((s.eventBuffer.remove key) e.originKey).isSome
      rw [Map.remove_of_ne _ _ (Ne.symm hkey)]
      exact hslot
  head := rfl
  balance := rfl
  total := rfl
  running := rfl

lemma runs_pruneFine (key : EpochKey) (seqs : List ℕ)
    (h : OnceAt env e start i own
      (Holding e i key fun head => e.originSeq ∈ seqs → e.originSeq ≤ head) S₀ S) :
    Runs env e start i (pruneFine key seqs)
      (fun _ => OnceAt env e start i own (Holding e i key fun _ => True)) S₀ S := by
  induction seqs generalizing S₀ S with
  | nil => exact h.mono fun hH hkey => ⟨(hH hkey).1, trivial⟩
  | cons seq seqs ih =>
      have hrest : ∀ S₀ S, OnceAt env e start i own
          (Holding e i key fun head => e.originSeq ∈ seq :: seqs → e.originSeq ≤ head) S₀ S →
          OnceAt env e start i own
            (Holding e i key fun head => e.originSeq ∈ seqs → e.originSeq ≤ head) S₀ S :=
        fun S₀ S h => h.mono fun hH hkey =>
          ⟨(hH hkey).1, fun hmem => (hH hkey).2 (List.mem_cons_of_mem _ hmem)⟩
      have hundisturbed := undisturbed_holding e i key
        fun head => e.originSeq ∈ seq :: seqs → e.originSeq ≤ head
      apply Proc.wp_bind
      refine runs_read hundisturbed h fun S₀ S h => ?_
      dsimp only
      split
      · apply Proc.wp_bind
        refine wp_step_update ((h.rests_step hundisturbed).mono fun S₀ S h => ?_)
        refine ih (hrest _ _ (h.calm (calm_remove fun hkey => ?_)))
        obtain ⟨hepoch, hseq⟩ : key = e.epochKey ∧ seq = e.originSeq := by
          obtain ⟨bucket, node, epoch⟩ := key
          simp only [EpochKey.at, Event.originKey, Prod.mk.injEq] at hkey
          exact ⟨by rw [Event.epochKey, hkey.1, hkey.2.1, hkey.2.2.1], hkey.2.2.2⟩
        exact (h.holds hepoch).2 (by rw [hseq]; exact List.mem_cons_self)
      · exact ih (hrest _ _ h)

lemma le_drainPending (s : SharedState D) (key : EpochKey) (seq : ℕ) :
    seq ≤ (s.drainPending key seq).1 := by
  unfold SharedState.drainPending
  split
  · exact (drainLoop_spec _ seq _ le_rfl).1
  · exact le_rfl

lemma calm_drainPending (s : SharedState D) (key : EpochKey) (seq : ℕ) :
    Calm e s (s.drainPending key seq).2 := by
  unfold SharedState.drainPending
  split <;> exact .of_eq rfl rfl rfl rfl rfl

lemma runs_advanceHeadSection (key : EpochKey) (seq : ℕ)
    (h : OnceAt env e start i own (Holding e i key fun _ => True) S₀ S) :
    Runs env e start i (advanceHeadSection env key seq)
      (fun _ => OnceAt env e start i own (Holding e i key fun _ => True)) S₀ S := by
  have hforget : ∀ (P : ℕ → Prop) S₀ S, OnceAt env e start i own (Holding e i key P) S₀ S →
      OnceAt env e start i own (Holding e i key fun _ => True) S₀ S :=
    fun P S₀ S h => h.mono fun hH hkey => ⟨(hH hkey).1, trivial⟩
  apply Proc.wp_bind
  refine wp_step_read ((h.rests_step (undisturbed_holding e i key _)).mono fun S₀ S h => ?_)
  generalize hcurrent : S.node.head key = current
  replace h : OnceAt env e start i own (Holding e i key fun head => head = current) S₀ S :=
    h.mono fun hH hkey => ⟨(hH hkey).1, hkey ▸ hcurrent⟩
  have hundisturbed := undisturbed_holding e i key fun head => head = current
  split
  · rename_i hseq
    apply Proc.wp_bind
    refine wp_step_readUpdate ((h.rests_step hundisturbed).mono fun S₀ S h => ?_)
    have hdrained := le_drainPending S.node key seq
    generalize (S.node.drainPending key seq).1 = newHead at hdrained ⊢
    apply Proc.wp_bind
    refine Proc.wp_mono (fun digest S₀ S h => ?_)
      (runs_updateDigestFine env key current newHead hundisturbed
        (h.calm (calm_drainPending S.node key seq)))
    apply Proc.wp_bind
    refine wp_step_update ((h.rests_step hundisturbed).mono fun S₀ S h => ?_)
    have hraised := h.raise newHead fun hkey => by
      rw [(h.holds hkey).2]
      omega
    apply Proc.wp_bind
    refine Proc.wp_mono (fun _ S₀ S h => h) (runs_pruneFine env key _ (hraised.mono ?_))
    rintro hH hkey
    obtain ⟨hlock, hhead⟩ := hH hkey
    refine ⟨hlock, fun hmem => ?_⟩
    have := (List.mem_range'_1.1 hmem).2
    omega
  · split
    · apply Proc.wp_bind
      refine Proc.wp_mono (fun _ S₀ S h => ?_)
        (runs_update (fun _ => .of_eq rfl rfl rfl rfl rfl) hundisturbed h)
      apply Proc.wp_bind
      refine wp_step_update ((h.rests_step hundisturbed).mono fun S₀ S h => ?_)
      change OnceAt env e start i own (Holding e i key fun _ => True) S₀ _
      split
      · exact hforget _ _ _ h
      · refine hforget _ _ _ (h.raise current fun hkey => ?_)
        exact ((h.holds hkey).2).le
    · exact hforget _ _ _ h

/-- The mutex of an epoch is free when it is taken, and this call's when it is given back. -/
lemma runs_withHeadLock (key : EpochKey) {body : FineM D α}
    (hbody : ∀ S₀ S, OnceAt env e start i own (Holding e i key fun _ => True) S₀ S →
      Runs env e start i body (fun _ => OnceAt env e start i own (Holding e i key fun _ => True))
        S₀ S)
    (h : OnceAt env e start i own Anything S₀ S) :
    Runs env e start i (withHeadLock key body) (fun _ => OnceAt env e start i own Anything)
      S₀ S := by
  apply Proc.wp_bind
  refine Proc.wp_suspend ((h.rests (undisturbed_anything e i)).mono fun S₀ S hs => ?_)
  obtain ⟨h, hready, -, hresumed⟩ := hs
  have hfree : S.headLocks key = none := by
    rw [hresumed]
    exact Option.isNone_iff_eq_none.1 hready
  apply Proc.wp_bind
  rw [Proc.wp_update]
  apply Proc.wp_bind
  refine Proc.wp_mono (fun r S₀ S h => ?_) (hbody _ _ ?_)
  · apply Proc.wp_bind
    refine Proc.wp_suspend
      ((h.rests_step (undisturbed_holding e i key fun _ => True)).mono fun S₀ S h => ?_)
    refine ⟨⟨h.inv.trail, h.inv.slot, h.inv.balance, h.inv.total, h.inv.drawn⟩,
      h.guar.trans ⟨fun _ _ _ _ _ => rfl, fun h => h, fun j hj hl => ⟨?_, rfl⟩⟩, h.running, h.own,
      trivial⟩
    change (S.headLocks.remove key) e.epochKey = some j
    by_cases hkey : key = e.epochKey
    · rw [← hkey, (h.holds hkey).1] at hl
      exact absurd (Option.some.inj hl).symm hj
    · rw [Map.remove_of_ne _ _ (Ne.symm hkey)]
      exact hl
  · refine ⟨⟨h.inv.trail, h.inv.slot, h.inv.balance, h.inv.total, h.inv.drawn⟩,
      h.guar.trans ⟨fun _ _ _ _ _ => rfl, fun h => h, fun j hj hl => ⟨?_, rfl⟩⟩, h.running, h.own,
      fun hkey => ⟨?_, trivial⟩⟩
    · change (S.headLocks.insert key S.node.running) e.epochKey = some j
      by_cases hkey : key = e.epochKey
      · rw [← hkey, hfree] at hl
        cases hl
      · rw [Map.insert_of_ne _ _ _ (Ne.symm hkey)]
        exact hl
    · change (S.headLocks.insert key S.node.running) key = some i
      rw [Map.insert_self, h.running]

lemma runs_advanceHeadFine (key : EpochKey) (seq : ℕ) (h : OnceAt env e start i own Anything S₀ S) :
    Runs env e start i (advanceHeadFine env key seq) (fun _ => OnceAt env e start i own Anything)
      S₀ S := by
  apply Proc.wp_bind
  refine Proc.wp_mono (fun r S₀ S h => ?_)
    (runs_withHeadLock env key (fun S₀ S h => runs_advanceHeadSection env key seq h) h)
  cases r with
  | none => exact h
  | some out =>
      apply Proc.wp_bind
      exact Proc.wp_mono (fun _ S₀ S h => h)
        (runs_storageCall env (undisturbed_anything e i) h)

lemma runs_updateOriginTrackingFine (x : Event) (h : OnceAt env e start i own Anything S₀ S) :
    Runs env e start i (updateOriginTrackingFine x) (fun _ => OnceAt env e start i own Anything)
      S₀ S := by
  have hanything := undisturbed_anything e i
  apply Proc.wp_bind
  refine Proc.wp_mono (fun _ S₀ S h => ?_)
    (runs_update (fun _ => .of_eq rfl rfl rfl rfl rfl) hanything h)
  exact runs_update (fun _ => .of_eq rfl rfl rfl rfl rfl) hanything h

/-! ## Persistence -/

/-- A slot is emptied only when the head was seen beyond it, and heads do not fall. -/
lemma runs_markPersistedFine (keys : List OriginKey)
    (h : OnceAt env e start i own Anything S₀ S) :
    Runs env e start i (markPersistedFine keys) (fun _ => OnceAt env e start i own Anything)
      S₀ S := by
  induction keys generalizing S₀ S with
  | nil => exact h
  | cons key keys ih =>
      apply Proc.wp_bind
      refine Proc.wp_mono (fun _ S₀ S h => ?_)
        (runs_update (fun _ => .of_eq rfl rfl rfl rfl rfl) (undisturbed_anything e i) h)
      apply Proc.wp_bind
      refine wp_step_read ((h.rests_step (undisturbed_anything e i)).mono fun S₀ S h => ?_)
      generalize hhead : S.node.head key.epoch = head
      have hpassed := undisturbed_passed e i (key = e.originKey ∧ key.2.2.2 ≤ head)
      replace h : OnceAt env e start i own (Passed e (key = e.originKey ∧ key.2.2.2 ≤ head))
          S₀ S := by
        refine h.mono fun _ hkey => ?_
        obtain ⟨rfl, hle⟩ := hkey
        change S.node.head e.epochKey = head at hhead
        rw [hhead]
        exact hle
      apply Proc.wp_bind
      refine runs_read hpassed h fun S₀ S h => ?_
      split
      · rename_i hready
        apply Proc.wp_bind
        refine wp_step_update ((h.rests_step hpassed).mono fun S₀ S h => ?_)
        refine ih (h.calm (calm_remove fun hkey => ?_)).forget
        exact h.holds ⟨hkey, hready.1⟩
      · exact ih h.forget

lemma runs_doFlushFine (events : List Event) (h : OnceAt env e start i own Anything S₀ S) :
    Runs env e start i (doFlushFine env events) (fun _ => OnceAt env e start i own Anything)
      S₀ S := by
  apply Proc.wp_bind
  refine Proc.wp_mono (fun r S₀ S h => ?_)
    (runs_storageCall env (undisturbed_anything e i) h)
  cases r with
  | ok _ => exact runs_markPersistedFine env _ h
  | error _ => exact h

/-! ## Accounts and corrections -/

lemma calm_ensureAccount (s : SharedState D) (key : BalanceKey) :
    Calm e s (s.ensureAccount key) where
  slot h := .inl h
  head := rfl
  balance := by rw [SharedState.account_ensureAccount]
  total := rfl
  running := rfl

/-- The section under an account's mutex, recorded as `d`. -/
lemma runs_accountFine (own' : List Deed) {key : BalanceKey} {d : Deed}
    {f : AccountState → AccountState}
    (hbalance : ∀ acc, (if e.balanceKey = key then (f acc).balance else acc.balance) =
      acc.balance + d.amountOn e.balanceKey)
    (hcounts : d.counts = false)
    (habout : d.about e = true → own ≠ [] ∧ Trail e ((own ++ [d]).map (Prod.mk i)))
    (hdrawn : d.Drawn env) (hown' : own' = [] ∨ own' = if d.about e then own ++ [d] else own)
    (h : OnceAt env e start i own Anything S₀ S) :
    Runs env e start i (accountFine key d f) (fun _ => OnceAt env e start i own' Anything)
      S₀ S := by
  have hanything := undisturbed_anything e i
  apply Proc.wp_bind
  refine Proc.wp_mono (fun _ S₀ S h => ?_)
    (runs_update (fun s => calm_ensureAccount s key) hanything h)
  apply Proc.wp_bind
  refine Proc.wp_suspend ((h.rests_step hanything).mono fun S₀ S h => ?_)
  apply Proc.wp_bind
  rw [Proc.wp_update]
  replace h : OnceAt env e start i own Anything S₀
      { S with node := S.node.lockAccount key } := h.calm (.of_eq rfl rfl rfl rfl rfl)
  apply Proc.wp_bind
  refine wp_deed ((h.rests_step hanything).mono fun S₀ S h => ?_)
  refine runs_update (fun _ => .of_eq rfl rfl rfl rfl rfl) hanything
    (h.deed rfl rfl ?_ ?_ rfl habout hdrawn hown')
  · rw [SharedState.account_modifyAccount, ← hbalance]
    split <;> rfl
  · rw [hcounts]
    rfl

/-- A deed that is not about the event and adds nothing. -/
lemma OnceAt.neutral {d : Deed} {s' : SharedState D}
    (h : OnceAt env e start i own Anything S₀ S) (hcalm : Calm e S.node s')
    (hbuffer : s'.eventBuffer = S.node.eventBuffer) (habout : d.about e = false)
    (hamount : d.amountOn e.balanceKey = 0) (hcounts : d.counts = false) (hdrawn : d.Drawn env) :
    OnceAt env e start i own Anything S₀ (({ S with node := s' } : FineState D).note d) := by
  refine h.deed hbuffer hcalm.head ?_ ?_ hcalm.running (fun hd => ?_) hdrawn (.inr ?_)
  · rw [hcalm.balance, hamount, Int64.add_zero]
  · rw [hcalm.total, hcounts]
    rfl
  · rw [habout] at hd
    cases hd
  · rw [habout]
    rfl

lemma runs_countEvent (own' : List Deed) {d : Deed} (hcounts : d.counts = true)
    (hamount : d.amountOn e.balanceKey = 0)
    (habout : d.about e = true → own ≠ [] ∧ Trail e ((own ++ [d]).map (Prod.mk i)))
    (hdrawn : d.Drawn env) (hown' : own' = [] ∨ own' = if d.about e then own ++ [d] else own)
    (h : OnceAt env e start i own Anything S₀ S) :
    Runs env e start i (deed d SharedState.countEvent)
      (fun _ => OnceAt env e start i own' Anything) S₀ S := by
  refine wp_deed ((h.rests_step (undisturbed_anything e i)).mono fun S₀ S h => ?_)
  refine h.deed rfl rfl ?_ ?_ rfl habout hdrawn hown'
  · rw [hamount, Int64.add_zero]
    rfl
  · rw [hcounts]
    rfl

/-- A slot is filled. -/
lemma calm_fill (s : SharedState D) (x : Event) :
    Calm e s { s with eventBuffer := s.eventBuffer.insert x.originKey x } where
  slot h := by
    refine .inl ?_
    change ((s.eventBuffer.insert x.originKey x) e.originKey).isSome
    rw [Map.insert_apply]
    split
    · rfl
    · exact h
  head := rfl
  balance := rfl
  total := rfl
  running := rfl

lemma runs_applyCorrectionEventFine {x : Event} (hid : ∃ n, x.eventId = env.freshId n)
    (h : OnceAt env e start i own Anything S₀ S) :
    Runs env e start i (applyCorrectionEventFine env x)
      (fun _ => OnceAt env e start i own Anything) S₀ S := by
  have hanything := undisturbed_anything e i
  have hbalance : ∀ acc : AccountState,
      (if e.balanceKey = x.balanceKey then ((acc.post x.amount).applyReleaseOf x).balance
        else acc.balance) = acc.balance + (Deed.corrected x).amountOn e.balanceKey := by
    intro acc
    change _ = acc.balance + if x.balanceKey = e.balanceKey then x.amount else 0
    by_cases hkey : e.balanceKey = x.balanceKey
    · rw [if_pos hkey, if_pos hkey.symm]
      unfold AccountState.applyReleaseOf
      split <;> rfl
    · rw [if_neg hkey, if_neg (Ne.symm hkey), Int64.add_zero]
  apply Proc.wp_bind
  refine Proc.wp_mono (fun _ S₀ S h => ?_) (runs_update (fun s => calm_fill s x) hanything h)
  apply Proc.wp_bind
  refine Proc.wp_mono (fun _ S₀ S h => ?_)
    (runs_update (fun _ => .of_eq rfl rfl rfl rfl rfl) hanything h)
  apply Proc.wp_bind
  refine Proc.wp_mono (fun _ S₀ S h => ?_)
    (runs_accountFine env own hbalance rfl nofun hid (.inr rfl) h)
  apply Proc.wp_bind
  refine Proc.wp_mono (fun _ S₀ S h => ?_) (runs_advanceHeadFine env _ _ h)
  apply Proc.wp_bind
  refine Proc.wp_mono (fun _ S₀ S h => ?_) (runs_updateOriginTrackingFine env x h)
  apply Proc.wp_bind
  refine Proc.wp_mono (fun _ S₀ S h => ?_)
    (runs_countEvent env own rfl rfl nofun hid (.inr rfl) h)
  apply Proc.wp_bind
  refine Proc.wp_mono (fun _ S₀ S h => ?_)
    (runs_update (fun _ => .of_eq rfl rfl rfl rfl rfl) hanything h)
  apply Proc.wp_bind
  refine Proc.wp_mono (fun _ S₀ S h => ?_)
    (runs_update (fun _ => .of_eq rfl rfl rfl rfl rfl) hanything h)
  exact runs_update (fun _ => .of_eq rfl rfl rfl rfl rfl) hanything h

lemma runs_emitHoldReleaseFine (winner loser : Event)
    (h : OnceAt env e start i own Anything S₀ S) :
    Runs env e start i (emitHoldReleaseFine env winner loser)
      (fun _ => OnceAt env e start i own Anything) S₀ S := by
  have hanything := undisturbed_anything e i
  unfold emitHoldReleaseFine
  split
  · apply Proc.wp_bind
    refine runs_read hanything h fun S₀ S h => ?_
    split
    · exact h
    · apply Proc.wp_bind
      refine Proc.wp_mono (fun r S₀ S h => ?_) (runs_allocate env loser.bucket hanything h)
      cases r with
      | error _ => exact h
      | ok id =>
          apply Proc.wp_bind
          refine Proc.wp_mono (fun now S₀ S h => ?_) (runs_nowMs env hanything h)
          apply Proc.wp_bind
          refine wp_step_readUpdate ((h.rests_step hanything).mono fun S₀ S h => ?_)
          exact runs_applyCorrectionEventFine env ⟨_, rfl⟩
            (h.calm (.of_eq rfl rfl rfl rfl rfl))
  · exact h

lemma runs_emitCorrectionsFine (winner loser : Event)
    (h : OnceAt env e start i own Anything S₀ S) :
    Runs env e start i (emitCorrectionsFine env winner loser)
      (fun _ => OnceAt env e start i own Anything) S₀ S := by
  have hanything := undisturbed_anything e i
  apply Proc.wp_bind
  refine runs_read hanything h fun S₀ S h => ?_
  split
  · exact h
  apply Proc.wp_bind
  refine Proc.wp_mono (fun r S₀ S h => ?_) (runs_storageCall env hanything h)
  split
  · exact h
  apply Proc.wp_bind
  refine Proc.wp_mono (fun r S₀ S h => ?_) (runs_allocate env loser.bucket hanything h)
  cases r with
  | error _ => exact h
  | ok id =>
      apply Proc.wp_bind
      refine Proc.wp_mono (fun now S₀ S h => ?_) (runs_nowMs env hanything h)
      apply Proc.wp_bind
      refine Proc.wp_bind (Proc.wp_suspend ((h.rests_step hanything).mono fun S₀ S h => ?_))
      rw [Proc.wp_readUpdate]
      apply Proc.wp_bind
      refine Proc.wp_mono (fun _ S₀ S h => runs_emitHoldReleaseFine env winner loser h)
        (runs_applyCorrectionEventFine env ⟨_, rfl⟩ (h.neutral env (.of_eq rfl rfl rfl rfl rfl)
          rfl rfl rfl rfl trivial))

lemma runs_checkIdempotencyConflictFine (x : Event)
    (h : OnceAt env e start i own Anything S₀ S) :
    Runs env e start i (checkIdempotencyConflictFine env x)
      (fun _ => OnceAt env e start i own Anything) S₀ S := by
  have hanything := undisturbed_anything e i
  apply Proc.wp_bind
  refine runs_read hanything h fun S₀ S h => ?_
  apply Proc.wp_bind
  refine Proc.wp_suspend ((h.rests_step hanything).mono fun S₀ S h => ?_)
  split
  · exact h.neutral env (.of_eq rfl rfl rfl rfl rfl) rfl rfl rfl rfl trivial
  · apply Proc.wp_bind
    exact runs_emitCorrectionsFine env _ _
      (h.neutral env (.of_eq rfl rfl rfl rfl rfl) rfl rfl rfl rfl trivial)

/-! ## Insertions -/

lemma calm_stripBucket {s : SharedState D} {target : String} (h : target ≠ e.bucket) :
    Calm e s (s.stripBucket target) := by
  have hkept : (e.bucket != target) = true := by simpa using Ne.symm h
  have hbuffer : (s.stripBucket target).eventBuffer e.originKey = s.eventBuffer e.originKey :=
    if_pos hkept
  have hheads : (s.stripBucket target).heads e.epochKey = s.heads e.epochKey := if_pos hkept
  have haccounts : (s.stripBucket target).accounts e.balanceKey = s.accounts e.balanceKey :=
    if_pos hkept
  refine ⟨fun hslot => .inl ?_, ?_, ?_, rfl, rfl⟩
  · rw [hbuffer]
    exact hslot
  · rw [SharedState.head, hheads, SharedState.head]
  · rw [SharedState.account, haccounts, SharedState.account]

/-- The calls of the run: the event itself and events that do not delete its bucket, among flushes,
marks of persistence and head advances of any kind. -/
def AmongInsertions (e : Event) : FineCall → Prop
  | .insert x => x = e ∨ x.metaTargetBucket ≠ some e.bucket
  | _ => True

/-- The cascade of an event does not reach another bucket, and a deletion does not delete the meta
bucket. -/
lemma only_cascadeOf {x : Event} (hx : x = e ∨ x.metaTargetBucket ≠ some e.bucket) :
    (cascadeOf env x).Only (Calm e) fun _ => True := by
  unfold cascadeOf
  split
  · rename_i target htarget
    split
    · rename_i hmeta
      have hne : target ≠ e.bucket := by
        rcases hx with rfl | hx
        · rintro rfl
          unfold Event.metaTargetBucket at htarget
          split at htarget
          · rename_i hdelete
            exact hmeta hdelete.2
          · cases htarget
        · rintro rfl
          exact hx htarget
      apply Proc.Only.bind (Proc.only_update fun _ => .of_eq rfl rfl rfl rfl rfl)
      intro _
      unfold applyBucketDeleteCascade
      split
      · trivial
      · apply Proc.Only.bind
        · exact only_storageCall env (calm_callStorage env) trivial fun _ => trivial
        · exact fun _ => Proc.only_update fun _ => calm_stripBucket hne
    · trivial
  · trivial

lemma runs_eventIsPresentFine (x : Event) (h : OnceAt env e start i own Anything S₀ S) :
    Runs env e start i (eventIsPresentFine x) (fun _ => OnceAt env e start i own Anything)
      S₀ S := by
  have hanything := undisturbed_anything e i
  apply Proc.wp_bind
  refine runs_read hanything h fun S₀ S h => ?_
  split
  · exact h
  · apply Proc.wp_bind
    refine runs_read hanything h fun S₀ S h => ?_
    split
    · exact h
    · exact runs_read hanything h fun S₀ S h => h

/-- A call that takes a vacant slot is the first: else the head would have passed the event. -/
lemma runs_claimSlot (x : Event) {Q : Bool → FineState D → FineState D → Prop}
    (h : OnceAt env e start i own Anything S₀ S)
    (hoccupied : ∀ S₀ S, OnceAt env e start i own Anything S₀ S → Q true S₀ S)
    (hclaimed : ∀ S₀ S, OnceAt env e start i (deedsOf e x [.claimed e]) Anything S₀ S →
      Q false S₀ S) :
    Runs env e start i (claimSlot x) Q S₀ S := by
  refine Proc.wp_bind (Proc.wp_suspend ((h.rests (undisturbed_anything e i)).mono
    fun S₀ S hs => ?_))
  obtain ⟨h, -, hbeyond, hresumed⟩ := hs
  rw [Proc.wp_readUpdate]
  cases hslot : S.node.eventBuffer x.originKey with
  | some occupant => exact hoccupied _ _ h
  | none =>
      refine hclaimed _ _ (h.claim hslot ?_)
      rw [hresumed] at hslot
      exact hresumed ▸ hbeyond hslot

/-- The part of an insertion after the slot has been taken. -/
lemma runs_insertEventFine (x : Event) (hx : x = e ∨ x.metaTargetBucket ≠ some e.bucket)
    (h : OnceAt env e start i [] Anything S₀ S) :
    Runs env e start i (insertEventFine env x)
      (fun _ S₀ S => ∃ own, OnceAt env e start i own Anything S₀ S) S₀ S := by
  have hanything := undisturbed_anything e i
  have hbalance : ∀ acc : AccountState,
      (if e.balanceKey = x.balanceKey then (acc.applyEvent x).balance else acc.balance) =
        acc.balance + (Deed.posted x).amountOn e.balanceKey := by
    intro acc
    change _ = acc.balance + if x.balanceKey = e.balanceKey then x.amount else 0
    by_cases hkey : e.balanceKey = x.balanceKey
    · rw [if_pos hkey, if_pos hkey.symm, AccountState.balance_applyEvent]
    · rw [if_neg hkey, if_neg (Ne.symm hkey), Int64.add_zero]
  unfold insertEventFine
  apply Proc.wp_bind
  refine runs_read hanything h fun S₀ S h => ?_
  split
  · exact ⟨[], h⟩
  apply Proc.wp_bind
  refine Proc.wp_mono (fun present S₀ S h => ?_) (runs_eventIsPresentFine env x h)
  split
  · exact ⟨[], h⟩
  apply Proc.wp_bind
  refine runs_claimSlot env x h (fun S₀ S h => ⟨[], h⟩) fun S₀ S h => ?_
  apply Proc.wp_bind
  refine Proc.wp_mono (fun _ S₀ S h => ?_) (runs_calm (only_cascadeOf env hx) hanything h)
  apply Proc.wp_bind
  refine Proc.wp_mono (fun _ S₀ S h => ?_)
    (runs_accountFine env (deedsOf e x [.claimed e, .posted e]) hbalance rfl ?_ trivial ?_ h)
  · apply Proc.wp_bind
    refine Proc.wp_mono (fun _ S₀ S h => ?_)
      (runs_update (fun _ => .of_eq rfl rfl rfl rfl rfl) hanything h)
    apply Proc.wp_bind
    refine Proc.wp_mono (fun _ S₀ S h => ?_) (runs_advanceHeadFine env _ _ h)
    apply Proc.wp_bind
    refine Proc.wp_mono (fun _ S₀ S h => ?_) (runs_updateOriginTrackingFine env x h)
    apply Proc.wp_bind
    refine Proc.wp_mono (fun _ S₀ S h => ?_)
      (runs_countEvent env (deedsOf e x [.claimed e, .posted e, .counted e]) rfl rfl ?_ trivial ?_
        h)
    · apply Proc.wp_bind
      refine Proc.wp_mono (fun _ S₀ S h => ?_)
        (runs_update (fun _ => .of_eq rfl rfl rfl rfl rfl) hanything h)
      apply Proc.wp_bind
      exact Proc.wp_mono (fun _ S₀ S h => ⟨_, h⟩) (runs_checkIdempotencyConflictFine env x h)
    · intro hd
      obtain rfl : x = e := of_decide_eq_true hd
      rw [deedsOf_self]
      exact ⟨List.cons_ne_nil _ _, .counted⟩
    · exact deedsOf_append [.claimed e, .posted e] .counted (Deed.about_counted e)
  · intro hd
    obtain rfl : x = e := of_decide_eq_true hd
    rw [deedsOf_self]
    exact ⟨List.cons_ne_nil _ _, .posted⟩
  · exact deedsOf_append [.claimed e] .posted (Deed.about_posted e)

end Programs

lemma once_startsKept (env : Env D) (e : Event) (start : SharedState D) :
    Pool.StartsKept (fineScheduler env (AmongInsertions e)) (onceContract env e start) StillBeyond
      fun _ _ _ => True where
  absent _ := .true _ _
  stable _ _ := .true _ _
  pause _ _ _ _ _ _ _ := trivial
  start := by
    rintro l t ⟨-, c, hc, rfl⟩ i S hinv - - -
    have hidle : OnceAt env e start i [] Anything S (S.resumed i) := by
      refine ⟨⟨hinv.trail, hinv.slot, hinv.balance, hinv.total, hinv.drawn⟩, ?_, rfl,
        fun hne => absurd rfl hne, trivial⟩
      exact ⟨fun _ _ _ _ _ => rfl, fun h => h, fun _ _ h => ⟨h, rfl⟩⟩
    have hdone : ∀ own (_ : Unit) S₀ S, OnceAt env e start i own Anything S₀ S →
        (onceContract env e start).inv S ∧ (onceContract env e start).guar i S₀ S ∧ True :=
      fun _ _ _ _ h => ⟨h.inv, h.guar, trivial⟩
    cases c with
    | insert x =>
        apply Proc.wp_bind
        refine Proc.wp_mono (fun _ S₀ S h => ?_) (runs_insertEventFine env x hc hidle)
        obtain ⟨own, h⟩ := h
        exact hdone own ⟨⟩ _ _ h
    | flush events => exact Proc.wp_mono (hdone []) (runs_doFlushFine env events hidle)
    | persist keys => exact Proc.wp_mono (hdone []) (runs_markPersistedFine env keys hidle)
    | advance key seq => exact Proc.wp_mono (hdone []) (runs_advanceHeadFine env key seq hidle)

/-! ## Exactly once -/

/-- What the calls have done, in order. -/
def FineState.deeds (S : FineState D) : List Deed := S.log.map Prod.snd

lemma FineState.count_deeds {e : Event} {d : Deed} (hd : d.about e = true) (S : FineState D) :
    S.deeds.count d = ((S.trail e).map Prod.snd).count d := by
  unfold deeds trail
  induction S.log with
  | nil => rfl
  | cons p log ih =>
      rw [List.map_cons, List.count_cons, ih, List.filter_cons]
      by_cases hp : p.2.about e = true
      · rw [if_pos hp, List.map_cons, List.count_cons]
      · have hne : p.2 ≠ d := by
          rintro rfl
          exact hp hd
        rw [if_neg hp, if_neg (by simpa using hne), Nat.add_zero]

lemma Trail.count_le {e : Event} {l : List (ℕ × Deed)} (h : Trail e l) :
    (l.map Prod.snd).count (.posted e) ≤ 1 ∧ (l.map Prod.snd).count (.counted e) ≤ 1 := by
  cases h <;> simp

/-- **Exactly-once application.**  However the map operations of the insertions of an event
interleave with each other and with flushes, marks of persistence and head advances: if every
vacant slot is taken for an event still beyond the head, then the insertions add the event's amount
to its account at most once and count it at most once; beyond what they add, account and count
change by the corrections that this node makes. -/
theorem applied_once {env : Env D} {e : Event} {start : SharedState D}
    {p : Pool (FineState D) FineWait Unit}
    (h : Pool.Reach (fineScheduler env (AmongInsertions e)) StillBeyond (.idle start) p) :
    p.shared.deeds.count (.posted e) ≤ 1 ∧ p.shared.deeds.count (.counted e) ≤ 1 ∧
    (p.shared.node.account e.balanceKey).balance =
      p.shared.deeds.foldl (fun b d => b + d.amountOn e.balanceKey)
        (start.account e.balanceKey).balance ∧
    p.shared.node.totalEventCount = start.totalEventCount + p.shared.deeds.countP Deed.counts ∧
    ∀ d ∈ p.shared.deeds, d.Drawn env := by
  have hstart : AppliedOnce env e start (.idle start) :=
    ⟨.fresh, fun hne => absurd rfl hne, rfl, rfl, fun _ hp => absurd hp List.not_mem_nil⟩
  have hsound := Pool.sound_of_reach (once_startsKept env e start) hstart (fun _ => trivial) h
  have hinv : AppliedOnce env e start p.shared := hsound.inv
  have hcount := hinv.trail.count_le
  refine ⟨?_, ?_, ?_, ?_, fun d hd => ?_⟩
  · rw [FineState.count_deeds (Deed.about_posted e)]
    exact hcount.1
  · rw [FineState.count_deeds (Deed.about_counted e)]
    exact hcount.2
  · rw [hinv.balance, FineState.deeds, List.foldl_map]
  · rw [hinv.total, FineState.deeds, List.countP_map]
    rfl
  · obtain ⟨p, hp, rfl⟩ := List.mem_map.1 hd
    exact hinv.drawn p hp

section Runs

/-- A deposit of ten at another node. -/
private def arriving : Event :=
  (LocalCreateInput.legacy "bucket" "alice" 10 none 0 "n1" false).chargeDraft.event "e1" "peer"
    (1, 1) 900

/-- It arrives twice, and is flushed in between. -/
private def arrivals : List FineCall := [.insert arriving, .insert arriving, .flush [arriving]]

private lemma amongInsertions_arrivals : ∀ c ∈ arrivals, AmongInsertions arriving c := by
  rintro c (- | ⟨-, - | ⟨-, - | ⟨-, ⟨⟩⟩⟩⟩)
  · exact .inl rfl
  · exact .inl rfl
  · trivial

/-- The second call begins when the first has accepted the event. -/
theorem applied_once_deposit :
    let p := playFine (Env.plain "node" 1000) (AmongInsertions arriving) StillBeyond
      (.blank .empty) arrivals ([0, 2, 1].flatMap fun i => List.replicate 60 i)
    (p.shared.node.account ("bucket", "alice")).balance = 10 ∧
      p.shared.node.eventBuffer arriving.originKey = none ∧
      p.shared.deeds.count (.posted arriving) ≤ 1 := by
  intro p
  have hbalance : (p.shared.node.account ("bucket", "alice")).balance = 10 := by decide +kernel
  have hpruned : p.shared.node.eventBuffer arriving.originKey = none := by decide +kernel
  have hreach : Pool.Reach (fineScheduler (Env.plain "node" 1000) (AmongInsertions arriving))
      StillBeyond (.idle (.blank .empty)) p := reach_playFine _ amongInsertions_arrivals
  exact ⟨hbalance, hpruned, (applied_once hreach).1⟩

/-- The first call has found the event absent and is about to take its slot; the second accepts it,
and the flush empties the slot again. -/
theorem applied_twice_pruned :
    let p := playFine (Env.plain "node" 1000) (AmongInsertions arriving) (fun _ _ => True)
      (.blank .empty) arrivals
      (List.replicate 5 0 ++ [1, 2, 0].flatMap fun i => List.replicate 60 i)
    Pool.Reach (fineScheduler (Env.plain "node" 1000) (AmongInsertions arriving)) (fun _ _ => True)
        (.idle (.blank .empty)) p ∧
      p.shared.deeds.count (.posted arriving) = 2 ∧
      p.shared.deeds.count (.counted arriving) = 2 ∧
      (p.shared.node.account ("bucket", "alice")).balance = 20 ∧
      p.shared.node.totalEventCount = 2 := by
  intro p
  refine ⟨reach_playFine _ amongInsertions_arrivals, ?_, ?_, ?_, ?_⟩ <;> decide +kernel

end Runs

end Shardd
