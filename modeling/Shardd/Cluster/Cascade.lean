import Shardd.Cluster.Effects

/-!
# Corrections that cross

When two nodes hear of each other's event of a key, both void the same one, and both voids are
filed under one key again.  If the voids cross as well, they are two events of one key that have
lost and won in their turn, and nothing ends this: from two events that cross, a run in which no
further request is made builds as many voids as one likes.
-/

namespace Shardd

variable {ν D : Type}

/-! ## One conflict -/

section Conflicts

variable {env : Env D} {winner loser e b : Event} {s s' : SharedState D}

lemma SharedState.deletedBuckets_mintCorrection (s : SharedState D) (d : EventDraft) :
    (s.mintCorrection env d).deletedBuckets = s.deletedBuckets := by
  unfold SharedState.mintCorrection
  dsimp only
  rw [corrected_frame]
  rfl

lemma Prepared.deletedBuckets {bucket : String} {r : Option (Except StorageError Unit)}
    (h : Prepared env bucket s r s') : s'.deletedBuckets = s.deletedBuckets := by
  rw [h.frame]

lemma Corrected.deletedBuckets {r : Option Unit} (hc : Corrected env winner loser s r s') :
    s'.deletedBuckets = s.deletedBuckets := by
  cases hc with
  | known _ => rfl
  | stored _ _ => rfl
  | unallocated _ _ hp _ => exact hp.deletedBuckets
  | @voided s₁ _ _ _ _ hp hreleased =>
      have hvoided : (s₁.mintCorrection env (voidDraft winner loser)).deletedBuckets =
          s.deletedBuckets := (s₁.deletedBuckets_mintCorrection _).trans hp.deletedBuckets
      cases hreleased with
      | noHold _ => exact hvoided
      | known _ _ => exact hvoided
      | unallocated _ _ hp' _ => exact hp'.deletedBuckets.trans hvoided
      | @released s₃ _ _ hp' =>
          exact (s₃.deletedBuckets_mintCorrection _).trans (hp'.deletedBuckets.trans hvoided)

/-- On a node whose storage does not fail, the corrections of a conflict run to their end. -/
lemma Corrected.eq_some (hsettled : s.Settled) (hok : ∀ i, env.storageOutcome i = .ok)
    {r : Option Unit} (hc : Corrected env winner loser s r s') : r = some () := by
  have hasked : s.asked.Settled := hsettled.congr rfl
  cases hc with
  | known _ => rfl
  | stored _ _ => rfl
  | unallocated _ _ hp hne => exact absurd (hasked.eq_ok hok hp) hne
  | voided _ _ hp hreleased =>
      have hvoided := (hasked.prepared hp).mintCorrection env (voidDraft winner loser)
      cases hreleased with
      | noHold _ => rfl
      | known _ _ => rfl
      | unallocated _ _ hp' hne => exact absurd (hvoided.eq_ok hok hp') hne
      | released _ _ _ => rfl

/-- A replicated event that is admitted and meets another one of its key is corrected. -/
lemma Inserted.corrects (hsettled : s.Settled) (hok : ∀ i, env.storageOutcome i = .ok)
    (hstored : ∀ e ∈ s.storage.events, s.idempotencyCache e.idempotencyKey ≠ none)
    (hadmits : s.Admits e) (hconflict : s.conflicting e = some b) {r : Option Bool}
    (hi : Inserted env e s r s') :
    r = some true ∧ s'.deletedBuckets = s.deletedBuckets ∧ ∃ t new, t.minted = s.minted ∧
      t.batchQueue = s.batchQueue ++ [e] ∧ t.idempotencyCache =
        s.idempotencyCache.insert e.idempotencyKey (idempotencyWinner b e).1 ∧
      Adds t s' new ∧
      Corrections env (idempotencyWinner b e).1 (idempotencyWinner b e).2 t new := by
  have hframe := SharedState.accepted_frame env s e
  have hsettled' : (s.accepted env e).Settled := by
    apply hsettled.congr
    rw [hframe]
  cases hi with
  | deleted hdeleted =>
      rw [hadmits.deleted] at hdeleted
      cases hdeleted
  | present _ hpresent =>
      rw [hadmits.present] at hpresent
      cases hpresent
  | occupied _ _ hbuffer => exact absurd hadmits.buffer hbuffer
  | filed _ _ _ hnone =>
      rw [hnone] at hconflict
      cases hconflict
  | @conflict b' r' _ _ _ _ hconflict' hcorrected =>
      obtain rfl : b = b' := Option.some.inj (hconflict.symm.trans hconflict')
      set t := (s.accepted env e).remember e.idempotencyKey (idempotencyWinner b e).1 with ht
      have hcache : t.idempotencyCache =
          s.idempotencyCache.insert e.idempotencyKey (idempotencyWinner b e).1 := by
        change (s.accepted env e).idempotencyCache.insert _ _ = _
        rw [hframe]
      have hevents : t.storage.events = s.storage.events := by
        change (s.accepted env e).storage.events = _
        rw [hframe]
      have hdeleted : t.deletedBuckets = s.deletedBuckets := by
        change (s.accepted env e).deletedBuckets = _
        rw [hframe]
      have hminted : t.minted = s.minted := by
        change (s.accepted env e).minted = _
        rw [hframe]
      have hqueue : t.batchQueue = s.batchQueue ++ [e] := by
        change (s.accepted env e).batchQueue = _
        rw [hframe]
      obtain rfl := Corrected.eq_some (s := t) hsettled' hok hcorrected
      obtain ⟨new, hadds, hcorrections, -, -⟩ :=
        Corrected.adds (s := t) hsettled' hok (fun x hx => by
          rw [hcache]
          exact Contest.Files.insert_ne_none (c := idempotency) _ (hstored x (hevents ▸ hx)))
          hcorrected
      exact ⟨rfl, hcorrected.deletedBuckets.trans hdeleted, t, new, hminted, hqueue, hcache, hadds,
        hcorrections⟩

/-- What corrects a conflict whose loser has not been voided. -/
lemma Corrections.void_first {new : List Event} (h : Corrections env winner loser s new)
    (hunknown : ¬ s.Knows (voidIdemKey loser)) :
    ∃ v rest, new = v :: rest ∧ (voidDraft winner loser).Makes env v ∧
      ∀ x ∈ rest, (holdReleaseDraft winner loser).Makes env x := by
  cases h with
  | known hknown => exact absurd hknown hunknown
  | @void v _ hmakes _ => exact ⟨v, [], rfl, hmakes, List.forall_mem_nil _⟩
  | @release v r _ hmakes _ _ hmakes' =>
      refine ⟨v, [r], rfl, hmakes, fun x hx => ?_⟩
      rw [List.mem_singleton.1 hx]
      exact hmakes'

end Conflicts

/-! ## Two events that cross -/

/-- Node `n` has filed `a`, and another event of its key is on its way. -/
structure Cluster.Awaits (C : Cluster ν D) (n : ν) (a b : Event) : Prop where
  up : 1 ≤ C.lives n
  filed : (C.node n).idempotencyCache b.idempotencyKey = some a
  distinct : a.eventId ≠ b.eventId
  sent : b ∈ C.sent
  away : b ∉ C.accepted n
  undeleted : (C.node n).deletedBuckets.containsKey b.bucket = false

/-- Two nodes have filed an event each under one key, and neither event has been voided. -/
structure Cluster.Crossing (C : Cluster ν D) (n m : ν) (a b : Event) : Prop where
  ne : n ≠ m
  key : a.idempotencyKey = b.idempotencyKey
  left : C.Awaits n a b
  right : C.Awaits m b a
  unvoided : ∀ x ∈ C.built, x.idempotencyKey ≠ voidIdemKey a ∧ x.idempotencyKey ≠ voidIdemKey b

/-- Node `n` has got `b`, and has voided `l` with `v`. -/
structure Cluster.Voided (C : Cluster ν D) (n : ν) (b l v : Event) (rest : List Event)
    (C' : Cluster ν D) : Prop where
  type : v.type = .void
  key : v.idempotencyKey = voidIdemKey l
  built : C'.built = C.built ++ v :: rest
  accepted : C'.accepted n = C.accepted n ++ b :: v :: rest
  released : ∀ x ∈ rest, x.type ≠ .void ∧ x.idempotencyKey = releaseIdemKey l
  filed : (C'.node n).idempotencyCache v.idempotencyKey = some v
  sent : v ∈ C'.sent
  deletedBuckets : (C'.node n).deletedBuckets = (C.node n).deletedBuckets

/-- How many voids have been built. -/
def Cluster.voids (C : Cluster ν D) : ℕ := C.built.countP fun e => e.type = .void

section Crossing

variable {W : World ν D} {R : LocalCreateInput → Prop} {C C' : Cluster ν D}
  {n m : ν} {a b l v : Event} {rest : List Event}

lemma Cluster.Contested.not_knows (h : C.Contested W R) (hsound : C.Sound W) {key : IdemKey}
    (hnone : ∀ x ∈ C.built, x.idempotencyKey ≠ key) (n : ν) : ¬ (C.node n).Knows key := by
  intro hknows
  obtain ⟨x, hx⟩ := Option.ne_none_iff_exists'.1 hknows
  obtain ⟨hmem, hkey⟩ := (h.files n).of_cache hx
  exact hnone x (hsound.sent x (hsound.queued n x hmem)) hkey

/-- What has not been built has not been voided. -/
lemma Cluster.Contested.unvoided (h : C.Contested W R)
    (hsep : Separate (fun n => W.env n 1) R) (hid : ∃ n k, v.eventId = (W.env n 1).freshId k)
    (hnew : ∀ x ∈ C.built, x.eventId ≠ v.eventId) :
    ∀ x ∈ C.built, x.idempotencyKey ≠ voidIdemKey v := by
  intro x hx hkey
  obtain ⟨-, hv, -⟩ := (h.cause x hx).of_void hsep hid (fun y hy heq => absurd heq (hnew y hy)) hkey
  exact hnew v hv rfl

lemma Cluster.Sound.accepted_built (h : C.Sound W) (hup : 1 ≤ C.lives n) {e : Event}
    (he : e ∈ C.accepted n) : e ∈ C.built := by
  obtain ⟨lost, hkept⟩ := h.kept n hup
  exact hkept.books.known e (List.mem_append_left _ he)

/-- A node has accepted what it has filed. -/
lemma Cluster.Awaits.pos (h : C.Awaits n a b) (hsound : C.Sound W)
    (hcontested : C.Contested W R) : 1 ≤ a.originSeq := by
  have hmem : a ∈ C.accepted n :=
    List.mem_append_right _ ((hcontested.files n).of_cache h.filed).1
  obtain ⟨lost, hkept⟩ := hsound.kept n h.up
  exact hkept.books.log.pos a (List.mem_toFinset.2 hmem)

namespace Cluster.Voided

/-- What has just been built has ids of its own. -/
lemma fresh (h : C.Voided n b l v rest C') (hsound' : C'.Sound W) :
    ∀ x ∈ C.built, ∀ y ∈ v :: rest, x.eventId ≠ y.eventId := by
  have hids := hsound'.ids
  rw [h.built, List.map_append, List.nodup_append] at hids
  exact fun x hx y hy => hids.2.2 _ (List.mem_map_of_mem hx) _ (List.mem_map_of_mem hy)

lemma mem_built (h : C.Voided n b l v rest C') : v ∈ C'.built := by
  rw [h.built]
  exact List.mem_append_right _ List.mem_cons_self

lemma bucket (h : C.Voided n b l v rest C') : v.bucket = l.bucket :=
  congrArg (fun k : IdemKey => k.2.1) h.key

lemma voids (h : C.Voided n b l v rest C') : C'.voids = C.voids + 1 := by
  have hzero : (rest.countP fun e => e.type = .void) = 0 :=
    List.countP_eq_zero.2 fun x hx => by simpa using (h.released x hx).1
  rw [Cluster.voids, h.built, List.countP_append, List.countP_cons_of_pos (by simp [h.type]), hzero]
  rfl

/-- Voiding one event does not void another one. -/
lemma unvoided (h : C.Voided n b l v rest C') {e : Event} (hne : l.eventId ≠ e.eventId)
    (hnone : ∀ x ∈ C.built, x.idempotencyKey ≠ voidIdemKey e) :
    ∀ x ∈ C'.built, x.idempotencyKey ≠ voidIdemKey e := by
  rw [h.built]
  intro x hx
  rcases List.mem_append.1 hx with hx | hx
  · exact hnone x hx
  rcases List.mem_cons.1 hx with rfl | hx
  · rw [h.key]
    exact fun heq => hne (voidIdemKey_inj heq)
  · rw [(h.released x hx).2]
    exact releaseIdemKey_ne_voidIdemKey _ _

end Cluster.Voided

namespace Cluster.Crossing

/-- Both nodes void the same event. -/
lemma loser (hx : C.Crossing n m a b) : ∃ l, (idempotencyWinner a b).2 = l ∧
    (idempotencyWinner b a).2 = l ∧ (l = a ∨ l = b) := by
  rcases Event.beats_total hx.left.distinct with hbeats | hbeats
  · exact ⟨b, by rw [idempotencyWinner_of_beats hbeats],
      by rw [idempotencyWinner_of_beaten hbeats], .inr rfl⟩
  · exact ⟨a, by rw [idempotencyWinner_of_beaten hbeats],
      by rw [idempotencyWinner_of_beats hbeats], .inl rfl⟩

lemma bucket (hx : C.Crossing n m a b) : a.bucket = b.bucket :=
  congrArg (fun k : IdemKey => k.2.1) hx.key

lemma not_atRest (hx : C.Crossing n m a b) (hsound : C.Sound W) : ¬ C.AtRest :=
  fun hrest => hx.left.away (hrest n hx.left.up b (hsound.sent b hx.left.sent))

end Cluster.Crossing

variable [DecidableEq ν]

lemma Cluster.accepted_operate_of_ne (hne : n ≠ m) (op : NodeOp) :
    (C.operate W m op).accepted n = C.accepted n := by
  have hnode : (C.operate W m op).node n = C.node n := Cluster.node_operated_of_ne hne
  rw [Cluster.accepted, hnode]
  rfl

/-- What another node does takes nothing from what a node waits for. -/
lemma Cluster.Awaits.operate (h : C.Awaits n a b) (hne : n ≠ m) (op : NodeOp) :
    (C.operate W m op).Awaits n a b := by
  have hnode : (C.operate W m op).node n = C.node n := Cluster.node_operated_of_ne hne
  have haccepted := Cluster.accepted_operate_of_ne (W := W) (C := C) hne op
  refine ⟨h.up, ?_, h.distinct, List.mem_append_left _ h.sent, ?_, ?_⟩
  · rw [hnode]
    exact h.filed
  · rw [haccepted]
    exact h.away
  · rw [hnode]
    exact h.undeleted

/-- The step lemma for one node: the event on its way arrives, and the loser is voided. -/
lemma Cluster.Awaits.arrives (h : C.Awaits n a b) (ho : W.Orderly R) (hrun : Cluster.Run W R C)
    (hlives : ∀ n, C.lives n ≤ 1) (hpos : 1 ≤ b.originSeq)
    (hl : (idempotencyWinner a b).2 = l) (hkey : b.idempotencyKey ≠ voidIdemKey l)
    (hnone : ¬ (C.node n).Knows (voidIdemKey l)) :
    (NodeM.exec ((NodeOp.insert b).program (C.env W n)) (C.node n)).1 = some () ∧
      ∃ v rest, C.Voided n b l v rest (C.operate W n (.insert b)) := by
  have hsound := Cluster.Sound.of_run hrun
  have hcontested := Cluster.Contested.of_run ho hrun hlives
  have henv : C.env W n = W.env n 1 := by rw [Cluster.env, le_antisymm (hlives n) h.up]
  have hok : ∀ i, (C.env W n).storageOutcome i = .ok := by
    rw [henv]
    exact ho.reliable n
  have hbuilt := hsound.sent b h.sent
  obtain ⟨lost, hkept⟩ := hsound.kept n h.up
  -- the node takes the event for new
  obtain ⟨hbuffer, hpresent⟩ := hkept.books.log.not_isPresent hpos fun e' he' hkey => by
    have hmem := List.mem_toFinset.1 he'
    have heq := hsound.identified.originKey e' (hsound.accepted_built h.up hmem) b hbuilt hkey
    exact h.away (heq ▸ hmem)
  have hconflict : (C.node n).conflicting b = some a :=
    Option.filter_eq_some_iff.2 ⟨h.filed, decide_eq_true h.distinct⟩
  obtain ⟨r, s', hinserted, hexec⟩ := exec_insertEvent (C.env W n) b
    (Event.metaTargetBucket_eq_none (hsound.type b hbuilt)) hkept.unlocked
  obtain ⟨rfl, hdeleted, t, new, hminted, hqueue, hcache, hadds, hcorrections⟩ :=
    hinserted.corrects (hcontested.settled n) hok (hcontested.stored hsound h.up)
      ⟨h.undeleted, hpresent, hbuffer⟩ hconflict
  rw [hl] at hcorrections
  have hprogram : NodeM.exec ((NodeOp.insert b).program (C.env W n)) (C.node n) =
      (some (), s') := by
    simp only [NodeOp.program, NodeM.exec, Proc.exec_bind] at hexec ⊢
    rw [hexec]
    rfl
  have hunknown : ¬ t.Knows (voidIdemKey l) := by
    rw [SharedState.Knows, hcache, Map.insert_of_ne _ _ _ hkey.symm]
    exact hnone
  obtain ⟨v, rest, rfl, hmakes, hrest⟩ := hcorrections.void_first hunknown
  have hreleaseKey : ∀ x ∈ rest, x.idempotencyKey = releaseIdemKey l := fun x hx => (hrest x hx).key
  have hfiled : s'.idempotencyCache v.idempotencyKey = some v := by
    rw [hadds.cache]
    change fileAll (t.idempotencyCache.insert v.idempotencyKey v) rest v.idempotencyKey = some v
    rw [fileAll_of_ne, Map.insert_self]
    intro x hx
    rw [hreleaseKey x hx, hmakes.key]
    exact releaseIdemKey_ne_voidIdemKey l l
  have hnode : (C.operate W n (.insert b)).node n = s' := by
    rw [Cluster.operate, hprogram, Cluster.node_operated]
  refine ⟨by rw [hprogram], v, rest, ?_⟩
  constructor
  · obtain ⟨_, _, _, rfl⟩ := hmakes
    rfl
  · exact hmakes.key
  · rw [Cluster.operate, hprogram]
    change C.built ++ s'.minted.drop (C.node n).minted.length = _
    rw [hadds.minted, hminted, List.drop_left]
  · change SharedState.acceptedSince (C.base n) ((C.operate W n (.insert b)).node n) = _
    rw [hnode, SharedState.acceptedSince, hadds.queue, hqueue, Cluster.accepted,
      SharedState.acceptedSince, List.append_assoc, List.append_assoc]
    rfl
  · intro x hx
    refine ⟨?_, hreleaseKey x hx⟩
    intro htype
    obtain ⟨_, _, _, rfl⟩ := hrest x hx
    cases htype
  · rw [hnode]
    exact hfiled
  · rw [Cluster.operate, hprogram]
    refine List.mem_append_right _ ?_
    rw [hadds.queue]
    exact List.mem_append_right _ List.mem_cons_self
  · rw [hnode]
    exact hdeleted

/-- The step lemma: both events arrive, and the two voids of the loser cross in their turn. -/
lemma Cluster.Crossing.step (hx : C.Crossing n m a b) (ho : W.Orderly R) (hrun : Cluster.Run W R C)
    (hlives : ∀ n, C.lives n ≤ 1) :
    let ops : List (ν × NodeOp) := [(n, .insert b), (m, .insert a)]
    C.Plays W R ops ∧ (C.play W ops).voids = C.voids + 2 ∧
      ∃ v v', (C.play W ops).Crossing n m v v' := by
  have hsound := Cluster.Sound.of_run hrun
  have hcontested := Cluster.Contested.of_run ho hrun hlives
  have hsep := ho.separate
  have ha := hsound.sent a hx.right.sent
  have hb := hsound.sent b hx.left.sent
  obtain ⟨l, hl, hl', hcases⟩ := hx.loser
  have hlbuilt : l ∈ C.built := by rcases hcases with rfl | rfl <;> assumption
  have hbucket : l.bucket = b.bucket := by
    rcases hcases with rfl | rfl
    · exact hx.bucket
    · rfl
  have hnone : ∀ x ∈ C.built, x.idempotencyKey ≠ voidIdemKey l := by
    rcases hcases with rfl | rfl
    · exact fun x hmem => (hx.unvoided x hmem).1
    · exact fun x hmem => (hx.unvoided x hmem).2
  -- the first node
  obtain ⟨hfst, v, rest, hv⟩ := hx.left.arrives ho hrun hlives
    (hx.right.pos hsound hcontested) hl (hnone b hb) (hcontested.not_knows hsound hnone n)
  have hrun₁ := hrun.operate n (.insert b) hx.left.up hx.left.sent hfst
  have hright := hx.right.operate (W := W) hx.ne.symm (.insert b)
  have hnode₁ : (C.operate W n (.insert b)).node m = C.node m :=
    Cluster.node_operated_of_ne hx.ne.symm
  have haccepted₁ := Cluster.accepted_operate_of_ne (W := W) (C := C) hx.ne.symm (.insert b)
  set C₁ := C.operate W n (.insert b)
  have hsound₁ := Cluster.Sound.of_run hrun₁
  have hcontested₁ := Cluster.Contested.of_run ho hrun₁ hlives
  -- the second node, which has not heard of the void of the first
  obtain ⟨hfst', v', rest', hv'⟩ := hright.arrives ho hrun₁ hlives
    (hx.left.pos hsound hcontested) hl' (hnone a ha) (by
      rw [hnode₁]
      exact hcontested.not_knows hsound hnone m)
  have hrun₂ := hrun₁.operate m (.insert a) hright.up hright.sent hfst'
  have hnode₂ : (C₁.operate W m (.insert a)).node n = C₁.node n :=
    Cluster.node_operated_of_ne hx.ne
  have haccepted₂ := Cluster.accepted_operate_of_ne (W := W) (C := C₁) hx.ne (.insert a)
  set C₂ := C₁.operate W m (.insert a)
  have hsound₂ := Cluster.Sound.of_run hrun₂
  have hfresh := hv.fresh hsound₁
  have hfresh' := hv'.fresh hsound₂
  have hkey : v.idempotencyKey = v'.idempotencyKey := hv.key.trans hv'.key.symm
  have hdistinct : v.eventId ≠ v'.eventId := hfresh' v hv.mem_built v' List.mem_cons_self
  have hleft₂ : C₂.Awaits n v v' := by
    refine ⟨hx.left.up, ?_, hdistinct, hv'.sent, fun hmem => ?_, ?_⟩
    · rw [hnode₂, ← hkey]
      exact hv.filed
    · rw [haccepted₂] at hmem
      exact hfresh' v' (hsound₁.accepted_built hx.left.up hmem) v' List.mem_cons_self rfl
    · rw [hnode₂, hv.deletedBuckets, hv'.bucket, hbucket]
      exact hx.left.undeleted
  have hright₂ : C₂.Awaits m v' v := by
    refine ⟨hx.right.up, ?_, hdistinct.symm, List.mem_append_left _ hv.sent, fun hmem => ?_, ?_⟩
    · rw [hkey]
      exact hv'.filed
    · rw [hv'.accepted, haccepted₁] at hmem
      rcases List.mem_append.1 hmem with hmem | hmem
      · exact hfresh v (hsound.accepted_built hx.right.up hmem) v List.mem_cons_self rfl
      rcases List.mem_cons.1 hmem with rfl | hmem
      · exact hfresh v ha v List.mem_cons_self rfl
      · exact hfresh' v hv.mem_built v hmem rfl
    · rw [hv'.deletedBuckets, hnode₁, hv.bucket, hbucket, ← hx.bucket]
      exact hx.right.undeleted
  have hlbuilt₁ : l ∈ C₁.built := by
    rw [hv.built]
    exact List.mem_append_left _ hlbuilt
  have hunvoided : ∀ x ∈ C₂.built, x.idempotencyKey ≠ voidIdemKey v := by
    have hne := hfresh l hlbuilt v List.mem_cons_self
    have hid := Cluster.Contested.freshId hsound₁ hlives v hv.mem_built
    exact hv'.unvoided hne (hv.unvoided hne (hcontested.unvoided hsep hid fun y hy =>
      hfresh y hy v List.mem_cons_self))
  have hunvoided' : ∀ x ∈ C₂.built, x.idempotencyKey ≠ voidIdemKey v' := by
    have hne := hfresh' l hlbuilt₁ v' List.mem_cons_self
    have hid := Cluster.Contested.freshId hsound₂ hlives v' hv'.mem_built
    exact hv'.unvoided hne (hcontested₁.unvoided hsep hid fun y hy =>
      hfresh' y hy v' List.mem_cons_self)
  refine ⟨⟨⟨hx.left.up, hx.left.sent, hfst⟩, ⟨hright.up, hright.sent, hfst'⟩, trivial⟩,
    hv'.voids.trans (by rw [hv.voids]), v, v', hx.ne, hkey, hleft₂, hright₂, fun x hmem => ?_⟩
  exact ⟨hunvoided x hmem, hunvoided' x hmem⟩

/-- The run lemma. -/
lemma Cluster.Crossing.run (hx : C.Crossing n m a b) (ho : W.Orderly R) (hrun : Cluster.Run W R C)
    (hlives : ∀ n, C.lives n ≤ 1) (k : ℕ) :
    ∃ ops : List (ν × NodeOp), ops.length = 2 * k ∧ (∀ op ∈ ops, ∃ e, op.2 = .insert e) ∧
      C.Plays W R ops ∧ (C.play W ops).voids = C.voids + 2 * k ∧
      ∃ v v', (C.play W ops).Crossing n m v v' := by
  induction k generalizing C a b with
  | zero => exact ⟨[], rfl, List.forall_mem_nil _, trivial, rfl, a, b, hx⟩
  | succ k ih =>
      obtain ⟨hplays, hvoids, v, v', hx'⟩ := hx.step ho hrun hlives
      obtain ⟨ops, hlength, hinserts, hplays', hvoids', hcrossing⟩ :=
        ih hx' (hrun.play hplays) hlives
      refine ⟨(n, .insert b) :: (m, .insert a) :: ops, ?_, ?_, ⟨hplays.1, hplays.2.1, hplays'⟩,
        ?_, hcrossing⟩
      · rw [List.length_cons, List.length_cons, hlength]
        omega
      · intro op hop
        rcases List.mem_cons.1 hop with rfl | hop
        · exact ⟨b, rfl⟩
        rcases List.mem_cons.1 hop with rfl | hop
        · exact ⟨a, rfl⟩
        · exact hinserts op hop
      · exact hvoids'.trans (by rw [hvoids]; omega)

end Crossing

/-- **Corrections that cross.**  From two events that cross, the deliveries alone can build any
number of voids, and never bring the cluster to rest. -/
theorem corrections_of_cluster [DecidableEq ν] {W : World ν D} {R : LocalCreateInput → Prop}
    {C : Cluster ν D} (ho : W.Orderly R) (h : Cluster.Run W R C) (hlives : ∀ n, C.lives n ≤ 1)
    {n m : ν} {a b : Event} (hx : C.Crossing n m a b) (k : ℕ) :
    ∃ ops : List (ν × NodeOp), ops.length = 2 * k ∧ (∀ op ∈ ops, ∃ e, op.2 = .insert e) ∧
      C.Plays W R ops ∧ (C.play W ops).voids = C.voids + 2 * k ∧ ¬ (C.play W ops).AtRest := by
  obtain ⟨ops, hlength, hinserts, hplays, hvoids, v, v', hx'⟩ := hx.run ho h hlives k
  exact ⟨ops, hlength, hinserts, hplays, hvoids, hx'.not_atRest (.of_run (h.play hplays))⟩

private def sentTwice : LocalCreateInput := .legacy "bucket" "alice" 5 none 0 "n1" false

private abbrev crossed : Cluster Bool Unit := submittedTwice [sentTwice]

/-- What a node has built for it. -/
private def depositOf (n : Bool) : Event :=
  sentTwice.chargeDraft.event ((World.pair.env n 1).freshId 0) (World.pair.nodeId n) (1, 1) 1000

private lemma run_crossed : Cluster.Run World.pair (· ∈ [sentTwice]) crossed :=
  run_started.play (by decide +kernel)

private lemma crossing_crossed :
    crossed.Crossing false true (depositOf false) (depositOf true) ∧ crossed.voids = 0 ∧
      ∀ n, crossed.lives n = 1 := by
  have hlives : ∀ n, crossed.lives n = 1 := by decide +kernel
  have hfiled : ∀ n, (crossed.node n).idempotencyCache (depositOf !n).idempotencyKey =
      some (depositOf n) := by decide +kernel
  have hdistinct : ∀ n, (depositOf n).eventId ≠ (depositOf !n).eventId := by decide +kernel
  have haway : ∀ n, (depositOf !n) ∈ crossed.sent ∧ (depositOf !n) ∉ crossed.accepted n := by
    decide +kernel
  have hundeleted : ∀ n, (crossed.node n).deletedBuckets.containsKey (depositOf !n).bucket =
      false := by decide +kernel
  have hawaits : ∀ n, crossed.Awaits n (depositOf n) (depositOf !n) := fun n =>
    ⟨(hlives n).ge, hfiled n, hdistinct n, (haway n).1, (haway n).2, hundeleted n⟩
  refine ⟨⟨by decide, rfl, hawaits false, hawaits true, ?_⟩, by decide +kernel, hlives⟩
  decide +kernel

/-- A deposit that has been sent to both nodes can cost two hundred voids. -/
theorem corrections_of_cluster_twice :
    ∃ ops : List (Bool × NodeOp), ops.length = 200 ∧
      crossed.Plays World.pair (· ∈ [sentTwice]) ops ∧
      (crossed.play World.pair ops).voids = 200 := by
  obtain ⟨hcrossing, hzero, hlives⟩ := crossing_crossed
  obtain ⟨ops, hlength, -, hplays, hvoids, -⟩ := corrections_of_cluster
    (World.orderly_pair (by decide) (by decide) (by decide) (by decide) (by decide))
    run_crossed (fun n => (hlives n).le) hcrossing 100
  exact ⟨ops, hlength, hplays, hvoids.trans (by rw [hzero])⟩

end Shardd
