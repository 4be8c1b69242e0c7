import Shardd.Cluster.Filing
import Shardd.Cluster.Ledgers

/-!
# Winners of a cluster

In a run in which no node restarts and no storage call fails, every node keeps its files: the cache
names the best event it has compared under a key, and whatever has lost is voided.
`Cluster.Contested` says so, and says what every event has been built for: an event is emitted by a
request, or it corrects an event that another one of its key beats.
-/

namespace Shardd

variable {ν D : Type}

/-- The requests keep the namespaces of nonces separate, no amount is without its opposite, and
storage never fails. -/
structure World.Orderly (W : World ν D) (R : LocalCreateInput → Prop) : Prop where
  separate : Separate (fun n => W.env n 1) R
  representable : ∀ input, R input → input.amount ≠ Int64.minValue
  reliable : ∀ n i, (W.env n 1).storageOutcome i = .ok

/-- The events of a request have keys of its operation. -/
lemma World.operationKey (W : World ν D) {R : LocalCreateInput → Prop} {n : ν}
    {input : LocalCreateInput} {checkedAt : ℕ} {mode : LocalCreateMode} {d : EventDraft}
    (hR : R input) (hmode : LocalCreateMode.fromInput input checkedAt = .ok mode)
    (hd : mode.Emits (W.env n 1).hold input d) :
    OperationKey (fun n => W.env n 1) R input.idempotencyKey d.idempotencyKey :=
  LocalCreateMode.Emits.operationKey hR hmode hd

/-- What an event has been built for. -/
inductive Cause (W : World ν D) (R : LocalCreateInput → Prop) (built : List Event) (e : Event) :
    Prop
  /-- Its node has built the primary event `p` of the same request, and the credit of a transfer. -/
  | request {n : ν} {input : LocalCreateInput} {checkedAt : ℕ} {mode : LocalCreateMode}
      {d : EventDraft} {p : Event} :
      R input → LocalCreateMode.fromInput input checkedAt = .ok mode →
      mode.Emits (W.env n 1).hold input d → d.Makes (W.env n 1) e → p ∈ built →
      p.originNodeId = e.originNodeId → p.idempotencyKey = input.idempotencyKey →
      (∀ toAddr creditAmount, input.Pays toAddr → checkedAbs input.amount = some creditAmount →
        ∃ c ∈ built, c.idempotencyKey = (input.creditDraft toAddr creditAmount).idempotencyKey) →
      Cause W R built e
  | void {n : ν} {w l : Event} : w ∈ built → l ∈ built → w.idempotencyKey = l.idempotencyKey →
      w.beats l → (voidDraft w l).Makes (W.env n 1) e → Cause W R built e
  | release {n : ν} {w l : Event} : w ∈ built → l ∈ built → w.idempotencyKey = l.idempotencyKey →
      w.beats l → (holdReleaseDraft w l).Makes (W.env n 1) e → Cause W R built e

structure Cluster.Contested (W : World ν D) (R : LocalCreateInput → Prop) (C : Cluster ν D) :
    Prop where
  idle : ∀ n, C.lives n = 0 → C.node n = .blank .empty
  base : ∀ n, C.base n = []
  settled : ∀ n, (C.node n).Settled
  own : ∀ e ∈ C.built, ∃ n, e.originNodeId = W.nodeId n ∧ e ∈ (C.node n).batchQueue
  /-- A node builds one event for a key. -/
  one : ∀ e ∈ C.built, ∀ e' ∈ C.built, e.originNodeId = e'.originNodeId →
    e.idempotencyKey = e'.idempotencyKey → e = e'
  files : ∀ n, idempotency.Files (fun e => e.originNodeId = W.nodeId n)
    (fun a b => [a, b].Sublist C.built) (fun _ => False) (C.node n).batchQueue
    (C.node n).idempotencyCache
  cause : ∀ e ∈ C.built, Cause W R C.built e
  /-- Together with a void, the hold of the loser is released. -/
  release : ∀ v ∈ C.built, ∀ l ∈ C.built, v.idempotencyKey = voidIdemKey l → l.hasHold = true →
    ∃ r ∈ C.built, r.type = .holdRelease ∧ r.voidRef = some l.eventId ∧
      r.balanceKey = l.balanceKey

/-! ## Causes -/

section Causes

variable {W : World ν D} {R : LocalCreateInput → Prop} {built built' : List Event} {e l : Event}

lemma Cause.mono (h : Cause W R built e) (hsub : ∀ x ∈ built, x ∈ built') :
    Cause W R built' e := by
  cases h with
  | request hR hmode hd hmakes hp hnode hkey hcredit =>
      refine .request hR hmode hd hmakes (hsub _ hp) hnode hkey ?_
      intro toAddr creditAmount hpays habs
      obtain ⟨c, hc, hckey⟩ := hcredit toAddr creditAmount hpays habs
      exact ⟨c, hsub _ hc, hckey⟩
  | void hw hl hkey hbeats hmakes => exact .void (hsub _ hw) (hsub _ hl) hkey hbeats hmakes
  | release hw hl hkey hbeats hmakes => exact .release (hsub _ hw) (hsub _ hl) hkey hbeats hmakes

lemma voidIdemKey_inj {l' : Event} (h : voidIdemKey l = voidIdemKey l') :
    l.eventId = l'.eventId :=
  (derived_inj derived_void derived_void (congrArg Prod.fst h)).2

lemma releaseIdemKey_inj {l' : Event} (h : releaseIdemKey l = releaseIdemKey l') :
    l.eventId = l'.eventId :=
  (derived_inj derived_release derived_release (congrArg Prod.fst h)).2

/-- A correction has been built for its conflict. -/
lemma Corrections.cause {n : ν} {w : Event} {s : SharedState D} {new : List Event}
    (h : Corrections (W.env n 1) w l s new) (hw : w ∈ built) (hl : l ∈ built)
    (hkey : w.idempotencyKey = l.idempotencyKey) (hbeats : w.beats l) :
    ∀ x ∈ new, Cause W R built x := by
  intro x hx
  rcases h.makes x hx with hmakes | hmakes
  · exact .void hw hl hkey hbeats hmakes
  · exact .release hw hl hkey hbeats hmakes

/-- A void among the corrections is the void of this loser, and a hold is released with it. -/
lemma Corrections.releases {env : Env D} {w : Event} {s : SharedState D} {new : List Event}
    (h : Corrections env w l s new)
    (hidentified : ∀ l' ∈ built ++ new, l'.eventId = l.eventId → l' = l)
    (hknown : s.Knows (releaseIdemKey l) → ∃ r ∈ built, r.type = .holdRelease ∧
      r.voidRef = some l.eventId ∧ r.balanceKey = l.balanceKey) :
    ∀ v ∈ new, ∀ l' ∈ built ++ new, v.idempotencyKey = voidIdemKey l' → l'.hasHold = true →
      ∃ r ∈ built ++ new, r.type = .holdRelease ∧ r.voidRef = some l'.eventId ∧
        r.balanceKey = l'.balanceKey := by
  intro v hv l' hl' hvkey hhold
  obtain rfl : l' = l := by
    rcases h.makes v hv with hmakes | hmakes
    · rw [hmakes.key] at hvkey
      exact hidentified l' hl' (voidIdemKey_inj hvkey).symm
    · rw [hmakes.key] at hvkey
      exact absurd hvkey (releaseIdemKey_ne_voidIdemKey l l')
  rcases h.released hv hhold with hreleased | ⟨r, hr, hmakes⟩
  · obtain ⟨r, hr, hrelease⟩ := hknown hreleased
    exact ⟨r, List.mem_append_left _ hr, hrelease⟩
  · refine ⟨r, List.mem_append_right _ hr, ?_⟩
    obtain ⟨_, _, _, rfl⟩ := hmakes
    exact ⟨rfl, rfl, rfl⟩

/-- What has the key of a release of `l` is one. -/
lemma Cause.of_release (hsep : Separate (fun n => W.env n 1) R) (h : Cause W R built e)
    (hid : ∃ n k, l.eventId = (W.env n 1).freshId k) (hkey : e.idempotencyKey = releaseIdemKey l) :
    e.type = .holdRelease ∧ e.voidRef = some l.eventId ∧ e.balanceKey = l.balanceKey := by
  have hbalance : e.balanceKey = l.balanceKey :=
    congrArg (fun k : IdemKey => (k.2.1, k.2.2.1)) hkey
  cases h with
  | @request n input checkedAt mode d p hR hmode hd hmakes _ _ _ _ =>
      rw [hmakes.key] at hkey
      exact absurd hkey ((W.operationKey hR hmode hd).ne_correction hsep
        (d := holdReleaseDraft l l) (.inr rfl) hid)
  | void _ _ _ _ hmakes =>
      rw [hmakes.key] at hkey
      exact absurd hkey.symm (releaseIdemKey_ne_voidIdemKey l _)
  | @release n w l' _ _ _ _ hmakes =>
      have heq := releaseIdemKey_inj (hmakes.key.symm.trans hkey)
      obtain ⟨_, _, _, rfl⟩ := hmakes
      exact ⟨rfl, congrArg some heq, hbalance⟩

/-- What has the key of a void of `l` is a void, because another event beats `l`. -/
lemma Cause.of_void (hsep : Separate (fun n => W.env n 1) R) (h : Cause W R built e)
    (hid : ∃ n k, l.eventId = (W.env n 1).freshId k)
    (hinj : ∀ x ∈ built, x.eventId = l.eventId → x = l) (hkey : e.idempotencyKey = voidIdemKey l) :
    e.type = .void ∧ l ∈ built ∧ ∃ w ∈ built, w.idempotencyKey = l.idempotencyKey ∧ w.beats l := by
  cases h with
  | @request n input checkedAt mode d p hR hmode hd hmakes _ _ _ _ =>
      rw [hmakes.key] at hkey
      exact absurd hkey ((W.operationKey hR hmode hd).ne_correction hsep
        (d := voidDraft l l) (.inl rfl) hid)
  | @void n w l' hw hl' hwkey hbeats hmakes =>
      have heq := hinj l' hl' (voidIdemKey_inj (hmakes.key.symm.trans hkey))
      subst heq
      obtain ⟨_, _, _, rfl⟩ := hmakes
      exact ⟨rfl, hl', w, hw, hwkey, hbeats⟩
  | release _ _ _ _ hmakes =>
      rw [hmakes.key] at hkey
      exact absurd hkey (releaseIdemKey_ne_voidIdemKey _ l)

/-- A void has the key of what it voids. -/
lemma Cause.loser (h : Cause W R built e) (htype : e.type = .void) : ∃ l ∈ built,
    e.idempotencyKey = voidIdemKey l ∧ ∃ w ∈ built, w.idempotencyKey = l.idempotencyKey ∧
      w.beats l := by
  cases h with
  | request _ _ hd hmakes _ _ _ _ =>
      obtain ⟨_, _, _, rfl⟩ := hmakes
      exact absurd htype hd.1.type_ne_void
  | void hw hl hkey hbeats hmakes => exact ⟨_, hl, hmakes.key, _, hw, hkey, hbeats⟩
  | release _ _ _ _ hmakes =>
      obtain ⟨_, _, _, rfl⟩ := hmakes
      cases htype

/-- The key of an event of an operation is that of the request, or of a companion. -/
lemma OperationKey.own_or_companion {env : ν → Env D} {op key : IdemKey}
    (h : OperationKey env R op key) :
    key = op ∨ ∃ input, R input ∧ input.idempotencyKey = op ∧ CompanionKey env input key := by
  cases h with
  | own _ => exact .inl rfl
  | companion hinput hkey => exact .inr ⟨_, hinput, rfl, hkey⟩
  | deletion _ _ => exact .inl rfl

/-- A companion may be filed over what is cached. -/
lemma CompanionKey.not_sole {env : ν → Env D} {input : LocalCreateInput} {key : IdemKey}
    (h : CompanionKey env input key) : ¬ idempotency.sole key := by
  rintro (hunderived | ⟨id, hvoid⟩)
  · obtain ⟨p, hp, hnonce⟩ := h.derived
    exact hunderived.ne hp _ hnonce.symm
  · cases h with
    | hold _ => exact absurd (derived_inj derived_reserve derived_void hvoid).1 (by decide)
    | credit _ _ => exact absurd (derived_inj derived_credit derived_void hvoid).1 (by decide)
    | release _ => exact absurd (derived_inj derived_release derived_void hvoid).1 (by decide)

end Causes

namespace Cluster.Contested

variable {W : World ν D} {R : LocalCreateInput → Prop} {C : Cluster ν D}

lemma down : (Cluster.down : Cluster ν D).Contested W R where
  idle _ _ := rfl
  base _ := rfl
  settled n bucket a ha := by cases ha
  own := nofun
  one := nofun
  files _ := .empty
  cause := nofun
  release := nofun

lemma freshId (hsound : C.Sound W) (hlives : ∀ n, C.lives n ≤ 1) :
    ∀ e ∈ C.built, ∃ n k, e.eventId = (W.env n 1).freshId k := by
  intro e he
  obtain ⟨n, k, i, hid, hpos, hbefore⟩ := hsound.drawn e he
  have hk : k = 1 := by
    have := hlives n
    omega
  subst hk
  exact ⟨n, i, hid⟩

/-- What a node has stored it has cached. -/
lemma stored (h : C.Contested W R) (hsound : C.Sound W) {n : ν} (hup : 1 ≤ C.lives n) :
    ∀ e ∈ (C.node n).storage.events,
      (C.node n).idempotencyCache e.idempotencyKey ≠ none := by
  obtain ⟨lost, hkept⟩ := hsound.kept n hup
  intro e he
  have hmem := hkept.books.stored e he
  rw [SharedState.acceptedSince, h.base, List.nil_append] at hmem
  exact (h.files n).cache_ne_none hmem

section Operate

variable {n : ν} {op : NodeOp} {s' : SharedState D} {new : List Event}

/-- An event the node has built is in its queue. -/
lemma mem_queue (h : C.Contested W R) {e : Event} (he : e ∈ C.built)
    (hnode : e.originNodeId = W.nodeId n) : e ∈ (C.node n).batchQueue := by
  obtain ⟨m, hm, hmem⟩ := h.own e he
  rw [hnode] at hm
  rw [W.nodeId_injective hm]
  exact hmem

variable [DecidableEq ν]

/-- What an operation has to do for the invariant. -/
lemma operated_of (h : C.Contested W R) (hsep : Separate (fun n => W.env n 1) R)
    (hlives : ∀ n, C.lives n ≤ 1) (hup : 1 ≤ C.lives n)
    (hsound' : (C.operated W n op s').Sound W)
    (hnew : Issuing (C.env W n) (C.lives n) (C.own W n) op.delivered (C.node n) new s')
    (hsettled : s'.Settled) (hqueue : ∀ e ∈ new, e ∈ s'.batchQueue)
    (hfiles : idempotency.Files (fun e => e.originNodeId = W.nodeId n)
      (fun a b => [a, b].Sublist (C.built ++ new)) (fun _ => False) s'.batchQueue
      s'.idempotencyCache)
    (hkeys : (new.map Event.idempotencyKey).Nodup)
    (hone : ∀ e ∈ new, ∀ e' ∈ C.built, e'.originNodeId = W.nodeId n →
      e'.idempotencyKey ≠ e.idempotencyKey)
    (hcause : ∀ e ∈ new, Cause W R (C.built ++ new) e)
    (hrelease : ∀ v ∈ new, ∀ l ∈ C.built ++ new, v.idempotencyKey = voidIdemKey l →
      l.hasHold = true → ∃ r ∈ C.built ++ new, r.type = .holdRelease ∧
        r.voidRef = some l.eventId ∧ r.balanceKey = l.balanceKey) :
    (C.operated W n op s').Contested W R := by
  have hbuilt := Cluster.Sound.built_operated op hnew
  have hnode : ∀ e ∈ new, e.originNodeId = W.nodeId n :=
    fun e he => (hnew.node e he).trans (W.nodeId_env n _)
  obtain ⟨rest, hgrown, -⟩ := hnew.queue
  refine ⟨fun m hm => ?_, h.base, fun m => ?_, ?_, ?_, fun m => ?_, ?_, ?_⟩
  · by_cases hmn : m = n
    · subst hmn
      have hzero : C.lives m = 0 := hm
      omega
    · rw [node_operated_of_ne hmn]
      exact h.idle m hm
  · by_cases hmn : m = n
    · subst hmn
      rw [node_operated]
      exact hsettled
    · rw [node_operated_of_ne hmn]
      exact h.settled m
  · rw [hbuilt]
    intro e he
    rcases List.mem_append.1 he with he | he
    · obtain ⟨m, hm, hmem⟩ := h.own e he
      refine ⟨m, hm, ?_⟩
      by_cases hmn : m = n
      · subst hmn
        rw [node_operated, hgrown]
        exact List.mem_append_left _ hmem
      · rw [node_operated_of_ne hmn]
        exact hmem
    · refine ⟨n, hnode e he, ?_⟩
      rw [node_operated]
      exact hqueue e he
  · rw [hbuilt]
    intro e he e' he' horigin hkey
    rcases List.mem_append.1 he with he | he <;> rcases List.mem_append.1 he' with he' | he'
    · exact h.one e he e' he' horigin hkey
    · exact absurd hkey (hone e' he' e he (horigin.trans (hnode e' he')))
    · exact absurd hkey.symm (hone e he e' he' (horigin.symm.trans (hnode e he)))
    · exact List.inj_on_of_nodup_map hkeys he he' hkey
  · rw [hbuilt]
    by_cases hmn : m = n
    · subst hmn
      rw [node_operated]
      exact hfiles
    · rw [node_operated_of_ne hmn]
      exact (h.files m).mono _ fun a b hab => hab.trans (List.sublist_append_left _ _)
  · rw [hbuilt]
    intro e he
    rcases List.mem_append.1 he with he | he
    · exact (h.cause e he).mono fun x hx => List.mem_append_left _ hx
    · exact hcause e he
  · rw [hbuilt]
    intro v hv l hl hkey hhold
    rcases List.mem_append.1 hv with hv | hv
    · -- what has been voided has been built before
      have hids := freshId hsound' hlives
      rw [hbuilt] at hids
      have hidentified := hsound'.identified
      rw [hbuilt] at hidentified
      obtain ⟨-, hl', -⟩ := (h.cause v hv).of_void hsep (hids l hl)
        (fun x hx heq => hidentified.eventId x (List.mem_append_left _ hx) l hl heq) hkey
      obtain ⟨r, hr, hrest⟩ := h.release v hv l hl' hkey hhold
      exact ⟨r, List.mem_append_left _ hr, hrest⟩
    · exact hrelease v hv l hl hkey hhold

/-- An operation that builds and files nothing. -/
lemma operated_nothing (h : C.Contested W R) (hsep : Separate (fun n => W.env n 1) R)
    (hlives : ∀ n, C.lives n ≤ 1) (hup : 1 ≤ C.lives n) (hsound' : (C.operated W n op s').Sound W)
    (hnew : Issuing (C.env W n) (C.lives n) (C.own W n) op.delivered (C.node n) new s')
    (hsettled : s'.Settled) (hadds : Adds (C.node n) s' []) :
    (C.operated W n op s').Contested W R := by
  obtain rfl : new = [] := by
    have hminted := hnew.minted.symm.trans hadds.minted
    simpa using hminted
  refine h.operated_of hsep hlives hup hsound' hnew hsettled nofun ?_ List.nodup_nil nofun
    nofun nofun
  rw [hadds.queue, hadds.cache, List.append_nil, List.append_nil]
  exact h.files n

lemma operated_create (h : C.Contested W R) (hsound : C.Sound W) (ho : W.Orderly R)
    (hlives : ∀ n, C.lives n ≤ 1) (hup : 1 ≤ C.lives n) {input : LocalCreateInput}
    (hsound' : (C.operated W n (.create input) s').Sound W)
    (hnew : Issuing (C.env W n) (C.lives n) (C.own W n) (NodeOp.create input).delivered (C.node n)
      new s') (hR : R input)
    (hrun : NodeM.exec ((NodeOp.create input).program (C.env W n)) (C.node n) = (some (), s')) :
    (C.operated W n (.create input) s').Contested W R := by
  have henv : C.env W n = W.env n 1 := by rw [Cluster.env, le_antisymm (hlives n) hup]
  have hbuilt := Cluster.Sound.built_operated (.create input) hnew
  have hnode : ∀ e ∈ new, e.originNodeId = W.nodeId n :=
    fun e he => (hnew.node e he).trans (W.nodeId_env n _)
  obtain ⟨r, s₁, hcreated, hexec⟩ := exec_createLocalEvents (C.env W n) input (C.node n)
  simp only [NodeOp.program, NodeM.exec, Proc.exec_bind] at hrun hexec
  rw [hexec] at hrun
  rcases r with _ | r
  · cases hrun
  obtain rfl : s₁ = s' := congrArg Prod.snd hrun
  obtain ⟨es, hadds, hemissions, hnone⟩ :=
    hcreated.adds (ho.representable input hR) (h.stored hsound hup)
  obtain rfl : new = es := List.append_cancel_left (hnew.minted.symm.trans hadds.minted)
  rw [henv] at hemissions
  -- the keys of what is emitted belong to the request
  have hop : ∀ e ∈ new, OperationKey (fun n => W.env n 1) R input.idempotencyKey
      e.idempotencyKey := by
    intro e he
    obtain ⟨_, _, d, hmode, hd, hmakes⟩ := hemissions.drafts e he
    rw [hmakes.key]
    exact W.operationKey hR hmode hd
  have hids := freshId hsound' hlives
  rw [hbuilt] at hids
  refine h.operated_of ho.separate hlives hup hsound' hnew ?_ ?_ ?_ hemissions.keys ?_ ?_ ?_
  · exact SharedState.Settled.created (h.settled n) hcreated
  · intro e he
    rw [hadds.queue]
    exact List.mem_append_right _ he
  · rw [hadds.queue, hadds.cache]
    refine ((h.files n).mono _ fun a b hab => ?_).append_all new hemissions.keys fun e he => ?_
    · exact hab.trans (List.sublist_append_left _ _)
    · rcases (hop e he).own_or_companion with hkey | ⟨input', _, _, hcompanion⟩
      · left
        rw [show idempotency.key e = input.idempotencyKey from hkey]
        exact hnone (List.ne_nil_of_mem he)
      · refine .inr ⟨hcompanion.not_sole, hnode e he, fun x hx _ => ?_⟩
        have hx : x ∈ C.built := hsound.sent x (hsound.queued n x hx)
        exact (List.singleton_sublist.2 hx).append (List.singleton_sublist.2 he)
  · intro e he e' he' hnode' hkey
    rcases h.cause e' he' with
      ⟨hR', hmode, hd, hmakes, hp, hpnode, hpkey, -⟩ | ⟨_, hl, _, _, hmakes⟩ | ⟨_, hl, _, _, hmakes⟩
    · -- the node has answered this request before
      have hop' := W.operationKey hR' hmode hd
      have heq := hop'.unique ho.separate (hop e he) (hmakes.key.symm.trans hkey)
      refine (h.files n).cache_ne_none (h.mem_queue hp (hpnode.trans hnode')) ?_
      rw [show idempotency.key _ = input.idempotencyKey from hpkey.trans heq]
      exact hnone (List.ne_nil_of_mem he)
    · exact (hop e he).ne_correction ho.separate (.inl rfl)
        (hids _ (List.mem_append_left _ hl)) (hkey.symm.trans hmakes.key)
    · exact (hop e he).ne_correction ho.separate (.inr rfl)
        (hids _ (List.mem_append_left _ hl)) (hkey.symm.trans hmakes.key)
  · intro e he
    obtain ⟨_, _, d, hmode, hd, hmakes⟩ := hemissions.drafts e he
    obtain ⟨p, hp, hpkey⟩ := hemissions.primary (List.ne_nil_of_mem he)
    refine .request hR hmode hd hmakes (List.mem_append_right _ hp)
      ((hnode p hp).trans (hnode e he).symm) hpkey fun toAddr creditAmount hpays habs => ?_
    obtain ⟨c, hc, hckey⟩ :=
      hemissions.credit (List.ne_nil_of_mem he) toAddr creditAmount hpays habs
    exact ⟨c, List.mem_append_right _ hc, hckey⟩
  · intro v hv l hl hkey _
    exact absurd hkey ((hop v hv).ne_correction ho.separate (d := voidDraft l l) (.inl rfl)
      (hids l hl))

/-- The events that correct a conflict, filed at the node that has found it. -/
lemma files_corrections {before : Event → Event → Prop} {mine : Event → Prop}
    {env : Env D} {w l : Event} {t s' : SharedState D}
    (hfiles : idempotency.Files mine before (fun x => False ∨ x = l) t.batchQueue
      t.idempotencyCache)
    (hadds : Adds t s' new) (hcorrections : Corrections env w l t new)
    (hknows : s'.Knows (voidIdemKey l)) :
    idempotency.Files mine before (fun _ => False) s'.batchQueue s'.idempotencyCache := by
  have hdone : idempotency.Files mine before (fun x => False ∨ x = l) s'.batchQueue
      s'.idempotencyCache := by
    rw [hadds.queue, hadds.cache]
    exact hfiles.append_all new hcorrections.nodup fun x hx =>
      .inl (not_not.1 (hcorrections.unknown x hx))
  refine hdone.settle ?_
  rintro x (hx | rfl)
  · exact hx.elim
  · exact .inr hknows

omit [DecidableEq ν] in
/-- Nothing is filed under the key of an event that is new to a node and conflicts with nothing. -/
lemma cache_eq_none (h : C.Contested W R) (hsound : C.Sound W) (hup : 1 ≤ C.lives n) {e : Event}
    (he : e ∈ C.built) (hpresent : (C.node n).eventIsPresent e = false)
    (hnone : (C.node n).conflicting e = none) :
    (C.node n).idempotencyCache e.idempotencyKey = none := by
  obtain ⟨lost, hkept⟩ := hsound.kept n hup
  refine Option.eq_none_iff_forall_ne_some.2 fun b hb => ?_
  -- it would be the event itself, and the node would have it
  obtain ⟨hmem, -⟩ := (h.files n).of_cache hb
  have hid : b.eventId = e.eventId := by
    by_contra hne
    have hsome : (C.node n).conflicting e = some b :=
      Option.filter_eq_some_iff.2 ⟨hb, decide_eq_true hne⟩
    rw [hnone] at hsome
    cases hsome
  obtain rfl := hsound.identified.eventId b (hsound.sent b (hsound.queued n b hmem)) e he hid
  have haccepted : b ∈ (C.node n).acceptedSince (C.base n) := List.mem_append_right _ hmem
  rw [hkept.books.log.isPresent (List.mem_toFinset.2 haccepted)] at hpresent
  cases hpresent

/-- The step lemma, for an event that comes from another node. -/
lemma operated_insert (h : C.Contested W R) (hsound : C.Sound W) (ho : W.Orderly R)
    (hlives : ∀ n, C.lives n ≤ 1) (hup : 1 ≤ C.lives n) {e : Event}
    (hsound' : (C.operated W n (.insert e) s').Sound W)
    (hnew : Issuing (C.env W n) (C.lives n) (C.own W n) (NodeOp.insert e).delivered (C.node n)
      new s') (he : e ∈ C.sent)
    (hrun : NodeM.exec ((NodeOp.insert e).program (C.env W n)) (C.node n) = (some (), s')) :
    (C.operated W n (.insert e) s').Contested W R := by
  have henv : C.env W n = W.env n 1 := by rw [Cluster.env, le_antisymm (hlives n) hup]
  have hbuilt := Cluster.Sound.built_operated (.insert e) hnew
  have hebuilt := hsound.sent e he
  have hqueued : ∀ x ∈ (C.node n).batchQueue, x ∈ C.built :=
    fun x hx => hsound.sent x (hsound.queued n x hx)
  obtain ⟨lost, hkept⟩ := hsound.kept n hup
  obtain ⟨r, s₁, hinserted, hexec⟩ := exec_insertEvent (C.env W n) e
    (Event.metaTargetBucket_eq_none (hsound.type e hebuilt)) hkept.unlocked
  simp only [NodeOp.program, NodeM.exec, Proc.exec_bind] at hrun hexec
  rw [hexec] at hrun
  rcases r with _ | r
  · cases hrun
  obtain rfl : s₁ = s' := congrArg Prod.snd hrun
  have hok : ∀ i, (C.env W n).storageOutcome i = .ok := by
    rw [henv]
    exact ho.reliable n
  obtain ⟨hsettled, es, hreceives⟩ := Inserted.receives (h.settled n) hok (h.stored hsound hup)
    hinserted
  have hfiles := (h.files n).mono (fun a b => [a, b].Sublist (C.built ++ new))
    fun a b hab => hab.trans (List.sublist_append_left _ _)
  cases hreceives with
  | ignored heq =>
      subst heq
      exact h.operated_nothing ho.separate hlives hup hsound' hnew hsettled (.none rfl rfl rfl)
  | filed hpresent hnone hminted hqueue hcache =>
      obtain rfl : new = [] := by simpa using hnew.minted.symm.trans hminted
      refine h.operated_of ho.separate hlives hup hsound' hnew hsettled (List.forall_mem_nil _) ?_
        List.nodup_nil (List.forall_mem_nil _) (List.forall_mem_nil _) (List.forall_mem_nil _)
      rw [hqueue, hcache]
      exact hfiles.append_new (h.cache_eq_none hsound hup hebuilt hpresent hnone)
  | @contested b w l t _ hb hid hwinner hminted hqueue hcache hadds hcorrections hknows =>
      obtain rfl : new = es := by
        have hboth := hnew.minted.symm.trans hadds.minted
        rw [hminted] at hboth
        exact List.append_cancel_left hboth
      obtain ⟨hbmem, hbkey⟩ := (h.files n).of_cache hb
      have hbbuilt := hqueued b hbmem
      obtain ⟨hpair, hbeats⟩ := idempotencyWinner_eq hid hwinner
      have hwl : w ∈ C.built ∧ l ∈ C.built ∧ w.idempotencyKey = l.idempotencyKey := by
        rcases hpair with ⟨rfl, rfl⟩ | ⟨rfl, rfl⟩
        · exact ⟨hbbuilt, hebuilt, hbkey⟩
        · exact ⟨hebuilt, hbbuilt, hbkey.symm⟩
      obtain ⟨hw, hl, hkey⟩ := hwl
      have hcontest := hfiles.append_contest hb hpair hbeats
      have hqueue' : t.batchQueue = (C.node n).batchQueue ++ [e] := hqueue
      rw [← hqueue', show (C.node n).idempotencyCache.insert (idempotency.key e) w =
        t.idempotencyCache from hcache.symm] at hcontest
      rw [henv] at hcorrections
      have hids := freshId hsound' hlives
      rw [hbuilt] at hids
      have hidentified := hsound'.identified
      rw [hbuilt] at hidentified
      have hlbuilt : l ∈ C.built ++ new := List.mem_append_left _ hl
      refine h.operated_of ho.separate hlives hup hsound' hnew hsettled (fun x hx => ?_)
        (files_corrections hcontest hadds hcorrections hknows) hcorrections.nodup
        (fun x hx e' he' hnode hsame => ?_)
        (hcorrections.cause (List.mem_append_left _ hw) hlbuilt hkey hbeats)
        (hcorrections.releases (fun l' hl' heq => hidentified.eventId l' hl' l hlbuilt heq)
          fun hknown => ?_)
      · rw [hadds.queue]
        exact List.mem_append_right _ hx
      · -- nothing is filed under the keys of the corrections
        refine hcorrections.unknown x hx (hsame ▸ hcontest.cache_ne_none (e := e') ?_)
        rw [hqueue]
        exact List.mem_append_left _ (h.mem_queue he' hnode)
      · -- the release that is known is one of this loser
        obtain ⟨r, hrel⟩ := Option.ne_none_iff_exists'.1 hknown
        obtain ⟨hr, hrkey⟩ := hcontest.of_cache hrel
        have hrbuilt : r ∈ C.built := by
          rw [hqueue] at hr
          rcases List.mem_append.1 hr with hr | hr
          · exact hqueued r hr
          · rw [List.mem_singleton.1 hr]
            exact hebuilt
        exact ⟨r, hrbuilt, (h.cause r hrbuilt).of_release ho.separate (hids l hlbuilt) hrkey⟩

/-- The step lemma, for an operation. -/
lemma operated (h : C.Contested W R) (hsound : C.Sound W) (ho : W.Orderly R)
    (hlives : ∀ n, C.lives n ≤ 1) (hup : 1 ≤ C.lives n) (hadmits : C.Admits R n op)
    (hrun : NodeM.exec (op.program (C.env W n)) (C.node n) = (some (), s')) :
    (C.operated W n op s').Contested W R := by
  have hsound' := hsound.operated hup hadmits hrun
  obtain ⟨_, ⟨new, hnew, -⟩, -⟩ := hsound.issues hup hadmits hrun
  cases op with
  | create input => exact h.operated_create hsound ho hlives hup hsound' hnew hadmits hrun
  | insert e => exact h.operated_insert hsound ho hlives hup hsound' hnew hadmits hrun
  | flush batch =>
      obtain ⟨s₁, ⟨st, calls, -, rfl⟩, hexec⟩ := exec_doFlush (C.env W n) batch (C.node n)
      have hframe := ((C.node n).setStorage st calls).markPersisted_frame
        (batch.map Event.originKey)
      rcases hexec with hexec | hexec
      · obtain rfl : _ = s' := congrArg Prod.snd (hexec.symm.trans hrun)
        refine h.operated_nothing ho.separate hlives hup hsound' hnew ?_ ?_
        · apply (h.settled n).congr
          rw [hframe]
          rfl
        · rw [hframe]
          exact .none rfl rfl rfl
      · obtain rfl : _ = s' := congrArg Prod.snd (hexec.symm.trans hrun)
        exact h.operated_nothing ho.separate hlives hup hsound' hnew ((h.settled n).congr rfl)
          (.none rfl rfl rfl)
  | persist keys =>
      have hs' : s' = (C.node n).markPersisted keys := (congrArg Prod.snd hrun).symm
      subst hs'
      have hframe := (C.node n).markPersisted_frame keys
      refine h.operated_nothing ho.separate hlives hup hsound' hnew ?_ ?_
      · apply (h.settled n).congr
        rw [hframe]
      · rw [hframe]
        exact .none rfl rfl rfl
  | sweep =>
      obtain rfl : _ = s' := congrArg Prod.snd hrun
      exact h.operated_nothing ho.separate hlives hup hsound' hnew ((h.settled n).congr rfl)
        (.none rfl rfl rfl)

/-- The step lemma, for the start of a node that has never been up. -/
lemma started (h : C.Contested W R) (hzero : C.lives n = 0)
    (hs : Starts (W.env n (C.lives n + 1)) (C.node n).storage s') :
    (C.started W n s').Contested W R := by
  have hrebuilt := hs.rebuilt
  rw [h.idle n hzero] at hrebuilt
  refine ⟨fun m hm => ?_, fun m => ?_, fun m => ?_, fun e he => ?_, h.one, fun m => ?_, h.cause,
    h.release⟩
  · by_cases hmn : m = n
    · subst hmn
      rw [lives_started] at hm
      cases hm
    · rw [lives_started_of_ne hmn] at hm
      rw [node_started_of_ne hmn]
      exact h.idle m hm
  · by_cases hmn : m = n
    · subst hmn
      rw [base_started, h.idle m hzero]
      rfl
    · rw [base_started_of_ne hmn]
      exact h.base m
  · by_cases hmn : m = n
    · subst hmn
      rw [node_started]
      intro bucket a ha
      have hload : ((SharedState.blank Storage.empty :
          SharedState D).storage.markBucketAllocatorsPending
            (W.env m (C.lives m + 1)).nodeId).loadBucketAllocators
            (W.env m (C.lives m + 1)).nodeId bucket = none := by
        simp [Storage.loadBucketAllocators, Storage.markBucketAllocatorsPending, Storage.empty,
          SharedState.blank]
      rw [SharedState.entry, hrebuilt.bucketAllocators] at ha
      dsimp only at ha
      rw [hload] at ha
      cases ha
    · rw [node_started_of_ne hmn]
      exact h.settled m
  · obtain ⟨m, hm, hmem⟩ := h.own e he
    refine ⟨m, hm, ?_⟩
    by_cases hmn : m = n
    · subst hmn
      rw [h.idle m hzero] at hmem
      cases hmem
    · rw [node_started_of_ne hmn]
      exact hmem
  · by_cases hmn : m = n
    · subst hmn
      rw [node_started, hrebuilt.batchQueue, hrebuilt.idempotencyCache]
      exact .empty
    · rw [node_started_of_ne hmn]
      exact h.files m

end Operate

/-- The run lemma. -/
theorem of_run [DecidableEq ν] (ho : W.Orderly R) (h : Cluster.Run W R C)
    (hlives : ∀ n, C.lives n ≤ 1) : C.Contested W R := by
  induction h with
  | init => exact down
  | @step C C' hrun hstep ih =>
      have hsound := Cluster.Sound.of_run hrun
      cases hstep with
      | operate hup hadmits hexec => exact (ih hlives).operated hsound ho hlives hup hadmits hexec
      | @start n s' hbound hs =>
          have hzero : C.lives n = 0 := by
            have hn := hlives n
            rw [lives_started] at hn
            omega
          refine (ih fun m => ?_).started hzero hs
          by_cases hmn : m = n
          · rw [hmn, hzero]
            exact Nat.zero_le 1
          · have hm := hlives m
            rw [lives_started_of_ne hmn] at hm
            exact hm

end Cluster.Contested

end Shardd
