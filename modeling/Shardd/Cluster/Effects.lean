import Shardd.Cluster.Winners

/-!
# The effect of an operation on a cluster at rest

A cluster is at rest when every node that is up has accepted every event that has been built.  Then
an operation that has been submitted to any number of nodes has taken effect once: the nodes agree
on its event, a balance counts one event for each key, and the holds of all other events are
released.
-/

namespace Shardd

variable {ν D : Type}

namespace Int64Group

scoped instance instAddCommGroup : AddCommGroup Int64 where
  add_assoc := Int64.add_assoc
  zero_add := Int64.zero_add
  add_zero := Int64.add_zero
  nsmul := nsmulRec
  zsmul := zsmulRec
  sub_eq_add_neg := Int64.sub_eq_add_neg
  neg_add_cancel := Int64.add_left_neg
  add_comm := Int64.add_comm

end Int64Group

open Int64Group

/-- Every node that is up has accepted every event. -/
def Cluster.AtRest (C : Cluster ν D) : Prop := ∀ n, 1 ≤ C.lives n → ∀ e ∈ C.built, e ∈ C.accepted n

/-- Events on a nodup list are not in both orders. -/
lemma not_sublist_of_nodup {α : Type} {l : List α} (h : l.Nodup) {a b : α}
    (hab : [a, b].Sublist l) : ¬ [b, a].Sublist l := by
  intro hba
  have heq := (h.perm_iff_eq_of_sublist hab hba).1 (List.Perm.swap _ _ _)
  obtain rfl : a = b := (List.cons.inj heq).1
  exact absurd (hab.nodup h) (by simp)

namespace Cluster.Contested

variable {W : World ν D} {R : LocalCreateInput → Prop} {C : Cluster ν D}

/-- At rest, the queue of a node has the events that have been built. -/
lemma mem_queue_iff (h : C.Contested W R) (hsound : C.Sound W) (hrest : C.AtRest) {n : ν}
    (hup : 1 ≤ C.lives n) (e : Event) : e ∈ (C.node n).batchQueue ↔ e ∈ C.built := by
  constructor
  · exact fun he => hsound.sent e (hsound.queued n e he)
  · intro he
    have hmem := hrest n hup e he
    rw [Cluster.accepted, SharedState.acceptedSince, h.base] at hmem
    exact hmem

/-- At rest, whatever has lost has been voided. -/
lemma voided (h : C.Contested W R) (hsound : C.Sound W) (hrest : C.AtRest) {w l : Event}
    (hw : w ∈ C.built) (hl : l ∈ C.built) (hkey : w.idempotencyKey = l.idempotencyKey)
    (hbeats : w.beats l) : ∃ v ∈ C.built, v.idempotencyKey = voidIdemKey l := by
  have hnodup := List.Nodup.of_map _ hsound.ids
  -- the nodes that have built the two are up
  have hup : ∀ n e, e ∈ (C.node n).batchQueue → 1 ≤ C.lives n := by
    intro n e he
    by_contra hdown
    rw [h.idle n (by omega)] at he
    cases he
  obtain ⟨n, hn, hwn⟩ := h.own w hw
  obtain ⟨m, hm, hlm⟩ := h.own l hl
  have hqueue := fun i : {i // 1 ≤ C.lives i} => h.mem_queue_iff hsound hrest i.2
  obtain ⟨i, hi⟩ := Contest.Files.undone (c := idempotency) (N := {i // 1 ≤ C.lives i})
    (n := ⟨n, hup n w hwn⟩) (m := ⟨m, hup m l hlm⟩)
    (fun i => h.files i)
    (fun i j e he => (hqueue j e).2 ((hqueue i e).1 he))
    (fun a b => not_sublist_of_nodup hnodup) hwn hlm hn hm hkey.symm
    (fun i a ha b hb hamine hbmine hakey hbkey => h.one a ((hqueue i a).1 ha) b ((hqueue i b).1 hb)
      (hamine.trans hbmine.symm) (hakey.trans hbkey.symm)) hbeats
  rcases hcache : (C.node i).idempotencyCache (voidIdemKey l) with _ | v
  · exact absurd hcache hi
  · obtain ⟨hv, hvkey⟩ := (h.files i).of_cache hcache
    exact ⟨v, (hqueue i v).1 hv, hvkey⟩

/-- A node that is up shows the accounts of its queue. -/
lemma shows (h : C.Contested W R) (hsound : C.Sound W)
    (hrecorded : ∀ n, ∀ e ∈ (C.node n).minted, e ∈ (C.node n).batchQueue) {n : ν}
    (hup : 1 ≤ C.lives n) (key : BalanceKey) :
    ((C.node n).account key).Shows (C.instant n)
      (AccountState.replay ((C.node n).batchQueue.filter fun e => e.balanceKey = key)) := by
  obtain ⟨lost, hkept⟩ := hsound.kept n hup
  have haccount := hkept.books.account key
  have hnodup := hkept.books.nodup
  rw [SharedState.acceptedSince, h.base, List.nil_append] at haccount hnodup
  obtain rfl : lost = [] := by
    rw [List.eq_nil_iff_forall_not_mem]
    intro e he
    rw [List.nodup_append] at hnodup
    exact hnodup.2.2 e (hrecorded n e (hkept.lost_minted e he)) e he rfl
  rw [List.append_nil] at haccount
  exact haccount

/-- The voids are the events that have the key of a void. -/
lemma void_iff (h : C.Contested W R) (hsound : C.Sound W) (hlives : ∀ n, C.lives n ≤ 1)
    (hsep : Separate (fun n => W.env n 1) R) {e : Event} (he : e ∈ C.built) :
    e.type = .void ↔ ∃ l ∈ C.built, e.idempotencyKey = voidIdemKey l ∧
      ∃ w ∈ C.built, w.idempotencyKey = l.idempotencyKey ∧ w.beats l := by
  constructor
  · exact (h.cause e he).loser
  · rintro ⟨l, hl, hkey, -⟩
    exact ((h.cause e he).of_void hsep (freshId hsound hlives l hl)
      (fun x hx hid => hsound.identified.eventId x hx l hl hid) hkey).1

end Cluster.Contested

/-! ## Requests at two nodes -/

section Play

variable [DecidableEq ν] {W : World ν D} {R : LocalCreateInput → Prop} {C : Cluster ν D}

/-- The cluster after some operations that run to their ends. -/
def Cluster.play (W : World ν D) (C : Cluster ν D) (ops : List (ν × NodeOp)) : Cluster ν D :=
  ops.foldl (fun C op => C.operate W op.1 op.2) C

/-- The operations may be asked for, and they run to their ends. -/
def Cluster.Plays (W : World ν D) (R : LocalCreateInput → Prop) :
    Cluster ν D → List (ν × NodeOp) → Prop
  | _, [] => True
  | C, (n, op) :: ops => (1 ≤ C.lives n ∧ C.Admits R n op ∧
      (NodeM.exec (op.program (C.env W n)) (C.node n)).1 = some ()) ∧
      (C.operate W n op).Plays W R ops

lemma Cluster.Run.play {ops : List (ν × NodeOp)} (h : Cluster.Run W R C) (hops : C.Plays W R ops) :
    Cluster.Run W R (C.play W ops) := by
  induction ops generalizing C with
  | nil => exact h
  | cons op ops ih =>
      obtain ⟨⟨hup, hadmits, hrun⟩, hrest⟩ := hops
      exact ih (h.operate op.1 op.2 hup hadmits hrun) hrest

instance [DecidablePred R] (n : ν) (op : NodeOp) : Decidable (C.Admits R n op) :=
  match op with
  | .create input => inferInstanceAs (Decidable (R input))
  | .insert e => inferInstanceAs (Decidable (e ∈ C.sent))
  | .flush batch => inferInstanceAs (Decidable (∀ e ∈ batch, e ∈ C.accepted n))
  | .persist _ => .isTrue trivial
  | .sweep => .isTrue trivial

instance decidablePlays [DecidablePred R] :
    (C : Cluster ν D) → (ops : List (ν × NodeOp)) → Decidable (C.Plays W R ops)
  | _, [] => .isTrue trivial
  | C, (n, op) :: ops => @instDecidableAnd _ _ _ (decidablePlays (C.operate W n op) ops)

end Play

/-- Requests with nonces of their own, none of which settles a hold. -/
lemma World.orderly_pair {inputs : List LocalCreateInput}
    (hunderived : ∀ input ∈ inputs, Underived input.idempotencyNonce)
    (hbucket : ∀ input ∈ inputs, input.bucket ≠ metaBucket)
    (hnone : ∀ input ∈ inputs, input.settleReservation = none)
    (hdistinct : ∀ input ∈ inputs, ∀ input' ∈ inputs,
      input.idempotencyNonce = input'.idempotencyNonce → input = input')
    (hamount : ∀ input ∈ inputs, input.amount ≠ Int64.minValue) :
    World.pair.Orderly (· ∈ inputs) where
  separate := by
    constructor
    · exact hunderived
    · intro input hinput target reason hkey
      exact hbucket input hinput (congrArg (fun k => k.2.1) hkey)
    · rintro input hinput ⟨checkedAt, reservationId, hmode⟩
      have hsettle := (LocalCreateMode.wellFormed_of_fromInput hmode).1
      rw [hnone input hinput] at hsettle
      cases hsettle
    · intro input input' hinput hinput' hclash
      exact hclash.distinct (congrArg _ (hdistinct input hinput input' hinput' hclash.nonce))
  representable := hamount
  reliable _ _ := rfl

/-- Both nodes have got the requests. -/
def submittedTwice (inputs : List LocalCreateInput) : Cluster Bool Unit :=
  ((Cluster.down.start World.pair false).start World.pair true).play World.pair
    ([false, true].flatMap fun n => inputs.map fun input => (n, .create input))

/-- The events of the left node have reached the right one. -/
def conflictingTwice (inputs : List LocalCreateInput) : Cluster Bool Unit :=
  (submittedTwice inputs).play World.pair
    (((submittedTwice inputs).accepted false).map fun e => (true, .insert e))

/-- What the right node has built has reached the left one, the corrections first. -/
def settledTwice (inputs : List LocalCreateInput) : Cluster Bool Unit :=
  (conflictingTwice inputs).play World.pair
    (((conflictingTwice inputs).built.filter fun e => e.originNodeId = "right").reverse.map
      fun e => (false, .insert e))

/-- A deposit and a hold. -/
private def submissions : List LocalCreateInput :=
  [.legacy "bucket" "alice" 5 none 0 "n1" false,
    { LocalCreateInput.legacy "bucket" "alice" 0 none 10 "n2" false with
      holdAmount := some 3
      holdExpiresAtUnixMs := some 5000 }]

private abbrev settled : Cluster Bool Unit := settledTwice submissions

lemma run_started {R : LocalCreateInput → Prop} : Cluster.Run World.pair R
    ((Cluster.down.start World.pair false).start World.pair true) :=
  (Cluster.Run.init.start false (by decide) (fun _ => rfl) (by decide +kernel)).start true
    (by decide) (fun _ => rfl) (by decide +kernel)

private lemma run_settled : Cluster.Run World.pair (· ∈ submissions) settled := by
  have hsubmitted : Cluster.Run World.pair (· ∈ submissions) (submittedTwice submissions) :=
    run_started.play (by decide +kernel)
  have hconflicting : Cluster.Run World.pair (· ∈ submissions) (conflictingTwice submissions) :=
    hsubmitted.play (by decide +kernel)
  exact hconflicting.play (by decide +kernel)

private lemma atRest_settled : settled.AtRest := by
  intro n _ e he
  have hall : ∀ n, ∀ e ∈ settled.built, e ∈ settled.accepted n := by decide +kernel
  exact hall n e he

private lemma lives_settled : ∀ n, settled.lives n = 1 := by decide +kernel

private lemma orderly_submissions : World.pair.Orderly (· ∈ submissions) :=
  World.orderly_pair (by decide) (by decide) (by decide) (by decide) (by decide)

/-! ## Retries -/

/-- **Retries.**  At rest, all nodes agree on one event of each key, which beats the others of it,
and every node answers a further request of the key with that event and builds nothing. -/
theorem retries_of_cluster [DecidableEq ν] {W : World ν D} {R : LocalCreateInput → Prop}
    {C : Cluster ν D} (ho : W.Orderly R) (h : Cluster.Run W R C) (hlives : ∀ n, C.lives n ≤ 1)
    (hrest : C.AtRest) {e : Event} (he : e ∈ C.built) (hnonce : Underived e.idempotencyNonce) :
    ∃ w ∈ C.built, w.idempotencyKey = e.idempotencyKey ∧
      (∀ x ∈ C.built, x.idempotencyKey = e.idempotencyKey → x ≠ w → w.beats x) ∧
      ∀ n, 1 ≤ C.lives n → ∀ input : LocalCreateInput, input.idempotencyKey = e.idempotencyKey →
        (C.node n).gate input = none →
        (LocalCreateMode.fromInput input
          ((C.env W n).clock (C.node n).clockReads)).toOption ≠ none →
        (NodeM.exec (createLocalEvents (C.env W n) input).run (C.node n)).1 =
          some (.ok { primaryEvent := w, emittedEvents := [] }) := by
  have hsound := Cluster.Sound.of_run h
  have hcontested := Cluster.Contested.of_run ho h hlives
  obtain ⟨w, hw, hkey, hbest⟩ := idempotency.exists_best (List.mem_toFinset.2 he)
  rw [List.mem_toFinset] at hw
  have hkey : w.idempotencyKey = e.idempotencyKey := hkey
  refine ⟨w, hw, hkey, fun x hx hxkey hne => ?_, fun n hup input hinput hgate hmode => ?_⟩
  · have hid : x.eventId ≠ w.eventId := fun hid => hne (hsound.identified.eventId x hx w hw hid)
    refine (Event.beats_total hid).resolve_left fun hbeats => hbest ?_
    exact ⟨x, List.mem_toFinset.2 hx, hxkey.trans hkey.symm, hbeats⟩
  · have hqueue := hcontested.mem_queue_iff hsound hrest hup
    have hcache : (C.node n).idempotencyCache input.idempotencyKey = some w := by
      refine (hcontested.files n).cache_eq_of_sole ?_ ((hqueue w).2 hw) (hkey.trans hinput.symm)
        fun x hx hxkey hbeats => hbest ?_
      · rw [hinput]
        exact .inl hnonce
      · have hxkey : x.idempotencyKey = input.idempotencyKey := hxkey
        exact ⟨x, List.mem_toFinset.2 ((hqueue x).1 hx),
          hxkey.trans (hinput.trans hkey.symm), hbeats⟩
    obtain ⟨lost, hkept⟩ := hsound.kept n hup
    obtain ⟨r, s', hcreated, hexec⟩ := exec_createLocalEvents (C.env W n) input (C.node n)
    rw [hexec]
    cases hcreated with
    | rejected hrejected =>
        rw [hgate] at hrejected
        cases hrejected
    | malformed _ hmalformed =>
        rw [hmalformed] at hmode
        exact absurd rfl hmode
    | blocked _ _ hlocked => exact absurd (hkept.unlocked _) hlocked
    | cachedRetry _ _ _ hcached =>
        rw [hcache] at hcached
        cases hcached
        rfl
    | storedRetry _ _ _ hnone _ =>
        rw [hcache] at hnone
        cases hnone
    | emitted _ _ _ hnone _ _ =>
        rw [hcache] at hnone
        cases hnone
    | stuck _ _ _ hnone _ _ =>
        rw [hcache] at hnone
        cases hnone

/-- Either node answers a retry with the same deposit. -/
theorem retries_of_cluster_twice :
    let input := LocalCreateInput.legacy "bucket" "alice" 5 none 0 "n1" false
    (settled.built.filter fun e => e.idempotencyKey = input.idempotencyKey).length = 2 ∧
      ∃ w ∈ settled.built, ∀ n,
        (NodeM.exec (createLocalEvents (settled.env World.pair n) input).run (settled.node n)).1 =
          some (.ok { primaryEvent := w, emittedEvents := [] }) := by
  intro input
  have hex : ∃ e ∈ settled.built, e.idempotencyKey = input.idempotencyKey := by decide +kernel
  obtain ⟨e, he, hkey⟩ := hex
  have hnonce : Underived input.idempotencyNonce := by decide
  obtain ⟨w, hw, -, -, hretry⟩ := retries_of_cluster orderly_submissions run_settled
    (fun n => (lives_settled n).le) atRest_settled he (by
      rw [show e.idempotencyNonce = input.idempotencyNonce from congrArg Prod.fst hkey]
      exact hnonce)
  refine ⟨by decide +kernel, w, hw, fun n => ?_⟩
  have hgate : ∀ n, (settled.node n).gate input = none := by decide +kernel
  exact hretry n (lives_settled n).ge input hkey.symm (hgate n) nofun

/-! ## Balances -/

lemma AccountState.balance_replay_sum (es : List Event) :
    (replay es).balance = (es.map Event.amount).sum := by
  have h : ∀ acc : AccountState,
      (es.foldl applyEvent acc).balance = acc.balance + (es.map Event.amount).sum := by
    induction es with
    | nil => exact fun acc => (Int64.add_zero _).symm
    | cons e es ih =>
        intro acc
        rw [List.foldl_cons, ih, balance_applyEvent, List.map_cons, List.sum_cons,
          Int64.add_assoc]
  rw [replay, h]
  exact Int64.zero_add _

/-- The keys under which operations have filed events, their voids aside. -/
def Cluster.operationKeys (C : Cluster ν D) : Finset IdemKey :=
  ((C.built.filter fun e => e.type ≠ .void).map Event.idempotencyKey).toFinset

/-- The account a key is on. -/
def IdemKey.on (k : IdemKey) : BalanceKey := (k.2.1, k.2.2.1)

lemma Cluster.mem_operationKeys {C : Cluster ν D} {k : IdemKey} :
    k ∈ C.operationKeys ↔ ∃ e ∈ C.built, e.type ≠ .void ∧ e.idempotencyKey = k := by
  simp only [operationKeys, List.mem_toFinset, List.mem_map, List.mem_filter, decide_eq_true_iff,
    and_assoc]

/-- At rest, a balance counts one event for each key on the account. -/
lemma Cluster.Contested.balance [DecidableEq ν] {W : World ν D} {R : LocalCreateInput → Prop}
    {C : Cluster ν D} (hcontested : C.Contested W R) (hsound : C.Sound W)
    (hsep : Separate (fun n => W.env n 1) R)
    (hrecorded : ∀ n, ∀ e ∈ (C.node n).minted, e ∈ (C.node n).batchQueue)
    (hlives : ∀ n, C.lives n ≤ 1) (hrest : C.AtRest) {n : ν} (hup : 1 ≤ C.lives n)
    (key : BalanceKey) :
    ((C.node n).account key).balance = ∑ k ∈ C.operationKeys with k.on = key, k.2.2.2 := by
  have hqueue := hcontested.mem_queue_iff hsound hrest hup
  have hidentified := hsound.identified
  set es := (C.node n).batchQueue.filter fun e => e.balanceKey = key with hes
  have hmem : ∀ e, e ∈ es.toFinset ↔ e ∈ C.built ∧ e.balanceKey = key := by
    intro e
    rw [List.mem_toFinset, hes, List.mem_filter, decide_eq_true_iff, hqueue]
  have hnodup : es.Nodup := by
    obtain ⟨lost, hkept⟩ := hsound.kept n hup
    have hbooks := hkept.books.nodup
    rw [SharedState.acceptedSince, hcontested.base, List.nil_append, List.nodup_append] at hbooks
    exact hbooks.1.filter _
  -- events of one key are on one account
  have hsame : ∀ {e e' : Event}, e.idempotencyKey = e'.idempotencyKey →
      e.balanceKey = e'.balanceKey := fun hkey => congrArg (fun k => (k.2.1, k.2.2.1)) hkey
  have hloses : ∀ l ∈ es.toFinset, idempotency.Loses es.toFinset l ↔
      ∃ w ∈ C.built, w.idempotencyKey = l.idempotencyKey ∧ w.beats l := by
    intro l hl
    constructor
    · rintro ⟨w, hw, hrest⟩
      exact ⟨w, ((hmem w).1 hw).1, hrest⟩
    · rintro ⟨w, hw, hkey, hbeats⟩
      exact ⟨w, (hmem w).2 ⟨hw, (hsame hkey).trans ((hmem l).1 hl).2⟩, hkey, hbeats⟩
  have hvoid : ∀ e ∈ es.toFinset, e.type = .void ↔
      ∃ l ∈ es.toFinset, idempotency.Loses es.toFinset l ∧ voidIdemKey l = e.idempotencyKey := by
    intro e he
    obtain ⟨he, hbalance⟩ := (hmem e).1 he
    rw [hcontested.void_iff hsound hlives hsep he]
    constructor
    · rintro ⟨l, hl, hkey, hlost⟩
      have hl' : l ∈ es.toFinset :=
        (hmem l).2 ⟨hl, (congrArg (fun k : IdemKey => (k.2.1, k.2.2.1)) hkey).symm.trans hbalance⟩
      exact ⟨l, hl', (hloses l hl').2 hlost, hkey.symm⟩
    · rintro ⟨l, hl, hlost, hkey⟩
      exact ⟨l, ((hmem l).1 hl).1, hkey.symm, (hloses l hl).1 hlost⟩
  have hbalance : ((C.node n).account key).balance = ∑ e ∈ es.toFinset, e.amount := by
    rw [(hcontested.shows hsound hrecorded hup key).balance,
      AccountState.balance_replay_sum, List.sum_toFinset _ hnodup]
  classical
  have hsum := idempotency.sum_key (B := es.toFinset) (fun k => k.2.2.2)
    (fun k => ∃ l ∈ es.toFinset, idempotency.Loses es.toFinset l ∧ voidIdemKey l = k)
    (fun a ha b hb _ hne => Event.beats_total fun hid => hne <|
      hidentified.eventId a ((hmem a).1 ha).1 b ((hmem b).1 hb).1 hid)
    (fun a ha b hb hkey =>
      hidentified.eventId a ((hmem a).1 ha).1 b ((hmem b).1 hb).1 (voidIdemKey_inj hkey))
    (fun e _ => rfl) (fun e _ => Iff.rfl) fun l hl hlost => by
      obtain ⟨hlbuilt, hlkey⟩ := (hmem l).1 hl
      obtain ⟨w, hw, hkey, hbeats⟩ := (hloses l hl).1 hlost
      obtain ⟨v, hv, hvkey⟩ := hcontested.voided hsound hrest hw hlbuilt hkey hbeats
      refine ⟨v, (hmem v).2 ⟨hv, ?_⟩, hvkey⟩
      exact (congrArg (fun k : IdemKey => (k.2.1, k.2.2.1)) hvkey).trans hlkey
  rw [hbalance]
  refine hsum.trans (Finset.sum_congr (Finset.ext fun k => ?_) fun _ _ => rfl)
  rw [Finset.mem_filter, Finset.mem_image, Finset.mem_filter, Cluster.mem_operationKeys]
  constructor
  · rintro ⟨⟨e, he, rfl⟩, hnot⟩
    obtain ⟨hbuilt, hkey⟩ := (hmem e).1 he
    exact ⟨⟨e, hbuilt, fun htype => hnot ((hvoid e he).1 htype), rfl⟩, hkey⟩
  · rintro ⟨⟨e, hbuilt, htype, rfl⟩, hkey⟩
    have he := (hmem e).2 ⟨hbuilt, hkey⟩
    exact ⟨⟨e, he, rfl⟩, fun hlost => htype ((hvoid e he).2 hlost)⟩

/-- **Balances.**  At rest, a node that is up shows as the balance of an account the sum of the
amounts of the operations on it, each of which counts once, to however many nodes it has been
submitted. -/
theorem balances_of_cluster [DecidableEq ν] {W : World ν D} {R : LocalCreateInput → Prop}
    {C : Cluster ν D} (ho : W.Orderly R) (h : Cluster.Run W R C) (hlives : ∀ n, C.lives n ≤ 1)
    (hrest : C.AtRest) {n : ν} (hup : 1 ≤ C.lives n) (key : BalanceKey) :
    ((C.node n).account key).balance = ∑ k ∈ C.operationKeys with k.on = key, k.2.2.2 :=
  (Cluster.Contested.of_run ho h hlives).balance (.of_run h) ho.separate
    (h.recorded ho.representable) hlives hrest hup key

/-- The deposit counts once at either node. -/
theorem balances_of_cluster_twice :
    settled.operationKeys.card = 3 ∧ ∀ n,
      ((settled.node n).account ("bucket", "alice")).balance =
        ∑ k ∈ settled.operationKeys with k.on = ("bucket", "alice"), k.2.2.2 :=
  ⟨by decide +kernel, fun n => balances_of_cluster orderly_submissions run_settled
    (fun n => (lives_settled n).le) atRest_settled (lives_settled n).ge ("bucket", "alice")⟩

/-! ## Holds -/

lemma AccountState.mem_released_replay {es : List Event} {r : Event} {id : String} (hr : r ∈ es)
    (hreleased : releasedBy r = some id) : id ∈ (replay es).released := by
  have h : ∀ acc : AccountState, id ∈ acc.released ∨ r ∈ es →
      id ∈ (es.foldl applyEvent acc).released := by
    clear hr
    induction es with
    | nil => exact fun acc hacc => hacc.resolve_right List.not_mem_nil
    | cons e es ih =>
        intro acc hacc
        refine ih _ ?_
        rw [mem_released_applyEvent]
        rcases hacc with hacc | hmem
        · exact .inl (.inr hacc)
        · rcases List.mem_cons.1 hmem with rfl | hmem
          · exact .inl (.inl hreleased)
          · exact .inr hmem
  exact h .new (.inr hr)

/-- **Holds.**  At rest, the hold of an event that another one of its key beats is held against no
account, and no node lets it be captured or released. -/
theorem holds_of_cluster [DecidableEq ν] {W : World ν D} {R : LocalCreateInput → Prop}
    {C : Cluster ν D} (ho : W.Orderly R) (h : Cluster.Run W R C) (hlives : ∀ n, C.lives n ≤ 1)
    (hrest : C.AtRest) {w l : Event} (hw : w ∈ C.built) (hl : l ∈ C.built)
    (hkey : w.idempotencyKey = l.idempotencyKey) (hbeats : w.beats l) (hhold : l.hasHold = true)
    {n : ν} (hup : 1 ≤ C.lives n) {now : ℕ} (hnow : C.instant n ≤ now) :
    l.eventId ∉ ((C.node n).account l.balanceKey).activeReservations now ∧
      (((C.node n).account l.balanceKey).openReservation l.eventId now).toOption = none := by
  have hsound := Cluster.Sound.of_run h
  have hcontested := Cluster.Contested.of_run ho h hlives
  obtain ⟨v, hv, hvkey⟩ := hcontested.voided hsound hrest hw hl hkey hbeats
  obtain ⟨r, hr, htype, href, hbalance⟩ := hcontested.release v hv l hl hvkey hhold
  have hshows := hcontested.shows hsound (h.recorded ho.representable) hup l.balanceKey
  have hreleased : l.eventId ∈ (AccountState.replay ((C.node n).batchQueue.filter fun e =>
      e.balanceKey = l.balanceKey)).released := by
    refine AccountState.mem_released_replay (r := r) (List.mem_filter.2 ⟨?_, ?_⟩) ?_
    · exact (hcontested.mem_queue_iff hsound hrest hup r).2 hr
    · exact decide_eq_true hbalance
    · rw [AccountState.releasedBy, if_pos htype, href]
  have halike := hshows.alike hnow
  constructor
  · rw [halike.activeReservations, AccountState.activeReservations, ← Finmap.lookup_eq_none,
      Finmap.lookup_filter]
    simp [AccountState.isActive, hreleased]
  · rw [halike.openReservation, AccountState.openReservation]
    split
    · rfl
    · rw [if_pos hreleased]
      rfl

/-- One of the two holds is released at both nodes. -/
theorem holds_of_cluster_twice : ∃ l ∈ settled.built, l.hasHold = true ∧ ∀ n,
    l.eventId ∉ ((settled.node n).account l.balanceKey).activeReservations 2000 := by
  have hex : ∃ l ∈ settled.built, l.hasHold = true ∧ ∃ w ∈ settled.built,
      w.idempotencyKey = l.idempotencyKey ∧ w.beats l := by decide +kernel
  obtain ⟨l, hl, hhold, w, hw, hkey, hbeats⟩ := hex
  have hinstant : ∀ n, settled.instant n ≤ 2000 := by decide +kernel
  refine ⟨l, hl, hhold, fun n => ?_⟩
  exact (holds_of_cluster orderly_submissions run_settled (fun n => (lives_settled n).le)
    atRest_settled hw hl hkey hbeats hhold (lives_settled n).ge (hinstant n)).1

end Shardd
