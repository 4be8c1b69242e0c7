import Mathlib.Data.Nat.Pairing
import Std.Data.String.ToNat
import Shardd.Cluster.Numbers
import Shardd.Recovery.Restart

/-!
# Runs of a cluster

A run of a cluster takes one operation of one node at a time.  The nodes get requests, storage
calls fail inside an operation, an event that some node has accepted reaches any node at any time
and any number of times, and a node may crash between two operations, with or without having
flushed, and start over its storage.  No bucket is deleted.

`Cluster.Sound` is the invariant of a run: all events that have been built have ids and identities
of their own, and every node that is up keeps the books of what it has accepted.
-/

namespace Shardd

variable {ν D : Type}

/-! ## The cluster -/

/-- What the nodes see of the world in each of their lives. -/
structure World (ν D : Type) where
  env : ν → ℕ → Env D
  nodeId : ν → String
  hasher : Hasher D
  nodeId_env : ∀ n k, (env n k).nodeId = nodeId n
  hasher_env : ∀ n k, (env n k).hasher = hasher
  nodeId_injective : Function.Injective nodeId
  /-- The ids are random: none is drawn twice. -/
  freshId_injective : Function.Injective fun p : ν × ℕ × ℕ => (env p.1 p.2.1).freshId p.2.2

lemma World.freshId_inj (W : World ν D) {n m : ν} {k l i j : ℕ}
    (h : (W.env n k).freshId i = (W.env m l).freshId j) : n = m ∧ k = l ∧ i = j := by
  have heq : (n, k, i) = (m, l, j) := W.freshId_injective h
  simpa using heq

structure Cluster (ν D : Type) where
  node : ν → SharedState D
  /-- How often a node has been started. -/
  lives : ν → ℕ
  /-- What a node has loaded at its last start. -/
  base : ν → List Event
  /-- The latest instant at which a node may have dropped expired holds. -/
  instant : ν → ℕ
  /-- The events that have been built, in this order. -/
  built : List Event
  /-- The events some node has accepted. -/
  sent : List Event

namespace Cluster

/-- No node is up, and nothing is stored. -/
def down : Cluster ν D where
  node _ := .blank .empty
  lives _ := 0
  base _ := []
  instant _ := 0
  built := []
  sent := []

variable (W : World ν D) (C : Cluster ν D)

def env (n : ν) : Env D := W.env n (C.lives n)

/-- What a node has accepted and still has. -/
def accepted (n : ν) : List Event := (C.node n).acceptedSince (C.base n)

/-- The events of a node, over all its lives. -/
def own (n : ν) : List Event := C.built.filter fun e => e.originNodeId = W.nodeId n

variable [DecidableEq ν]

/-- An operation has taken node `n` to `s'`. -/
def operated (n : ν) (op : NodeOp) (s' : SharedState D) : Cluster ν D :=
  { C with
    node := Function.update C.node n s'
    instant := Function.update C.instant n (op.instant (C.env W n) (C.instant n) (C.node n))
    built := C.built ++ s'.minted.drop (C.node n).minted.length
    sent := C.sent ++ s'.batchQueue }

/-- Node `n` has come up in the state `s'`. -/
def started (n : ν) (s' : SharedState D) : Cluster ν D :=
  { C with
    node := Function.update C.node n s'
    lives := Function.update C.lives n (C.lives n + 1)
    base := Function.update C.base n (C.node n).storage.events
    instant := Function.update C.instant n
      (max (C.instant n) ((W.env n (C.lives n + 1)).clock 0)) }

/-- Clients send requests of `R`; an inserted event is one that some node has accepted, and the
batch writer flushes what has been sent to it. -/
def Admits (R : LocalCreateInput → Prop) (n : ν) : NodeOp → Prop
  | .create input => R input
  | .insert e => e ∈ C.sent
  | .flush batch => ∀ e ∈ batch, e ∈ C.accepted n
  | _ => True

inductive Step (R : LocalCreateInput → Prop) (C : Cluster ν D) : Cluster ν D → Prop
  /-- An operation runs to its end, with a success or with an error. -/
  | operate {n : ν} {op : NodeOp} {s' : SharedState D} :
      1 ≤ C.lives n → C.Admits R n op →
      NodeM.exec (op.program (C.env W n)) (C.node n) = (some (), s') →
      Step R C (C.operated W n op s')
  /-- A node that is down, or that goes down, starts over its storage. -/
  | start {n : ν} {s' : SharedState D} :
      C.lives n + 1 < 2 ^ 32 → Starts (W.env n (C.lives n + 1)) (C.node n).storage s' →
      Step R C (C.started W n s')

inductive Run (R : LocalCreateInput → Prop) : Cluster ν D → Prop
  | init : Run R down
  | step {C C' : Cluster ν D} : Run R C → Step W R C C' → Run R C'

section Frames

variable {W C} {n m : ν} {op : NodeOp} {s' : SharedState D}

@[simp] lemma node_operated : (C.operated W n op s').node n = s' := Function.update_self ..

lemma node_operated_of_ne (h : m ≠ n) : (C.operated W n op s').node m = C.node m :=
  Function.update_of_ne h ..

@[simp] lemma instant_operated : (C.operated W n op s').instant n =
    op.instant (C.env W n) (C.instant n) (C.node n) := Function.update_self ..

lemma instant_operated_of_ne (h : m ≠ n) : (C.operated W n op s').instant m = C.instant m :=
  Function.update_of_ne h ..

@[simp] lemma node_started : (C.started W n s').node n = s' := Function.update_self ..

lemma node_started_of_ne (h : m ≠ n) : (C.started W n s').node m = C.node m :=
  Function.update_of_ne h ..

@[simp] lemma lives_started : (C.started W n s').lives n = C.lives n + 1 :=
  Function.update_self ..

lemma lives_started_of_ne (h : m ≠ n) : (C.started W n s').lives m = C.lives m :=
  Function.update_of_ne h ..

@[simp] lemma base_started : (C.started W n s').base n = (C.node n).storage.events :=
  Function.update_self ..

lemma base_started_of_ne (h : m ≠ n) : (C.started W n s').base m = C.base m :=
  Function.update_of_ne h ..

@[simp] lemma instant_started : (C.started W n s').instant n =
    max (C.instant n) ((W.env n (C.lives n + 1)).clock 0) := Function.update_self ..

lemma instant_started_of_ne (h : m ≠ n) : (C.started W n s').instant m = C.instant m :=
  Function.update_of_ne h ..

end Frames

end Cluster

/-! ## Larger worlds of events -/

section Mono

variable {E E' : Set Event} {env : Env D} {hasher : Hasher D} {t : ℕ} {base lost : List Event}
  {s : SharedState D}

lemma BooksOf.widen (h : BooksOf E hasher t base lost s) (hsub : E ⊆ E') :
    BooksOf E' hasher t base lost s :=
  { h with known := fun e he => hsub (h.known e he) }

lemma Kept.widen (h : Kept env E t base lost s) (hsub : E ⊆ E') : Kept env E' t base lost s :=
  { h with books := h.books.widen hsub }

lemma Storage.WellFormed.widen {nodeId : String} {st : Storage D} (h : st.WellFormed E nodeId)
    (hsub : E ⊆ E') : st.WellFormed E' nodeId :=
  { h with world := fun e he => hsub (h.world e he) }

lemma identified_of_nodup {es : List Event} (hids : (es.map Event.eventId).Nodup)
    (hkeys : (es.map Event.originKey).Nodup) : Identified {e | e ∈ es} where
  eventId _ he _ he' h := List.inj_on_of_nodup_map hids he he' h
  originKey _ he _ he' h := List.inj_on_of_nodup_map hkeys he he' h

end Mono

/-! ## The invariant -/

structure Cluster.Sound (W : World ν D) (C : Cluster ν D) : Prop where
  ids : (C.built.map Event.eventId).Nodup
  keys : (C.built.map Event.originKey).Nodup
  type : ∀ e ∈ C.built, e.type ≠ .bucketDelete
  /-- An id has been drawn by the node that has built the event. -/
  drawn : ∀ e ∈ C.built, ∃ n k i, e.eventId = (W.env n k).freshId i ∧ 1 ≤ k ∧
    (k < C.lives n ∨ k = C.lives n ∧ i < (C.node n).idsDrawn)
  numbered : ∀ n, Numbered (C.env W n) (C.lives n) (C.own W n) (C.node n)
  minted : ∀ n, (C.node n).minted.Sublist C.built
  sent : ∀ e ∈ C.sent, e ∈ C.built
  queued : ∀ n, ∀ e ∈ (C.node n).batchQueue, e ∈ C.sent
  /-- An event of a node does not reach others before the node has recorded it. -/
  recorded : ∀ n, ∀ e ∈ C.sent, e ∈ (C.node n).minted → e ∈ C.accepted n
  kept : ∀ n, 1 ≤ C.lives n → ∃ lost,
    Kept (C.env W n) {e | e ∈ C.built} (C.instant n) (C.base n) lost (C.node n)
  stored : ∀ n, (C.node n).storage.WellFormed {e | e ∈ C.built} (W.nodeId n)
  bound : ∀ n, C.lives n < 2 ^ 32

namespace Cluster.Sound

variable {W : World ν D} {C : Cluster ν D}

lemma identified (h : C.Sound W) : Identified {e | e ∈ C.built} :=
  identified_of_nodup h.ids h.keys

lemma down : (Cluster.down : Cluster ν D).Sound W where
  ids := List.nodup_nil
  keys := List.nodup_nil
  type := nofun
  drawn := nofun
  numbered n := by
    refine ⟨nofun, fun bucket a ha => ?_, fun bucket row _ hrow => ?_, fun bucket row hrow => ?_⟩
    · cases ha
    · cases hrow
    · cases hrow
  minted n := List.Sublist.refl _
  sent := nofun
  queued n := nofun
  recorded n := nofun
  kept n hup := by cases hup
  stored n := by constructor <;> simp [Cluster.down, SharedState.blank, Storage.empty]
  bound n := Nat.two_pow_pos 32

/-- What an operation issues is new to the cluster. -/
lemma issued (h : C.Sound W) {n : ν} {delivered new : List Event} {s' : SharedState D}
    (hnew : Issuing (C.env W n) (C.lives n) (C.own W n) delivered (C.node n) new s') :
    ((C.built ++ new).map Event.eventId).Nodup ∧ ((C.built ++ new).map Event.originKey).Nodup := by
  constructor
  · rw [List.map_append, List.nodup_append, hnew.ids]
    refine ⟨h.ids, (List.nodup_range' _).map fun i j hij => (W.freshId_inj hij).2.2, ?_⟩
    intro x hx y hy hxy
    obtain ⟨e, he, rfl⟩ := List.mem_map.1 hx
    obtain ⟨j, hj, rfl⟩ := List.mem_map.1 hy
    obtain ⟨m, k, i, hid, -, hbefore⟩ := h.drawn e he
    obtain ⟨rfl, rfl, rfl⟩ := W.freshId_inj (hid.symm.trans hxy)
    rw [List.mem_range'_1] at hj
    omega
  · rw [List.map_append, List.nodup_append]
    have hkeys := hnew.keys
    rw [List.map_append, List.nodup_append] at hkeys
    refine ⟨h.keys, hkeys.2.1, fun x hx y hy hxy => ?_⟩
    obtain ⟨e, he, rfl⟩ := List.mem_map.1 hx
    obtain ⟨e', he', rfl⟩ := List.mem_map.1 hy
    -- the origin key names the node
    have hnode : e.originNodeId = W.nodeId n := by
      have horigin : e.originNodeId = e'.originNodeId := congrArg (fun k => k.2.1) hxy
      rw [horigin, hnew.node e' he']
      exact W.nodeId_env n _
    have hown : e ∈ C.own W n := List.mem_filter.2 ⟨he, by simpa using hnode⟩
    exact hkeys.2.2 _ (List.mem_map_of_mem hown) _ hy hxy

/-! ## Steps -/

section Operate

variable {R : LocalCreateInput → Prop} {n : ν} {op : NodeOp} {s' : SharedState D}
  {new : List Event}

/-- What is delivered has been accepted by some node. -/
lemma delivered (hadmits : C.Admits R n op) : ∀ e ∈ op.delivered, e ∈ C.sent := by
  cases op with
  | insert e =>
      intro x hx
      rw [List.mem_singleton.1 hx]
      exact hadmits
  | _ => nofun

lemma issues (h : C.Sound W) (hup : 1 ≤ C.lives n) (hadmits : C.Admits R n op)
    (hrun : NodeM.exec (op.program (C.env W n)) (C.node n) = (some (), s')) :
    ∃ u, Issues (C.env W n) (C.lives n) (C.own W n) op.delivered (C.node n) u s' ∧
      ((∀ input, op = .create input → input.amount ≠ Int64.minValue) → u = []) := by
  obtain ⟨lost, hkept⟩ := h.kept n hup
  exact Issues.step (h.numbered n) (h.keys.sublist (List.filter_sublist.map _)) hup (h.bound n)
    hkept.unlocked (fun e he => h.type e (h.sent e (delivered hadmits e he))) hrun

/-- What an operation issues has not been built before. -/
lemma fresh (h : C.Sound W)
    (hnew : Issuing (C.env W n) (C.lives n) (C.own W n) op.delivered (C.node n) new s') :
    ∀ e ∈ new, e ∉ C.built := by
  intro e he hmem
  have hnodup := List.Nodup.of_map _ (h.issued hnew).1
  rw [List.nodup_append] at hnodup
  exact hnodup.2.2 e hmem e he rfl

/-- The operation is one of a history, in the world of the events built when it is over. -/
lemma nodeStep (h : C.Sound W) (hup : 1 ≤ C.lives n) (hadmits : C.Admits R n op)
    (hrun : NodeM.exec (op.program (C.env W n)) (C.node n) = (some (), s'))
    (hnew : Issuing (C.env W n) (C.lives n) (C.own W n) op.delivered (C.node n) new s') :
    NodeStep (C.env W n) {e | e ∈ C.built ++ new} (C.base n) op (C.node n) s' := by
  obtain ⟨lost, hkept⟩ := h.kept n hup
  have hminted : s'.minted.Sublist (C.built ++ new) := by
    rw [hnew.minted]
    exact (h.minted n).append_right new
  refine ⟨hrun, ?_, ⟨?_, fun e he => hminted.subset he, ?_⟩⟩
  · cases op with
    | insert e =>
        have he := h.sent e hadmits
        exact ⟨List.mem_append_left _ he, Event.metaTargetBucket_eq_none (h.type e he),
          h.recorded n e hadmits⟩
    | flush batch => exact hadmits
    | _ => trivial
  · exact hminted.nodup (List.Nodup.of_map _ (h.issued hnew).1)
  · intro e he hbefore hknown
    rw [hnew.minted, List.mem_append] at he
    apply h.fresh hnew e (he.resolve_left hbefore)
    rcases List.mem_append.1 hknown with hknown | hknown
    · exact hkept.books.known e (List.mem_append_left _ hknown)
    · exact h.sent e (delivered hadmits e hknown)

/-- An event in the queue after an operation has been sent before, or is new. -/
lemma sent_or_new (h : C.Sound W) (hadmits : C.Admits R n op)
    (hnew : Issuing (C.env W n) (C.lives n) (C.own W n) op.delivered (C.node n) new s') :
    ∀ e ∈ s'.batchQueue, e ∈ C.sent ∨ e ∈ new := by
  obtain ⟨rest, hqueue, hrest⟩ := hnew.queue
  intro e he
  rw [hqueue, List.mem_append] at he
  rcases he with he | he
  · exact .inl (h.queued n e he)
  · exact (hrest e he).imp (delivered hadmits e) id

variable [DecidableEq ν]

lemma built_operated (op : NodeOp)
    (hnew : Issuing (C.env W n) (C.lives n) (C.own W n) op.delivered (C.node n) new s') :
    (C.operated W n op s').built = C.built ++ new := by
  change C.built ++ s'.minted.drop (C.node n).minted.length = _
  rw [hnew.minted, List.drop_left]

lemma own_operated
    (hnew : Issuing (C.env W n) (C.lives n) (C.own W n) op.delivered (C.node n) new s') (m : ν) :
    (C.operated W n op s').own W m = C.own W m ++ if m = n then new else [] := by
  rw [Cluster.own, built_operated op hnew, List.filter_append]
  congr 1
  by_cases hm : m = n
  · rw [if_pos hm, List.filter_eq_self]
    intro e he
    simpa [hm] using (hnew.node e he).trans (W.nodeId_env n _)
  · rw [if_neg hm, List.filter_eq_nil_iff]
    intro e he hnode
    apply hm
    apply W.nodeId_injective
    rw [← W.nodeId_env n (C.lives n)]
    exact (of_decide_eq_true hnode).symm.trans (hnew.node e he)

/-- The step lemma, for an operation. -/
lemma operated (h : C.Sound W) (hup : 1 ≤ C.lives n) (hadmits : C.Admits R n op)
    (hrun : NodeM.exec (op.program (C.env W n)) (C.node n) = (some (), s')) :
    (C.operated W n op s').Sound W := by
  obtain ⟨lost, hkept⟩ := h.kept n hup
  obtain ⟨_, ⟨new, hnew, -⟩, -⟩ := h.issues hup hadmits hrun
  obtain ⟨hids, hkeys⟩ := h.issued hnew
  have hbuilt := built_operated op hnew
  have hsub : ({e | e ∈ C.built} : Set Event) ⊆ {e | e ∈ C.built ++ new} :=
    fun e he => List.mem_append_left _ he
  obtain ⟨u, hkept', -⟩ := (hkept.widen hsub).step (identified_of_nodup hids hkeys)
    (h.nodeStep hup hadmits hrun hnew)
  have hstored := History.wellFormed hkept'
  rw [show (C.env W n).nodeId = W.nodeId n from W.nodeId_env n _] at hstored
  constructor
  · rw [hbuilt]
    exact hids
  · rw [hbuilt]
    exact hkeys
  · rw [hbuilt]
    intro e he
    rcases List.mem_append.1 he with he | he
    · exact h.type e he
    · exact hnew.type e he
  · rw [hbuilt]
    intro e he
    rcases List.mem_append.1 he with he | he
    · obtain ⟨m, k, i, hid, hpos, hbefore⟩ := h.drawn e he
      refine ⟨m, k, i, hid, hpos, hbefore.imp id fun ⟨hk, hi⟩ => ⟨hk, ?_⟩⟩
      by_cases hm : m = n
      · subst hm
        rw [node_operated, hnew.drawn]
        omega
      · rw [node_operated_of_ne hm]
        exact hi
    · have hid := List.mem_map_of_mem (f := Event.eventId) he
      rw [hnew.ids, List.mem_map] at hid
      obtain ⟨i, hi, hid⟩ := hid
      refine ⟨n, C.lives n, i, hid.symm, hup, .inr ⟨rfl, ?_⟩⟩
      rw [List.mem_range'_1] at hi
      rw [node_operated, hnew.drawn]
      exact hi.2
  · intro m
    rw [own_operated hnew]
    by_cases hm : m = n
    · subst hm
      rw [if_pos rfl, node_operated]
      exact hnew.numbered
    · rw [if_neg hm, List.append_nil, node_operated_of_ne hm]
      exact h.numbered m
  · intro m
    rw [hbuilt]
    by_cases hm : m = n
    · subst hm
      rw [node_operated, hnew.minted]
      exact (h.minted m).append_right new
    · rw [node_operated_of_ne hm]
      exact (h.minted m).trans (List.sublist_append_left _ _)
  · intro e he
    rw [hbuilt]
    rcases List.mem_append.1 he with he | he
    · exact List.mem_append_left _ (h.sent e he)
    · rcases h.sent_or_new hadmits hnew e he with he | he
      · exact List.mem_append_left _ (h.sent e he)
      · exact List.mem_append_right _ he
  · intro m e he
    by_cases hm : m = n
    · subst hm
      rw [node_operated] at he
      exact List.mem_append_right _ he
    · rw [node_operated_of_ne hm] at he
      exact List.mem_append_left _ (h.queued m e he)
  · intro m e he hminted
    by_cases hm : m = n
    · subst hm
      rw [Cluster.accepted, node_operated]
      rw [node_operated, hnew.minted, List.mem_append] at hminted
      rcases List.mem_append.1 he with he | he
      · have hmem := hminted.resolve_right fun hmem => h.fresh hnew e hmem (h.sent e he)
        obtain ⟨rest, hqueue, -⟩ := hnew.queue
        rw [SharedState.acceptedSince, hqueue, ← List.append_assoc]
        exact List.mem_append_left _ (h.recorded m e he hmem)
      · exact List.mem_append_right _ he
    · rw [node_operated_of_ne hm] at hminted
      rw [Cluster.accepted, node_operated_of_ne hm]
      apply h.recorded m e _ hminted
      rcases List.mem_append.1 he with he | he
      · exact he
      · refine (h.sent_or_new hadmits hnew e he).resolve_right fun hmem => ?_
        exact h.fresh hnew e hmem ((h.minted m).subset hminted)
  · intro m hm'
    rw [hbuilt]
    by_cases hm : m = n
    · subst hm
      rw [node_operated, instant_operated]
      exact ⟨u ++ lost, hkept'⟩
    · rw [node_operated_of_ne hm, instant_operated_of_ne hm]
      obtain ⟨lostm, hkeptm⟩ := h.kept m hm'
      exact ⟨lostm, hkeptm.widen hsub⟩
  · intro m
    rw [hbuilt]
    by_cases hm : m = n
    · subst hm
      rw [node_operated]
      exact hstored
    · rw [node_operated_of_ne hm]
      exact (h.stored m).widen hsub
  · exact h.bound

end Operate

variable [DecidableEq ν]

/-- The step lemma, for a start. -/
lemma started (h : C.Sound W) {n : ν} {s' : SharedState D} (hbound : C.lives n + 1 < 2 ^ 32)
    (hs : Starts (W.env n (C.lives n + 1)) (C.node n).storage s') : (C.started W n s').Sound W := by
  have hst := h.stored n
  rw [← W.nodeId_env n (C.lives n + 1)] at hst
  have hkept := History.kept_of_starts h.identified hst hs
  have hstored := History.wellFormed hkept
  rw [W.nodeId_env] at hstored
  refine ⟨h.ids, h.keys, h.type, ?_, ?_, ?_, h.sent, ?_, ?_, ?_, ?_, ?_⟩
  · intro e he
    obtain ⟨m, k, i, hid, hpos, hbefore⟩ := h.drawn e he
    refine ⟨m, k, i, hid, hpos, ?_⟩
    by_cases hm : m = n
    · subst hm
      rw [lives_started]
      omega
    · rw [lives_started_of_ne hm, node_started_of_ne hm]
      exact hbefore
  · intro m
    by_cases hm : m = n
    · subst hm
      rw [Cluster.env, lives_started, node_started]
      refine (h.numbered m).restarted ?_ hs.rebuilt
      rw [Cluster.env, W.nodeId_env, W.nodeId_env]
    · rw [Cluster.env, lives_started_of_ne hm, node_started_of_ne hm]
      exact h.numbered m
  · intro m
    by_cases hm : m = n
    · subst hm
      rw [node_started, hs.rebuilt.minted]
      exact List.nil_sublist _
    · rw [node_started_of_ne hm]
      exact h.minted m
  · intro m e he
    by_cases hm : m = n
    · subst hm
      rw [node_started, hs.rebuilt.batchQueue] at he
      cases he
    · rw [node_started_of_ne hm] at he
      exact h.queued m e he
  · intro m e he hminted
    by_cases hm : m = n
    · subst hm
      rw [node_started, hs.rebuilt.minted] at hminted
      cases hminted
    · rw [node_started_of_ne hm] at hminted
      rw [Cluster.accepted, node_started_of_ne hm, base_started_of_ne hm]
      exact h.recorded m e he hminted
  · intro m hm'
    by_cases hm : m = n
    · subst hm
      rw [Cluster.env, lives_started, node_started, base_started, instant_started]
      exact ⟨[], { hkept with books := hkept.books.mono (le_max_right _ _) }⟩
    · rw [lives_started_of_ne hm] at hm'
      rw [Cluster.env, lives_started_of_ne hm, node_started_of_ne hm, base_started_of_ne hm,
        instant_started_of_ne hm]
      exact h.kept m hm'
  · intro m
    by_cases hm : m = n
    · subst hm
      rw [node_started]
      exact hstored
    · rw [node_started_of_ne hm]
      exact h.stored m
  · intro m
    by_cases hm : m = n
    · subst hm
      rw [lives_started]
      exact hbound
    · rw [lives_started_of_ne hm]
      exact h.bound m

/-- The run lemma. -/
theorem of_run {R : LocalCreateInput → Prop} (h : Cluster.Run W R C) : C.Sound W := by
  induction h with
  | init => exact down
  | step _ hstep ih =>
      cases hstep with
      | operate hup hadmits hrun => exact ih.operated hup hadmits hrun
      | start hbound hs => exact ih.started hbound hs

end Cluster.Sound

end Shardd
