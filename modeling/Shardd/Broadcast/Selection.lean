import Mathlib.Data.Nat.Init
import Mathlib.Data.String.Basic
import Shardd.Lib.Ranking

/-!
# The choice of a node (`libs/broadcast/src/mesh_client.rs`)

A client of the mesh ranks the nodes it knows twice: by round-trip time for lists, and with healthy
nodes in front for requests.  `best_node` shortlists by the first ranking and then takes the first
node of the second one, whereas `request_best_with_node` follows the second ranking throughout.

Whether a health report is still fresh is decided anew in every comparison, by the clock of that
moment.
-/

namespace Shardd

/-! ## Peers and nodes -/

/-- What the ranking reads of a health report. -/
structure HealthResponse where
  ready : Bool
  overloaded : Bool
  syncGap : ℕ
  inflightRequests : ℕ
  failedRequests : ℕ
  deriving DecidableEq

/-- A known peer; round-trip times are in nanoseconds. -/
structure PeerRecord where
  nodeId : Option String
  peerId : String
  pingRtt : Option ℕ
  lastDiscoveredAtUnixMs : ℕ
  lastHealthAtUnixMs : Option ℕ
  health : Option HealthResponse
  failureCount : ℕ
  cooldownUntilUnixMs : ℕ
  deriving DecidableEq

structure MeshNode where
  nodeId : String
  peerId : String
  pingRtt : Option ℕ
  lastDiscoveredAtUnixMs : ℕ
  lastHealthAtUnixMs : Option ℕ
  health : Option HealthResponse
  failureCount : ℕ
  cooldownUntilUnixMs : ℕ
  deriving DecidableEq

structure MeshClientConfig where
  peerTtlMs : ℕ
  healthTtlMs : ℕ
  topK : ℕ
  maxSyncGap : ℕ

/-- The peers a client knows, in the order in which they come from their map, whose keys are the
peer ids. -/
structure PeerTable where
  records : List PeerRecord
  nodup : (records.map (·.peerId)).Nodup

def PeerRecord.intoNode (record : PeerRecord) (nodeId : String) : MeshNode where
  nodeId := nodeId
  peerId := record.peerId
  pingRtt := record.pingRtt
  lastDiscoveredAtUnixMs := record.lastDiscoveredAtUnixMs
  lastHealthAtUnixMs := record.lastHealthAtUnixMs
  health := record.health
  failureCount := record.failureCount
  cooldownUntilUnixMs := record.cooldownUntilUnixMs

/-! ## Comparisons -/

namespace MeshNode

variable (node : MeshNode)

/-- `Duration::MAX` stands for a round-trip time that has not been measured. -/
def rtt : ℕ := node.pingRtt.getD ((2 ^ 64 - 1) * 1000000000 + 999999999)

/-- `health_rank`. -/
def healthRank : List ℕ :=
  match node.health with
  | some health =>
      [if health.ready then 0 else 1, if health.overloaded then 1 else 0, health.syncGap,
        health.inflightRequests, health.failedRequests]
  | none => [2, 1, 2 ^ 64 - 1, 2 ^ 64 - 1, 2 ^ 64 - 1]

/-- Ready, not overloaded and in sync, by the last health report. -/
def reportsHealthy (config : MeshClientConfig) : Bool :=
  node.health.any fun health =>
    health.ready && !health.overloaded && decide (health.syncGap ≤ config.maxSyncGap)

def preferredHealth (config : MeshClientConfig) (now : ℕ) : Bool :=
  node.reportsHealthy config &&
    node.lastHealthAtUnixMs.any fun last => decide (now - last ≤ config.healthTtlMs)

end MeshNode

def compareHealthRank : MeshNode → MeshNode → Ordering :=
  fun left right => List.compareLex compare left.healthRank right.healthRank

def compareForList : MeshNode → MeshNode → Ordering :=
  compareLex (compareOn (·.rtt)) (compareLex compareHealthRank (compareOn (·.nodeId)))

/-- What decides between nodes of which both or neither are preferred. -/
def compareUnpreferred : MeshNode → MeshNode → Ordering :=
  compareLex (compareOn (·.rtt)) (compareLex compareHealthRank
    (compareLex (compareOn (·.failureCount)) (compareOn (·.nodeId))))

/-- `compare_for_selection`; the clock is read for the left and then for the right node. -/
def compareForSelection (config : MeshClientConfig) (leftAt rightAt : ℕ) (left right : MeshNode) :
    Ordering :=
  (compare (right.preferredHealth config rightAt) (left.preferredHealth config leftAt)).then
    (compareUnpreferred left right)

instance : Std.TransCmp compareHealthRank where
  eq_swap := comparison_swap (List.compareLex compare) _ _
  isLE_trans {a b c} hab hbc :=
    @Std.TransCmp.isLE_trans _ (List.compareLex compare) _ a.healthRank b.healthRank c.healthRank
      hab hbc

instance : Std.TransCmp compareForList := by
  unfold compareForList
  infer_instance

instance : Std.TransCmp compareUnpreferred := by
  unfold compareUnpreferred
  infer_instance

/-- With one reading of the clock the nodes are compared by one total preorder. -/
instance (config : MeshClientConfig) (now : ℕ) :
    Std.TransCmp (compareForSelection config now now) :=
  inferInstanceAs (Std.TransCmp (compareLex
    (fun left right => compareOn (·.preferredHealth config now) right left) compareUnpreferred))

/-! ## The two paths -/

section Paths

variable (config : MeshClientConfig) (peers : PeerTable) (now : ℕ)

def collectNodes (freshOnly : Bool) : List MeshNode :=
  peers.records.filterMap fun record => do
    let nodeId ← record.nodeId
    if now < record.cooldownUntilUnixMs then none
    else if freshOnly && decide (config.peerTtlMs < now - record.lastDiscoveredAtUnixMs) then none
    else some (record.intoNode nodeId)

/-- The nodes both paths choose from: the stale ones only where there are no others. -/
def candidates : List MeshNode :=
  if collectNodes config peers now true = [] then collectNodes config peers now false
  else collectNodes config peers now true

def allNodes : List MeshNode := sortBy compareForList (candidates config peers now)

def bestNode : Option MeshNode :=
  let candidates := candidates config peers now
  if candidates = [] then none
  else
    let topK := min (max config.topK 1) candidates.length
    let shortlist := (sortBy compareForList candidates).take topK
    (sortBy (compareForSelection config now now) shortlist).head?

/-- What becomes of a request to a node: an answer that is passed on, an error after which the next
node is tried, or no answer. -/
inductive NodeReply
  | answered
  | retryable
  | failed

variable (validPeerId : String → Bool) (reply : MeshNode → NodeReply)

/-- The loop of `request_best_with_node`: the nodes to which the request is sent, and the one whose
answer is passed on. -/
def tryNodes : List MeshNode → List MeshNode × Option MeshNode
  | [] => ([], none)
  | node :: rest =>
      if !validPeerId node.peerId then tryNodes rest
      else match reply node with
        | .answered => ([node], some node)
        | .retryable | .failed => (node :: (tryNodes rest).1, (tryNodes rest).2)

def requestBestWithNode : List MeshNode × Option MeshNode :=
  tryNodes validPeerId reply
    (sortBy (compareForSelection config now now) (allNodes config peers now))

end Paths

/-! ## When they agree -/

/-- The node is among the first `top_k` of the list. -/
def Shortlisted (config : MeshClientConfig) (nodes : List MeshNode) (m : MeshNode) : Prop :=
  nodes.countP (fun c => decide (Precedes compareForList nodes c m)) < max config.topK 1

/-- Selection ranks `a` before `b`, nodes that compare as equal standing as in the list. -/
def SelectedBefore (config : MeshClientConfig) (now : ℕ) (nodes : List MeshNode)
    (a b : MeshNode) : Prop :=
  compareForSelection config now now a b = .lt ∨
    compareForSelection config now now a b = .eq ∧ Precedes compareForList nodes a b

section Agreement

variable {config : MeshClientConfig} {peers : PeerTable} {now : ℕ}

lemma head?_tryNodes (validPeerId : String → Bool) (reply : MeshNode → NodeReply)
    (nodes : List MeshNode) :
    (tryNodes validPeerId reply nodes).1.head? =
      nodes.find? fun node => validPeerId node.peerId := by
  induction nodes with
  | nil => rfl
  | cons node rest ih =>
      unfold tryNodes
      by_cases hvalid : validPeerId node.peerId = true
      · rw [if_neg (by simp [hvalid]),
          List.find?_cons_of_pos (p := fun node : MeshNode => validPeerId node.peerId) hvalid]
        cases reply node <;> rfl
      · rw [if_pos (by simp [hvalid]),
          List.find?_cons_of_neg (p := fun node : MeshNode => validPeerId node.peerId) hvalid, ih]

lemma nodup_collectNodes (freshOnly : Bool) : (collectNodes config peers now freshOnly).Nodup := by
  have hids : ((collectNodes config peers now freshOnly).map (·.peerId)).Nodup := by
    refine peers.nodup.sublist ?_
    unfold collectNodes
    induction peers.records with
    | nil => exact List.Sublist.slnil
    | cons record records ih =>
        rw [List.filterMap_cons]
        split
        next => exact ih.cons _
        next node hnode =>
          have hid : node.peerId = record.peerId := by
            simp only [Option.bind_eq_bind, Option.bind_eq_some_iff] at hnode
            obtain ⟨nodeId, -, hnode⟩ := hnode
            split at hnode
            · cases hnode
            · split at hnode
              · cases hnode
              · rw [← Option.some.inj hnode]
                rfl
          rw [List.map_cons, List.map_cons, hid]
          exact ih.cons_cons _
  exact hids.of_map

lemma nodup_candidates : (candidates config peers now).Nodup := by
  unfold candidates
  split
  · exact nodup_collectNodes false
  · exact nodup_collectNodes true

variable (config peers now) in
/-- `best_node` names the shortlisted node that is ranked before all others on the shortlist. -/
lemma bestNode_eq_some_iff {m : MeshNode} :
    bestNode config peers now = some m ↔
      m ∈ candidates config peers now ∧ Shortlisted config (candidates config peers now) m ∧
        ∀ c ∈ candidates config peers now, Shortlisted config (candidates config peers now) c →
          c ≠ m → SelectedBefore config now (candidates config peers now) m c := by
  set nodes := candidates config peers now with hnodes
  have hnodup : nodes.Nodup := nodup_candidates
  have hlist : (sortBy compareForList nodes).Nodup := nodup_sortBy hnodup
  have hmem : ∀ c, c ∈ (sortBy compareForList nodes).take (max config.topK 1) ↔
      c ∈ nodes ∧ Shortlisted config nodes c := fun c => by
    refine ⟨fun hc => ?_, fun hc => (mem_take_sortBy_iff hnodup hc.1).2 hc.2⟩
    have hc' := mem_sortBy.1 (List.mem_of_mem_take hc)
    exact ⟨hc', (mem_take_sortBy_iff hnodup hc').1 hc⟩
  by_cases hempty : nodes = []
  · have hnone : bestNode config peers now = none := by
      unfold bestNode
      rw [← hnodes, if_pos hempty]
    simp [hnone, hempty]
  · have hsome : bestNode config peers now = (sortBy (compareForSelection config now now)
        ((sortBy compareForList nodes).take (max config.topK 1))).head? := by
      have htake : (sortBy compareForList nodes).take (min (max config.topK 1) nodes.length) =
          (sortBy compareForList nodes).take (max config.topK 1) := by
        rw [List.take_eq_take_iff, (sortBy_perm nodes).length_eq]
        omega
      unfold bestNode
      rw [← hnodes, if_neg hempty]
      dsimp only
      rw [htake]
    have hsub := List.take_sublist (max config.topK 1) (sortBy compareForList nodes)
    rw [hsome, head?_sortBy_eq_some_iff (hlist.sublist hsub), hmem, and_assoc]
    refine and_congr_right fun hm => and_congr_right fun hshort => ?_
    have hiff : ∀ c ∈ nodes, Shortlisted config nodes c → c ≠ m →
        (Precedes (compareForSelection config now now)
          ((sortBy compareForList nodes).take (max config.topK 1)) m c ↔
            SelectedBefore config now nodes m c) := fun c hc hcshort hne => by
      rw [Precedes.sublist hlist hsub ((hmem m).2 ⟨hm, hshort⟩) ((hmem c).2 ⟨hc, hcshort⟩)
        hne.symm, precedes_sortBy hnodup hm hc hne.symm]
      rfl
    constructor
    · exact fun h c hc hcshort hne =>
        (hiff c hc hcshort hne).1 (h c ((hmem c).2 ⟨hc, hcshort⟩) hne)
    · intro h c hc hne
      obtain ⟨hc, hcshort⟩ := (hmem c).1 hc
      exact (hiff c hc hcshort hne).2 (h c hc hcshort hne)

variable (config peers now) in
/-- The first request goes to the node that is ranked before all others with a valid peer id. -/
lemma firstTried_eq_some_iff (validPeerId : String → Bool) (reply : MeshNode → NodeReply)
    {m : MeshNode} :
    (requestBestWithNode config peers now validPeerId reply).1.head? = some m ↔
      m ∈ candidates config peers now ∧ validPeerId m.peerId = true ∧
        ∀ c ∈ candidates config peers now, validPeerId c.peerId = true → c ≠ m →
          SelectedBefore config now (candidates config peers now) m c := by
  have hnodup : (candidates config peers now).Nodup := nodup_candidates
  have hlist : (allNodes config peers now).Nodup := nodup_sortBy hnodup
  have hmem : ∀ c, c ∈ allNodes config peers now ↔ c ∈ candidates config peers now :=
    fun c => mem_sortBy
  rw [requestBestWithNode, head?_tryNodes, find?_sortBy_eq_some_iff hlist, hmem]
  refine and_congr_right fun hm => and_congr_right fun _ => ?_
  have hiff : ∀ c ∈ candidates config peers now, c ≠ m →
      (Precedes (compareForSelection config now now) (allNodes config peers now) m c ↔
        SelectedBefore config now (candidates config peers now) m c) := fun c hc hne =>
    precedes_sortBy hnodup hm hc hne.symm
  constructor
  · exact fun h c hc hvalid hne => (hiff c hc hne).1 (h c ((hmem c).2 hc) hvalid hne)
  · exact fun h c hc hvalid hne =>
      (hiff c ((hmem c).1 hc) hne).2 (h c ((hmem c).1 hc) hvalid hne)

/-- Where there is a candidate, one is named. -/
lemma exists_bestNode (h : candidates config peers now ≠ []) :
    ∃ m, bestNode config peers now = some m := by
  unfold bestNode
  rw [if_neg h]
  refine Option.isSome_iff_exists.1 ?_
  rw [List.isSome_head?, ne_eq, ← List.length_eq_zero_iff, (sortBy_perm _).length_eq,
    List.length_take, (sortBy_perm _).length_eq]
  have hlength := List.length_pos_iff.2 h
  omega

/-- **The two paths.**  `best_node` names the node to which the first request goes exactly when
there is no candidate at all, or some shortlisted candidate with a valid peer id is ranked before
every other candidate that is shortlisted or has a valid peer id. -/
theorem bestNode_eq_firstTried_iff (config : MeshClientConfig) (peers : PeerTable) (now : ℕ)
    (validPeerId : String → Bool) (reply : MeshNode → NodeReply) :
    bestNode config peers now =
        (requestBestWithNode config peers now validPeerId reply).1.head? ↔
      candidates config peers now = [] ∨
        ∃ m ∈ candidates config peers now, validPeerId m.peerId = true ∧
          Shortlisted config (candidates config peers now) m ∧
          ∀ c ∈ candidates config peers now, c ≠ m →
            validPeerId c.peerId = true ∨ Shortlisted config (candidates config peers now) c →
            SelectedBefore config now (candidates config peers now) m c := by
  have hbest := @bestNode_eq_some_iff config peers now
  have hfirst := @firstTried_eq_some_iff config peers now validPeerId reply
  constructor
  · intro heq
    refine or_iff_not_imp_left.2 fun hnodes => ?_
    obtain ⟨m, hm⟩ := exists_bestNode hnodes
    obtain ⟨hmem, hshort, hbefore⟩ := hbest.1 hm
    obtain ⟨-, hvalid, hbefore'⟩ := hfirst.1 (heq ▸ hm)
    exact ⟨m, hmem, hvalid, hshort, fun c hc hne hor =>
      hor.elim (fun h => hbefore' c hc h hne) fun h => hbefore c hc h hne⟩
  · rintro (hnone | ⟨m, hmem, hvalid, hshort, hbefore⟩)
    · have hbest' : bestNode config peers now = none := by
        unfold bestNode
        rw [if_pos hnone]
      rw [hbest']
      rcases hhead : (requestBestWithNode config peers now validPeerId reply).1.head? with _ | m
      · rfl
      · exact absurd (hfirst.1 hhead).1 (hnone ▸ List.not_mem_nil)
    · rw [hbest.2 ⟨hmem, hshort, fun c hc h hne => hbefore c hc hne (.inr h)⟩,
        hfirst.2 ⟨hmem, hvalid, fun c hc h hne => hbefore c hc hne (.inl h)⟩]

end Agreement

section Hidden

/-- The defaults, with `top_k` at 3. -/
def defaultConfig : MeshClientConfig where
  peerTtlMs := 20000
  healthTtlMs := 15000
  topK := 3
  maxSyncGap := 64

/-- A peer just seen, `ms` milliseconds away, whose health was reported at `reportedAt`. -/
def reportingPeer (name : String) (ms : ℕ) (ready : Bool) (reportedAt : ℕ) : PeerRecord where
  nodeId := some name
  peerId := name
  pingRtt := some (ms * 1000000)
  lastDiscoveredAtUnixMs := reportedAt
  lastHealthAtUnixMs := some reportedAt
  health := some ⟨ready, false, 0, 0, 0⟩
  failureCount := 0
  cooldownUntilUnixMs := 0

/-- Three near nodes that are not ready, and one far node that is. -/
def fourPeers : PeerTable where
  records := [reportingPeer "a" 1 false 1000, reportingPeer "b" 2 false 1000,
    reportingPeer "c" 3 false 1000, reportingPeer "d" 4 true 1000]
  nodup := by decide

theorem bestNode_ne_firstTried :
    bestNode defaultConfig fourPeers 1000 = some ((reportingPeer "a" 1 false 1000).intoNode "a") ∧
      (requestBestWithNode defaultConfig fourPeers 1000 (fun _ => true)
        fun _ => .answered).1.head? = some ((reportingPeer "d" 4 true 1000).intoNode "d") := by
  refine ⟨(bestNode_eq_some_iff defaultConfig fourPeers 1000).2 ?_,
    (firstTried_eq_some_iff defaultConfig fourPeers 1000 _ _).2 ?_⟩
  · unfold Shortlisted SelectedBefore
    decide
  · unfold SelectedBefore
    decide

end Hidden

/-! ## Sorting while the clock runs -/

/-- A comparison of two nodes, with the readings of the clock that it took. -/
structure Comparison where
  left : MeshNode
  right : MeshNode
  leftAt : ℕ
  rightAt : ℕ

def Comparison.result (config : MeshClientConfig) (c : Comparison) : Ordering :=
  compareForSelection config c.leftAt c.rightAt c.left c.right

/-- What may be compared while `nodes` are sorted between `lo` and `hi`: any two of them, in any
order and any number of times, with readings of the clock that do not decrease. -/
inductive SortRun (nodes : List MeshNode) (hi : ℕ) : ℕ → List Comparison → Prop
  | nil {lo : ℕ} : SortRun nodes hi lo []
  | cons {lo : ℕ} {c : Comparison} {cs : List Comparison} (hleft : c.left ∈ nodes)
      (hright : c.right ∈ nodes) (hne : c.left ≠ c.right) (hlo : lo ≤ c.leftAt)
      (hat : c.leftAt ≤ c.rightAt) (hhi : c.rightAt ≤ hi) (hrest : SortRun nodes hi c.rightAt cs) :
      SortRun nodes hi lo (c :: cs)

/-- A comparison says of two elements what a preorder says of them. -/
def Agrees {α : Type} (le : α → α → Prop) (a b : α) : Ordering → Prop
  | .lt => le a b ∧ ¬ le b a
  | .eq => le a b ∧ le b a
  | .gt => le b a ∧ ¬ le a b

/-- One total preorder agrees with all the comparisons. -/
def Consistent (config : MeshClientConfig) (cs : List Comparison) : Prop :=
  ∃ le : MeshNode → MeshNode → Prop, (∀ a b, le a b ∨ le b a) ∧
    (∀ a b c, le a b → le b c → le a c) ∧
    ∀ c ∈ cs, Agrees le c.left c.right (c.result config)

/-- Between `lo` and `hi` the node ceases to be preferred. -/
def Lapses (config : MeshClientConfig) (lo hi : ℕ) (x : MeshNode) : Prop :=
  x.preferredHealth config lo = true ∧ x.preferredHealth config hi = false

/-- A node that ceases to be preferred is the only one, stands behind all that stay preferred by
their round-trip time and the rest, and before all that are not preferred. -/
def Steady (config : MeshClientConfig) (nodes : List MeshNode) (lo hi : ℕ) : Prop :=
  ∀ x ∈ nodes, Lapses config lo hi x → ∀ y ∈ nodes, y ≠ x →
    ¬ Lapses config lo hi y ∧
    (y.preferredHealth config hi = true → compareUnpreferred y x = .lt) ∧
    (y.preferredHealth config lo = false → compareUnpreferred x y = .lt)

section Clock

variable {config : MeshClientConfig} {nodes : List MeshNode} {lo hi : ℕ}

/-- A report does not become fresh again. -/
lemma MeshNode.preferredHealth_antitone {x : MeshNode} {t t' : ℕ} (h : t ≤ t')
    (hx : x.preferredHealth config t' = true) : x.preferredHealth config t = true := by
  unfold MeshNode.preferredHealth at *
  rw [Bool.and_eq_true, Option.any_eq_true] at *
  obtain ⟨hhealthy, last, hlast, hfresh⟩ := hx
  refine ⟨hhealthy, last, hlast, decide_eq_true ?_⟩
  have hfresh := of_decide_eq_true hfresh
  omega

/-- The readings of a node that does not lapse are all the same. -/
lemma MeshNode.preferredHealth_eq {x : MeshNode} {t : ℕ} (h : ¬ Lapses config lo hi x)
    (hlo : lo ≤ t) (hhi : t ≤ hi) : x.preferredHealth config t = x.preferredHealth config lo := by
  by_cases hend : x.preferredHealth config hi = true
  · rw [preferredHealth_antitone hhi hend, preferredHealth_antitone (hlo.trans hhi) hend]
  · have hstart : x.preferredHealth config lo = false := by
      rw [← Bool.not_eq_true]
      exact fun hstart => h ⟨hstart, Bool.not_eq_true _ ▸ hend⟩
    rw [hstart, ← Bool.not_eq_true]
    intro ht
    rw [preferredHealth_antitone hlo ht] at hstart
    cases hstart

lemma SortRun.mem {cs : List Comparison} (h : SortRun nodes hi lo cs) {c : Comparison}
    (hc : c ∈ cs) : c.left ∈ nodes ∧ c.right ∈ nodes ∧ c.left ≠ c.right ∧ lo ≤ c.leftAt ∧
      c.leftAt ≤ c.rightAt ∧ c.rightAt ≤ hi := by
  induction h with
  | nil => cases hc
  | cons hleft hright hne hlo hat hhi _ ih =>
      rcases List.mem_cons.1 hc with rfl | hc
      · exact ⟨hleft, hright, hne, hlo, hat, hhi⟩
      · obtain ⟨hleft', hright', hne', hlo', hat', hhi'⟩ := ih hc
        exact ⟨hleft', hright', hne', hlo.trans (hat.trans hlo'), hat', hhi'⟩

lemma compareForSelection_swap (t t' : ℕ) (a b : MeshNode) :
    compareForSelection config t t' a b = (compareForSelection config t' t b a).swap := by
  unfold compareForSelection
  rw [Ordering.swap_then, ← comparison_swap compareUnpreferred, ← Std.OrientedOrd.eq_swap]

/-- Against a node that does not lapse, one that does compares the same at all times. -/
lemma compare_lapsing (hsteady : Steady config nodes lo hi) {x y : MeshNode} {t t' : ℕ}
    (hx : x ∈ nodes) (hy : y ∈ nodes) (hne : y ≠ x) (hlapse : Lapses config lo hi x) (hlo : lo ≤ t')
    (hhi : t' ≤ hi) :
    compareForSelection config t t' x y =
      if y.preferredHealth config lo = true then .gt else .lt := by
  obtain ⟨hylapse, hfirst, hlast⟩ := hsteady x hx hlapse y hy hne
  unfold compareForSelection
  rw [MeshNode.preferredHealth_eq hylapse hlo hhi]
  by_cases hstart : y.preferredHealth config lo = true
  · have hend : y.preferredHealth config hi = true := by
      rwa [MeshNode.preferredHealth_eq hylapse (hlo.trans hhi) le_rfl]
    have hgt := Std.OrientedCmp.gt_of_lt (hfirst hend)
    rw [if_pos hstart, hstart, hgt]
    cases x.preferredHealth config t <;> rfl
  · rw [if_neg hstart, Bool.eq_false_iff.2 hstart, hlast (Bool.eq_false_iff.2 hstart)]
    cases x.preferredHealth config t <;> rfl

/-- All comparisons of two nodes have one result. -/
lemma compare_steady (hsteady : Steady config nodes lo hi) {a b : MeshNode} {t t' : ℕ}
    (ha : a ∈ nodes) (hb : b ∈ nodes) (hne : a ≠ b) (hlo : lo ≤ t) (hhi : t ≤ hi) (hlo' : lo ≤ t')
    (hhi' : t' ≤ hi) :
    compareForSelection config t t' a b = compareForSelection config lo lo a b := by
  have hstart : lo ≤ hi := hlo.trans hhi
  by_cases hla : Lapses config lo hi a
  · rw [compare_lapsing hsteady ha hb hne.symm hla hlo' hhi',
      compare_lapsing hsteady ha hb hne.symm hla le_rfl hstart]
  · by_cases hlb : Lapses config lo hi b
    · rw [compareForSelection_swap, compare_lapsing hsteady hb ha hne hlb hlo hhi,
        compareForSelection_swap, compare_lapsing hsteady hb ha hne hlb le_rfl hstart]
    · unfold compareForSelection
      rw [MeshNode.preferredHealth_eq hla hlo hhi, MeshNode.preferredHealth_eq hlb hlo' hhi']

lemma consistent_of_steady (hsteady : Steady config nodes lo hi) {cs : List Comparison}
    (h : SortRun nodes hi lo cs) : Consistent config cs := by
  refine ⟨fun a b => (compareForSelection config lo lo a b).isLE = true, fun a b => ?_,
    fun a b c hab hbc => Std.TransCmp.isLE_trans hab hbc, fun c hc => ?_⟩
  · dsimp only
    rw [compareForSelection_swap lo lo b a]
    cases compareForSelection config lo lo a b <;> simp
  · obtain ⟨hleft, hright, hne, hlo, hat, hhi⟩ := h.mem hc
    have hsame := compare_steady hsteady hleft hright hne hlo (hat.trans hhi) (hlo.trans hat) hhi
    rw [Comparison.result, hsame]
    have hswap : compareForSelection config lo lo c.right c.left = _ :=
      compareForSelection_swap lo lo c.right c.left
    rcases hcmp : compareForSelection config lo lo c.left c.right with _ | _ | _ <;>
      rw [hcmp] at hswap <;> simp [Agrees, hcmp, hswap]

lemma Agrees.unique {α : Type} {le : α → α → Prop} {a b : α} {o o' : Ordering}
    (h : Agrees le a b o) (h' : Agrees le a b o') : o = o' := by
  cases o <;> cases o' <;> simp_all [Agrees]

/-- Where all runs are consistent, two nodes compare the same at any two times. -/
lemma compare_eq_of_consistent
    (hall : ∀ cs, SortRun nodes hi lo cs → Consistent config cs) {a b : MeshNode}
    {t₁ t₁' t₂ t₂' : ℕ} (ha : a ∈ nodes) (hb : b ∈ nodes) (hne : a ≠ b) (hlo : lo ≤ t₁)
    (h₁ : t₁ ≤ t₁') (h₁₂ : t₁' ≤ t₂) (h₂ : t₂ ≤ t₂') (hhi : t₂' ≤ hi) :
    compareForSelection config t₁ t₁' a b = compareForSelection config t₂ t₂' a b := by
  have hrun : SortRun nodes hi lo [⟨a, b, t₁, t₁'⟩, ⟨a, b, t₂, t₂'⟩] :=
    .cons ha hb hne hlo h₁ (h₁₂.trans (h₂.trans hhi)) (.cons ha hb hne h₁₂ h₂ hhi .nil)
  obtain ⟨le, -, -, hagrees⟩ := hall _ hrun
  exact (hagrees _ List.mem_cons_self).unique
    (hagrees _ (List.mem_cons_of_mem _ List.mem_cons_self))

end Clock

/-- **Sorting while the clock runs.**  All comparisons made between `lo` and `hi` are consistent
with a total preorder exactly when at most one node ceases to be preferred in this time, and stands
where it stands anyway. -/
theorem consistent_iff_steady (config : MeshClientConfig) (nodes : List MeshNode) (lo hi : ℕ) :
    (∀ cs, SortRun nodes hi lo cs → Consistent config cs) ↔ Steady config nodes lo hi := by
  refine ⟨fun hall x hx hlapse y hy hne => ?_, fun hsteady cs => consistent_of_steady hsteady⟩
  have horder : lo ≤ hi := by
    by_contra hlt
    have hfalse := MeshNode.preferredHealth_antitone (Nat.le_of_not_le hlt) hlapse.1
    rw [hlapse.2] at hfalse
    cases hfalse
  refine ⟨fun hlapse' => ?_, fun hpreferred => ?_, fun hunpreferred => ?_⟩
  · -- read between the two lapses, each of the two nodes stands before the other
    have hxy := compare_eq_of_consistent hall hx hy hne.symm le_rfl horder le_rfl le_rfl le_rfl
    have hyx := compare_eq_of_consistent hall hy hx hne le_rfl horder le_rfl le_rfl le_rfl
    unfold compareForSelection at hxy hyx
    rw [hlapse.1, hlapse.2, hlapse'.2] at hxy
    rw [hlapse.2, hlapse'.1, hlapse'.2] at hyx
    have hlt : compareUnpreferred x y = .lt := hxy.symm
    have hlt' : compareUnpreferred y x = .lt := hyx.symm
    rw [comparison_swap compareUnpreferred, hlt] at hlt'
    cases hlt'
  · have hyx := compare_eq_of_consistent hall hy hx hne le_rfl le_rfl horder le_rfl le_rfl
    unfold compareForSelection at hyx
    rw [hlapse.1, hlapse.2, hpreferred, MeshNode.preferredHealth_antitone horder hpreferred] at hyx
    exact hyx
  · have hxy := compare_eq_of_consistent hall hx hy hne.symm le_rfl le_rfl horder le_rfl le_rfl
    have hend : y.preferredHealth config hi = false := by
      rw [← Bool.not_eq_true]
      intro hend
      rw [MeshNode.preferredHealth_antitone horder hend] at hunpreferred
      cases hunpreferred
    unfold compareForSelection at hxy
    rw [hlapse.1, hlapse.2, hunpreferred, hend] at hxy
    exact hxy.symm

section Twice

/-- Nodes at growing distances, of which only the second one is ready; its report is fresh up to
16000. -/
def manyNodes : List MeshNode :=
  (List.range 21).map fun i =>
    (reportingPeer (toString i) (i + 1) (i == 1) 1000).intoNode (toString i)

def firstNode : MeshNode := (reportingPeer "0" 1 false 1000).intoNode "0"

def secondNode : MeshNode := (reportingPeer "1" 2 true 1000).intoNode "1"

/-- The second node is compared with the first one while runs are looked for, and once more when the
short run is sorted. -/
def comparedTwice : List Comparison :=
  [⟨secondNode, firstNode, 16000, 16000⟩, ⟨secondNode, firstNode, 16001, 16001⟩]

theorem not_consistent_comparedTwice :
    SortRun manyNodes 16001 16000 comparedTwice ∧ ¬ Consistent defaultConfig comparedTwice := by
  have hfirst : firstNode ∈ manyNodes := by decide
  have hsecond : secondNode ∈ manyNodes := by decide
  have hne : secondNode ≠ firstNode := by decide
  refine ⟨.cons hsecond hfirst hne (by decide) (by decide) (by decide)
    (.cons hsecond hfirst hne (by decide) (by decide) (by decide) .nil), ?_⟩
  rintro ⟨le, -, -, hagrees⟩
  have hbefore := hagrees _ List.mem_cons_self
  have hafter := hagrees _ (List.mem_cons_of_mem _ List.mem_cons_self)
  have hlt : (Comparison.mk secondNode firstNode 16000 16000).result defaultConfig = .lt := by
    decide
  have hgt : (Comparison.mk secondNode firstNode 16001 16001).result defaultConfig = .gt := by
    decide
  rw [hlt] at hbefore
  rw [hgt] at hafter
  exact hafter.2 hbefore.1

end Twice

end Shardd
