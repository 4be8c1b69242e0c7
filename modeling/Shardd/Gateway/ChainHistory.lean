import Shardd.Gateway.Blocks
import Shardd.Recovery.Listing

/-!
# The chain over time

The blocks are numbered anew at every request, from the listing that a node then puts together.  A
block that has been served is served again by the same node, under its number and under its hash, as
long as whatever the node accepts for the bucket comes after all that it has listed, and no listing
misses an event that the node has accepted.  An event that is replicated late takes the number of a
block that has been served, and all blocks after it are moved.
-/

namespace Shardd

variable {D : Type}

/-! ## Requests to one node -/

/-- A node, and the requests for its events. -/
structure ChainNode (D : Type) where
  node : SharedState D
  requests : ℕ → EventsRequest

/-- The request `i` is served, or the node does something else. -/
structure ChainStep (env : Env D) (E : Set Event) (base : List Event) (i : ℕ)
    (c c' : ChainNode D) : Prop where
  step : EventsStep env E base (c.requests i) c.node (c'.requests i) c'.node
  others : ∀ k, k ≠ i → c'.requests k = c.requests k

/-- The step does the chain of the bucket no harm. -/
structure KeepsOrder (base : List Event) (bucket : String) (c c' : ChainNode D) : Prop where
  /-- The buffer still has what the first read of a listing has not returned. -/
  whole : ∀ i stored events, c.requests i = .reading stored → c'.requests i = .answered events →
    ∀ e ∈ c.node.acceptedSince base, e.bucket = bucket → e ∈ stored ∨ c.node.Shows e
  /-- What is accepted comes after what has been listed. -/
  later : ∀ i events, c.requests i = .answered events →
    ∀ e ∈ c'.node.acceptedSince base, e ∉ c.node.acceptedSince base → e.bucket = bucket →
      ∀ x ∈ events, x.bucket = bucket → x.beats e

/-- The runs in which every step meets the condition `C`. -/
abbrev ChainRun (env : Env D) (E : Set Event) (base : List Event)
    (C : ChainNode D → ChainNode D → Prop) : ChainNode D → ChainNode D → Prop :=
  Relation.ReflTransGen fun c c' => (∃ i, ChainStep env E base i c c') ∧ C c c'

/-- What has been served before is served afterwards. -/
structure MeshReplies.Extends (alloy : Alloy) (text : TextLib) (bucket : String)
    (before after : MeshReplies) : Prop where
  block : ∀ k entries,
    blockByNumber alloy text before bucket (hexNumber k) = .ok (.object entries) →
      blockByNumber alloy text after bucket (hexNumber k) = .ok (.object entries)
  byHash : ∀ hash entries,
    ethGetBlockByHash alloy text before bucket (oneParam hash) = .ok (.object entries) →
      ethGetBlockByHash alloy text after bucket (oneParam hash) = .ok (.object entries)
  number : ∀ m n, ethBlockNumber before bucket = .ok (.string (hexNumber m)) →
    ethBlockNumber after bucket = .ok (.string (hexNumber n)) → m ≤ n

/-! ## Chains of which one begins the other -/

section Prefix

variable {alloy : Alloy} {text : TextLib} {bucket : String} {before after : MeshReplies}

lemma buildBlockResponse_of_begins {events events' : List Event} (h : events <+: events') {k : ℕ}
    (hk : k < events.length) :
    buildBlockResponse alloy text events' ⟨k, hk.trans_le h.length_le⟩ =
      buildBlockResponse alloy text events ⟨k, hk⟩ := by
  obtain ⟨rest, rfl⟩ := h
  have hprev : k - 1 < events.length := by omega
  simp [buildBlockResponse, List.getElem_append_left, hk, hprev]

lemma findFinIdx?_of_begins {events events' : List Event} (h : events <+: events')
    {p : Event → Bool} {idx : Fin events.length} (hfind : events.findFinIdx? p = some idx) :
    events'.findFinIdx? p = some ⟨idx, idx.isLt.trans_le h.length_le⟩ := by
  obtain ⟨rest, rfl⟩ := h
  rw [List.findFinIdx?_eq_some_iff] at hfind ⊢
  obtain ⟨hidx, hbefore⟩ := hfind
  refine ⟨?_, fun j hj => ?_⟩
  · simpa [List.getElem_append_left] using hidx
  · have hlt : j.val < events.length := lt_trans hj idx.isLt
    simpa [List.getElem_append_left, hlt] using hbefore ⟨j, hlt⟩ hj

/-- A chain that begins with another one extends it. -/
lemma MeshReplies.Extends.of_begins
    (h : before.getBucketEventsSorted bucket <+: after.getBucketEventsSorted bucket) :
    before.Extends alloy text bucket after := by
  refine ⟨fun k entries hblock => ?_, fun hash entries hblock => ?_, fun m n hm hn => ?_⟩
  · by_cases hk : (if k < 2 ^ 64 then k else 0) < (before.getBucketEventsSorted bucket).length
    · have hbefore : blockByNumber alloy text before bucket (hexNumber k) = _ :=
        blockByNumber_of_index (blockIndex_hexNumber _ k) hk
      rw [blockByNumber_of_index (blockIndex_hexNumber _ k) (hk.trans_le h.length_le),
        buildBlockResponse_of_begins h hk, ← hbefore]
      exact hblock
    · rw [blockByNumber_of_le (blockIndex_hexNumber _ k) (Nat.not_lt.1 hk)] at hblock
      cases hblock
  · cases hfind : (before.getBucketEventsSorted bucket).findFinIdx? fun event =>
        (blockHashForEvent alloy event).text = text.lowercase hash with
    | none =>
        rw [ethGetBlockByHash, extractParamStr_oneParam] at hblock
        dsimp only [bind, Except.bind] at hblock
        rw [hfind] at hblock
        cases hblock
    | some idx =>
        rw [blockByHash_of_found rfl (findFinIdx?_of_begins h hfind),
          buildBlockResponse_of_begins h idx.isLt, ← blockByHash_of_found rfl hfind]
        exact hblock
  · obtain rfl := hexNumber_injective (Json.string.inj (Except.ok.inj hm))
    obtain rfl := hexNumber_injective (Json.string.inj (Except.ok.inj hn))
    exact h.length_le

end Prefix

/-! ## The invariant -/

lemma Event.compareBlocks_lt_iff {a b : Event} : a.compareBlocks b = .lt ↔ a.beats b := by
  rw [compareBlocks, Ordering.then_eq_lt, compare_lt_iff_lt, compare_eq_iff_eq, compare_lt_iff_lt]
  rfl

lemma Event.eventId_of_compareBlocks {a b : Event} (h : a.compareBlocks b = .eq) :
    a.eventId = b.eventId := by
  rw [compareBlocks, Ordering.then_eq_eq, compare_eq_iff_eq, compare_eq_iff_eq] at h
  exact h.2

instance : Std.TransCmp Event.compareBlocks :=
  inferInstanceAs (Std.TransCmp
    (compareLex (compareOn Event.createdAtUnixMs) (compareOn Event.eventId)))

/-- An answer lists only what the node has accepted, and what it does not list of the bucket comes
after all that it lists of it. -/
structure ListsBucket (base : List Event) (bucket : String) (s : SharedState D)
    (events : List Event) : Prop where
  nodup : events.Nodup
  accepted : ∀ e ∈ events, e ∈ s.acceptedSince base
  whole : s.deletedBuckets.containsKey bucket = true ∨
    ∀ e ∈ s.acceptedSince base, e.bucket = bucket →
      e ∈ events ∨ ∀ x ∈ events, x.bucket = bucket → x.beats e

/-- What holds of a request at any time. -/
def EventsRequest.InOrder (base : List Event) (bucket : String) (s : SharedState D) :
    EventsRequest → Prop
  | .waiting => True
  | .reading stored => stored.Nodup ∧ ∀ e ∈ stored, e ∈ s.acceptedSince base
  | .answered events => ListsBucket base bucket s events

/-- What holds of a node and its requests at any time. -/
structure ChainNode.InOrder (env : Env D) (E : Set Event) (base : List Event) (bucket : String)
    (c : ChainNode D) : Prop where
  serves : Serves env E base [] c.node
  requests : ∀ i, (c.requests i).InOrder base bucket c.node

section Steps

variable {env : Env D} {E : Set Event} {base known : List Event} {bucket : String}
  {s s' : SharedState D} {request request' : EventsRequest}

/-- What is to be kept may be chosen at any time. -/
lemma Serves.rebase (h : Serves env E base known s) {known' : List Event}
    (hknown : ∀ e ∈ known', e ∈ s.acceptedSince base) : Serves env E base known' s :=
  { h with retains := { h.retains with grown := hknown } }

/-- The accepted events and the tombstones only grow. -/
structure SharedState.Grows (base : List Event) (s s' : SharedState D) : Prop where
  accepted : ∀ e ∈ s.acceptedSince base, e ∈ s'.acceptedSince base
  tombs : ∀ bucket, s.deletedBuckets.containsKey bucket = true →
    s'.deletedBuckets.containsKey bucket = true

lemma EventsStep.grows (hE : Identified E) (h : Serves env E base [] s)
    (hstep : EventsStep env E base request s request' s') :
    Serves env E base [] s' ∧ s.Grows base s' := by
  cases hstep with
  | operate hmarks hstep =>
      have hall : Serves env E base (s.acceptedSince base) s := h.rebase fun _ he => he
      obtain ⟨hserves, htombs⟩ := hall.operate hE hmarks hstep
      exact ⟨hserves.rebase (by simp), hserves.retains.grown, htombs⟩
  | readStorage =>
      rw [SharedState.queryAllEvents_snd]
      exact ⟨h.asked, fun _ he => he, fun _ hdeleted => hdeleted⟩
  | readBuffer _ _ => exact ⟨h, fun _ he => he, fun _ hdeleted => hdeleted⟩

/-- A request that nobody serves meanwhile. -/
lemma EventsRequest.InOrder.grow (h : request.InOrder base bucket s) (hgrows : s.Grows base s')
    (hlater : ∀ events, request = .answered events →
      ∀ e ∈ s'.acceptedSince base, e ∉ s.acceptedSince base → e.bucket = bucket →
        ∀ x ∈ events, x.bucket = bucket → x.beats e) :
    request.InOrder base bucket s' := by
  cases request with
  | waiting => trivial
  | reading stored => exact ⟨h.1, fun e he => hgrows.accepted e (h.2 e he)⟩
  | answered events =>
      refine ⟨h.nodup, fun e he => hgrows.accepted e (h.accepted e he), ?_⟩
      refine h.whole.imp (hgrows.tombs bucket) fun hwhole e he hb => ?_
      by_cases hold : e ∈ s.acceptedSince base
      · exact hwhole e hold hb
      · exact .inr (hlater events rfl e he hold hb)

lemma Serves.mem_readStorage (h : Serves env E base known s) :
    (s.queryAllEvents env).1.Nodup ∧
      ∀ e ∈ (s.queryAllEvents env).1, e ∈ s.acceptedSince base := by
  obtain ⟨A, gone, hlogged⟩ := h.logged
  have hperm : s.storage.queryAllEventsSorted.Perm s.storage.events :=
    List.perm_insertionSort _ _
  rw [SharedState.queryAllEvents_fst]
  split
  · exact ⟨hperm.nodup_iff.2 h.retains.nodup,
      fun e he => hlogged.stored e (hperm.mem_iff.1 he)⟩
  · exact ⟨List.nodup_nil, by simp⟩

lemma Serves.accepted_of_buffered (h : Serves env E base known s) {k : OriginKey} {e : Event}
    (he : s.eventBuffer k = some e) : e ∈ s.acceptedSince base := by
  obtain ⟨A, gone, hlogged⟩ := h.logged
  exact (hlogged.split e).2 (.inl (hlogged.log.buffered k e he).1)

/-- The listing that a request is answered with. -/
lemma Serves.listsBucket (hE : Identified E) (h : Serves env E base [] s) {stored : List Event}
    (hstored : stored.Nodup) (haccepted : ∀ e ∈ stored, e ∈ s.acceptedSince base)
    (hwhole : ∀ e ∈ s.acceptedSince base, e.bucket = bucket → e ∈ stored ∨ s.Shows e)
    {keys : List OriginKey} (hkeys : keys.Nodup)
    (hall : ∀ k, k ∈ keys ↔ (s.eventBuffer k).isSome = true) :
    ListsBucket base bucket s (mergeBuffered stored (keys.filterMap s.eventBuffer)) ∧
      (s.deletedBuckets.containsKey bucket = true ∨
        ∀ e ∈ s.acceptedSince base, e.bucket = bucket →
          e ∈ mergeBuffered stored (keys.filterMap s.eventBuffer)) := by
  set known := (s.acceptedSince base).filter (·.bucket = bucket) with hknown
  have hserves : Serves env E base known s := h.rebase fun e he => (List.mem_filter.1 he).1
  have hread : EventsRequest.Complete E known s (.reading stored) := by
    refine ⟨hstored, fun e he => h.retains.world e (List.mem_append_left _ (haccepted e he)),
      fun e he => ?_⟩
    obtain ⟨he, hb⟩ := List.mem_filter.1 he
    exact (hwhole e he (of_decide_eq_true hb)).symm
  have hcomplete := hserves.readBuffer hE hread hkeys hall
  have hperm : (mergeBuffered stored (keys.filterMap s.eventBuffer)).Perm (stored ++
      (keys.filterMap s.eventBuffer).filter fun e => e.originKey ∉ stored.map Event.originKey) :=
    sortBy_perm _
  have hlisted : s.deletedBuckets.containsKey bucket = true ∨
      ∀ e ∈ s.acceptedSince base, e.bucket = bucket →
        e ∈ mergeBuffered stored (keys.filterMap s.eventBuffer) := by
    by_cases hgone : s.deletedBuckets.containsKey bucket = true
    · exact .inl hgone
    refine .inr fun e he hb => ?_
    have hcount := (hcomplete e (List.mem_filter.2 ⟨he, decide_eq_true hb⟩)).resolve_left
      (by rw [hb]; exact hgone)
    exact List.count_pos_iff.1 (by rw [hcount]; exact Nat.one_pos)
  refine ⟨⟨?_, fun e he => ?_, hlisted.imp id fun h e he hb => .inl (h e he hb)⟩, hlisted⟩
  · refine hperm.nodup_iff.2 (hstored.append ((h.nodup_filterMap hkeys).filter _) ?_)
    intro e he he'
    exact of_decide_eq_true (List.mem_filter.1 he').2 (List.mem_map_of_mem he)
  · rcases List.mem_append.1 (hperm.mem_iff.1 he) with he | he
    · exact haccepted e he
    · obtain ⟨k, -, hk⟩ := List.mem_filterMap.1 (List.mem_filter.1 he).1
      exact h.accepted_of_buffered hk

/-- The step lemma, for the request that is served. -/
lemma EventsStep.inOrder (hE : Identified E) (h : Serves env E base [] s)
    (hrequest : request.InOrder base bucket s)
    (hstep : EventsStep env E base request s request' s')
    (hwhole : ∀ stored events, request = .reading stored → request' = .answered events →
      ∀ e ∈ s.acceptedSince base, e.bucket = bucket → e ∈ stored ∨ s.Shows e)
    (hlater : ∀ events, request = .answered events →
      ∀ e ∈ s'.acceptedSince base, e ∉ s.acceptedSince base → e.bucket = bucket →
        ∀ x ∈ events, x.bucket = bucket → x.beats e) :
    request'.InOrder base bucket s' := by
  have hgrows := (hstep.grows hE h).2
  cases hstep with
  | operate hmarks hstep => exact hrequest.grow hgrows hlater
  | readStorage =>
      obtain ⟨hnodup, haccepted⟩ := h.mem_readStorage
      exact ⟨hnodup, fun e he => hgrows.accepted e (haccepted e he)⟩
  | readBuffer hkeys hall =>
      exact (h.listsBucket hE hrequest.1 hrequest.2 (hwhole _ _ rfl rfl) hkeys hall).1

/-- The step lemma. -/
lemma ChainStep.inOrder {c c' : ChainNode D} {i : ℕ} (hE : Identified E)
    (h : c.InOrder env E base bucket) (hstep : ChainStep env E base i c c')
    (hkeeps : KeepsOrder base bucket c c') : c'.InOrder env E base bucket := by
  obtain ⟨hserves, hgrows⟩ := hstep.step.grows hE h.serves
  refine ⟨hserves, fun k => ?_⟩
  by_cases hk : k = i
  · subst hk
    exact hstep.step.inOrder hE h.serves (h.requests k)
      (fun stored events => hkeeps.whole k stored events) fun events => hkeeps.later k events
  · rw [hstep.others k hk]
    exact (h.requests k).grow hgrows fun events => hkeeps.later k events

end Steps

/-! ## Runs -/

section Runs

variable {env : Env D} {E : Set Event} {base : List Event} {bucket : String}
  {c₀ c₁ c c' : ChainNode D} {i j : ℕ}

/-- What holds later on, when the request `j` had not begun in `c₁`. -/
structure ChainNode.Follows (base : List Event) (bucket : String) (c₁ : ChainNode D) (j : ℕ)
    (c : ChainNode D) : Prop where
  grows : c₁.node.Grows base c.node
  /-- Answers stand. -/
  answers : ∀ k events, c₁.requests k = .answered events → c.requests k = .answered events
  /-- The request is answered with what had been accepted before it. -/
  listed : ∀ events, c.requests j = .answered events →
    c.node.deletedBuckets.containsKey bucket = true ∨
      ∀ e ∈ c₁.node.acceptedSince base, e.bucket = bucket → e ∈ events

lemma SharedState.Grows.trans {s s' s'' : SharedState D} (h : s.Grows base s')
    (h' : s'.Grows base s'') : s.Grows base s'' :=
  ⟨fun e he => h'.accepted e (h.accepted e he), fun b hb => h'.tombs b (h.tombs b hb)⟩

/-- An answered request is served no more. -/
lemma EventsStep.answered {s s' : SharedState D} {request' : EventsRequest} {events : List Event}
    (h : EventsStep env E base (.answered events) s request' s') : request' = .answered events := by
  cases h with
  | operate _ _ => rfl

lemma ChainStep.answers (hstep : ChainStep env E base i c c') {k : ℕ} {events : List Event}
    (h : c.requests k = .answered events) : c'.requests k = .answered events := by
  by_cases hk : k = i
  · subst hk
    have hserved := hstep.step
    rw [h] at hserved
    exact hserved.answered
  · rw [hstep.others k hk]
    exact h

/-- A request that is answered in this step lists everything of the bucket. -/
lemma EventsStep.listed (hE : Identified E) {s s' : SharedState D}
    {request request' : EventsRequest} (h : Serves env E base [] s)
    (hrequest : request.InOrder base bucket s)
    (hstep : EventsStep env E base request s request' s') {events : List Event}
    (hanswered : request' = .answered events) (hnot : request ≠ .answered events)
    (hwhole : ∀ stored, request = .reading stored →
      ∀ e ∈ s.acceptedSince base, e.bucket = bucket → e ∈ stored ∨ s.Shows e) :
    s.deletedBuckets.containsKey bucket = true ∨
      ∀ e ∈ s.acceptedSince base, e.bucket = bucket → e ∈ events := by
  cases hstep with
  | operate _ _ => exact absurd hanswered hnot
  | readStorage => cases hanswered
  | readBuffer hkeys hall =>
      obtain rfl := EventsRequest.answered.inj hanswered
      exact (h.listsBucket hE hrequest.1 hrequest.2 (hwhole _ rfl) hkeys hall).2

lemma ChainStep.follows (hE : Identified E) (h : c.InOrder env E base bucket)
    (hfollows : c₁.Follows base bucket j c) (hstep : ChainStep env E base i c c')
    (hkeeps : KeepsOrder base bucket c c') : c₁.Follows base bucket j c' := by
  obtain ⟨-, hgrows⟩ := hstep.step.grows hE h.serves
  refine ⟨hfollows.grows.trans hgrows,
    fun k events hk => hstep.answers (hfollows.answers k events hk), fun events hanswered => ?_⟩
  by_cases hbefore : c.requests j = .answered events
  · exact (hfollows.listed events hbefore).imp_left (hgrows.tombs bucket)
  have hj : j = i := by
    by_contra hne
    exact hbefore (hstep.others j hne ▸ hanswered)
  subst hj
  have hlisted := hstep.step.listed hE h.serves (h.requests j) hanswered hbefore
    fun stored hreading => hkeeps.whole j stored events hreading hanswered
  exact hlisted.imp (hgrows.tombs bucket) fun hlisted e he hb =>
    hlisted e (hfollows.grows.accepted e he) hb

/-- The run lemma. -/
lemma ChainRun.inOrder (hE : Identified E) (h : c₀.InOrder env E base bucket)
    (hrun : ChainRun env E base (KeepsOrder base bucket) c₀ c) : c.InOrder env E base bucket := by
  induction hrun with
  | refl => exact h
  | tail _ hstep ih =>
      obtain ⟨⟨i, hstep⟩, hkeeps⟩ := hstep
      exact hstep.inOrder hE ih hkeeps

/-- The run lemma, for what comes after `c₁`. -/
lemma ChainRun.follows (hE : Identified E) (h : c₁.InOrder env E base bucket)
    (hwaiting : c₁.requests j = .waiting)
    (hrun : ChainRun env E base (KeepsOrder base bucket) c₁ c) :
    c₁.Follows base bucket j c := by
  induction hrun with
  | refl =>
      refine ⟨⟨fun _ he => he, fun _ hb => hb⟩, fun _ _ hk => hk, fun events hanswered => ?_⟩
      rw [hwaiting] at hanswered
      cases hanswered
  | tail hrun hstep ih =>
      obtain ⟨⟨i, hstep⟩, hkeeps⟩ := hstep
      exact hstep.follows hE (ChainRun.inOrder hE h hrun) ih hkeeps

/-- Two answers of which one has all of the other, and what it has more comes later. -/
lemma ListsBucket.begins (hE : Identified E) {s : SharedState D} (h : Serves env E base [] s)
    {before after : List Event} (hbefore : ListsBucket base bucket s before)
    (hafter : ListsBucket base bucket s after)
    (hall : ∀ e ∈ before, e.bucket = bucket → e ∈ after)
    (hbucket : s.deletedBuckets.containsKey bucket = false) :
    (⟨some before, none⟩ : MeshReplies).getBucketEventsSorted bucket <+:
      (⟨some after, none⟩ : MeshReplies).getBucketEventsSorted bucket := by
  have hmem : ∀ {events : List Event} {e}, e ∈ events.filter (·.bucket = bucket) ↔
      e ∈ events ∧ e.bucket = bucket := by simp
  have hworld : ∀ e ∈ after, e ∈ E := fun e he =>
    h.retains.world e (List.mem_append_left _ (hafter.accepted e he))
  refine sortBy_begins (hbefore.nodup.filter _) (hafter.nodup.filter _) (fun a ha b hb hsame => ?_)
    (fun a ha => ?_) fun b hb hnot a ha => ?_
  · exact hE.eventId a (hworld a (hmem.1 ha).1) b (hworld b (hmem.1 hb).1)
      (Event.eventId_of_compareBlocks hsame)
  · obtain ⟨ha, hab⟩ := hmem.1 ha
    exact hmem.2 ⟨hall a ha hab, hab⟩
  · obtain ⟨hb, hbb⟩ := hmem.1 hb
    obtain ⟨ha, hab⟩ := hmem.1 ha
    have hwhole := hbefore.whole.resolve_left (by rw [hbucket]; exact Bool.false_ne_true)
    have hbeats := (hwhole b (hafter.accepted b hb) hbb).resolve_left
      fun hb' => hnot (hmem.2 ⟨hb', hbb⟩)
    exact Event.compareBlocks_lt_iff.2 (hbeats a ha hab)

/-- **The chain only grows.**  Whatever a node does while it serves any number of requests for its
events: when no listing misses an event of the bucket, and what is accepted for the bucket comes
after all that has been listed of it, a block that has been served is served again to every request
that begins later, and the number of blocks does not decrease. -/
theorem extends_of_run {alloy : Alloy} {text : TextLib} {before after : List Event}
    {s₀ : SharedState D} (hE : Identified E) (hlife : SafeLife E env base s₀)
    (h₁ : ChainRun env E base (KeepsOrder base bucket) ⟨s₀, fun _ => .waiting⟩ c₁)
    (hserved : c₁.requests i = .answered before) (hwaiting : c₁.requests j = .waiting)
    (h₂ : ChainRun env E base (KeepsOrder base bucket) c₁ c)
    (hanswered : c.requests j = .answered after)
    (hbucket : c.node.deletedBuckets.containsKey bucket = false) :
    (⟨some before, none⟩ : MeshReplies).Extends alloy text bucket ⟨some after, none⟩ := by
  have hstart : (⟨s₀, fun _ => .waiting⟩ : ChainNode D).InOrder env E base bucket :=
    ⟨(Serves.of_life hE hlife).rebase (by simp), fun _ => trivial⟩
  have hinOrder₁ := ChainRun.inOrder hE hstart h₁
  have hinOrder := ChainRun.inOrder hE hinOrder₁ h₂
  have hfollows := ChainRun.follows hE hinOrder₁ hwaiting h₂
  have hbefore : ListsBucket base bucket c₁.node before := by
    have hi := hinOrder₁.requests i
    rwa [hserved] at hi
  have hbefore' : ListsBucket base bucket c.node before := by
    have hi := hinOrder.requests i
    rwa [hfollows.answers i before hserved] at hi
  have hafter : ListsBucket base bucket c.node after := by
    have hj := hinOrder.requests j
    rwa [hanswered] at hj
  have hall := (hfollows.listed after hanswered).resolve_left
    (by rw [hbucket]; exact Bool.false_ne_true)
  exact .of_begins (hbefore'.begins hE hinOrder.serves hafter
    (fun e he hb => hall e (hbefore.accepted e he) hb) hbucket)

end Runs

/-! ### A second deposit, in time and late -/

section Examples

/-- Another deposit, of a third node. -/
def secondDeposit (eventId : String) (createdAtUnixMs : ℕ) : Event :=
  (LocalCreateInput.legacy "bucket" "bob" 3 none 0 "n2" false).chargeDraft.event eventId "third"
    (1, 1) createdAtUnixMs

def twoRequests (first second : EventsRequest) : ℕ → EventsRequest
  | 0 => first
  | 1 => second
  | _ => .waiting

/-- The node after the first request. -/
def askedOnce : SharedState Unit := (afterDeposit.queryAllEvents counterEnv).2

/-- The node after it has then received an event. -/
def receivedNext (e : Event) : SharedState Unit :=
  (NodeM.exec ((LifeOp.node (.insert e)).program counterEnv) askedOnce).2

/-- The node after the second request. -/
def askedTwice (e : Event) : SharedState Unit := ((receivedNext e).queryAllEvents counterEnv).2

def firstListing : List Event := mergeBuffered [] [remoteDeposit]

def secondListing (e : Event) : List Event := mergeBuffered [] [remoteDeposit, e]

def answeredOnce : ChainNode Unit := ⟨askedOnce, twoRequests (.answered firstListing) .waiting⟩

def answeredTwice (e : Event) : ChainNode Unit :=
  ⟨askedTwice e, twoRequests (.answered firstListing) (.answered (secondListing e))⟩

/-- The node has accepted these events, and they are in the buffer. -/
structure HoldsAll (held : List Event) (s : SharedState Unit) : Prop where
  accepted : s.acceptedSince [] = held
  buffered : ∀ e ∈ held, s.eventBuffer e.originKey = some e

/-- The event is received after the first answer, and buffered beside the deposit. -/
structure ReceivedSecond (e : Event) : Prop where
  identified : Identified {x | x ∈ [remoteDeposit, e]}
  absent : askedOnce.eventBuffer e.originKey = none
  run : (NodeM.exec ((LifeOp.node (.insert e)).program counterEnv) askedOnce).1 = some ()
  minted : (receivedNext e).minted = []
  holds : HoldsAll [remoteDeposit, e] (receivedNext e)
  rows : ((receivedNext e).queryAllEvents counterEnv).1 = []
  buckets : (askedTwice e).deletedBuckets.containsKey "bucket" = false
  keys : remoteDeposit.originKey ≠ e.originKey

section Steps

variable {E : Set Event} {s s' : SharedState Unit} {first first' second second' : EventsRequest}
  {held : List Event}

lemma EventsStep.atFirst (h : EventsStep counterEnv E [] first s first' s') :
    ChainStep counterEnv E [] 0 ⟨s, twoRequests first second⟩ ⟨s', twoRequests first' second⟩ := by
  refine ⟨h, fun k hk => ?_⟩
  rcases k with _ | _ | k
  · exact absurd rfl hk
  · rfl
  · rfl

lemma EventsStep.atSecond (h : EventsStep counterEnv E [] second s second' s') :
    ChainStep counterEnv E [] 1 ⟨s, twoRequests first second⟩ ⟨s', twoRequests first second'⟩ := by
  refine ⟨h, fun k hk => ?_⟩
  rcases k with _ | _ | k
  · rfl
  · exact absurd rfl hk
  · rfl

lemma HoldsAll.asked (h : HoldsAll held s) : HoldsAll held (s.queryAllEvents counterEnv).2 := by
  rw [SharedState.queryAllEvents_snd]
  exact ⟨h.accepted, h.buffered⟩

lemma HoldsAll.keepsOrder (h : HoldsAll held s) (h' : HoldsAll held s')
    {requests requests' : ℕ → EventsRequest} :
    KeepsOrder [] "bucket" ⟨s, requests⟩ ⟨s', requests'⟩ := by
  refine ⟨fun _ _ _ _ _ e he _ => .inr (.inr ?_), fun _ _ _ e he hnot => absurd ?_ hnot⟩
  · exact h.buffered e (h.accepted ▸ he)
  · show e ∈ s.acceptedSince []
    rw [h.accepted, ← h'.accepted]
    exact he

/-- The scan of a buffer that has these events only. -/
lemma HoldsAll.readBuffer {es known : List Event} (hheld : HoldsAll held s)
    (h : Serves counterEnv {x | x ∈ es} [] known s) (hnodup : (held.map Event.originKey).Nodup)
    (habsent : ∀ e ∈ es, e ∉ held → s.eventBuffer e.originKey = none) :
    EventsStep counterEnv {x | x ∈ es} [] (.reading []) s (.answered (mergeBuffered [] held))
      s := by
  have hscan : ∀ k, k ∈ held.map Event.originKey ↔ (s.eventBuffer k).isSome = true := by
    intro k
    constructor
    · intro hk
      obtain ⟨e, he, rfl⟩ := List.mem_map.1 hk
      rw [hheld.buffered e he]
      rfl
    · intro hsome
      obtain ⟨e, he⟩ := Option.isSome_iff_exists.1 hsome
      obtain ⟨hmem, rfl⟩ := h.retains.slot k e he
      by_contra hnot
      rw [habsent e hmem fun hin => hnot (List.mem_map_of_mem hin)] at he
      cases he
  have hvalues : (held.map Event.originKey).filterMap s.eventBuffer = held := by
    rw [List.filterMap_map]
    exact (List.filterMap_congr fun e he => hheld.buffered e he).trans List.filterMap_some
  have hstep : EventsStep counterEnv {x | x ∈ es} [] (.reading []) s
      (.answered (mergeBuffered [] ((held.map Event.originKey).filterMap s.eventBuffer))) s :=
    .readBuffer hnodup hscan
  rwa [hvalues] at hstep

end Steps

lemma holds_afterDeposit : HoldsAll [remoteDeposit] afterDeposit := by
  have hbuffered : afterDeposit.eventBuffer remoteDeposit.originKey = some remoteDeposit := by
    decide +kernel
  exact ⟨by decide +kernel, by simpa using hbuffered⟩

namespace ReceivedSecond

variable {e : Event} (h : ReceivedSecond e)

include h

lemma serves_afterDeposit : Serves counterEnv {x | x ∈ [remoteDeposit, e]} [] [] afterDeposit := by
  have hlife : SafeLife {x | x ∈ [remoteDeposit, e]} counterEnv [] afterDeposit :=
    .afterDeposit (by simp) fun _ => trivial
  exact (Serves.of_life h.identified hlife).rebase (by simp)

/-- The first request is answered. -/
lemma run_once : ChainRun counterEnv {x | x ∈ [remoteDeposit, e]} [] (KeepsOrder [] "bucket")
    ⟨afterDeposit, fun _ => .waiting⟩ answeredOnce := by
  have hrequests : (fun _ => .waiting) = twoRequests .waiting .waiting := by
    funext k
    rcases k with _ | _ | k <;> rfl
  have hrows : (afterDeposit.queryAllEvents counterEnv).1 = [] := by decide +kernel
  have hholds : HoldsAll [remoteDeposit] askedOnce := holds_afterDeposit.asked
  have hread : EventsStep counterEnv {x | x ∈ [remoteDeposit, e]} [] .waiting afterDeposit
      (.reading []) askedOnce := by
    rw [← hrows]
    exact .readStorage
  have hserves := (hread.grows h.identified h.serves_afterDeposit).1
  have hanswer : EventsStep counterEnv {x | x ∈ [remoteDeposit, e]} [] (.reading []) askedOnce
      (.answered firstListing) askedOnce :=
    hholds.readBuffer hserves (by simp) (by simpa using fun _ => h.absent)
  rw [hrequests]
  exact (Relation.ReflTransGen.single
    ⟨⟨0, hread.atFirst⟩, holds_afterDeposit.keepsOrder hholds⟩).tail
      ⟨⟨0, hanswer.atFirst⟩, hholds.keepsOrder hholds⟩

/-- The event is received, and the second request is answered. -/
lemma run_twice {C : ChainNode Unit → ChainNode Unit → Prop}
    (hreceive : C answeredOnce ⟨receivedNext e, answeredOnce.requests⟩)
    (hread : ∀ c c', KeepsOrder [] "bucket" c c' → C c c') :
    ChainRun counterEnv {x | x ∈ [remoteDeposit, e]} [] C answeredOnce (answeredTwice e) := by
  have hstart : (⟨afterDeposit, fun _ => .waiting⟩ : ChainNode Unit).InOrder counterEnv
      {x | x ∈ [remoteDeposit, e]} [] "bucket" := ⟨h.serves_afterDeposit, fun _ => trivial⟩
  have hserves := (ChainRun.inOrder h.identified hstart h.run_once).serves
  have hinsert : EventsStep counterEnv {x | x ∈ [remoteDeposit, e]} [] .waiting askedOnce .waiting
      (receivedNext e) := by
    have hmarks : (LifeOp.node (.insert e)).MarksStored askedOnce := trivial
    refine .operate hmarks ⟨exec_of_fst h.run, by simp [LifeOp.Allowed], ?_⟩
    rw [h.minted]
    exact ⟨List.nodup_nil, by simp, by simp⟩
  have hserves' := (hinsert.grows h.identified hserves).1
  have hholds : HoldsAll [remoteDeposit, e] (askedTwice e) := h.holds.asked
  have hstored : EventsStep counterEnv {x | x ∈ [remoteDeposit, e]} [] .waiting (receivedNext e)
      (.reading []) (askedTwice e) := by
    rw [← h.rows]
    exact .readStorage
  have hserves'' := (hstored.grows h.identified hserves').1
  have hanswer : EventsStep counterEnv {x | x ∈ [remoteDeposit, e]} [] (.reading []) (askedTwice e)
      (.answered (secondListing e)) (askedTwice e) :=
    hholds.readBuffer hserves'' (by simpa using h.keys) fun x hx hnot => absurd hx hnot
  exact ((Relation.ReflTransGen.single ⟨⟨1, hinsert.atSecond⟩, hreceive⟩).tail
    ⟨⟨1, hstored.atSecond⟩, hread _ _ (h.holds.keepsOrder hholds)⟩).tail
      ⟨⟨1, hanswer.atSecond⟩, hread _ _ (hholds.keepsOrder hholds)⟩

end ReceivedSecond

/-- A deposit that is made after the first. -/
def nextDeposit : Event := secondDeposit "next-1" 1000

/-- A deposit that has been made before the first. -/
def lateDeposit : Event := secondDeposit "late-1" 800

lemma received_next : ReceivedSecond nextDeposit where
  identified := identified_of_list (by decide +kernel)
  absent := by decide +kernel
  run := by decide +kernel
  minted := by decide +kernel
  holds := ⟨by decide +kernel, by decide +kernel⟩
  rows := by decide +kernel
  buckets := by decide +kernel
  keys := by decide +kernel

lemma received_late : ReceivedSecond lateDeposit where
  identified := identified_of_list (by decide +kernel)
  absent := by decide +kernel
  run := by decide +kernel
  minted := by decide +kernel
  holds := ⟨by decide +kernel, by decide +kernel⟩
  rows := by decide +kernel
  buckets := by decide +kernel
  keys := by decide +kernel

def keccakFirst : B256 where
  bytes := [0xd4, 0x76, 0xcb, 0xa2, 0xd4, 0x8a, 0xf4, 0x35, 0x24, 0x63, 0xcb, 0x35, 0x59,
    0x75, 0x75, 0x8c, 0x03, 0x88, 0xcc, 0x45, 0x9b, 0x59, 0x73, 0xd9, 0x4d, 0xfe, 0xad, 0x58,
    0xc1, 0xd3, 0x3e, 0xf7]
  length_bytes := rfl

def keccakLate : B256 where
  bytes := [0x88, 0x38, 0x8b, 0x69, 0xcf, 0x78, 0x3d, 0xe5, 0x45, 0x7f, 0xd8, 0x8a, 0x77,
    0x94, 0xb0, 0xac, 0xf8, 0xab, 0xc8, 0x19, 0x28, 0x65, 0xbf, 0x66, 0x14, 0x3b, 0x6b, 0xa3,
    0x04, 0x30, 0xcd, 0xb4]
  length_bytes := rfl

/-- A library that knows the hashes of the ids of the first deposit and of the late one. -/
def lateAlloy : Alloy where
  keccak256 bytes :=
    if bytes = remoteDeposit.eventId.toByteArray.data.toList then keccakFirst else keccakLate
  rlpDecodeSigned _ := .error "unexpected end of input"
  recoverSigner _ := none
  addressText := testAlloy.addressText

lemma mergeBuffered_nil (buffered : List Event) : (mergeBuffered [] buffered).Perm buffered := by
  have hperm : (mergeBuffered [] buffered).Perm ([] ++ buffered.filter fun e => e.originKey ∉
      ([] : List Event).map Event.originKey) := sortBy_perm _
  simpa using hperm

/-- A chain in the order of the blocks. -/
lemma getBucketEventsSorted_of_perm {E : Set Event} (hE : Identified E) {events chain : List Event}
    {bucket : String} (hperm : events.Perm chain) (hworld : ∀ e ∈ chain, e ∈ E)
    (hbucket : ∀ e ∈ chain, e.bucket = bucket) (hsorted : chain.Pairwise Event.beats) :
    (⟨some events, none⟩ : MeshReplies).getBucketEventsSorted bucket = chain := by
  have hfilter : events.filter (·.bucket = bucket) = events :=
    List.filter_eq_self.2 fun e he => decide_eq_true (hbucket e (hperm.mem_iff.1 he))
  have hnodup : chain.Nodup := by
    refine hsorted.imp fun {a b} hbeats hab => ?_
    subst hab
    exact Event.beats_irrefl a hbeats
  show sortBy Event.compareBlocks (events.filter (·.bucket = bucket)) = chain
  rw [hfilter]
  refine sortBy_eq_of_perm (hperm.nodup_iff.2 hnodup) (fun a ha b hb hsame => ?_) hperm
    (hsorted.imp Event.compareBlocks_lt_iff.2)
  exact hE.eventId a (hworld a (hperm.mem_iff.1 ha)) b (hworld b (hperm.mem_iff.1 hb))
    (Event.eventId_of_compareBlocks hsame)

/-- The hash of the first block. -/
lemma hash_first {mesh : MeshReplies} {bucket : String} {event : Event} {rest : List Event}
    (h : mesh.getBucketEventsSorted bucket = event :: rest) :
    ∃ entries, blockByNumber lateAlloy plainText mesh bucket (hexNumber 0) = .ok (.object entries) ∧
      (Json.object entries).text "hash" = some (idHash lateAlloy event).text := by
  have hpos : 0 < (mesh.getBucketEventsSorted bucket).length := by simp [h]
  have hget : (mesh.getBucketEventsSorted bucket).get ⟨0, hpos⟩ = event := by simp [h]
  refine ⟨_, blockByNumber_of_index (blockIndex_hexNumber _ 0) hpos, ?_⟩
  rw [← hget]
  rfl

lemma safeLife_second (e : Event) :
    SafeLife {x | x ∈ [remoteDeposit, e]} counterEnv [] afterDeposit :=
  .afterDeposit List.mem_cons_self fun _ => trivial

/-- The second deposit comes after the first. -/
theorem extends_of_run_next :
    (⟨some firstListing, none⟩ : MeshReplies).Extends lateAlloy plainText "bucket"
      ⟨some (secondListing nextDeposit), none⟩ := by
  have h := received_next
  have hreceive : KeepsOrder [] "bucket" answeredOnce
      ⟨receivedNext nextDeposit, answeredOnce.requests⟩ := by
    refine ⟨fun i stored events hreading hanswered => ?_,
      fun i events hanswered e he hnot _ x hx _ => ?_⟩
    · rw [hreading] at hanswered
      cases hanswered
    · have hx' : x = remoteDeposit := by
        rcases i with _ | _ | i
        · cases hanswered
          exact List.mem_singleton.1 ((mergeBuffered_nil _).mem_iff.1 hx)
        · cases hanswered
        · cases hanswered
      have he' : e = nextDeposit := by
        rw [h.holds.accepted] at he
        have hfirst : askedOnce.acceptedSince [] = [remoteDeposit] :=
          holds_afterDeposit.asked.accepted
        refine (List.mem_pair.1 he).resolve_left fun heq => hnot ?_
        show e ∈ askedOnce.acceptedSince []
        rw [hfirst, heq]
        exact List.mem_singleton_self _
      rw [hx', he']
      decide
  exact extends_of_run (i := 0) (j := 1) h.identified (safeLife_second _) h.run_once rfl rfl
    (h.run_twice hreceive fun _ _ hkeeps => hkeeps) rfl h.buckets

/-- A late deposit takes the number of the block that has been served. -/
theorem not_extends_late :
    Identified {x | x ∈ [remoteDeposit, lateDeposit]} ∧
      SafeLife {x | x ∈ [remoteDeposit, lateDeposit]} counterEnv [] afterDeposit ∧
      ChainRun counterEnv {x | x ∈ [remoteDeposit, lateDeposit]} [] (fun _ _ => True)
        ⟨afterDeposit, fun _ => .waiting⟩ answeredOnce ∧
      answeredOnce.requests 0 = .answered firstListing ∧ answeredOnce.requests 1 = .waiting ∧
      ChainRun counterEnv {x | x ∈ [remoteDeposit, lateDeposit]} [] (fun _ _ => True)
        answeredOnce (answeredTwice lateDeposit) ∧
      (answeredTwice lateDeposit).requests 1 = .answered (secondListing lateDeposit) ∧
      (answeredTwice lateDeposit).node.deletedBuckets.containsKey "bucket" = false ∧
      ¬ (⟨some firstListing, none⟩ : MeshReplies).Extends lateAlloy plainText "bucket"
        ⟨some (secondListing lateDeposit), none⟩ := by
  have h := received_late
  refine ⟨h.identified, safeLife_second _, ?_, rfl, rfl, ?_, rfl, h.buckets, fun hextends => ?_⟩
  · exact Relation.ReflTransGen.mono (fun _ _ hstep => ⟨hstep.1, trivial⟩) _ _ h.run_once
  · exact h.run_twice trivial fun _ _ _ => trivial
  · have hfirst : (⟨some firstListing, none⟩ : MeshReplies).getBucketEventsSorted "bucket" =
        [remoteDeposit] :=
      getBucketEventsSorted_of_perm h.identified (mergeBuffered_nil [remoteDeposit]) (by simp)
        (by decide) (List.pairwise_singleton _ _)
    have hsecond : (⟨some (secondListing lateDeposit), none⟩ : MeshReplies).getBucketEventsSorted
        "bucket" = [lateDeposit, remoteDeposit] :=
      getBucketEventsSorted_of_perm h.identified
        ((mergeBuffered_nil [remoteDeposit, lateDeposit]).trans
          (.swap lateDeposit remoteDeposit []))
        (by simp) (by decide) (by decide)
    obtain ⟨entries, hblock, hhash⟩ := hash_first hfirst
    obtain ⟨entries', hblock', hhash'⟩ := hash_first hsecond
    have hserved := hextends.block 0 entries hblock
    rw [hblock'] at hserved
    obtain rfl := Json.object.inj (Except.ok.inj hserved)
    rw [hhash'] at hhash
    have hsame := congrArg B256.bytes (B256.text_injective (Option.some.inj hhash))
    revert hsame
    decide +kernel

end Examples

end Shardd
