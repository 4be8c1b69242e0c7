import Shardd.Recovery.History

/-!
# Identities over the lives of a node

A node numbers its events by an epoch and a seq for each bucket.  The row of a bucket survives the
process; a start flags it, and the first write after the start gives the bucket an epoch of its own.
`Numbered` says that no identity is left to be given a second time, and `Issuing` follows it
through an operation: whatever an operation mints, and whichever of its storage calls fail, the
events it has built have ids and identities that no earlier event of the node has.
-/

namespace Shardd

variable {D : Type}

/-- The rows and the entries of a node that has been started `lives` times and has built the events
`own` so far. -/
structure Numbered (env : Env D) (lives : ℕ) (own : List Event) (s : SharedState D) : Prop where
  /-- An event has no epoch beyond that of the row. -/
  row : ∀ e ∈ own, ∃ row, s.storage.bucketAllocators (e.bucket, env.nodeId) = some row ∧
    e.originEpoch ≤ row.currentEpoch
  /-- An entry in use counts on in the epoch of the row. -/
  used : ∀ bucket a, s.entry bucket = some a → a.needsBump = false →
    (∃ row, s.storage.bucketAllocators (bucket, env.nodeId) = some row ∧
      row.currentEpoch = a.currentEpoch) ∧
    ∀ e ∈ own, e.bucket = bucket → e.originEpoch = a.currentEpoch → e.originSeq < a.nextSeq
  /-- The epoch a bucket gets next has no events. -/
  unused : ∀ bucket row, s.Unused bucket →
    s.storage.bucketAllocators (bucket, env.nodeId) = some row →
      row.needsBump = true ∨ ∀ e ∈ own, e.bucket = bucket → e.originEpoch < row.currentEpoch
  /-- A start bumps an epoch once. -/
  bound : ∀ bucket row, s.storage.bucketAllocators (bucket, env.nodeId) = some row →
    row.currentEpoch + (if row.needsBump then 1 else 0) ≤ lives

namespace Numbered

variable {env : Env D} {lives : ℕ} {own : List Event} {s s' : SharedState D} {bucket : String}

lemma congr (h : Numbered env lives own s) (halloc : s'.bucketAllocators = s.bucketAllocators)
    (hrows : s'.storage.bucketAllocators = s.storage.bucketAllocators) :
    Numbered env lives own s' := by
  have hentry : ∀ b, s'.entry b = s.entry b := by
    intro b
    rw [SharedState.entry, halloc, SharedState.entry]
  constructor
  · rw [hrows]
    exact h.row
  · intro b a ha
    rw [hrows]
    exact h.used b a (hentry b ▸ ha)
  · intro b row hunused
    rw [hrows]
    exact h.unused b row fun a ha => hunused a ((hentry b).trans ha)
  · rw [hrows]
    exact h.bound

/-- The bumped row of an entry that is not in use has an epoch without events. -/
lemma bumped (h : Numbered env lives own s) (hpos : 1 ≤ lives) (hlives : lives < 2 ^ 32)
    (hunused : s.Unused bucket) :
    (∀ e ∈ own, e.bucket = bucket → e.originEpoch < (s.bumped bucket env).currentEpoch) ∧
      (s.bumped bucket env).currentEpoch ≤ lives := by
  unfold SharedState.bumped Storage.bumpedRow
  rcases hrow : s.storage.bucketAllocators (bucket, env.nodeId) with _ | row
  · refine ⟨fun e he hb => ?_, hpos⟩
    obtain ⟨row, hrow', -⟩ := h.row e he
    rw [hb, hrow] at hrow'
    cases hrow'
  · have hbound := h.bound bucket row hrow
    dsimp only
    by_cases hbump : row.needsBump = true
    · rw [if_pos hbump] at hbound ⊢
      rw [Nat.mod_eq_of_lt (by omega)]
      refine ⟨fun e he hb => ?_, hbound⟩
      obtain ⟨row', hrow', hle⟩ := h.row e he
      rw [hb, hrow] at hrow'
      cases hrow'
      exact Nat.lt_succ_of_le hle
    · rw [if_neg hbump] at hbound ⊢
      refine ⟨?_, hbound⟩
      exact (h.unused bucket row hunused hrow).resolve_left hbump

/-- A bump of an entry that is not in use. -/
lemma of_bumped (h : Numbered env lives own s) (hpos : 1 ≤ lives) (hlives : lives < 2 ^ 32)
    (hunused : s.Unused bucket)
    (hrows : s'.storage.bucketAllocators =
      s.storage.bucketAllocators.insert (bucket, env.nodeId) (s.bumped bucket env))
    (hother : ∀ b, b ≠ bucket → s'.entry b = s.entry b)
    (hentry : ∀ a, s'.entry bucket = some a →
      a.needsBump = true ∨ a.currentEpoch = (s.bumped bucket env).currentEpoch) :
    Numbered env lives own s' := by
  obtain ⟨hfresh, hle⟩ := h.bumped hpos hlives hunused
  have hrow : ∀ b, s'.storage.bucketAllocators (b, env.nodeId) =
      if b = bucket then some (s.bumped bucket env)
      else s.storage.bucketAllocators (b, env.nodeId) := by
    intro b
    rw [hrows, Map.insert_apply]
    by_cases hb : b = bucket
    · rw [if_pos hb, if_pos (by rw [hb])]
    · rw [if_neg hb, if_neg (by simp [hb])]
  constructor
  · intro e he
    rw [hrow]
    by_cases hb : e.bucket = bucket
    · rw [if_pos hb]
      exact ⟨_, rfl, (hfresh e he hb).le⟩
    · rw [if_neg hb]
      exact h.row e he
  · intro b a ha hbump
    rw [hrow]
    by_cases hb : b = bucket
    · subst hb
      rw [if_pos rfl]
      rcases hentry a ha with hbump' | hepoch
      · rw [hbump'] at hbump
        cases hbump
      · refine ⟨⟨_, rfl, hepoch.symm⟩, fun e he hb hepoch' => ?_⟩
        have hlt := hfresh e he hb
        omega
    · rw [if_neg hb]
      exact h.used b a (hother b hb ▸ ha) hbump
  · intro b row hunused' hrow'
    rw [hrow] at hrow'
    by_cases hb : b = bucket
    · subst hb
      rw [if_pos rfl] at hrow'
      cases hrow'
      exact .inr hfresh
    · rw [if_neg hb] at hrow'
      exact h.unused b row (fun a ha => hunused' a ((hother b hb).trans ha)) hrow'
  · intro b row hrow'
    rw [hrow] at hrow'
    by_cases hb : b = bucket
    · rw [if_pos hb] at hrow'
      cases hrow'
      have hbump : (s.bumped bucket env).needsBump = false := Storage.bumpedRow_needsBump _
      simpa [hbump] using hle
    · rw [if_neg hb] at hrow'
      exact h.bound b row hrow'

/-- Preparing an allocation, whatever becomes of its storage calls. -/
lemma prepared (h : Numbered env lives own s) (hpos : 1 ≤ lives) (hlives : lives < 2 ^ 32)
    {r : Option (Except StorageError Unit)} (hp : Prepared env bucket s r s') :
    Numbered env lives own s' := by
  rcases hp.bumps with ⟨halloc, hrows⟩ | ⟨hunused, hrows, hother, hentry⟩
  · exact h.congr halloc hrows
  · exact h.of_bumped hpos hlives hunused hrows hother fun a ha =>
      (hentry a ha).imp (hunused a) And.left

section Take

variable {e : Event}

/-- The identity that is handed out next is new. -/
lemma originKey_ne (h : Numbered env lives own s) (husable : s.Usable bucket)
    (hkey : e.originKey = (bucket, env.nodeId, (s.nextId bucket).1, (s.nextId bucket).2)) :
    ∀ x ∈ own, x.originKey ≠ e.originKey := by
  obtain ⟨a, ha, hbump⟩ := husable
  have hid : s.nextId bucket = (a.currentEpoch, a.nextSeq) := by simp [SharedState.nextId, ha]
  intro x hx hxe
  rw [hkey, hid] at hxe
  simp only [Event.originKey, Prod.mk.injEq] at hxe
  have hlt := (h.used bucket a ha hbump).2 x hx hxe.1 hxe.2.2.1
  omega

/-- Taking the next identity of a bucket for a new event. -/
lemma taken (h : Numbered env lives own s) (husable : s.Usable bucket)
    (hkey : e.originKey = (bucket, env.nodeId, (s.nextId bucket).1, (s.nextId bucket).2)) :
    Numbered env lives (own ++ [e]) (s.takeNext bucket env) := by
  obtain ⟨a, ha, hbump⟩ := husable
  obtain ⟨⟨row, hrow, hepoch⟩, hseq⟩ := h.used bucket a ha hbump
  have hid : s.nextId bucket = (a.currentEpoch, a.nextSeq) := by simp [SharedState.nextId, ha]
  rw [hid] at hkey
  simp only [Event.originKey, Prod.mk.injEq] at hkey
  obtain ⟨hbucket, -, hepoch', hseq'⟩ := hkey
  have hentry : (s.takeNext bucket env).entry bucket =
      some { a with nextSeq := a.nextSeq + 1 } := by
    rw [SharedState.entry_takeNext, ha]
    rfl
  constructor
  · intro x hx
    rcases List.mem_append.1 hx with hx | hx
    · exact h.row x hx
    · rw [List.mem_singleton.1 hx, hbucket]
      exact ⟨row, hrow, by omega⟩
  · intro b x hb hbump'
    by_cases hne : b = bucket
    · subst hne
      rw [hentry] at hb
      cases hb
      refine ⟨⟨row, hrow, hepoch⟩, fun y hy hyb hye => ?_⟩
      rcases List.mem_append.1 hy with hy | hy
      · exact Nat.lt_succ_of_lt (hseq y hy hyb hye)
      · rw [List.mem_singleton.1 hy, hseq']
        exact Nat.lt_succ_self _
    · rw [SharedState.entry_takeNext_of_ne env hne] at hb
      obtain ⟨hrow', hseq''⟩ := h.used b x hb hbump'
      refine ⟨hrow', fun y hy hyb hye => ?_⟩
      rcases List.mem_append.1 hy with hy | hy
      · exact hseq'' y hy hyb hye
      · rw [List.mem_singleton.1 hy, hbucket] at hyb
        exact absurd hyb.symm hne
  · intro b row' hunused hrow'
    by_cases hne : b = bucket
    · subst hne
      have := hunused _ hentry
      rw [show ({ a with nextSeq := a.nextSeq + 1 } : BucketAllocator).needsBump = a.needsBump
        from rfl, hbump] at this
      cases this
    · have hunused' : s.Unused b := by
        intro x hx
        exact hunused x ((SharedState.entry_takeNext_of_ne env hne).trans hx)
      rcases h.unused b row' hunused' hrow' with hbump' | hlt
      · exact .inl hbump'
      · refine .inr fun y hy hyb => ?_
        rcases List.mem_append.1 hy with hy | hy
        · exact hlt y hy hyb
        · rw [List.mem_singleton.1 hy, hbucket] at hyb
          exact absurd hyb.symm hne
  · exact h.bound

end Take

/-- A start over the storage a life has left: every row is flagged. -/
lemma restarted {env' : Env D} (h : Numbered env lives own s) (hnode : env'.nodeId = env.nodeId)
    (hs : Rebuilt env' s.storage s') : Numbered env' (lives + 1) own s' := by
  have hrow : ∀ b, s'.storage.bucketAllocators (b, env'.nodeId) =
      (s.storage.bucketAllocators (b, env.nodeId)).map
        fun row => { row with needsBump := true } := fun b => by
    rw [hs.row_eq, hnode]
  constructor
  · intro e he
    obtain ⟨row, hsome, hle⟩ := h.row e he
    exact ⟨{ row with needsBump := true }, by rw [hrow, hsome]; rfl, hle⟩
  · intro b a ha hfalse
    rw [hs.unused b a ha] at hfalse
    cases hfalse
  · intro b row _ hsome
    rw [hrow, Option.map_eq_some_iff] at hsome
    obtain ⟨row', -, rfl⟩ := hsome
    exact .inl rfl
  · intro b row hsome
    rw [hrow, Option.map_eq_some_iff] at hsome
    obtain ⟨row', hrow', rfl⟩ := hsome
    have hle := h.bound b row' hrow'
    simp only [if_true]
    omega

end Numbered

/-! ## An operation -/

/-- An operation that began in `s₀`, when the node had built `own`, and that may accept `delivered`
has built the events `new` so far. -/
structure Issuing (env : Env D) (lives : ℕ) (own delivered : List Event) (s₀ : SharedState D)
    (new : List Event) (s : SharedState D) : Prop where
  numbered : Numbered env lives (own ++ new) s
  minted : s.minted = s₀.minted ++ new
  ids : new.map Event.eventId = (List.range' s₀.idsDrawn new.length).map env.freshId
  drawn : s.idsDrawn = s₀.idsDrawn + new.length
  queue : ∃ rest, s.batchQueue = s₀.batchQueue ++ rest ∧ ∀ e ∈ rest, e ∈ delivered ∨ e ∈ new
  node : ∀ e ∈ new, e.originNodeId = env.nodeId
  type : ∀ e ∈ new, e.type ≠ .bucketDelete
  keys : ((own ++ new).map Event.originKey).Nodup

/-- The drafts of a request delete no bucket. -/
lemma LocalCreateMode.Drafts.type_ne {input : LocalCreateInput} {mode : LocalCreateMode}
    {d : EventDraft} (h : mode.Drafts input d) : d.type ≠ .bucketDelete := by
  cases mode with
  | charge holdOverride =>
      rcases h with ⟨_, _, rfl⟩ | rfl | ⟨_, _, _, _, rfl⟩ <;> nofun
  | reserve =>
      rcases h with rfl
      nofun
  | settle reservationId =>
      rcases h with rfl | rfl <;> nofun
  | release reservationId =>
      rcases h with rfl
      nofun

/-- What the identities of a node and its queue depend on. -/
structure SharedState.SameIssues (s s' : SharedState D) : Prop where
  bucketAllocators : s'.bucketAllocators = s.bucketAllocators
  rows : s'.storage.bucketAllocators = s.storage.bucketAllocators
  idsDrawn : s'.idsDrawn = s.idsDrawn
  minted : s'.minted = s.minted
  batchQueue : s'.batchQueue = s.batchQueue

namespace Issuing

variable {env : Env D} {lives : ℕ} {own delivered new : List Event} {s₀ s s' : SharedState D}
  {e : Event}

/-- The invariant at the beginning of an operation. -/
lemma start (h : Numbered env lives own s) (hkeys : (own.map Event.originKey).Nodup) :
    Issuing env lives own delivered s [] s where
  numbered := by
    rw [List.append_nil]
    exact h
  minted := (List.append_nil _).symm
  ids := rfl
  drawn := rfl
  queue := ⟨[], (List.append_nil _).symm, nofun⟩
  node := nofun
  type := nofun
  keys := by
    rw [List.append_nil]
    exact hkeys

lemma congr (h : Issuing env lives own delivered s₀ new s) (hs : s.SameIssues s') :
    Issuing env lives own delivered s₀ new s' :=
  { h with
    numbered := h.numbered.congr hs.bucketAllocators hs.rows
    minted := hs.minted.trans h.minted
    drawn := hs.idsDrawn.trans h.drawn
    queue := by
      rw [hs.batchQueue]
      exact h.queue }

lemma prepared (h : Issuing env lives own delivered s₀ new s) (hpos : 1 ≤ lives)
    (hlives : lives < 2 ^ 32) {bucket : String} {r : Option (Except StorageError Unit)}
    (hp : Prepared env bucket s r s') : Issuing env lives own delivered s₀ new s' := by
  refine { h with
    numbered := h.numbered.prepared hpos hlives hp, minted := ?_, drawn := ?_, queue := ?_ }
  · rw [hp.minted]
    exact h.minted
  · rw [hp.frame]
    exact h.drawn
  · rw [hp.frame]
    exact h.queue

/-- An event that has been delivered or built goes to the batch writer. -/
lemma queued (h : Issuing env lives own delivered s₀ new s) (he : e ∈ delivered ∨ e ∈ new)
    (hs : { s with batchQueue := s.batchQueue ++ [e] }.SameIssues s') :
    Issuing env lives own delivered s₀ new s' := by
  have hsent : Issuing env lives own delivered s₀ new
      { s with batchQueue := s.batchQueue ++ [e] } := by
    refine { h with numbered := h.numbered.congr rfl rfl, queue := ?_ }
    obtain ⟨rest, hrest, hmem⟩ := h.queue
    refine ⟨rest ++ [e], by rw [hrest, List.append_assoc], fun x hx => ?_⟩
    rcases List.mem_append.1 hx with hx | hx
    · exact hmem x hx
    · rw [List.mem_singleton.1 hx]
      exact he
  exact hsent.congr hs

/-- The next event is allocated and built. -/
lemma next (h : Issuing env lives own delivered s₀ new s) (now : ℕ) {d : EventDraft}
    (husable : s.Usable d.key.1) (htype : d.type ≠ .bucketDelete)
    (halloc : s'.bucketAllocators = (s.takeNext d.key.1 env).bucketAllocators)
    (hrows : s'.storage.bucketAllocators = s.storage.bucketAllocators)
    (hids : s'.idsDrawn = s.idsDrawn + 1)
    (hminted : s'.minted = s.minted ++ [s.draftEvent env now d])
    (hqueue : s'.batchQueue = s.batchQueue) :
    Issuing env lives own delivered s₀ (new ++ [s.draftEvent env now d]) s' := by
  have hkey : (s.draftEvent env now d).originKey =
      (d.key.1, env.nodeId, (s.nextId d.key.1).1, (s.nextId d.key.1).2) := rfl
  have hnew := h.numbered.originKey_ne husable hkey
  have htaken := h.numbered.taken husable hkey
  constructor
  · rw [← List.append_assoc]
    exact htaken.congr halloc hrows
  · rw [hminted, h.minted, List.append_assoc]
  · rw [List.map_append, h.ids, List.length_append, List.length_singleton, List.range'_concat,
      List.map_append]
    have hid : (s.draftEvent env now d).eventId =
        env.freshId (s₀.idsDrawn + 1 * new.length) := by
      rw [Nat.one_mul, ← h.drawn]
      rfl
    rw [List.map_singleton, List.map_singleton, hid]
  · rw [hids, h.drawn, List.length_append, List.length_singleton, Nat.add_assoc]
  · obtain ⟨rest, hrest, hmem⟩ := h.queue
    refine ⟨rest, hqueue.trans hrest, fun x hx => ?_⟩
    exact (hmem x hx).imp id (List.mem_append_left _)
  · intro e he
    rcases List.mem_append.1 he with he | he
    · exact h.node e he
    · rw [List.mem_singleton.1 he]
      rfl
  · intro e he
    rcases List.mem_append.1 he with he | he
    · exact h.type e he
    · rw [List.mem_singleton.1 he]
      exact htype
  · rw [← List.append_assoc, List.map_append, List.map_singleton, List.nodup_append]
    refine ⟨h.keys, List.nodup_singleton _, fun x hx y hy hxy => ?_⟩
    obtain ⟨e, he, rfl⟩ := List.mem_map.1 hx
    exact hnew e he (hxy.trans (List.mem_singleton.1 hy))

end Issuing

/-- The events `u` are built and not recorded. -/
def Issues (env : Env D) (lives : ℕ) (own delivered : List Event) (s₀ : SharedState D)
    (u : List Event) (s : SharedState D) : Prop :=
  ∃ new, Issuing env lives own delivered s₀ new s ∧ (∀ e ∈ u, e ∈ new) ∧
    ∀ e ∈ new, e ∈ u ∨ e ∈ s.batchQueue

namespace Issues

variable {env : Env D} {lives : ℕ} {own delivered u : List Event} {s₀ s s' : SharedState D}

lemma congr (h : Issues env lives own delivered s₀ u s) (hs : s.SameIssues s') :
    Issues env lives own delivered s₀ u s' := by
  obtain ⟨new, hissuing, hu, hrec⟩ := h
  refine ⟨new, hissuing.congr hs, hu, ?_⟩
  rw [hs.batchQueue]
  exact hrec

lemma prepared (h : Issues env lives own delivered s₀ u s) (hpos : 1 ≤ lives)
    (hlives : lives < 2 ^ 32) {bucket : String} {r : Option (Except StorageError Unit)}
    (hp : Prepared env bucket s r s') : Issues env lives own delivered s₀ u s' := by
  obtain ⟨new, hissuing, hu, hrec⟩ := h
  refine ⟨new, hissuing.prepared hpos hlives hp, hu, ?_⟩
  rw [hp.frame]
  exact hrec

lemma mintCorrection (h : Issues env lives own delivered s₀ u s) {d : EventDraft}
    (husable : s.Usable d.key.1) (htype : d.type ≠ .bucketDelete) :
    Issues env lives own delivered s₀ u (s.mintCorrection env d) := by
  obtain ⟨new, hissuing, hu, hrec⟩ := h
  set e := s.draftEvent env (env.clock s.clockReads) d with he
  have hbuilt : Issuing env lives own delivered s₀ (new ++ [e])
      (((s.takeNext d.key.1 env).tick).built e) :=
    hissuing.next _ husable htype rfl rfl rfl rfl rfl
  have hmem : e ∈ delivered ∨ e ∈ new ++ [e] := .inr (by simp)
  have hframe := SharedState.corrected_frame env (((s.takeNext d.key.1 env).tick).built e) e
  have hqueue : (s.mintCorrection env d).batchQueue = s.batchQueue ++ [e] := by
    unfold SharedState.mintCorrection
    rw [← he, hframe]
    rfl
  refine ⟨new ++ [e], hbuilt.queued hmem ?_, fun x hx => List.mem_append_left _ (hu x hx),
    fun x hx => ?_⟩
  · constructor <;> unfold SharedState.mintCorrection <;> rw [← he, hframe]
  · rw [hqueue, List.mem_append]
    rcases List.mem_append.1 hx with hx | hx
    · exact (hrec x hx).imp id .inl
    · exact .inr (.inr hx)

lemma keepsBranch (hpos : 1 ≤ lives) (hlives : lives < 2 ^ 32) (input : LocalCreateInput)
    (mode : LocalCreateMode) (M : List Event) :
    KeepsBranch env input mode M (Issues env lives own delivered s₀) where
  prepared h hp := h.prepared hpos hlives hp
  mint now d h husable hd _ := by
    obtain ⟨new, hissuing, hu, hrec⟩ := h
    rw [← hd.bucket] at husable
    refine ⟨_, hissuing.next now husable hd.type_ne rfl rfl rfl rfl rfl, fun x hx => ?_,
      fun x hx => ?_⟩
    · rcases List.mem_append.1 hx with hx | hx
      · exact List.mem_append_left _ (hu x hx)
      · exact List.mem_append_right _ hx
    · rcases List.mem_append.1 hx with hx | hx
      · exact (hrec x hx).imp (List.mem_append_left _) id
      · exact .inl (List.mem_append_right _ hx)
  record {_ s e} h := by
    obtain ⟨new, hissuing, hu, hrec⟩ := h
    have hframe := SharedState.recordLocal_frame env s e
    have hqueue : (s.recordLocal env e).batchQueue = s.batchQueue ++ [e] := by rw [hframe]
    refine ⟨new, hissuing.queued (.inr (hu e List.mem_cons_self)) ?_,
      fun x hx => hu x (List.mem_cons_of_mem _ hx), fun x hx => ?_⟩
    · constructor <;> rw [hframe]
    · rw [hqueue, List.mem_append]
      rcases hrec x hx with hx | hx
      · rcases List.mem_cons.1 hx with rfl | hx
        · exact .inr (.inr (List.mem_singleton_self _))
        · exact .inl hx
      · exact .inr (.inl hx)
  ensure _ h := h.congr ⟨rfl, rfl, rfl, rfl, rfl⟩

lemma keepsCorrections (hpos : 1 ≤ lives) (hlives : lives < 2 ^ 32) (winner loser : Event)
    (M : List Event) :
    KeepsCorrections env winner loser M (Issues env lives own delivered s₀ u) where
  asked h := h.congr ⟨rfl, rfl, rfl, rfl, rfl⟩
  prepared h hp := h.prepared hpos hlives hp
  void h husable _ _ := h.mintCorrection husable nofun
  release h husable _ _ _ := h.mintCorrection husable nofun

lemma created (h : Issues env lives own delivered s₀ [] s) (hpos : 1 ≤ lives)
    (hlives : lives < 2 ^ 32) {input : LocalCreateInput}
    {r : Except CreateLocalEventError LocalCreateResult} (hc : Created env input s (some r) s') :
    ∃ u, Issues env lives own delivered s₀ u s' ∧ (input.amount ≠ Int64.minValue → u = []) := by
  cases hc with
  | rejected _ => exact ⟨[], h, fun _ => rfl⟩
  | malformed _ _ => exact ⟨[], h.congr ⟨rfl, rfl, rfl, rfl, rfl⟩, fun _ => rfl⟩
  | cachedRetry _ _ _ _ => exact ⟨[], h.congr ⟨rfl, rfl, rfl, rfl, rfl⟩, fun _ => rfl⟩
  | storedRetry _ _ _ _ _ => exact ⟨[], h.congr ⟨rfl, rfl, rfl, rfl, rfl⟩, fun _ => rfl⟩
  | @emitted mode _ s₂ _ _ _ _ _ hemitted =>
      have hopened : Issues env lives own delivered s₀ [] (s.opened input.balanceKey) :=
        h.congr ⟨rfl, rfl, rfl, rfl, rfl⟩
      obtain ⟨u, hs₂, hu⟩ := (keepsBranch hpos hlives input mode s₂.minted).emitted hemitted
        (List.prefix_refl _) hopened
      refine ⟨u, hs₂.congr ⟨rfl, rfl, rfl, rfl, rfl⟩, fun hne => hu ?_⟩
      rintro ⟨_, _, _, _, _, _, _, habs⟩
      exact hne (checkedAbs_eq_none_iff.1 habs)

lemma inserted {e : Event} (h : Issues env lives own [e] s₀ [] s) (hpos : 1 ≤ lives)
    (hlives : lives < 2 ^ 32) {r : Option Bool} (hi : Inserted env e s r s') :
    Issues env lives own [e] s₀ [] s' := by
  have haccepted : Issues env lives own [e] s₀ [] (s.accepted env e) := by
    obtain ⟨new, hissuing, hu, hrec⟩ := h
    have hframe := SharedState.accepted_frame env s e
    have hqueue : (s.accepted env e).batchQueue = s.batchQueue ++ [e] := by rw [hframe]
    refine ⟨new, hissuing.queued (.inl List.mem_cons_self) ?_, hu, fun x hx => ?_⟩
    · constructor <;> rw [hframe]
    · rw [hqueue]
      exact (hrec x hx).imp id (List.mem_append_left _)
  cases hi with
  | deleted _ => exact h
  | present _ _ => exact h
  | occupied _ _ _ => exact h
  | filed _ _ _ _ => exact haccepted.congr ⟨rfl, rfl, rfl, rfl, rfl⟩
  | conflict _ _ _ _ hcorrected =>
      exact (keepsCorrections hpos hlives _ _ s'.minted).corrected hcorrected (List.prefix_refl _)
        (haccepted.congr ⟨rfl, rfl, rfl, rfl, rfl⟩)

/-- The step lemma.  What is built is recorded, unless the credit of a transfer overflows. -/
theorem step {op : NodeOp} (h : Numbered env lives own s) (hkeys : (own.map Event.originKey).Nodup)
    (hpos : 1 ≤ lives) (hlives : lives < 2 ^ 32) (hfree : s.Unlocked)
    (htype : ∀ e ∈ op.delivered, e.type ≠ .bucketDelete)
    (hrun : NodeM.exec (op.program env) s = (some (), s')) :
    ∃ u, Issues env lives own op.delivered s u s' ∧
      ((∀ input, op = .create input → input.amount ≠ Int64.minValue) → u = []) := by
  have hstart : Issues env lives own op.delivered s [] s := ⟨[], .start h hkeys, nofun, nofun⟩
  cases op with
  | create input =>
      obtain ⟨r, s₁, hcreated, hexec⟩ := exec_createLocalEvents env input s
      simp only [NodeOp.program, NodeM.exec, Proc.exec_bind] at hrun hexec
      rw [hexec] at hrun
      rcases r with _ | r
      · cases hrun
      obtain rfl : s₁ = s' := congrArg Prod.snd hrun
      obtain ⟨u, hissues, hu⟩ := hstart.created hpos hlives hcreated
      exact ⟨u, hissues, fun hne => hu (hne input rfl)⟩
  | insert e =>
      have hmeta := Event.metaTargetBucket_eq_none (htype e (by simp [NodeOp.delivered]))
      obtain ⟨r, s₁, hinserted, hexec⟩ := exec_insertEvent env e hmeta hfree
      simp only [NodeOp.program, NodeM.exec, Proc.exec_bind] at hrun hexec
      rw [hexec] at hrun
      rcases r with _ | r
      · cases hrun
      obtain rfl : s₁ = s' := congrArg Prod.snd hrun
      exact ⟨[], hstart.inserted hpos hlives hinserted, fun _ => rfl⟩
  | flush batch =>
      obtain ⟨s₁, ⟨st, calls, hst, rfl⟩, hexec⟩ := exec_doFlush env batch s
      have hstored : Issues env lives own [] s [] (s.setStorage st calls) := by
        refine hstart.congr ⟨rfl, ?_, rfl, rfl, rfl⟩
        rcases hst with rfl | rfl
        · rfl
        · exact s.storage.bucketAllocators_insertEventsBulk batch
      rcases hexec with hexec | hexec
      · obtain rfl : _ = s' := congrArg Prod.snd (hexec.symm.trans hrun)
        have hframe := (s.setStorage st calls).markPersisted_frame (batch.map Event.originKey)
        exact ⟨[], hstored.congr (by constructor <;> rw [hframe]), fun _ => rfl⟩
      · obtain rfl : _ = s' := congrArg Prod.snd (hexec.symm.trans hrun)
        exact ⟨[], hstored, fun _ => rfl⟩
  | persist keys =>
      have hs' : s' = s.markPersisted keys := (congrArg Prod.snd hrun).symm
      subst hs'
      have hframe := s.markPersisted_frame keys
      exact ⟨[], hstart.congr (by constructor <;> rw [hframe]), fun _ => rfl⟩
  | sweep =>
      obtain rfl : _ = s' := congrArg Prod.snd hrun
      exact ⟨[], hstart.congr ⟨rfl, rfl, rfl, rfl, rfl⟩, fun _ => rfl⟩

end Issues

end Shardd
