import Shardd.Node.CreateRules

/-!
# Rules for concurrent insertions

`InsertRules` is for replicated events what `CreateRules` is for requests: one rule for each thing
an insertion and the corrections it causes do between their suspensions.
-/

namespace Shardd

variable {D : Type}

/-- How far an insertion has got. -/
inductive InsertStage
  | receiving
  /-- A conflict has been found; `es` are the corrections minted so far. -/
  | correcting (winner loser : Event) (es : List Event)

/-- What an insertion may send to the batch writer, and on whose accounts it may act. -/
def InsertStage.events (e : Event) : InsertStage → List Event
  | receiving => [e]
  | correcting _ _ es => e :: es

/-- What an insertion of `e` may do to an account. -/
inductive InsertStage.Effect (e : Event) (st : InsertStage) :
    BalanceKey → (AccountState → AccountState) → Prop
  | applied : st.Effect e e.balanceKey fun acc => acc.applyEvent e
  | corrected (x : Event) : x ∈ st.events e →
      st.Effect e x.balanceKey fun acc => (acc.post x.amount).applyReleaseOf x

/-- The drafts of a conflict. -/
def CorrectionDraft (winner loser : Event) (d : EventDraft) : Prop :=
  d = voidDraft winner loser ∨ d = holdReleaseDraft winner loser

section

variable {τ κ : Type} (ready : κ → τ → Bool) (enter : ℕ → τ → τ) (K : Contract τ κ)
  (C : κ → τ → Prop) (i : ℕ) (L : Lens τ (SharedState D)) (lab : Wait → κ) (env : Env D)

/-- What one step of an insertion has to do for the judgement. -/
structure InsertRules (e : Event) (At : InsertStage → τ → τ → Prop) : Prop where
  rest : ∀ {st l s₀ s}, l.Free → At st s₀ s → K.Rests ready enter C i (lab l) (At st) s₀ s
  noted : ∀ {st s₀ s s'}, At st s₀ s → (L.get s).Noted (st.events e) s' →
    At st s₀ (L.set s' s)
  quiet : ∀ {winner loser es s₀ s s'}, At (.correcting winner loser es) s₀ s →
    (L.get s).Quiet [] s' → At (.correcting winner loser es) s₀ (L.set s' s)
  tombstone : ∀ {s₀ s target}, At .receiving s₀ s → e.metaTargetBucket = some target →
    At .receiving s₀ (L.set { L.get s with
      deletedBuckets := (L.get s).deletedBuckets.insert target e.createdAtUnixMs } s)
  cascade : ∀ {s₀ s target}, At .receiving s₀ s → e.metaTargetBucket = some target →
    At .receiving s₀
      (L.set ((L.get s).callStorage env fun st => ((), st.deleteBucketCascade target)).2 s)
  strip : ∀ {s₀ s target}, At .receiving s₀ s → e.metaTargetBucket = some target →
    At .receiving s₀ (L.set ((L.get s).stripBucket target) s)
  account : ∀ {st s₀ s} key f, At st s₀ s → st.Effect e key f →
    K.Rests ready enter C i (lab (.account key))
      (fun s₀ s => At st s₀
        (L.set ((((L.get s).lockAccount key).modifyAccount key f).unlockAccount key) s)) s₀
      (L.set ((L.get s).ensureAccount key) s)
  cache : ∀ {s₀ s}, At .receiving s₀ s → (L.get s).conflicting e = none →
    At .receiving s₀ (L.set ((L.get s).cacheEvent e) s)
  conflict : ∀ {existing s₀ s}, At .receiving s₀ s → (L.get s).conflicting e = some existing →
    At (.correcting (idempotencyWinner existing e).1 (idempotencyWinner existing e).2 []) s₀
      (L.set ((L.get s).remember e.idempotencyKey (idempotencyWinner existing e).1) s)
  correct : ∀ {winner loser es s₀ s} id now d, At (.correcting winner loser es) s₀ s →
    CorrectionDraft winner loser d →
    let x := d.event (env.freshId (L.get s).idsDrawn) env.nodeId id now
    At (.correcting winner loser (es ++ [x])) s₀ (L.set ((L.get s).built x) s)
  cacheCorrection : ∀ {winner loser es s₀ s x}, At (.correcting winner loser es) s₀ s → x ∈ es →
    At (.correcting winner loser es) s₀ (L.set ((L.get s).cacheEvent x) s)

end

namespace InsertRules

variable {τ κ : Type} {ready : κ → τ → Bool} {enter : ℕ → τ → τ} {K : Contract τ κ}
  {C : κ → τ → Prop} {i : ℕ} {L : Lens τ (SharedState D)} {lab : Wait → κ} {env : Env D}
  {e : Event} {At : InsertStage → τ → τ → Prop} {s₀ s : τ}

/-! ## Steps -/

/-- Programs of bookkeeping leave an insertion where it is. -/
lemma wp_of_noted {α : Type} {st : InsertStage} {es : List Event} {t : NodeM D α}
    (h : InsertRules ready enter K C i L lab env e At)
    (ht : t.Only (SharedState.Noted es) Wait.Free) (hes : ∀ x ∈ es, x ∈ st.events e)
    (hs : At st s₀ s) : (t.zoom L lab).wp ready enter K C i (fun _ => At st) s₀ s := by
  apply Proc.wp_zoom_of_only (R := SharedState.Noted es) (W := Wait.Free) _ _ ht hs
  · intro s₀ s s' hs hnoted
    exact h.noted hs (hnoted.mono hes)
  · intro l s₀ s hl hs
    exact h.rest hl hs

/-- One act of bookkeeping. -/
lemma wp_note {st : InsertStage} {f : SharedState D → SharedState D}
    (h : InsertRules ready enter K C i L lab env e At)
    (hf : ∀ s : SharedState D, s.Noted (st.events e) (f s)) (hs : At st s₀ s) :
    ((Proc.update f : NodeM D PUnit).zoom L lab).wp ready enter K C i (fun _ => At st) s₀ s := by
  rw [Proc.wp_zoom_update]
  exact h.noted hs (hf _)

lemma wp_advanceHead {st : InsertStage} (h : InsertRules ready enter K C i L lab env e At)
    (key : EpochKey) (seq : ℕ) (hs : At st s₀ s) :
    ((advanceHead env key seq).zoom L lab).wp ready enter K C i (fun _ => At st) s₀ s := by
  apply h.wp_of_noted (only_advanceHead env key seq) _ hs
  intro x hx
  cases hx

/-- One section under an account's lock. -/
lemma wp_withAccount {st : InsertStage} (h : InsertRules ready enter K C i L lab env e At)
    (key : BalanceKey) (f : AccountState → AccountState)
    (hkey : st.Effect e key f) (hs : At st s₀ s) :
    ((withAccount key (Proc.update fun s => s.modifyAccount key f) : NodeM D PUnit).zoom L
      lab).wp ready enter K C i (fun _ => At st) s₀ s := by
  unfold withAccount
  apply Proc.wp_zoom_bind
  rw [Proc.wp_zoom_update]
  apply Proc.wp_zoom_bind
  apply Proc.wp_zoom_suspend
  refine (h.account key f hs hkey).mono fun s₀ s hs => ?_
  apply Proc.wp_zoom_bind
  rw [Proc.wp_zoom_update]
  apply Proc.wp_zoom_bind
  rw [Proc.wp_zoom_update, Lens.get_set, Lens.set_set]
  apply Proc.wp_zoom_bind
  rw [Proc.wp_zoom_update, Lens.get_set, Lens.set_set]
  exact hs

/-! ## Corrections -/

section Corrections

variable {winner loser : Event} {es : List Event}

lemma wp_storageQuery {α : Type} {st : InsertStage} {op : StorageOp}
    (h : InsertRules ready enter K C i L lab env e At) (f : Storage D → α) (hs : At st s₀ s) :
    ((storageCall env op fun st => (f st, st)).run.zoom L lab).wp ready enter K C i
      (fun _ => At st) s₀ s := by
  refine h.wp_of_noted ?_ (fun x (hx : x ∈ []) => absurd hx List.not_mem_nil) hs
  apply only_storageCall
  · exact noted_callStorage env (fun _ => rfl) fun _ => rfl
  · exact Wait.free_request _
  · exact Wait.free_response _

lemma wp_allocate (h : InsertRules ready enter K C i L lab env e At) (bucket : String)
    (hs : At (.correcting winner loser es) s₀ s) :
    ((allocate env bucket).run.zoom L lab).wp ready enter K C i
      (fun _ => At (.correcting winner loser es)) s₀ s :=
  Proc.wp_zoom_of_only (fun _ _ _ hs hq => h.quiet hs hq) (fun _ _ _ hl hs => h.rest hl hs)
    (only_allocate env bucket) hs

/-- Applying one correction. -/
lemma wp_applyCorrectionEvent (h : InsertRules ready enter K C i L lab env e At) {x : Event}
    (hx : x ∈ es) (hs : At (.correcting winner loser es) s₀ s) :
    ((applyCorrectionEvent env x).zoom L lab).wp ready enter K C i
      (fun _ => At (.correcting winner loser es)) s₀ s := by
  have hmem : x ∈ (InsertStage.correcting winner loser es).events e := List.mem_cons_of_mem _ hx
  have hnote : ∀ {s s' : SharedState D}, s.Noted [] s' →
      s.Noted ((InsertStage.correcting winner loser es).events e) s' :=
    fun hn => hn.mono fun y hy => absurd hy List.not_mem_nil
  unfold applyCorrectionEvent
  apply Proc.wp_zoom_bind
  refine Proc.wp_mono (fun _ s₀ s hs => ?_)
    (h.wp_note (fun s => noted_buffer hmem s _) hs)
  apply Proc.wp_zoom_bind
  refine Proc.wp_mono (fun _ s₀ s hs => ?_) (h.wp_withAccount x.balanceKey _ (.corrected x hmem) hs)
  apply Proc.wp_zoom_bind
  refine Proc.wp_mono (fun _ s₀ s hs => ?_) (h.wp_advanceHead x.epochKey x.originSeq hs)
  apply Proc.wp_zoom_bind
  rw [Proc.wp_zoom_update]
  have htrack : (L.get s).Noted ((InsertStage.correcting winner loser es).events e)
      ((L.get s).updateOriginTracking x).countEvent :=
    hnote { SharedState.Noted.refl [] (L.get s) with }
  have htracked := h.cacheCorrection (h.noted hs htrack) hx
  rw [Lens.get_set, Lens.set_set] at htracked
  refine h.wp_note (fun s => ?_) htracked
  refine { SharedState.Noted.refl ((InsertStage.correcting winner loser es).events e) s with
    queue := fun y hy => ?_ }
  rcases List.mem_append.1 hy with hy | hy
  · exact .inl hy
  · rw [List.mem_singleton.1 hy]
    exact .inr hmem

/-- The release of the loser's hold. -/
lemma wp_emitHoldRelease (h : InsertRules ready enter K C i L lab env e At)
    (hs : At (.correcting winner loser es) s₀ s) :
    ((emitHoldRelease env winner loser).zoom L lab).wp ready enter K C i
      (fun _ s₀ s => ∃ es, At (.correcting winner loser es) s₀ s) s₀ s := by
  unfold emitHoldRelease
  split
  · apply Proc.wp_zoom_bind
    rw [Proc.wp_zoom_read]
    split
    · exact ⟨es, hs⟩
    · apply Proc.wp_zoom_bind
      refine Proc.wp_mono (fun r s₀ s hs => ?_) (h.wp_allocate loser.bucket hs)
      cases r with
      | error _ => exact ⟨es, hs⟩
      | ok id =>
          apply Proc.wp_zoom_bind
          refine Proc.wp_mono (fun now s₀ s hs => ?_) (h.wp_of_noted (only_nowMs env)
            (fun x hx => absurd hx List.not_mem_nil) hs)
          apply Proc.wp_zoom_bind
          unfold buildEvent
          rw [Proc.wp_zoom_readUpdate]
          refine Proc.wp_mono (fun _ s₀ s hs => ⟨_, hs⟩) (h.wp_applyCorrectionEvent ?_
            (h.correct id now (holdReleaseDraft winner loser) hs (.inr rfl)))
          exact List.mem_append_right _ (List.mem_singleton.2 rfl)
  · exact ⟨es, hs⟩

/-- The void of the loser, and the release of its hold. -/
lemma wp_emitCorrections (h : InsertRules ready enter K C i L lab env e At)
    (hs : At (.correcting winner loser es) s₀ s) :
    ((emitCorrections env winner loser).zoom L lab).wp ready enter K C i
      (fun _ s₀ s => ∃ es, At (.correcting winner loser es) s₀ s) s₀ s := by
  unfold emitCorrections
  apply Proc.wp_zoom_bind
  rw [Proc.wp_zoom_read]
  split
  · exact ⟨es, hs⟩
  · apply Proc.wp_zoom_bind
    refine Proc.wp_mono (fun r s₀ s hs => ?_) (h.wp_storageQuery _ hs)
    split
    · exact ⟨es, hs⟩
    · apply Proc.wp_zoom_bind
      refine Proc.wp_mono (fun r s₀ s hs => ?_) (h.wp_allocate loser.bucket hs)
      cases r with
      | error _ => exact ⟨es, hs⟩
      | ok id =>
          apply Proc.wp_zoom_bind
          refine Proc.wp_mono (fun now s₀ s hs => ?_) (h.wp_of_noted (only_nowMs env)
            (fun x hx => absurd hx List.not_mem_nil) hs)
          apply Proc.wp_zoom_bind
          unfold buildEvent
          rw [Proc.wp_zoom_readUpdate]
          apply Proc.wp_zoom_bind
          refine Proc.wp_mono (fun _ s₀ s hs => h.wp_emitHoldRelease hs)
            (h.wp_applyCorrectionEvent ?_
              (h.correct id now (voidDraft winner loser) hs (.inl rfl)))
          exact List.mem_append_right _ (List.mem_singleton.2 rfl)

end Corrections

/-- The conflict check. -/
lemma wp_checkIdempotencyConflict (h : InsertRules ready enter K C i L lab env e At)
    (hs : At .receiving s₀ s) :
    ((checkIdempotencyConflict env e).zoom L lab).wp ready enter K C i
      (fun _ s₀ s => ∃ st, At st s₀ s) s₀ s := by
  unfold checkIdempotencyConflict
  apply Proc.wp_zoom_bind
  rw [Proc.wp_zoom_read]
  rcases hconflict : (L.get s).conflicting e with _ | existing
  · rw [Proc.wp_zoom_update]
    exact ⟨_, h.cache hs hconflict⟩
  · apply Proc.wp_zoom_bind
    rw [Proc.wp_zoom_update]
    refine Proc.wp_mono (fun _ s₀ s hs => ?_) (h.wp_emitCorrections (h.conflict hs hconflict))
    obtain ⟨es, hs⟩ := hs
    exact ⟨_, hs⟩

/-! ## The insertion -/

/-- The cascade of a meta event. -/
lemma wp_cascadeOf (h : InsertRules ready enter K C i L lab env e At) (hs : At .receiving s₀ s) :
    ((cascadeOf env e).zoom L lab).wp ready enter K C i (fun _ => At .receiving) s₀ s := by
  unfold cascadeOf
  split
  · rename_i target htarget
    split
    · apply Proc.wp_zoom_bind
      rw [Proc.wp_zoom_update]
      have htomb := h.tombstone hs htarget
      unfold applyBucketDeleteCascade
      split
      · exact htomb
      · apply Proc.wp_zoom_bind
        unfold storageCall
        apply Proc.wp_zoom_bind
        apply Proc.wp_zoom_suspend
        refine (h.rest (Wait.free_request _) htomb).mono fun s₀ s hs => ?_
        apply Proc.wp_zoom_bind
        rw [Proc.wp_zoom_readUpdate]
        apply Proc.wp_zoom_bind
        apply Proc.wp_zoom_suspend
        refine (h.rest (Wait.free_response _ _) (h.cascade hs htarget)).mono fun s₀ s hs => ?_
        rw [Proc.wp_zoom_pure, Proc.wp_zoom_update]
        exact h.strip hs htarget
    · exact hs
  · exact hs

/-- **An insertion keeps a contract** whose rules its steps obey. -/
theorem wp_insertEvent (h : InsertRules ready enter K C i L lab env e At)
    (hs : At .receiving s₀ s) :
    ((insertEvent env e).zoom L lab).wp ready enter K C i (fun _ s₀ s => ∃ st, At st s₀ s)
      s₀ s := by
  have hnote : ∀ {s s' : SharedState D}, s.Noted [] s' →
      s.Noted (InsertStage.receiving.events e) s' :=
    fun hn => hn.mono fun y hy => absurd hy List.not_mem_nil
  unfold insertEvent
  apply Proc.wp_zoom_bind
  rw [Proc.wp_zoom_read]
  split
  · exact ⟨_, hs⟩
  apply Proc.wp_zoom_bind
  rw [Proc.wp_zoom_read]
  split
  · exact ⟨_, hs⟩
  apply Proc.wp_zoom_bind
  rw [Proc.wp_zoom_readUpdate]
  rcases hbuffer : (L.get s).eventBuffer e.originKey with _ | existing
  · have hbuffer : (L.get s).Noted (InsertStage.receiving.events e) { L.get s with
        eventBuffer := (L.get s).eventBuffer.insert e.originKey e } :=
      noted_buffer (List.mem_singleton.2 rfl) (L.get s) _
    have hbuffered := h.noted hs hbuffer
    apply Proc.wp_zoom_bind
    refine Proc.wp_mono (fun _ s₀ s hs => ?_) (h.wp_cascadeOf hbuffered)
    apply Proc.wp_zoom_bind
    refine Proc.wp_mono (fun _ s₀ s hs => ?_) (h.wp_withAccount e.balanceKey _ .applied hs)
    apply Proc.wp_zoom_bind
    refine Proc.wp_mono (fun _ s₀ s hs => ?_)
      (h.wp_note (fun s => hnote { SharedState.Noted.refl [] s with }) hs)
    apply Proc.wp_zoom_bind
    refine Proc.wp_mono (fun _ s₀ s hs => ?_) (h.wp_advanceHead e.epochKey e.originSeq hs)
    apply Proc.wp_zoom_bind
    refine Proc.wp_mono (fun _ s₀ s hs => ?_)
      (h.wp_note (fun s => hnote { SharedState.Noted.refl [] s with }) hs)
    apply Proc.wp_zoom_bind
    have hqueue : ∀ s : SharedState D,
        s.Noted (InsertStage.receiving.events e) (s.queueForBatch e) := fun s =>
      { SharedState.Noted.refl [e] s with queue := fun _ hy => List.mem_append.1 hy }
    refine Proc.wp_mono (fun _ s₀ s hs => ?_) (h.wp_note hqueue hs)
    apply Proc.wp_zoom_bind
    exact h.wp_checkIdempotencyConflict hs
  · dsimp only
    rw [L.set_get]
    exact ⟨_, hs⟩

end InsertRules

end Shardd
