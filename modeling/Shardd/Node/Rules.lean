import Shardd.Node.ReplicateSpec

/-!
# Rules for invariants of a node

An invariant of a node has to survive the branches of a request and the corrections of a conflict.
`KeepsBranch` and `KeepsCorrections` list what has to be shown for one preparation, one minted
event, one recorded event and one correction; from that the invariant survives the whole branch and
all corrections.  The invariant of a branch speaks of the events that have been minted and are yet
to be recorded as well.
-/

namespace Shardd

variable {D : Type} {env : Env D} {s s' : SharedState D}

/-! ## What is minted -/

namespace SharedState

lemma minted_mint (e : Event) : (s.mint env e).minted = s.minted ++ [e] := rfl

variable (env) in
lemma minted_mintDrafts (now : ℕ) (ds : List EventDraft) (s : SharedState D) :
    (mintDrafts env now ds s).2.minted = s.minted ++ (mintDrafts env now ds s).1 := by
  induction ds generalizing s with
  | nil => exact (List.append_nil _).symm
  | cons d ds ih =>
      rw [mintDrafts]
      dsimp only
      rw [ih, minted_mint, List.append_assoc]
      rfl

lemma minted_foldl_recordLocal (es : List Event) (s : SharedState D) :
    (es.foldl (recordLocal env) s).minted = s.minted := by
  induction es generalizing s with
  | nil => rfl
  | cons e es ih => rw [List.foldl_cons, ih, recordLocal_frame]

variable (env) in
lemma minted_mintCorrection (d : EventDraft) :
    (s.mintCorrection env d).minted =
      s.minted ++ [s.draftEvent env (env.clock s.clockReads) d] := by
  unfold mintCorrection
  dsimp only
  rw [corrected_frame]
  rfl

end SharedState

lemma Prepared.minted {bucket : String} {r : Option (Except StorageError Unit)}
    (h : Prepared env bucket s r s') : s'.minted = s.minted := by
  rw [h.frame]

lemma Released.minted {winner loser : Event} {r : Option Unit}
    (h : Released env winner loser s r s') : s.minted <+: s'.minted := by
  cases h with
  | noHold _ => exact List.prefix_refl _
  | known _ _ => exact List.prefix_refl _
  | unallocated _ _ hp _ => rw [hp.minted]
  | released _ _ hp =>
      rw [SharedState.minted_mintCorrection, hp.minted]
      exact List.prefix_append _ _

/-! ## Branches -/

/-- The drafts a branch can mint. -/
def LocalCreateMode.Drafts (input : LocalCreateInput) (d : EventDraft) : LocalCreateMode → Prop
  | .charge _ =>
      (∃ hold, 0 < hold.1 ∧ d = input.holdDraft hold) ∨ d = input.chargeDraft ∨
        ∃ toAddr creditAmount, input.transferTo = some toAddr ∧
          checkedAbs input.amount = some creditAmount ∧ d = input.creditDraft toAddr creditAmount
  | .reserve => d = input.reserveDraft
  | .settle reservationId => d = input.captureDraft ∨ d = input.settleReleaseDraft reservationId
  | .release reservationId => d = input.releaseDraft reservationId

/-- A plan consists of drafts of its branch. -/
lemma LocalCreateMode.drafts_of_mem_plan {input : LocalCreateInput} {now : ℕ} {acc : AccountState}
    {mode : LocalCreateMode} {ds : List EventDraft} (h : mode.plan env input now acc = .ok ds)
    {d : EventDraft} (hd : d ∈ ds) : mode.Drafts input d := by
  cases mode with
  | charge holdOverride =>
      simp only [plan] at h
      split at h <;> cases h
      rcases List.mem_append.1 hd with hd | hd
      · split at hd
        · rename_i hpos
          exact .inl ⟨_, hpos, List.mem_singleton.1 hd⟩
        · cases hd
      · exact .inr (.inl (List.mem_singleton.1 hd))
  | reserve =>
      simp only [plan] at h
      split at h <;> cases h
      exact List.mem_singleton.1 hd
  | settle reservationId =>
      simp only [plan] at h
      split at h <;> cases h
      exact List.mem_pair.1 hd
  | release reservationId =>
      simp only [plan] at h
      split at h <;> cases h
      exact List.mem_singleton.1 hd

lemma LocalCreateMode.drafts_creditDraft {input : LocalCreateInput} {mode : LocalCreateMode}
    {toAddr : String} {creditAmount : Int64} (hto : mode.creditTo input = some toAddr)
    (habs : checkedAbs input.amount = some creditAmount) :
    mode.Drafts input (input.creditDraft toAddr creditAmount) := by
  obtain ⟨⟨holdOverride, rfl⟩, hto⟩ := LocalCreateMode.creditTo_eq_some hto
  exact .inr (.inr ⟨toAddr, creditAmount, hto, habs, rfl⟩)

/-- Every draft of a request is for its bucket. -/
lemma LocalCreateMode.Drafts.bucket {input : LocalCreateInput} {mode : LocalCreateMode}
    {d : EventDraft} (h : mode.Drafts input d) : d.key.1 = input.bucket := by
  cases mode with
  | charge holdOverride =>
      rcases h with ⟨_, _, rfl⟩ | rfl | ⟨_, _, _, _, rfl⟩ <;> rfl
  | reserve =>
      rcases h with rfl
      rfl
  | settle reservationId =>
      rcases h with rfl | rfl <;> rfl
  | release reservationId =>
      rcases h with rfl
      rfl

/-- What one step of a branch has to do for the invariant `P` of the events that are minted and yet
to be recorded, and of the state.  `M` is what the node has minted when the branch is over. -/
structure KeepsBranch (env : Env D) (input : LocalCreateInput) (mode : LocalCreateMode)
    (M : List Event) (P : List Event → SharedState D → Prop) : Prop where
  prepared : ∀ {s r s'}, P [] s → Prepared env input.bucket s r s' → P [] s'
  mint : ∀ {u s} now {d}, P u s → s.Usable input.bucket → mode.Drafts input d →
    s.minted ++ [s.draftEvent env now d] <+: M →
    P (u ++ [s.draftEvent env now d]) (s.mint env (s.draftEvent env now d))
  record : ∀ {u s e}, P (e :: u) s → P u (s.recordLocal env e)
  ensure : ∀ {u s} key, P u s → P u (s.ensureAccount key)

namespace KeepsBranch

variable {input : LocalCreateInput} {mode : LocalCreateMode} {M : List Event}
  {P : List Event → SharedState D → Prop}

/-- The step lemma, for a list of drafts. -/
lemma mintDrafts (h : KeepsBranch env input mode M P) {u : List Event} {ds : List EventDraft}
    (now : ℕ) (hds : ∀ d ∈ ds, mode.Drafts input d) (husable : s.Usable input.bucket)
    (hM : (SharedState.mintDrafts env now ds s).2.minted <+: M) (hs : P u s) :
    P (u ++ (SharedState.mintDrafts env now ds s).1) (SharedState.mintDrafts env now ds s).2 := by
  induction ds generalizing u s with
  | nil =>
      change P (u ++ []) s
      rw [List.append_nil]
      exact hs
  | cons d ds ih =>
      have hd := hds d List.mem_cons_self
      have hminted := SharedState.minted_mintDrafts env now ds
        (s.mint env (s.draftEvent env now d))
      have hbegins : s.minted ++ [s.draftEvent env now d] <+: M := by
        apply List.IsPrefix.trans _ hM
        exact ⟨_, hminted.symm⟩
      have hstep := h.mint now hs husable hd hbegins
      have hrest := ih (fun x hx => hds x (List.mem_cons_of_mem _ hx))
        (husable.mint env (by exact hd.bucket)) hM hstep
      rw [List.append_assoc] at hrest
      exact hrest

/-- The step lemma, for the records of a list of events. -/
lemma foldl_recordLocal (h : KeepsBranch env input mode M P) {es : List Event} (hs : P es s) :
    P [] (es.foldl (SharedState.recordLocal env) s) := by
  induction es generalizing s with
  | nil => exact hs
  | cons e es ih => exact ih (h.record hs)

/-- The run lemma: a branch that ends keeps the invariant, and has recorded what it has minted
unless its credit overflows. -/
theorem emitted (h : KeepsBranch env input mode M P) {now : ℕ}
    {r : Except CreateLocalEventError LocalCreateResult}
    (he : Emitted env input now mode s (some r) s') (hM : s'.minted <+: M) (hs : P [] s) :
    ∃ u, P u s' ∧ (¬ CreditOverflows env input now mode s → u = []) := by
  -- what has been minted is recorded at the end of the branch
  have hminted : ∀ {s₁ s₂ : SharedState D} {ds : List EventDraft} {es : List Event},
      Prepared env input.bucket s (some (.ok ())) s₁ → (∀ d ∈ ds, mode.Drafts input d) →
      SharedState.mintDrafts env now ds s₁ = (es, s₂) →
      (es.foldl (SharedState.recordLocal env) s₂).minted <+: M →
      P [] (es.foldl (SharedState.recordLocal env) s₂) := by
    intro s₁ s₂ ds es hp hds heq hM
    rw [SharedState.minted_foldl_recordLocal] at hM
    have hmint := h.mintDrafts now hds hp.usable (by rw [heq]; exact hM) (h.prepared hs hp)
    rw [heq, List.nil_append] at hmint
    exact h.foldl_recordLocal hmint
  generalize hr : some r = o at he
  cases he with
  | refused _ => exact ⟨[], hs, fun _ => rfl⟩
  | unallocated _ hp _ => exact ⟨[], h.prepared hs hp, fun _ => rfl⟩
  | minted hplan hp _ heq _ =>
      refine ⟨[], hminted hp (fun d hd => ?_) heq hM, fun _ => rfl⟩
      exact LocalCreateMode.drafts_of_mem_plan hplan hd
  | creditBlocked _ _ _ _ => cases hr
  | overflowed hplan hp hto hlock habs =>
      refine ⟨_, h.ensure _ (h.mintDrafts now (fun d hd => ?_) hp.usable hM (h.prepared hs hp)),
        fun hno => absurd ⟨_, _, _, hplan, hp, hto, hlock, habs⟩ hno⟩
      exact LocalCreateMode.drafts_of_mem_plan hplan hd
  | transferred hplan hp hto _ habs heq _ =>
      refine ⟨[], hminted hp (fun d hd => ?_) heq hM, fun _ => rfl⟩
      rcases List.mem_append.1 hd with hd | hd
      · exact LocalCreateMode.drafts_of_mem_plan hplan hd
      · rw [List.mem_singleton.1 hd]
        exact LocalCreateMode.drafts_creditDraft hto habs

end KeepsBranch

/-! ## Corrections -/

/-- What one step of the corrections of a conflict has to do for the invariant `P`. -/
structure KeepsCorrections (env : Env D) (winner loser : Event) (M : List Event)
    (P : SharedState D → Prop) : Prop where
  asked : ∀ {s}, P s → P s.asked
  prepared : ∀ {s r s'}, P s → Prepared env loser.bucket s r s' → P s'
  void : ∀ {s}, P s → s.Usable loser.bucket → ¬ s.Knows (voidIdemKey loser) →
    s.minted ++ [s.draftEvent env (env.clock s.clockReads) (voidDraft winner loser)] <+: M →
    P (s.mintCorrection env (voidDraft winner loser))
  release : ∀ {s}, P s → s.Usable loser.bucket → loser.hasHold = true →
    ¬ s.Knows (releaseIdemKey loser) →
    s.minted ++ [s.draftEvent env (env.clock s.clockReads) (holdReleaseDraft winner loser)] <+:
      M →
    P (s.mintCorrection env (holdReleaseDraft winner loser))

namespace KeepsCorrections

variable {winner loser : Event} {M : List Event} {P : SharedState D → Prop} {r : Option Unit}

lemma released (h : KeepsCorrections env winner loser M P) (hr : Released env winner loser s r s')
    (hM : s'.minted <+: M) (hs : P s) : P s' := by
  cases hr with
  | noHold _ => exact hs
  | known _ _ => exact hs
  | unallocated _ _ hp _ => exact h.prepared hs hp
  | released hhold hknown hp =>
      rw [SharedState.minted_mintCorrection] at hM
      refine h.release (h.prepared hs hp) hp.usable hhold (fun hk => hknown ?_) hM
      rw [hp.frame] at hk
      exact hk

/-- The run lemma: the corrections of a conflict keep the invariant. -/
theorem corrected (h : KeepsCorrections env winner loser M P)
    (hc : Corrected env winner loser s r s') (hM : s'.minted <+: M) (hs : P s) : P s' := by
  cases hc with
  | known _ => exact hs
  | stored _ _ => exact h.asked hs
  | unallocated _ _ hp _ => exact h.prepared (h.asked hs) hp
  | voided hknown _ hp hr =>
      have hvoid := hr.minted.trans hM
      rw [SharedState.minted_mintCorrection] at hvoid
      refine h.released hr hM (h.void (h.prepared (h.asked hs) hp) hp.usable (fun hk => hknown ?_)
        hvoid)
      rw [hp.frame] at hk
      exact hk

end KeepsCorrections

end Shardd
