import Shardd.Lib.Zoom
import Shardd.Node.Acts
import Shardd.Node.Replicate

/-!
# Rules for concurrent deletions

`DeleteRules` is for the deletion of a bucket what `CreateRules` is for requests.
-/

namespace Shardd

variable {D : Type}

/-- How far a deletion has got. -/
inductive DeleteStage
  | idle
  /-- The tombstone is set, and its event has been built. -/
  | deleting (e : Event)
  | done (r : Except CreateLocalEventError Event)

/-- What a deletion may send to the batch writer. -/
def DeleteStage.events : DeleteStage → List Event
  | deleting e => [e]
  | _ => []

section

variable {τ κ : Type} (ready : κ → τ → Bool) (enter : ℕ → τ → τ) (K : Contract τ κ)
  (C : κ → τ → Prop) (i : ℕ) (L : Lens τ (SharedState D)) (lab : Wait → κ) (env : Env D)

/-- What one step of a deletion has to do for the judgement. -/
structure DeleteRules (target : String) (reason : Option String)
    (At : DeleteStage → τ → τ → Prop) : Prop where
  rest : ∀ {st l s₀ s}, l.Free → At st s₀ s → K.Rests ready enter C i (lab l) (At st) s₀ s
  noted : ∀ {st s₀ s s'}, At st s₀ s → (L.get s).Noted st.events s' → At st s₀ (L.set s' s)
  quiet : ∀ {s₀ s s'}, At .idle s₀ s → (L.get s).Quiet [] s' → At .idle s₀ (L.set s' s)
  refuse : ∀ {s₀ s} err, At .idle s₀ s → At (.done (.error err)) s₀ s
  mint : ∀ {s₀ s} id now, At .idle s₀ s → target ≠ metaBucket →
    let e := (bucketDeleteDraft target reason).event (env.freshId (L.get s).idsDrawn) env.nodeId
      id now
    At (.deleting e) s₀ (L.set { (L.get s).built e with
      deletedBuckets := (L.get s).deletedBuckets.insert target now } s)
  cascade : ∀ {e s₀ s}, At (.deleting e) s₀ s →
    At (.deleting e) s₀
      (L.set ((L.get s).callStorage env fun st => ((), st.deleteBucketCascade target)).2 s)
  strip : ∀ {e s₀ s}, At (.deleting e) s₀ s →
    At (.deleting e) s₀ (L.set ((L.get s).stripBucket target) s)
  finish : ∀ {e s₀ s}, At (.deleting e) s₀ s → At (.done (.ok e)) s₀ s

end

/-- **A deletion keeps a contract** whose rules its steps obey. -/
theorem DeleteRules.wp_createMetaBucketDelete {τ κ : Type} {ready : κ → τ → Bool}
    {enter : ℕ → τ → τ} {K : Contract τ κ} {C : κ → τ → Prop} {i : ℕ}
    {L : Lens τ (SharedState D)} {lab : Wait → κ} {env : Env D} {target : String}
    {reason : Option String} {At : DeleteStage → τ → τ → Prop} {s₀ s : τ}
    (h : DeleteRules ready enter K C i L lab env target reason At) (hs : At .idle s₀ s) :
    ((createMetaBucketDelete env target reason).run.zoom L lab).wp ready enter K C i
      (fun r => At (.done r)) s₀ s := by
  unfold createMetaBucketDelete
  dsimp only
  split
  · exact h.refuse _ hs
  rename_i hreserved
  apply Proc.wp_zoom_run_bind
  apply Proc.wp_zoom_run_lift
  rw [Proc.wp_zoom_read]
  dsimp only
  split
  · exact h.refuse _ hs
  apply Proc.wp_zoom_run_bind
  apply Proc.wp_zoom_run_lift
  refine Proc.wp_mono (fun r s₀ s hs => ?_) (Proc.wp_zoom_of_only (J := At .idle)
    (fun _ _ _ hs hq => h.quiet hs hq) (fun _ _ _ hl hs => h.rest hl hs)
    (only_allocate env metaBucket) hs)
  cases r with
  | error _ => exact h.refuse _ hs
  | ok id =>
      apply Proc.wp_zoom_run_bind
      apply Proc.wp_zoom_run_lift
      refine Proc.wp_mono (fun now s₀ s hs => ?_) (Proc.wp_zoom_of_only (J := At .idle)
        (fun _ _ _ hs hn => h.noted hs hn) (fun _ _ _ hl hs => h.rest hl hs) (only_nowMs env) hs)
      apply Proc.wp_zoom_run_bind
      apply Proc.wp_zoom_run_lift
      unfold buildEvent
      rw [Proc.wp_zoom_readUpdate]
      apply Proc.wp_zoom_run_bind
      apply Proc.wp_zoom_run_lift
      rw [Proc.wp_zoom_update, Lens.get_set, Lens.set_set]
      have htarget : target ≠ metaBucket := fun heq => hreserved (.inl heq)
      have hdeleting := h.mint id now hs htarget
      apply Proc.wp_zoom_run_bind
      apply Proc.wp_zoom_run_lift
      unfold applyBucketDeleteCascade
      rw [if_neg htarget]
      apply Proc.wp_zoom_bind
      unfold storageCall
      apply Proc.wp_zoom_bind
      apply Proc.wp_zoom_suspend
      refine (h.rest (Wait.free_request _) hdeleting).mono fun s₀ s hs => ?_
      apply Proc.wp_zoom_bind
      rw [Proc.wp_zoom_readUpdate]
      apply Proc.wp_zoom_bind
      apply Proc.wp_zoom_suspend
      refine (h.rest (Wait.free_response _ _) (h.cascade hs)).mono fun s₀ s hs => ?_
      rw [Proc.wp_zoom_pure, Proc.wp_zoom_update]
      apply Proc.wp_zoom_run_bind
      apply Proc.wp_zoom_run_lift
      refine Proc.wp_mono (fun _ s₀ s hs => h.finish hs) (Proc.wp_zoom_of_only
        (J := At (.deleting _)) (fun _ _ _ hs hn => h.noted hs hn)
        (fun _ _ _ hl hs => h.rest hl hs) (only_recordNewLocalEvent env _) (h.strip hs))

end Shardd
