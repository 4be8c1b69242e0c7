import Shardd.Node.Acts
import Shardd.Node.Fine

/-!
# Rules for programs of single map operations

A step of a fine program suspends and then acts, so a rule for it speaks of what is known when the
call is resumed.
-/

namespace Shardd

variable {D : Type} {α : Type} {K : Contract (FineState D) FineWait}
  {C : FineWait → FineState D → Prop} {enter : ℕ → FineState D → FineState D} {i : ℕ}
  {S₀ S : FineState D}

section Steps

variable {Q : α → FineState D → FineState D → Prop}

lemma wp_step_read {f : SharedState D → α}
    (h : K.Rests FineWait.ready enter C i .step (fun S₀ S => Q (f S.node) S₀ S) S₀ S) :
    (step (Proc.read f)).wp FineWait.ready enter K C i Q S₀ S := h

lemma wp_step_readUpdate {f : SharedState D → α × SharedState D}
    (h : K.Rests FineWait.ready enter C i .step
      (fun S₀ S => Q (f S.node).1 S₀ { S with node := (f S.node).2 }) S₀ S) :
    (step (Proc.readUpdate f)).wp FineWait.ready enter K C i Q S₀ S := h

lemma wp_step_update {f : SharedState D → SharedState D}
    {Q : PUnit → FineState D → FineState D → Prop}
    (h : K.Rests FineWait.ready enter C i .step
      (fun S₀ S => Q ⟨⟩ S₀ { S with node := f S.node }) S₀ S) :
    (step (Proc.update f)).wp FineWait.ready enter K C i Q S₀ S := h

lemma wp_deed {d : Deed} {f : SharedState D → SharedState D}
    {Q : PUnit → FineState D → FineState D → Prop}
    (h : K.Rests FineWait.ready enter C i .step
      (fun S₀ S => Q ⟨⟩ S₀ (({ S with node := f S.node } : FineState D).note d)) S₀ S) :
    (deed d f).wp FineWait.ready enter K C i Q S₀ S := h

/-- A judgement is kept by the steps of a program whose actions keep it. -/
lemma wp_step_of_only {R : SharedState D → SharedState D → Prop} {W : Wait → Prop}
    {J : FineState D → FineState D → Prop}
    (hact : ∀ S₀ S s', J S₀ S → R S.node s' → J S₀ { S with node := s' })
    (hrest : ∀ l S₀ S, l = .step ∨ (∃ l', W l' ∧ l = .node l') → J S₀ S →
      K.Rests FineWait.ready enter C i l J S₀ S) {t : NodeM D α} (h : t.Only R W) (hs : J S₀ S) :
    (step t).wp FineWait.ready enter K C i (fun _ => J) S₀ S :=
  Proc.wp_interleave_of_only hact (fun S₀ S hs => hrest _ S₀ S (.inl rfl) hs)
    (fun l S₀ S hl hs => hrest _ S₀ S (.inr ⟨l, hl, rfl⟩) hs) h hs

end Steps

end Shardd
