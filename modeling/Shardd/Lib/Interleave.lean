import Shardd.Lib.Zoom

/-!
# Programs that may be interrupted before every action

`t.interleave l` suspends at `l` before each of its actions, so that other programs may run between
any two of them.  It keeps a judgement if each of its actions keeps it and the judgement is stable.
-/

namespace Shardd

universe u v w

namespace Proc

variable {σ τ : Type u} {ι κ : Type v} {α β : Type w}

/-- Suspend at `l` before every action. -/
def interleave (l : ι) : Proc σ ι α → Proc σ ι α
  | done a => done a
  | act f n => await l (act f fun s => interleave l (n s))
  | await l' t => await l' (interleave l t)

/-- A judgement is kept by an interrupted program if every action keeps it and it can be
suspended. -/
theorem wp_interleave_of_only {ready : κ → τ → Bool} {enter : ℕ → τ → τ} {K : Contract τ κ}
    {C : κ → τ → Prop} {i : ℕ} {L : Lens τ σ} {lab : ι → κ} {l : κ} {R : σ → σ → Prop}
    {W : ι → Prop} {J : τ → τ → Prop}
    (hact : ∀ s₀ s s', J s₀ s → R (L.get s) s' → J s₀ (L.set s' s))
    (hstep : ∀ s₀ s, J s₀ s → K.Rests ready enter C i l J s₀ s)
    (hrest : ∀ l s₀ s, W l → J s₀ s → K.Rests ready enter C i (lab l) J s₀ s) {t : Proc σ ι α}
    (h : t.Only R W) {s₀ s : τ} (hs : J s₀ s) :
    ((t.zoom L lab).interleave l).wp ready enter K C i (fun _ => J) s₀ s := by
  induction t generalizing s₀ s with
  | done a => exact hs
  | act f n ih =>
      change K.Rests ready enter C i l (fun s₀ s =>
        (((n (L.get s)).zoom L lab).interleave l).wp ready enter K C i (fun _ => J) s₀
          (L.set (f (L.get s)) s)) s₀ s
      refine (hstep s₀ s hs).mono fun s₀ s hs => ?_
      exact ih (L.get s) (h (L.get s)).2 (hact _ _ _ hs (h (L.get s)).1)
  | await l' t ih => exact (hrest l' s₀ s h.1 hs).mono fun _ _ => ih h.2

end Proc

end Shardd
