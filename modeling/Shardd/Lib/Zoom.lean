import Shardd.Lib.Pool

/-!
# Programs over a part of the shared state

`t.zoom L lab` runs a program over the part of a larger state that the lens `L` shows, with its
suspension points renamed by `lab`.  A system of several components is a pool over the states of all
of them, each program zoomed to its own component; with the identity lens a zoomed program is the
program itself, so a rule stated for zoomed programs serves both.
-/

namespace Shardd

universe u v w

/-- A part of a larger state. -/
structure Lens (τ σ : Type u) where
  get : τ → σ
  set : σ → τ → τ
  get_set : ∀ s t, get (set s t) = s
  set_get : ∀ t, set (get t) t = t
  set_set : ∀ s s' t, set s' (set s t) = set s' t

attribute [simp] Lens.get_set Lens.set_get Lens.set_set

namespace Lens

/-- The whole state. -/
def whole (σ : Type u) : Lens σ σ where
  get s := s
  set s _ := s
  get_set _ _ := rfl
  set_get _ := rfl
  set_set _ _ _ := rfl

@[simp] theorem whole_get {σ : Type u} (s : σ) : (whole σ).get s = s := rfl

@[simp] theorem whole_set {σ : Type u} (s t : σ) : (whole σ).set s t = s := rfl

/-- One component of a family. -/
def component {κ σ : Type u} [DecidableEq κ] (k : κ) : Lens (κ → σ) σ where
  get f := f k
  set s f := Function.update f k s
  get_set s f := Function.update_self k s f
  set_get f := Function.update_eq_self k f
  set_set s s' f := Function.update_idem s s' f

section Component

variable {κ σ : Type u} [DecidableEq κ] {k : κ} {s : σ} {f : κ → σ}

@[simp] theorem component_get : (component k).get f = f k := rfl

theorem component_set_self : (component k).set s f k = s := by
  unfold component
  exact Function.update_self k s f

theorem component_set_of_ne {k' : κ} (h : k' ≠ k) : (component k).set s f k' = f k' := by
  unfold component
  exact Function.update_of_ne h s f

end Component

end Lens

namespace Proc

variable {τ σ : Type u} {ι κ : Type v} {α β : Type w}

/-- Run a program over a part of the state. -/
def zoom (L : Lens τ σ) (lab : ι → κ) : Proc σ ι α → Proc τ κ α
  | done a => done a
  | act f n => act (fun t => L.set (f (L.get t)) t) fun t => zoom L lab (n (L.get t))
  | await l t => await (lab l) (zoom L lab t)

variable {L : Lens τ σ} {lab : ι → κ}

theorem zoom_bind (t : Proc σ ι α) (k : α → Proc σ ι β) :
    (t >>= k).zoom L lab = t.zoom L lab >>= fun a => (k a).zoom L lab := by
  change (t.bind k).zoom L lab = (t.zoom L lab).bind fun a => (k a).zoom L lab
  induction t with
  | done a => rfl
  | act f n ih =>
      simp only [bind, zoom, act.injEq, true_and]
      funext s
      exact ih _
  | await l t ih =>
      simp only [bind, zoom]
      rw [ih]

theorem zoom_whole (t : Proc σ ι α) : t.zoom (Lens.whole σ) id = t := by
  induction t with
  | done a => rfl
  | act f n ih =>
      simp only [zoom, Lens.whole_get, Lens.whole_set, act.injEq, true_and]
      funext s
      exact ih s
  | await l t ih =>
      simp only [zoom, id]
      rw [ih]

section Wp

variable {ready : κ → τ → Bool} {enter : ℕ → τ → τ} {K : Contract τ κ} {C : κ → τ → Prop} {i : ℕ}

@[simp] theorem wp_zoom_pure {Q : α → τ → τ → Prop} {a : α} {s₀ s : τ} :
    ((pure a : Proc σ ι α).zoom L lab).wp ready enter K C i Q s₀ s ↔ Q a s₀ s := Iff.rfl

@[simp] theorem wp_zoom_read {Q : α → τ → τ → Prop} {f : σ → α} {s₀ s : τ} :
    ((read f : Proc σ ι α).zoom L lab).wp ready enter K C i Q s₀ s ↔ Q (f (L.get s)) s₀ s := by
  change Q (f (L.get s)) s₀ (L.set (L.get s) s) ↔ _
  rw [L.set_get]

@[simp] theorem wp_zoom_update {Q : PUnit → τ → τ → Prop} {f : σ → σ} {s₀ s : τ} :
    ((update f : Proc σ ι PUnit).zoom L lab).wp ready enter K C i Q s₀ s ↔
      Q ⟨⟩ s₀ (L.set (f (L.get s)) s) := Iff.rfl

@[simp] theorem wp_zoom_readUpdate {Q : α → τ → τ → Prop} {f : σ → α × σ} {s₀ s : τ} :
    ((readUpdate f : Proc σ ι α).zoom L lab).wp ready enter K C i Q s₀ s ↔
      Q (f (L.get s)).1 s₀ (L.set (f (L.get s)).2 s) := Iff.rfl

theorem wp_zoom_suspend {Q : PUnit → τ → τ → Prop} {l : ι} {s₀ s : τ}
    (h : K.Rests ready enter C i (lab l) (Q ⟨⟩) s₀ s) :
    ((suspend l : Proc σ ι PUnit).zoom L lab).wp ready enter K C i Q s₀ s := h

theorem wp_zoom_bind {Q : β → τ → τ → Prop} {t : Proc σ ι α} {k : α → Proc σ ι β} {s₀ s : τ}
    (h : (t.zoom L lab).wp ready enter K C i
      (fun a s₀ s => ((k a).zoom L lab).wp ready enter K C i Q s₀ s) s₀ s) :
    ((t >>= k).zoom L lab).wp ready enter K C i Q s₀ s := by
  rw [zoom_bind]
  exact wp_bind h

section Fallible

variable {ε : Type w}

theorem wp_zoom_run_bind {Q : Except ε β → τ → τ → Prop} {t : ExceptT ε (Proc σ ι) α}
    {k : α → ExceptT ε (Proc σ ι) β} {s₀ s : τ}
    (h : (t.run.zoom L lab).wp ready enter K C i
      (fun r s₀ s => match r with
        | .ok a => ((k a).run.zoom L lab).wp ready enter K C i Q s₀ s
        | .error e => Q (.error e) s₀ s) s₀ s) :
    ((t >>= k).run.zoom L lab).wp ready enter K C i Q s₀ s := by
  rw [ExceptT.run_bind]
  refine wp_zoom_bind (wp_mono (fun r s₀ s hr => ?_) h)
  cases r with
  | ok a => exact hr
  | error e => exact hr

theorem wp_zoom_run_lift {Q : Except ε α → τ → τ → Prop} {t : Proc σ ι α} {s₀ s : τ}
    (h : (t.zoom L lab).wp ready enter K C i (fun a s₀ s => Q (.ok a) s₀ s) s₀ s) :
    ((liftM t : ExceptT ε (Proc σ ι) α).run.zoom L lab).wp ready enter K C i Q s₀ s :=
  wp_zoom_bind (t := t) (k := fun a => pure (Except.ok a)) h

@[simp] theorem wp_zoom_run_pure {Q : Except ε α → τ → τ → Prop} {a : α} {s₀ s : τ} :
    ((pure a : ExceptT ε (Proc σ ι) α).run.zoom L lab).wp ready enter K C i Q s₀ s ↔
      Q (.ok a) s₀ s := Iff.rfl

@[simp] theorem wp_zoom_run_throw {Q : Except ε α → τ → τ → Prop} {e : ε} {s₀ s : τ} :
    ((throw e : ExceptT ε (Proc σ ι) α).run.zoom L lab).wp ready enter K C i Q s₀ s ↔
      Q (.error e) s₀ s := Iff.rfl

end Fallible

/-- A judgement that every action and every suspension of a kind keeps is kept by the zoomed
programs of that kind. -/
theorem wp_zoom_of_only {R : σ → σ → Prop} {W : ι → Prop} {J : τ → τ → Prop}
    (hact : ∀ s₀ s s', J s₀ s → R (L.get s) s' → J s₀ (L.set s' s))
    (hrest : ∀ l s₀ s, W l → J s₀ s → K.Rests ready enter C i (lab l) J s₀ s) {t : Proc σ ι α}
    (h : t.Only R W) {s₀ s : τ} (hs : J s₀ s) :
    (t.zoom L lab).wp ready enter K C i (fun _ => J) s₀ s := by
  induction t generalizing s₀ s with
  | done a => exact hs
  | act f n ih => exact ih (L.get s) (h (L.get s)).2 (hact _ _ _ hs (h (L.get s)).1)
  | await l t ih => exact (hrest l s₀ s h.1 hs).mono fun _ _ => ih h.2

end Wp

end Proc

end Shardd
