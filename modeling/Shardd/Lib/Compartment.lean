import Shardd.Lib.Proc

/-!
# Compartments of a shared state

A state falls into compartments when one can say, for each compartment, whether two states agree on
it.  An action is confined to a compartment when it leaves all the others as they are, and when what
it answers and what becomes of its own compartment depend on that compartment alone, and on what all
compartments read (`sync`).  Programs put together from confined actions are confined; this is shown
for programs that run alone (`Proc.exec`).
-/

namespace Shardd

universe u v w x

structure Compartments (σ : Type u) (β : Type x) where
  /-- What holds of every state a program meets. -/
  inv : σ → Prop
  /-- The states agree on a compartment. -/
  same : β → σ → σ → Prop
  /-- The states agree on what is read on behalf of every compartment. -/
  sync : σ → σ → Prop
  refl : ∀ b s, same b s s
  trans : ∀ b s s' s'', same b s s' → same b s' s'' → same b s s''

namespace Compartments

variable {σ : Type u} {β : Type x} {α : Type w} (K : Compartments σ β)

/-- The action is confined to `b`, and its answers satisfy `Q`. -/
structure Confined (b : β) (Q : α → Prop) (f : σ → α × σ) : Prop where
  inv : ∀ s, K.inv s → K.inv (f s).2
  post : ∀ s, K.inv s → Q (f s).1
  spares : ∀ c, c ≠ b → ∀ s, K.inv s → K.same c s (f s).2
  tracks : ∀ s s', K.inv s → K.inv s' → K.same b s s' → K.sync s s' →
    K.same b (f s).2 (f s').2 ∧ K.sync (f s).2 (f s').2 ∧ (f s).1 = (f s').1

end Compartments

namespace Proc

open Compartments

variable {σ : Type u} {ι : Type v} {β : Type x} {α γ : Type w} {ready : ι → σ → Bool}
  {K : Compartments σ β} {b : β}

/-- What a program that may block for good answers, if it ends. -/
def Answers (Q : α → Prop) (o : Option α) : Prop := ∀ a, o = some a → Q a

lemma answers_some {Q : α → Prop} {a : α} : Answers Q (some a) ↔ Q a := by
  simp [Answers]

lemma answers_none {Q : α → Prop} : Answers Q none := fun _ h => by cases h

/-! ## Confined programs -/

variable (ready K b) in
/-- The program is confined to `b`, and its answers satisfy `Q`. -/
abbrev Confined (Q : α → Prop) (t : Proc σ ι α) : Prop := K.Confined b (Answers Q) (t.exec ready)

theorem confined_pure {Q : α → Prop} {a : α} (h : Q a) :
    (pure a : Proc σ ι α).Confined ready K b Q where
  inv _ hs := hs
  post _ _ := answers_some.2 h
  spares c _ s _ := K.refl c s
  tracks _ _ _ _ hsame hsync := ⟨hsame, hsync, rfl⟩

theorem confined_readUpdate {Q : α → Prop} {f : σ → α × σ} (h : K.Confined b Q f) :
    (readUpdate f : Proc σ ι α).Confined ready K b Q where
  inv := h.inv
  post s hs := answers_some.2 (h.post s hs)
  spares := h.spares
  tracks s s' hs hs' hsame hsync := by
    obtain ⟨hsame', hsync', heq⟩ := h.tracks s s' hs hs' hsame hsync
    exact ⟨hsame', hsync', congrArg some heq⟩

theorem confined_update {f : σ → σ} (h : K.Confined b (fun _ => True) fun s => ((), f s)) :
    (update f : Proc σ ι PUnit).Confined ready K b fun _ => True where
  inv := h.inv
  post _ _ := answers_some.2 trivial
  spares := h.spares
  tracks s s' hs hs' hsame hsync := by
    obtain ⟨hsame', hsync', -⟩ := h.tracks s s' hs hs' hsame hsync
    exact ⟨hsame', hsync', rfl⟩

theorem confined_read {Q : α → Prop} {f : σ → α} (hQ : ∀ s, K.inv s → Q (f s))
    (h : ∀ s s', K.inv s → K.inv s' → K.same b s s' → f s = f s') :
    (read f : Proc σ ι α).Confined ready K b Q where
  inv _ hs := hs
  post s hs := answers_some.2 (hQ s hs)
  spares c _ s _ := K.refl c s
  tracks s s' hs hs' hsame hsync := ⟨hsame, hsync, congrArg some (h s s' hs hs' hsame)⟩

theorem confined_suspend {l : ι} (h : ∀ s s', K.same b s s' → ready l s = ready l s') :
    (suspend l : Proc σ ι PUnit).Confined ready K b fun _ => True := by
  have hstate : ∀ s, ((suspend l : Proc σ ι PUnit).exec ready s).2 = s := fun s => by
    rw [exec_suspend]
    split <;> rfl
  constructor
  · intro s hs
    rwa [hstate]
  · exact fun _ _ _ _ => trivial
  · intro c _ s _
    rw [hstate]
    exact K.refl c s
  · intro s s' _ _ hsame hsync
    rw [hstate, hstate]
    refine ⟨hsame, hsync, ?_⟩
    rw [exec_suspend, exec_suspend, h s s' hsame]
    split <;> rfl

theorem Confined.bind {Q : α → Prop} {Q' : γ → Prop} {t : Proc σ ι α} {k : α → Proc σ ι γ}
    (h : t.Confined ready K b Q) (hk : ∀ a, Q a → (k a).Confined ready K b Q') :
    (t >>= k).Confined ready K b Q' := by
  constructor
  · intro s hs
    have hinv := h.inv s hs
    have hpost := h.post s hs
    rw [exec_bind]
    generalize t.exec ready s = r at hinv hpost
    rcases r with ⟨_ | a, s₁⟩
    · exact hinv
    · exact (hk a (answers_some.1 hpost)).inv s₁ hinv
  · intro s hs
    have hinv := h.inv s hs
    have hpost := h.post s hs
    rw [exec_bind]
    generalize t.exec ready s = r at hinv hpost
    rcases r with ⟨_ | a, s₁⟩
    · exact answers_none
    · exact (hk a (answers_some.1 hpost)).post s₁ hinv
  · intro c hc s hs
    have hinv := h.inv s hs
    have hpost := h.post s hs
    have hsame := h.spares c hc s hs
    rw [exec_bind]
    generalize t.exec ready s = r at hinv hpost hsame
    rcases r with ⟨_ | a, s₁⟩
    · exact hsame
    · exact K.trans c _ _ _ hsame ((hk a (answers_some.1 hpost)).spares c hc s₁ hinv)
  · intro s s' hs hs' hsame hsync
    have hinv := h.inv s hs
    have hinv' := h.inv s' hs'
    have hpost := h.post s hs
    obtain ⟨hsame₁, hsync₁, heq⟩ := h.tracks s s' hs hs' hsame hsync
    rw [exec_bind, exec_bind]
    generalize t.exec ready s = r at hinv hpost hsame₁ hsync₁ heq
    generalize t.exec ready s' = r' at hinv' hsame₁ hsync₁ heq
    obtain ⟨o, s₁⟩ := r
    obtain ⟨o', s₁'⟩ := r'
    obtain rfl : o = o' := heq
    cases o with
    | none => exact ⟨hsame₁, hsync₁, rfl⟩
    | some a =>
        exact (hk a (answers_some.1 hpost)).tracks s₁ s₁' hinv hinv' hsame₁ hsync₁

section Fallible

variable {ε : Type w}

/-- What a fallible program answers when it succeeds. -/
def Succeeds (Q : α → Prop) (r : Except ε α) : Prop := ∀ a, r = .ok a → Q a

lemma succeeds_ok {Q : α → Prop} {a : α} : Succeeds Q (.ok a : Except ε α) ↔ Q a := by
  simp [Succeeds]

lemma succeeds_error {Q : α → Prop} {e : ε} : Succeeds Q (.error e : Except ε α) :=
  fun _ h => by cases h

theorem confined_run_pure {Q : α → Prop} {a : α} (h : Q a) :
    (pure a : ExceptT ε (Proc σ ι) α).run.Confined ready K b (Succeeds Q) :=
  confined_pure (succeeds_ok.2 h)

theorem confined_run_throw {Q : α → Prop} {e : ε} :
    (throw e : ExceptT ε (Proc σ ι) α).run.Confined ready K b (Succeeds Q) :=
  confined_pure succeeds_error

theorem confined_run_except (x : Except ε α) :
    (liftM x : ExceptT ε (Proc σ ι) α).run.Confined ready K b (Succeeds fun _ => True) :=
  confined_pure fun _ _ => trivial

/-- A sequence that begins with an error ends there. -/
theorem confined_run_throw_bind {Q : γ → Prop} {e : ε} {k : α → ExceptT ε (Proc σ ι) γ} :
    ((throw e : ExceptT ε (Proc σ ι) α) >>= k).run.Confined ready K b (Succeeds Q) :=
  confined_pure succeeds_error

theorem Confined.run_lift {Q : α → Prop} {t : Proc σ ι α} (h : t.Confined ready K b Q) :
    (liftM t : ExceptT ε (Proc σ ι) α).run.Confined ready K b (Succeeds Q) :=
  h.bind (k := fun a => pure (Except.ok a)) fun _ ha => confined_pure (succeeds_ok.2 ha)

theorem Confined.run_bind {Q : α → Prop} {Q' : γ → Prop} {t : ExceptT ε (Proc σ ι) α}
    {k : α → ExceptT ε (Proc σ ι) γ} (h : t.run.Confined ready K b (Succeeds Q))
    (hk : ∀ a, Q a → (k a).run.Confined ready K b (Succeeds Q')) :
    (t >>= k).run.Confined ready K b (Succeeds Q') := by
  rw [ExceptT.run_bind]
  refine h.bind fun r hr => ?_
  cases r with
  | ok a => exact hk a (succeeds_ok.1 hr)
  | error e => exact confined_pure succeeds_error

end Fallible

end Proc

end Shardd
