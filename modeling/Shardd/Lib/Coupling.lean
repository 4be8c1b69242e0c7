import Shardd.Lib.Pool

/-!
# Two runs of one schedule

Relational reasoning about suspendable programs.  Two programs are in step when they take the same
number of actions and suspend at the same points, and when a relation of their states holds at every
suspension; at their ends a postcondition relates their answers.  `Proc.InStep` is the judgement,
with one rule for each way to put a program together, and `Pool.Coupled.play` its soundness: pools
whose calls are in step stay so when they are played the same schedule.

Most programs are in step with themselves, because each of their actions keeps the relation and
answers alike in related states (`Proc.Uniform`).

A coupling also has a condition `ok` on the states of the first run.  A state that is not ok stays
so, hence a run that ends in an ok state has been ok throughout, and the judgement may rely on it.
-/

namespace Shardd

universe u v w

/-- How the states of two runs are related, as long as the first is ok. -/
structure Coupling (σ : Type u) where
  rel : σ → σ → Prop
  ok : σ → Prop
  /-- The bookkeeping when a call is resumed. -/
  enter : ℕ → σ → σ
  rel_enter : ∀ i s s', rel s s' → rel (enter i s) (enter i s')
  ok_enter : ∀ i s, ok (enter i s) → ok s

namespace Proc

variable {σ : Type u} {ι : Type v} {α β : Type w} (K : Coupling σ) (i : ℕ)

/-- What is not ok stays so, whatever the program does. -/
abbrev Lasting (t : Proc σ ι α) : Prop := t.Only (fun s s' => K.ok s' → K.ok s) fun _ => True

/-- Run as call `i` from the two states, the programs are in step, and `Q` relates the answers and
the states in which they end. -/
def InStep (Q : α → α → σ → σ → Prop) : Proc σ ι α → Proc σ ι α → σ → σ → Prop
  | done a, done a', s, s' => Q a a' s s'
  | act f n, act f' n', s, s' => K.ok (f s) → InStep Q (n s) (n' s') (f s) (f' s')
  | await l t, await l' t', s, s' =>
      l = l' ∧ K.rel s s' ∧ ∀ u u', K.rel u u' → InStep Q t t' (K.enter i u) (K.enter i u')
  | _, _, _, _ => False

/-- Each action keeps the relation, and answers alike in related states. -/
def Uniform : Proc σ ι α → Prop
  | done _ => True
  | act f n => ∀ s, (K.ok (f s) → K.ok s) ∧ (n s).Uniform ∧
      ∀ s', K.rel s s' → K.ok (f s) → K.rel (f s) (f s') ∧ n s' = n s
  | await _ t => t.Uniform

variable {K i}

/-! ## Rules -/

section Rules

variable {Q Q' : α → α → σ → σ → Prop} {s s' : σ}

@[simp] theorem inStep_pure {a a' : α} :
    (pure a : Proc σ ι α).InStep K i Q (pure a') s s' ↔ Q a a' s s' := Iff.rfl

theorem inStep_read {f f' : σ → α} (h : K.ok s → Q (f s) (f' s') s s') :
    (read f : Proc σ ι α).InStep K i Q (read f') s s' := h

theorem inStep_update {Q : PUnit → PUnit → σ → σ → Prop} {f f' : σ → σ}
    (h : K.ok (f s) → Q ⟨⟩ ⟨⟩ (f s) (f' s')) :
    (update f : Proc σ ι PUnit).InStep K i Q (update f') s s' := h

theorem inStep_readUpdate {f f' : σ → α × σ}
    (h : K.ok (f s).2 → Q (f s).1 (f' s').1 (f s).2 (f' s').2) :
    (readUpdate f : Proc σ ι α).InStep K i Q (readUpdate f') s s' := h

theorem InStep.mono {t t' : Proc σ ι α} (h : t.InStep K i Q t' s s')
    (hQ : ∀ a a' s s', Q a a' s s' → Q' a a' s s') : t.InStep K i Q' t' s s' := by
  induction t generalizing t' s s' with
  | done a =>
      cases t' with
      | done a' => exact hQ _ _ _ _ h
      | act f n => exact h
      | await l t => exact h
  | act f n ih =>
      cases t' with
      | done a' => exact h
      | act f' n' => exact fun hok => ih s (h hok)
      | await l t => exact h
  | await l t ih =>
      cases t' with
      | done a' => exact h
      | act f n => exact h
      | await l' t' =>
          obtain ⟨hl, hrel, hnext⟩ := h
          exact ⟨hl, hrel, fun u u' hu => ih (hnext u u' hu)⟩

theorem InStep.bind {Q : β → β → σ → σ → Prop} {t t' : Proc σ ι α} {k k' : α → Proc σ ι β}
    (h : t.InStep K i (fun a a' s s' => (k a).InStep K i Q (k' a') s s') t' s s') :
    (t >>= k).InStep K i Q (t' >>= k') s s' := by
  change (t.bind k).InStep K i Q (t'.bind k') s s'
  induction t generalizing t' s s' with
  | done a =>
      cases t' with
      | done a' => exact h
      | act f n => exact h.elim
      | await l t => exact h.elim
  | act f n ih =>
      cases t' with
      | done a' => exact h.elim
      | act f' n' => exact fun hok => ih s (h hok)
      | await l t => exact h.elim
  | await l t ih =>
      cases t' with
      | done a' => exact h.elim
      | act f n => exact h.elim
      | await l' t' =>
          obtain ⟨hl, hrel, hnext⟩ := h
          exact ⟨hl, hrel, fun u u' hu => ih (hnext u u' hu)⟩

section Fallible

variable {ε : Type w}

/-- Two fallible programs that succeed alike or fail together. -/
theorem InStep.run_bind {Q : Except ε β → Except ε β → σ → σ → Prop}
    {t t' : ExceptT ε (Proc σ ι) α} {k k' : α → ExceptT ε (Proc σ ι) β}
    (h : t.run.InStep K i (fun r r' s s' => r.toOption = r'.toOption ∧ K.rel s s') t'.run s s')
    (hk : ∀ a s s', K.rel s s' → (k a).run.InStep K i Q (k' a).run s s')
    (hfail : ∀ e e' s s', K.rel s s' → Q (.error e) (.error e') s s') :
    (t >>= k).run.InStep K i Q (t' >>= k').run s s' := by
  rw [ExceptT.run_bind, ExceptT.run_bind]
  refine InStep.bind (h.mono fun r r' s s' hr => ?_)
  obtain ⟨hanswer, hrel⟩ := hr
  cases r with
  | ok a =>
      cases r' with
      | ok a' =>
          obtain rfl := Option.some.inj hanswer
          exact hk a s s' hrel
      | error e' => cases hanswer
  | error e =>
      cases r' with
      | ok a' => cases hanswer
      | error e' => exact hfail e e' s s' hrel

theorem InStep.run_lift {Q : Except ε α → Except ε α → σ → σ → Prop} {t t' : Proc σ ι α}
    (h : t.InStep K i (fun a a' s s' => Q (.ok a) (.ok a') s s') t' s s') :
    (liftM t : ExceptT ε (Proc σ ι) α).run.InStep K i Q
      (liftM t' : ExceptT ε (Proc σ ι) α).run s s' := by
  change (t >>= fun a => pure (Except.ok a)).InStep K i Q (t' >>= fun a => pure (Except.ok a)) s s'
  exact InStep.bind h

/-- Read or act first; the answers may differ. -/
theorem InStep.run_lift_bind {Q : Except ε β → Except ε β → σ → σ → Prop} {t t' : Proc σ ι α}
    {k k' : α → ExceptT ε (Proc σ ι) β}
    (h : t.InStep K i (fun a a' s s' => (k a).run.InStep K i Q (k' a').run s s') t' s s') :
    (liftM t >>= k : ExceptT ε (Proc σ ι) β).run.InStep K i Q
      (liftM t' >>= k' : ExceptT ε (Proc σ ι) β).run s s' := by
  rw [ExceptT.run_bind, ExceptT.run_bind]
  exact InStep.bind (InStep.run_lift h)

end Fallible

end Rules

/-! ## Uniform programs -/

section Uniform

@[simp] theorem uniform_pure (a : α) : (pure a : Proc σ ι α).Uniform K := trivial

theorem uniform_read {f : σ → α} (h : ∀ s s', K.rel s s' → f s' = f s) :
    (read f : Proc σ ι α).Uniform K :=
  fun s => ⟨id, trivial, fun s' hrel _ => ⟨hrel, congrArg done (h s s' hrel)⟩⟩

theorem uniform_update {f : σ → σ} (hok : ∀ s, K.ok (f s) → K.ok s)
    (h : ∀ s s', K.rel s s' → K.ok (f s) → K.rel (f s) (f s')) :
    (update f : Proc σ ι PUnit).Uniform K :=
  fun s => ⟨hok s, trivial, fun s' hrel hs => ⟨h s s' hrel hs, rfl⟩⟩

theorem uniform_readUpdate {f : σ → α × σ} (hok : ∀ s, K.ok (f s).2 → K.ok s)
    (h : ∀ s s', K.rel s s' → K.ok (f s).2 → K.rel (f s).2 (f s').2 ∧ (f s').1 = (f s).1) :
    (readUpdate f : Proc σ ι α).Uniform K :=
  fun s => ⟨hok s, trivial, fun s' hrel hs => (h s s' hrel hs).imp id (congrArg done)⟩

theorem uniform_suspend (l : ι) : (suspend l : Proc σ ι PUnit).Uniform K := trivial

theorem Uniform.bind {t : Proc σ ι α} {k : α → Proc σ ι β} (h : t.Uniform K)
    (hk : ∀ a, (k a).Uniform K) : (t >>= k).Uniform K := by
  change (t.bind k).Uniform K
  induction t with
  | done a => exact hk a
  | act f n ih =>
      intro s
      obtain ⟨hok, hrest, hstep⟩ := h s
      refine ⟨hok, ih s hrest, fun s' hrel hs => ?_⟩
      obtain ⟨hrel', hnext⟩ := hstep s' hrel hs
      exact ⟨hrel', congrArg (fun t => t.bind k) hnext⟩
  | await l t ih => exact ih h

/-- A uniform program is in step with itself. -/
theorem Uniform.inStep {t : Proc σ ι α} (h : t.Uniform K) {s s' : σ} (hrel : K.rel s s') :
    t.InStep K i (fun a a' s s' => a = a' ∧ K.rel s s') t s s' := by
  induction t generalizing s s' with
  | done a => exact ⟨rfl, hrel⟩
  | act f n ih =>
      intro hok
      obtain ⟨-, hrest, hstep⟩ := h s
      obtain ⟨hrel', hnext⟩ := hstep s' hrel hok
      rw [hnext]
      exact ih s hrest hrel'
  | await l t ih => exact ⟨rfl, hrel, fun u u' hu => ih h (K.rel_enter i u u' hu)⟩

theorem Uniform.lasting {t : Proc σ ι α} (h : t.Uniform K) : t.Lasting K := by
  induction t with
  | done a => trivial
  | act f n ih => exact fun s => ⟨(h s).1, ih s (h s).2.1⟩
  | await l t ih => exact ⟨trivial, ih h⟩

variable {ε : Type w}

theorem Uniform.run_bind {t : ExceptT ε (Proc σ ι) α} {k : α → ExceptT ε (Proc σ ι) β}
    (h : t.run.Uniform K) (hk : ∀ a, (k a).run.Uniform K) : (t >>= k).run.Uniform K := by
  rw [ExceptT.run_bind]
  refine h.bind fun r => ?_
  cases r with
  | ok a => exact hk a
  | error e => trivial

theorem Uniform.run_lift {t : Proc σ ι α} (h : t.Uniform K) :
    (liftM t : ExceptT ε (Proc σ ι) α).run.Uniform K :=
  h.bind (k := fun a => pure (Except.ok a)) fun _ => trivial

end Uniform

/-! ## Steady programs -/

section Steady

variable {ε : Type w}

variable (K) in
/-- A fallible program that is in step with itself from all related states: it succeeds with the
same answer, or fails in both; the errors may differ. -/
structure Steady (t : ExceptT ε (Proc σ ι) α) : Prop where
  lasting : t.run.Lasting K
  inStep : ∀ i s s', K.rel s s' →
    t.run.InStep K i (fun r r' s s' => r.toOption = r'.toOption ∧ K.rel s s') t.run s s'

theorem Uniform.steady {t : ExceptT ε (Proc σ ι) α} (h : t.run.Uniform K) : Steady K t where
  lasting := h.lasting
  inStep _ _ _ hrel := (h.inStep hrel).mono fun _ _ _ _ hr => ⟨congrArg _ hr.1, hr.2⟩

theorem steady_pure (a : α) : Steady K (pure a : ExceptT ε (Proc σ ι) α) :=
  Uniform.steady (uniform_pure _)

theorem Steady.bind {t : ExceptT ε (Proc σ ι) α} {k : α → ExceptT ε (Proc σ ι) β}
    (h : Steady K t) (hk : ∀ a, Steady K (k a)) : Steady K (t >>= k) where
  lasting := h.lasting.run_bind fun a => (hk a).lasting
  inStep i _ _ hrel := (h.inStep i _ _ hrel).run_bind (fun a _ _ hrel => (hk a).inStep i _ _ hrel)
    fun _ _ _ _ hrel => ⟨rfl, hrel⟩

end Steady

end Proc

/-! ## Soundness -/

/-- Two calls that are in step. -/
inductive Call.Coupled {σ : Type u} {ι : Type v} {α : Type w} (K : Coupling σ)
    (i : ℕ) (P : α → α → Prop) : Call σ ι α → Call σ ι α → Prop
  | absent : Coupled K i P .absent .absent
  | waiting (l : ι) (t t' : Proc σ ι α)
      (h : ∀ s s', K.rel s s' → t.InStep K i (fun a a' s s' => P a a' ∧ K.rel s s') t'
        (K.enter i s) (K.enter i s')) : Coupled K i P (.waiting l t) (.waiting l t')
  | finished (a a' : α) (h : P a a') : Coupled K i P (.finished a) (.finished a')

/-- Two calls that have got equally far, and answer alike. -/
def Call.Alike {σ : Type u} {ι : Type v} {α : Type w} (P : α → α → Prop) :
    Call σ ι α → Call σ ι α → Prop
  | .absent, .absent => True
  | .waiting l _, .waiting l' _ => l = l'
  | .finished a, .finished a' => P a a'
  | _, _ => False

theorem Call.Coupled.alike {σ : Type u} {ι : Type v} {α : Type w} {K : Coupling σ} {i : ℕ}
    {P : α → α → Prop} {c c' : Call σ ι α} (h : Call.Coupled K i P c c') : Call.Alike P c c' := by
  cases h with
  | absent => trivial
  | waiting l t t' h => exact rfl
  | finished a a' h => exact h

namespace Proc

variable {σ : Type u} {ι : Type v} {α : Type w} {K : Coupling σ} {i : ℕ}

/-- One segment of a program that cannot make a state ok. -/
theorem Lasting.segment {t : Proc σ ι α} (h : t.Lasting K) (s : σ) :
    (K.ok (t.segment s).2 → K.ok s) ∧
      ∀ l t', (t.segment s).1 = .inr (l, t') → t'.Lasting K := by
  induction t generalizing s with
  | done a => exact ⟨id, fun l t' ht => by cases ht⟩
  | act f n ih =>
      obtain ⟨hok, hrest⟩ := ih s (h s).2 (f s)
      exact ⟨fun hend => (h s).1 (hok hend), hrest⟩
  | await l t ih =>
      refine ⟨id, fun l' t' ht => ?_⟩
      cases ht
      exact h.2

/-- One segment of two programs in step. -/
theorem InStep.segment {P : α → α → Prop} {t t' : Proc σ ι α} {s s' : σ} (hlasting : t.Lasting K)
    (h : t.InStep K i (fun a a' s s' => P a a' ∧ K.rel s s') t' s s')
    (hok : K.ok (t.segment s).2) :
    K.rel (t.segment s).2 (t'.segment s').2 ∧
      Call.Coupled K i P (Call.after (t.segment s).1) (Call.after (t'.segment s').1) := by
  induction t generalizing t' s s' with
  | done a =>
      cases t' with
      | done a' => exact ⟨h.2, .finished a a' h.1⟩
      | act f n => exact h.elim
      | await l t => exact h.elim
  | act f n ih =>
      cases t' with
      | done a' => exact h.elim
      | act f' n' =>
          have hrest : (n s).Lasting K := (hlasting s).2
          have hstep := h ((hrest.segment (f s)).1 hok)
          have hend := ih s hrest hstep hok
          exact hend
      | await l t => exact h.elim
  | await l t ih =>
      cases t' with
      | done a' => exact h.elim
      | act f n => exact h.elim
      | await l' t' =>
          obtain ⟨rfl, hrel, hnext⟩ := h
          exact ⟨hrel, .waiting l t t' hnext⟩

end Proc

/-- What the programs of a scheduler have to satisfy for a coupling. -/
structure Scheduler.Couples {σ : Type u} {ι : Type v} {α : Type w} (S : Scheduler σ ι α)
    (K : Coupling σ) (P : α → α → Prop) : Prop where
  ready : ∀ l s s', K.rel s s' → S.ready l s = S.ready l s'
  enter : S.enter = K.enter
  lasting : ∀ l t, S.starts l t → t.Lasting K
  start : ∀ l t, S.starts l t → ∀ i s s', K.rel s s' →
    t.InStep K i (fun a a' s s' => P a a' ∧ K.rel s s') t (K.enter i s) (K.enter i s')

namespace Pool

variable {σ : Type u} {ι : Type v} {α : Type w} {S : Scheduler σ ι α} {K : Coupling σ}
  {P : α → α → Prop} {p p' : Pool σ ι α}

/-- The calls that are suspended cannot make a state ok. -/
def Lasting (K : Coupling σ) (p : Pool σ ι α) : Prop :=
  ∀ i l t, p.calls i = .waiting l t → t.Lasting K

/-- Two pools that run the same calls, in step. -/
structure Coupled (S : Scheduler σ ι α) (K : Coupling σ) (P : α → α → Prop) (p p' : Pool σ ι α) :
    Prop where
  shared : K.rel p.shared p'.shared
  calls : ∀ i, Call.Coupled K i P (p.calls i) (p'.calls i)

/-- A move cannot make a state ok. -/
theorem Lasting.move (hS : S.Couples K P) (h : p.Lasting K) {m : Move σ ι α} (hm : m.Fair S) :
    (p.move S (fun _ _ => True) m).Lasting K ∧
      (K.ok (p.move S (fun _ _ => True) m).shared → K.ok p.shared) := by
  cases m with
  | start i l t =>
      unfold Pool.move
      dsimp only
      split
      · refine ⟨fun j l' t' hj => ?_, id⟩
        by_cases hji : j = i
        · subst hji
          simp only [Function.update_self, Call.waiting.injEq] at hj
          obtain ⟨rfl, rfl⟩ := hj
          exact hS.lasting l t hm
        · simp only [Function.update_of_ne hji] at hj
          exact h j l' t' hj
      · exact ⟨h, id⟩
  | resume i =>
      unfold Pool.move
      dsimp only
      split
      · rename_i l t hwait
        split
        · obtain ⟨hok, hrest⟩ := (h i l t hwait).segment (S.enter i p.shared)
          refine ⟨fun j l' t' hj => ?_, fun hend => K.ok_enter i _ (hS.enter ▸ hok hend)⟩
          by_cases hji : j = i
          · subst hji
            simp only [resume, Function.update_self] at hj
            rcases hout : (t.segment (S.enter j p.shared)).1 with a | ⟨l'', t''⟩
            · rw [hout] at hj
              cases hj
            · rw [hout] at hj
              simp only [Call.after, Call.waiting.injEq] at hj
              obtain ⟨rfl, rfl⟩ := hj
              exact hrest _ _ hout
          · simp only [resume, Function.update_of_ne hji] at hj
            exact h j l' t' hj
        · exact ⟨h, id⟩
      · exact ⟨h, id⟩

theorem Lasting.play (hS : S.Couples K P) (h : p.Lasting K) {moves : List (Move σ ι α)}
    (hmoves : ∀ m ∈ moves, m.Fair S) :
    (p.play S (fun _ _ => True) moves).Lasting K ∧
      (K.ok (p.play S (fun _ _ => True) moves).shared → K.ok p.shared) := by
  induction moves generalizing p with
  | nil => exact ⟨h, id⟩
  | cons m moves ih =>
      obtain ⟨hmove, hok⟩ := h.move hS (hmoves m List.mem_cons_self)
      obtain ⟨hplay, hok'⟩ := ih hmove fun x hx => hmoves x (List.mem_cons_of_mem _ hx)
      exact ⟨hplay, fun hend => hok (hok' hend)⟩

/-- One move of both pools. -/
theorem Coupled.move (hS : S.Couples K P) (h : Coupled S K P p p') (hlasting : p.Lasting K)
    {m : Move σ ι α} (hm : m.Fair S) (hok : K.ok (p.move S (fun _ _ => True) m).shared) :
    Coupled S K P (p.move S (fun _ _ => True) m) (p'.move S (fun _ _ => True) m) := by
  cases m with
  | start i l t =>
      have hcall := h.calls i
      unfold Pool.move at hok ⊢
      dsimp only at hok ⊢
      generalize hc : p.calls i = c at hcall
      generalize hc' : p'.calls i = c' at hcall
      cases hcall with
      | absent =>
          refine ⟨h.shared, fun j => ?_⟩
          by_cases hji : j = i
          · subst hji
            simp only [Function.update_self]
            exact .waiting l t t fun s s' hrel => hS.start l t hm j s s' hrel
          · simp only [Function.update_of_ne hji]
            exact h.calls j
      | waiting => exact h
      | finished => exact h
  | resume i =>
      have hcall := h.calls i
      unfold Pool.move at hok ⊢
      dsimp only at hok ⊢
      generalize hc : p.calls i = c at hcall hok
      generalize hc' : p'.calls i = c' at hcall
      cases hcall with
      | absent => exact h
      | finished => exact h
      | waiting l t t' hnext =>
          dsimp only at hok ⊢
          rw [← hS.ready l _ _ h.shared]
          by_cases hready : S.ready l p.shared = true ∧ True
          · rw [if_pos hready] at hok ⊢
            rw [if_pos hready]
            unfold resume at hok ⊢
            rw [hS.enter] at hok ⊢
            obtain ⟨hrel, hafter⟩ := (hnext _ _ h.shared).segment (hlasting i l t hc) hok
            refine ⟨hrel, fun j => ?_⟩
            by_cases hji : j = i
            · subst hji
              simp only [Function.update_self]
              exact hafter
            · simp only [Function.update_of_ne hji]
              exact h.calls j
          · rw [if_neg hready, if_neg hready]
            exact h

/-- **Soundness.**  Coupled pools stay coupled under every schedule that ends in an ok state. -/
theorem Coupled.play (hS : S.Couples K P) (h : Coupled S K P p p') (hlasting : p.Lasting K)
    {moves : List (Move σ ι α)} (hmoves : ∀ m ∈ moves, m.Fair S)
    (hok : K.ok (p.play S (fun _ _ => True) moves).shared) :
    Coupled S K P (p.play S (fun _ _ => True) moves) (p'.play S (fun _ _ => True) moves) := by
  induction moves generalizing p p' with
  | nil => exact h
  | cons m moves ih =>
      have hm : m.Fair S := hmoves m List.mem_cons_self
      have hrest : ∀ x ∈ moves, x.Fair S := fun x hx => hmoves x (List.mem_cons_of_mem _ hx)
      have hmoved := (hlasting.move hS hm).1
      exact ih (h.move hS hlasting hm ((hmoved.play hS hrest).2 hok)) hmoved hrest hok

/-! ## Runs from a state without calls -/

/-- Every step is a move. -/
theorem Step.exists_move {C : ι → σ → Prop} [∀ l s, Decidable (C l s)] {q : Pool σ ι α}
    (h : Step S C p q) : ∃ m : Move σ ι α, m.Fair S ∧ p.move S C m = q := by
  cases h with
  | start i l t habsent hstarts =>
      refine ⟨.start i l t, hstarts, ?_⟩
      unfold Pool.move
      dsimp only
      rw [habsent]
  | resume i l t hwait hready hcond =>
      refine ⟨.resume i, trivial, ?_⟩
      unfold Pool.move
      dsimp only
      rw [hwait]
      exact if_pos ⟨hready, hcond⟩

/-- What is reached is what a schedule plays. -/
theorem Reach.exists_play {C : ι → σ → Prop} [∀ l s, Decidable (C l s)] {s₀ : σ}
    (h : Reach S C s₀ p) : ∃ moves : List (Move σ ι α), (∀ m ∈ moves, m.Fair S) ∧
      Pool.play S C ⟨s₀, fun _ => .absent⟩ moves = p := by
  induction h with
  | init => exact ⟨[], fun m hm => absurd hm List.not_mem_nil, rfl⟩
  | step _ hstep ih =>
      obtain ⟨moves, hmoves, rfl⟩ := ih
      obtain ⟨m, hm, rfl⟩ := hstep.exists_move
      refine ⟨moves ++ [m], fun x hx => ?_, List.foldl_append⟩
      rcases List.mem_append.1 hx with hx | hx
      · exact hmoves x hx
      · obtain rfl := List.mem_singleton.1 hx
        exact hm

/-- Every run has been ok throughout if it ends ok. -/
theorem Reach.lasting (hS : S.Couples K P) {s₀ : σ} (h : Reach S (fun _ _ => True) s₀ p) :
    p.Lasting K ∧ (K.ok p.shared → K.ok s₀) := by
  obtain ⟨moves, hmoves, rfl⟩ := h.exists_play
  have hlasting : Lasting K (⟨s₀, fun _ => .absent⟩ : Pool σ ι α) :=
    fun i l t hwait => by cases hwait
  exact hlasting.play hS hmoves

/-- Every run to an ok state is coupled with itself. -/
theorem Reach.coupled (hS : S.Couples K P) {s₀ : σ} (h : Reach S (fun _ _ => True) s₀ p)
    (hstart : K.rel s₀ s₀) (hok : K.ok p.shared) : Coupled S K P p p := by
  obtain ⟨moves, hmoves, rfl⟩ := h.exists_play
  have hlasting : Lasting K (⟨s₀, fun _ => .absent⟩ : Pool σ ι α) :=
    fun i l t hwait => by cases hwait
  have hcoupled : Coupled S K P ⟨s₀, fun _ => .absent⟩ ⟨s₀, fun _ => .absent⟩ :=
    ⟨hstart, fun _ => .absent⟩
  exact hcoupled.play hS hlasting hmoves hok

end Pool

end Shardd
