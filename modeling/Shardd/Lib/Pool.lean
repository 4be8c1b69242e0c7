import Mathlib.Logic.Function.Basic
import Mathlib.Tactic.Common
import Shardd.Lib.Proc

/-!
# Calls that run concurrently, and rely/guarantee reasoning about them

A `Pool` is a shared state with any number of calls of one program type over it.  A step either
starts a call or resumes a suspended one, which then runs alone up to its next suspension point
or its end.

The logic is rely/guarantee.  A call keeps an invariant `I` of the shared state at every
suspension point and promises a guarantee `G i` from each resumption to the next suspension;
in return it may carry a fact `P` across a suspension when `P` is `Stable`, that is, when no
guarantee of another call can break it.  `wp` collects what has to be shown of one program, one
action at a time, and `Pool.sound_of_reach` is the soundness theorem: if every program that can be
started satisfies `wp`, then `I` holds in every state the pool reaches.

The contract also says what holds while a call is suspended at a given point, and the soundness
theorem gives that, and what has been shown of results, for every call of a reachable pool.

`C l s` is an extra condition under which a call suspended at `l` is resumed in `s`; with
`C := fun _ _ => True` every schedule is admitted.
-/

namespace Shardd

universe u v w

namespace Proc

variable {σ : Type u} {ι : Type v} {α β : Type w}

/-- Run up to the next suspension point, or to the end. -/
def segment : Proc σ ι α → σ → (α ⊕ (ι × Proc σ ι α)) × σ
  | done a, s => (.inl a, s)
  | act f n, s => segment (n s) (f s)
  | await l t, s => (.inr (l, t), s)

end Proc

/-- What has become of a call. -/
inductive Call (σ : Type u) (ι : Type v) (α : Type w)
  | absent
  | waiting (l : ι) (rest : Proc σ ι α)
  | finished (a : α)

/-- Where a call is suspended. -/
def Call.point {σ : Type u} {ι : Type v} {α : Type w} : Call σ ι α → Option ι
  | .waiting l _ => some l
  | .absent | .finished _ => none

lemma Call.exists_of_point {σ : Type u} {ι : Type v} {α : Type w} {c : Call σ ι α} {l : ι}
    (h : c.point = some l) : ∃ t, c = .waiting l t := by
  cases c with
  | waiting l' t =>
      obtain rfl := Option.some.inj h
      exact ⟨t, rfl⟩
  | absent => cases h
  | finished a => cases h

/-- What a segment leaves of the call it ran. -/
def Call.after {σ : Type u} {ι : Type v} {α : Type w} : α ⊕ (ι × Proc σ ι α) → Call σ ι α
  | .inl a => .finished a
  | .inr (l, t) => .waiting l t

structure Pool (σ : Type u) (ι : Type v) (α : Type w) where
  shared : σ
  calls : ℕ → Call σ ι α

/-- How the calls of a pool are scheduled. -/
structure Scheduler (σ : Type u) (ι : Type v) (α : Type w) where
  /-- The points at which a call in this state can be resumed. -/
  ready : ι → σ → Bool
  /-- The bookkeeping when call `i` is resumed. -/
  enter : ℕ → σ → σ
  /-- The programs a call may run, with the point they start from. -/
  starts : ι → Proc σ ι α → Prop

namespace Pool

variable {σ : Type u} {ι : Type v} {α β : Type w}

/-- The pool after call `i`, suspended before `t`, has run one segment. -/
def resume (S : Scheduler σ ι α) (p : Pool σ ι α) (i : ℕ) (t : Proc σ ι α) : Pool σ ι α :=
  let out := t.segment (S.enter i p.shared)
  { shared := out.2
    calls := Function.update p.calls i (Call.after out.1) }

inductive Step (S : Scheduler σ ι α) (C : ι → σ → Prop) (p : Pool σ ι α) : Pool σ ι α → Prop
  | start (i : ℕ) (l : ι) (t : Proc σ ι α) :
      p.calls i = .absent → S.starts l t →
      Step S C p { p with calls := Function.update p.calls i (.waiting l t) }
  | resume (i : ℕ) (l : ι) (t : Proc σ ι α) :
      p.calls i = .waiting l t → S.ready l p.shared = true → C l p.shared →
      Step S C p (p.resume S i t)

/-- The pools a run reaches from a shared state in which no call has started. -/
inductive Reach (S : Scheduler σ ι α) (C : ι → σ → Prop) (s₀ : σ) : Pool σ ι α → Prop
  | init : Reach S C s₀ ⟨s₀, fun _ => .absent⟩
  | step {p q : Pool σ ι α} : Reach S C s₀ p → Step S C p q → Reach S C s₀ q

/-! ## Playing a schedule -/

/-- One entry of a schedule: start a program as call `i`, or resume call `i`. -/
inductive Move (σ : Type u) (ι : Type v) (α : Type w)
  | start (i : ℕ) (l : ι) (t : Proc σ ι α)
  | resume (i : ℕ)

variable (S : Scheduler σ ι α) (C : ι → σ → Prop) [∀ l s, Decidable (C l s)]

/-- What a move does; one that is not possible does nothing. -/
def move (p : Pool σ ι α) : Move σ ι α → Pool σ ι α
  | .start i l t =>
      match p.calls i with
      | .absent => { p with calls := Function.update p.calls i (.waiting l t) }
      | _ => p
  | .resume i =>
      match p.calls i with
      | .waiting l t =>
          if S.ready l p.shared = true ∧ C l p.shared then p.resume S i t else p
      | _ => p

def play (p : Pool σ ι α) (moves : List (Move σ ι α)) : Pool σ ι α := moves.foldl (move S C) p

/-- A move that starts nothing but what may be started. -/
def Move.Fair : Move σ ι α → Prop
  | .start _ l t => S.starts l t
  | .resume _ => True

variable {S C}

/-- What a schedule plays is reached. -/
theorem Reach.play {s₀ : σ} {p : Pool σ ι α} (h : Reach S C s₀ p) {moves : List (Move σ ι α)}
    (hfair : ∀ m ∈ moves, m.Fair S) : Reach S C s₀ (p.play S C moves) := by
  induction moves generalizing p with
  | nil => exact h
  | cons m moves ih =>
      have hmove : Reach S C s₀ (p.move S C m) := by
        cases m with
        | start i l t =>
            unfold move
            dsimp only
            split
            · rename_i habsent
              exact h.step (.start i l t habsent (hfair _ List.mem_cons_self))
            · exact h
        | resume i =>
            unfold move
            dsimp only
            split
            · rename_i l t hwait
              split
              · rename_i hready
                exact h.step (.resume i l t hwait hready.1 hready.2)
              · exact h
            · exact h
      exact ih hmove fun x hx => hfair x (List.mem_cons_of_mem _ hx)

end Pool

/-! ## Rely and guarantee -/

/-- The obligations of a rely/guarantee argument. -/
structure Contract (σ : Type u) (ι : Type v) where
  /-- Holds whenever no call is inside a segment. -/
  inv : σ → Prop
  /-- What call `i` may do to the shared state from one resumption to the next suspension. -/
  guar : ℕ → σ → σ → Prop
  /-- What holds as long as call `i` has not started. -/
  absent : ℕ → σ → Prop
  /-- What holds while call `i` is suspended at a point. -/
  pause : ℕ → ι → σ → Prop

namespace Contract

variable {σ : Type u} {ι : Type v}

/-- A fact that call `i` may rely on while it is suspended. -/
def Stable (K : Contract σ ι) (i : ℕ) (P : σ → Prop) : Prop :=
  ∀ j s s', j ≠ i → P s → K.guar j s s' → P s'

theorem Stable.true (K : Contract σ ι) (i : ℕ) : K.Stable i fun _ => True :=
  fun _ _ _ _ _ _ => trivial

theorem Stable.and {K : Contract σ ι} {i : ℕ} {P P' : σ → Prop} (h : K.Stable i P)
    (h' : K.Stable i P') : K.Stable i fun s => P s ∧ P' s :=
  fun j s s' hj hp hg => ⟨h j s s' hj hp.1 hg, h' j s s' hj hp.2 hg⟩

variable (ready : ι → σ → Bool) (enter : ℕ → σ → σ) (K : Contract σ ι) (C : ι → σ → Prop) (i : ℕ)

/-- Call `i`, in state `s` of a segment that began in `s₀`, may suspend at `l`; `J` is what it finds
when it is resumed. -/
def Rests (l : ι) (J : σ → σ → Prop) (s₀ s : σ) : Prop :=
  K.inv s ∧ K.guar i s₀ s ∧ ∃ P, K.Stable i P ∧ P s ∧ (∀ s', K.inv s' → P s' → K.pause i l s') ∧
    ∀ s', K.inv s' → P s' → ready l s' = true → C l s' → J s' (enter i s')

variable {ready enter K C i}

theorem Rests.mono {l : ι} {J J' : σ → σ → Prop} {s₀ s : σ} (hJ : ∀ s₀ s, J s₀ s → J' s₀ s)
    (h : Rests ready enter K C i l J s₀ s) : Rests ready enter K C i l J' s₀ s := by
  obtain ⟨hinv, hguar, P, hstable, hP, hpause, hnext⟩ := h
  exact ⟨hinv, hguar, P, hstable, hP, hpause, fun s' h₁ h₂ h₃ h₄ => hJ _ _ (hnext s' h₁ h₂ h₃ h₄)⟩

end Contract

namespace Proc

variable {σ : Type u} {ι : Type v} {α β : Type w}
variable (ready : ι → σ → Bool) (enter : ℕ → σ → σ) (K : Contract σ ι) (C : ι → σ → Prop) (i : ℕ)

/-- `t.wp … Q s₀ s`: call `i` is in state `s` of a segment that began in `s₀` and still has `t` to
run; every segment of `t` keeps the contract, and `Q` holds of the result, the state in which the
last segment began and the state in which it ended. -/
def wp (Q : α → σ → σ → Prop) : Proc σ ι α → σ → σ → Prop
  | done a, s₀, s => Q a s₀ s
  | act f n, s₀, s => wp Q (n s) s₀ (f s)
  | await l t, s₀, s => K.Rests ready enter C i l (wp Q t) s₀ s

variable {ready enter K C i}

@[simp] theorem wp_pure {Q : α → σ → σ → Prop} {a : α} {s₀ s : σ} :
    (pure a : Proc σ ι α).wp ready enter K C i Q s₀ s ↔ Q a s₀ s := Iff.rfl

@[simp] theorem wp_read {Q : α → σ → σ → Prop} {f : σ → α} {s₀ s : σ} :
    (read f : Proc σ ι α).wp ready enter K C i Q s₀ s ↔ Q (f s) s₀ s := Iff.rfl

@[simp] theorem wp_update {Q : PUnit → σ → σ → Prop} {f : σ → σ} {s₀ s : σ} :
    (update f : Proc σ ι PUnit).wp ready enter K C i Q s₀ s ↔ Q ⟨⟩ s₀ (f s) := Iff.rfl

@[simp] theorem wp_readUpdate {Q : α → σ → σ → Prop} {f : σ → α × σ} {s₀ s : σ} :
    (readUpdate f : Proc σ ι α).wp ready enter K C i Q s₀ s ↔ Q (f s).1 s₀ (f s).2 := Iff.rfl

theorem wp_suspend {Q : PUnit → σ → σ → Prop} {l : ι} {s₀ s : σ}
    (h : K.Rests ready enter C i l (Q ⟨⟩) s₀ s) :
    (suspend l : Proc σ ι PUnit).wp ready enter K C i Q s₀ s := h

theorem wp_mono {Q Q' : α → σ → σ → Prop} (hQ : ∀ a s₀ s, Q a s₀ s → Q' a s₀ s)
    {t : Proc σ ι α} {s₀ s : σ} (h : t.wp ready enter K C i Q s₀ s) :
    t.wp ready enter K C i Q' s₀ s := by
  induction t generalizing s₀ s with
  | done a => exact hQ _ _ _ h
  | act f n ih => exact ih s h
  | await l t ih => exact Contract.Rests.mono (fun _ _ => ih) h

theorem wp_bind {Q : β → σ → σ → Prop} {t : Proc σ ι α} {k : α → Proc σ ι β} {s₀ s : σ}
    (h : t.wp ready enter K C i (fun a s₀ s => (k a).wp ready enter K C i Q s₀ s) s₀ s) :
    (t >>= k).wp ready enter K C i Q s₀ s := by
  change (t.bind k).wp ready enter K C i Q s₀ s
  induction t generalizing s₀ s with
  | done a => exact h
  | act f n ih => exact ih s h
  | await l t ih => exact Contract.Rests.mono (fun _ _ => ih) h

section Fallible

variable {ε : Type w}

/-- `wp` of a sequence whose first part may fail. -/
theorem wp_run_bind {Q : Except ε β → σ → σ → Prop} {t : ExceptT ε (Proc σ ι) α}
    {k : α → ExceptT ε (Proc σ ι) β} {s₀ s : σ}
    (h : t.run.wp ready enter K C i
      (fun r s₀ s => match r with
        | .ok a => (k a).run.wp ready enter K C i Q s₀ s
        | .error e => Q (.error e) s₀ s) s₀ s) :
    (t >>= k).run.wp ready enter K C i Q s₀ s := by
  rw [ExceptT.run_bind]
  refine wp_bind (wp_mono (fun r s₀ s hr => ?_) h)
  cases r with
  | ok a => exact hr
  | error e => exact hr

theorem wp_run_lift {Q : Except ε α → σ → σ → Prop} {t : Proc σ ι α} {s₀ s : σ}
    (h : t.wp ready enter K C i (fun a s₀ s => Q (.ok a) s₀ s) s₀ s) :
    (liftM t : ExceptT ε (Proc σ ι) α).run.wp ready enter K C i Q s₀ s :=
  wp_bind (t := t) (k := fun a => pure (Except.ok a)) h

@[simp] theorem wp_run_pure {Q : Except ε α → σ → σ → Prop} {a : α} {s₀ s : σ} :
    (pure a : ExceptT ε (Proc σ ι) α).run.wp ready enter K C i Q s₀ s ↔ Q (.ok a) s₀ s := Iff.rfl

@[simp] theorem wp_run_throw {Q : Except ε α → σ → σ → Prop} {e : ε} {s₀ s : σ} :
    (throw e : ExceptT ε (Proc σ ι) α).run.wp ready enter K C i Q s₀ s ↔ Q (.error e) s₀ s :=
  Iff.rfl

end Fallible

/-! ## Programs of like steps -/

/-- All actions of the program are of the kind `R`, and it suspends at points of the kind `W`. -/
def Only (R : σ → σ → Prop) (W : ι → Prop) : Proc σ ι α → Prop
  | done _ => True
  | act f n => ∀ s, R s (f s) ∧ (n s).Only R W
  | await l t => W l ∧ t.Only R W

section Only

variable {R R' : σ → σ → Prop} {W W' : ι → Prop}

@[simp] theorem only_pure (a : α) : (pure a : Proc σ ι α).Only R W := trivial

theorem only_read (hR : ∀ s, R s s) (f : σ → α) : (read f : Proc σ ι α).Only R W :=
  fun s => ⟨hR s, trivial⟩

theorem only_update {f : σ → σ} (h : ∀ s, R s (f s)) : (update f : Proc σ ι PUnit).Only R W :=
  fun s => ⟨h s, trivial⟩

theorem only_readUpdate {f : σ → α × σ} (h : ∀ s, R s (f s).2) :
    (readUpdate f : Proc σ ι α).Only R W := fun s => ⟨h s, trivial⟩

theorem only_suspend {l : ι} (h : W l) : (suspend l : Proc σ ι PUnit).Only R W := ⟨h, trivial⟩

theorem Only.mono {t : Proc σ ι α} (h : t.Only R W) (hR : ∀ s s', R s s' → R' s s')
    (hW : ∀ l, W l → W' l) : t.Only R' W' := by
  induction t with
  | done a => trivial
  | act f n ih => exact fun s => ⟨hR _ _ (h s).1, ih s (h s).2⟩
  | await l t ih => exact ⟨hW l h.1, ih h.2⟩

theorem Only.bind {t : Proc σ ι α} {k : α → Proc σ ι β} (h : t.Only R W)
    (hk : ∀ a, (k a).Only R W) : (t >>= k).Only R W := by
  change (t.bind k).Only R W
  induction t with
  | done a => exact hk a
  | act f n ih => exact fun s => ⟨(h s).1, ih s (h s).2⟩
  | await l t ih => exact ⟨h.1, ih h.2⟩

variable {ε : Type w}

theorem Only.run_bind {t : ExceptT ε (Proc σ ι) α} {k : α → ExceptT ε (Proc σ ι) β}
    (h : t.run.Only R W) (hk : ∀ a, (k a).run.Only R W) : (t >>= k).run.Only R W := by
  rw [ExceptT.run_bind]
  refine h.bind fun r => ?_
  cases r with
  | ok a => exact hk a
  | error e => trivial

theorem Only.run_lift {t : Proc σ ι α} (h : t.Only R W) :
    (liftM t : ExceptT ε (Proc σ ι) α).run.Only R W :=
  h.bind (k := fun a => pure (Except.ok a)) fun _ => trivial

/-- A judgement that every action and every suspension of a kind keeps is kept by the programs of
that kind. -/
theorem wp_of_only {J : σ → σ → Prop} (hact : ∀ s₀ s s', J s₀ s → R s s' → J s₀ s')
    (hrest : ∀ l s₀ s, W l → J s₀ s → K.Rests ready enter C i l J s₀ s) {t : Proc σ ι α}
    (h : t.Only R W) {s₀ s : σ} (hs : J s₀ s) :
    t.wp ready enter K C i (fun _ => J) s₀ s := by
  induction t generalizing s₀ s with
  | done a => exact hs
  | act f n ih => exact ih s (h s).2 (hact _ _ _ hs (h s).1)
  | await l t ih => exact (hrest l s₀ s h.1 hs).mono fun _ _ => ih h.2

end Only

/-! ## Soundness -/

/-- One segment of a program that satisfies `wp`: the contract is kept, and what is left of the
program satisfies `wp` again. -/
theorem segment_of_wp {Q : α → σ → σ → Prop}
    (hQ : ∀ a s₀ s, Q a s₀ s → K.inv s ∧ K.guar i s₀ s) {t : Proc σ ι α} {s₀ s : σ}
    (h : t.wp ready enter K C i Q s₀ s) :
    K.inv (t.segment s).2 ∧ K.guar i s₀ (t.segment s).2 ∧
      (∀ a, (t.segment s).1 = .inl a → ∃ s₀, Q a s₀ (t.segment s).2) ∧
      ∀ l t', (t.segment s).1 = .inr (l, t') →
        K.Rests ready enter C i l (t'.wp ready enter K C i Q) s₀ (t.segment s).2 := by
  induction t generalizing s with
  | done a =>
      refine ⟨(hQ a _ _ h).1, (hQ a _ _ h).2, fun a' ha => ?_, fun l t' ht => by cases ht⟩
      cases ha
      exact ⟨s₀, h⟩
  | act f n ih => exact ih s h
  | await l t ih =>
      refine ⟨h.1, h.2.1, fun a ha => ?_, fun l' t' ht => ?_⟩
      · cases ha
      · cases ht
        exact h

end Proc

namespace Pool

variable {σ : Type u} {ι : Type v} {α : Type w} {S : Scheduler σ ι α} {K : Contract σ ι}
  {C : ι → σ → Prop} {D : ℕ → α → σ → Prop}

/-- A call that has kept its contract so far and will keep it when it is resumed. -/
def Kept (S : Scheduler σ ι α) (K : Contract σ ι) (C : ι → σ → Prop) (D : ℕ → α → σ → Prop) (s : σ)
    (i : ℕ) (l : ι) (t : Proc σ ι α) : Prop :=
  ∃ P, K.Stable i P ∧ P s ∧ (∀ s', K.inv s' → P s' → K.pause i l s') ∧
    ∀ s', K.inv s' → P s' → S.ready l s' = true → C l s' →
      t.wp S.ready S.enter K C i (fun a s₀ s => K.inv s ∧ K.guar i s₀ s ∧ D i a s) s' (S.enter i s')

/-- The invariant of the soundness proof. -/
structure Sound (S : Scheduler σ ι α) (K : Contract σ ι) (C : ι → σ → Prop)
    (D : ℕ → α → σ → Prop) (p : Pool σ ι α) : Prop where
  inv : K.inv p.shared
  absent : ∀ i, p.calls i = .absent → K.absent i p.shared
  waiting : ∀ i l t, p.calls i = .waiting l t → Kept S K C D p.shared i l t
  finished : ∀ i a, p.calls i = .finished a → D i a p.shared

/-- Every program that can be started keeps the contract, whatever state it starts in, and what is
to be shown of its result stays true. -/
structure StartsKept (S : Scheduler σ ι α) (K : Contract σ ι) (C : ι → σ → Prop)
    (D : ℕ → α → σ → Prop) : Prop where
  absent : ∀ i, K.Stable i (K.absent i)
  stable : ∀ i a, K.Stable i (D i a)
  pause : ∀ l t, S.starts l t → ∀ i s, K.inv s → K.absent i s → K.pause i l s
  start : ∀ l t, S.starts l t → ∀ i s, K.inv s → K.absent i s → S.ready l s = true → C l s →
    t.wp S.ready S.enter K C i (fun a s₀ s => K.inv s ∧ K.guar i s₀ s ∧ D i a s) s (S.enter i s)

theorem Sound.step (hstart : StartsKept S K C D) {p q : Pool σ ι α} (hp : Sound S K C D p)
    (h : Step S C p q) : Sound S K C D q := by
  cases h with
  | start i l t habsent hstarts =>
      refine ⟨hp.inv, fun j hj => ?_, fun j l' t' hj => ?_, fun j a hj => ?_⟩
      · by_cases hji : j = i
        · subst hji
          simp at hj
        · simp only [Function.update_of_ne hji] at hj
          exact hp.absent j hj
      · by_cases hji : j = i
        · subst hji
          simp only [Function.update_self, Call.waiting.injEq] at hj
          obtain ⟨rfl, rfl⟩ := hj
          exact ⟨K.absent j, hstart.absent j, hp.absent j habsent,
            fun s' hs ha => hstart.pause l t hstarts j s' hs ha,
            fun s' hs ha hr hc => hstart.start l t hstarts j s' hs ha hr hc⟩
        · simp only [Function.update_of_ne hji] at hj
          exact hp.waiting j l' t' hj
      · by_cases hji : j = i
        · subst hji
          simp at hj
        · simp only [Function.update_of_ne hji] at hj
          exact hp.finished j a hj
  | resume i l t hwait hready hcond =>
      obtain ⟨P, -, hP, -, hnext⟩ := hp.waiting i l t hwait
      obtain ⟨hinv, hguar, hdone, hrests⟩ := Proc.segment_of_wp (fun _ _ _ hq => ⟨hq.1, hq.2.1⟩)
        (hnext _ hp.inv hP hready hcond)
      refine ⟨hinv, fun j hj => ?_, fun j l' t' hj => ?_, fun j a hj => ?_⟩
      · by_cases hji : j = i
        · subst hji
          simp only [Pool.resume, Function.update_self] at hj
          rcases hout : (t.segment (S.enter j p.shared)).1 with a | ⟨l'', t''⟩ <;>
            rw [hout] at hj <;> cases hj
        · simp only [Pool.resume, Function.update_of_ne hji] at hj
          exact hstart.absent j i _ _ (Ne.symm hji) (hp.absent j hj) hguar
      · by_cases hji : j = i
        · subst hji
          simp only [Pool.resume, Function.update_self] at hj
          rcases hout : (t.segment (S.enter j p.shared)).1 with a | ⟨l'', t''⟩
          · rw [hout] at hj
            cases hj
          · rw [hout] at hj
            simp only [Call.after, Call.waiting.injEq] at hj
            obtain ⟨rfl, rfl⟩ := hj
            exact (hrests _ _ hout).2.2
        · simp only [Pool.resume, Function.update_of_ne hji] at hj
          obtain ⟨P', hstable, hP', hpause, hnext'⟩ := hp.waiting j l' t' hj
          exact ⟨P', hstable, hstable i _ _ (Ne.symm hji) hP' hguar, hpause, hnext'⟩
      · by_cases hji : j = i
        · subst hji
          simp only [Pool.resume, Function.update_self] at hj
          rcases hout : (t.segment (S.enter j p.shared)).1 with a' | ⟨l'', t''⟩
          · rw [hout] at hj
            simp only [Call.after, Call.finished.injEq] at hj
            subst hj
            obtain ⟨_, hq⟩ := hdone _ hout
            exact hq.2.2
          · rw [hout] at hj
            cases hj
        · simp only [Pool.resume, Function.update_of_ne hji] at hj
          exact hstart.stable j a i _ _ (Ne.symm hji) (hp.finished j a hj) hguar

/-- **Soundness.**  If every program that can be started keeps the contract, then every pool that is
reached is sound: the invariant holds, and so does what is known of suspended and of finished
calls. -/
theorem sound_of_reach (hstart : StartsKept S K C D) {s₀ : σ} (h₀ : K.inv s₀)
    (habsent : ∀ i, K.absent i s₀) {p : Pool σ ι α} (h : Reach S C s₀ p) : Sound S K C D p := by
  induction h with
  | init =>
      constructor
      · exact h₀
      · exact fun i _ => habsent i
      · intro i l t hi
        cases hi
      · intro i a hi
        cases hi
  | step _ hstep ih => exact ih.step hstart hstep

theorem Sound.pause {p : Pool σ ι α} (h : Sound S K C D p) {i : ℕ} {l : ι} {t : Proc σ ι α}
    (hi : p.calls i = .waiting l t) : K.pause i l p.shared := by
  obtain ⟨P, -, hP, hpause, -⟩ := h.waiting i l t hi
  exact hpause _ h.inv hP

end Pool

end Shardd
