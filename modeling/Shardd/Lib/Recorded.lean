import Mathlib.Data.List.Basic
import Shardd.Lib.Zoom

/-!
# Runs that are recorded

A recorded state is a shared state together with the past of its run: which call has been resumed,
and in which state, oldest first.  `Scheduler.recorded` runs the programs of a scheduler over
recorded states; a suspended call shows which program it runs.  Recording changes nothing: every run
is the run of a recorded pool (`Pool.Reach.recorded`).
-/

namespace Shardd

universe u v w x

structure Recorded (σ : Type u) where
  node : σ
  past : List (ℕ × σ)

namespace Recorded

variable {σ : Type u}

/-- Call `i` is resumed. -/
def enter (f : ℕ → σ → σ) (i : ℕ) (R : Recorded σ) : Recorded σ where
  node := f i R.node
  past := R.past ++ [(i, R.node)]

/-- The shared state. -/
def present : Lens (Recorded σ) σ where
  get R := R.node
  set s R := { R with node := s }
  get_set _ _ := rfl
  set_get _ := rfl
  set_set _ _ _ := rfl

@[simp] theorem present_get (R : Recorded σ) : present.get R = R.node := rfl

@[simp] theorem present_set (s : σ) (R : Recorded σ) :
    present.set s R = { R with node := s } := rfl

/-- The state in which the `k`-th segment began. -/
def Began (R : Recorded σ) (k : ℕ) (s : σ) : Prop := ∃ i, R.past[k]? = some (i, s)

/-- The state in which the segment before the `k`-th one ended. -/
def Ended (R : Recorded σ) (k : ℕ) (t : σ) : Prop :=
  R.Began k t ∨ k = R.past.length ∧ t = R.node

/-- The `k`-th segment was one of call `i`; it led from `s` to `t`. -/
def Ran (R : Recorded σ) (k i : ℕ) (s t : σ) : Prop :=
  R.past[k]? = some (i, s) ∧ R.Ended (k + 1) t

/-- Call `i` has run one segment more. -/
def Next (i : ℕ) (R R' : Recorded σ) : Prop := R'.past = R.past ++ [(i, R.node)]

section

variable {R R' : Recorded σ} {i j k : ℕ} {s t : σ}

theorem next_enter (f : ℕ → σ → σ) : R.Next i (R.enter f i) := rfl

theorem Began.lt (h : R.Began k s) : k < R.past.length := by
  obtain ⟨i, hi⟩ := h
  exact (List.getElem?_eq_some_iff.1 hi).1

theorem Ran.began (h : R.Ran k i s t) : R.Began k s := ⟨i, h.1⟩

theorem Ran.lt (h : R.Ran k i s t) : k < R.past.length := h.began.lt

/-- What a segment ended in is what the next one began in. -/
theorem Ran.began_succ (h : R.Ran k i s t) (hk : k + 1 < R.past.length) : R.Began (k + 1) t := by
  rcases h.2 with ht | ⟨heq, -⟩
  · exact ht
  · exact absurd hk (by rw [heq]; exact Nat.lt_irrefl _)

/-- The last segment is still running. -/
theorem Ran.eq_node (h : R.Ran k i s t) (hk : k + 1 = R.past.length) : t = R.node := by
  rcases h.2 with ht | ⟨-, heq⟩
  · exact absurd ht.lt (by rw [hk]; exact Nat.lt_irrefl _)
  · exact heq

/-- The state of the running segment matters to no other. -/
theorem ran_iff_of_lt (hpast : R'.past = R.past) (hk : k + 1 < R.past.length) :
    R'.Ran k i s t ↔ R.Ran k i s t := by
  unfold Ran Ended Began
  rw [hpast]
  have hne : k + 1 ≠ R.past.length := Nat.ne_of_lt hk
  simp only [hne, false_and]

theorem Next.began_iff (h : R.Next j R') :
    R'.Began k s ↔ R.Began k s ∨ k = R.past.length ∧ s = R.node := by
  unfold Began
  rw [h]
  constructor
  · rintro ⟨i, hi⟩
    rcases Nat.lt_trichotomy k R.past.length with hk | rfl | hk
    · rw [List.getElem?_append_left hk] at hi
      exact .inl ⟨i, hi⟩
    · rw [List.getElem?_concat_length] at hi
      cases hi
      exact .inr ⟨rfl, rfl⟩
    · have hnone : (R.past ++ [(j, R.node)])[k]? = none := by
        rw [List.getElem?_eq_none_iff, List.length_append]
        exact hk
      rw [hnone] at hi
      cases hi
  · rintro (⟨i, hi⟩ | ⟨rfl, rfl⟩)
    · exact ⟨i, by rw [List.getElem?_append_left (List.getElem?_eq_some_iff.1 hi).1, hi]⟩
    · exact ⟨j, List.getElem?_concat_length⟩

/-- One more segment: the others have run as before. -/
theorem Next.ran_iff (h : R.Next j R') :
    R'.Ran k i s t ↔
      R.Ran k i s t ∨ k = R.past.length ∧ i = j ∧ s = R.node ∧ t = R'.node := by
  have hlength : R'.past.length = R.past.length + 1 := by rw [h]; simp
  unfold Ran Ended
  rw [h.began_iff, hlength, h]
  rcases Nat.lt_trichotomy k R.past.length with hk | rfl | hk
  · rw [List.getElem?_append_left hk]
    have hne : k ≠ R.past.length := Nat.ne_of_lt hk
    simp [hne]
  · rw [List.getElem?_concat_length, List.getElem?_eq_none (Nat.le_refl _)]
    have hnot : ¬ R.Began (R.past.length + 1) t :=
      fun hb => absurd hb.lt (by simp)
    constructor
    · rintro ⟨heq, ht⟩
      cases heq
      rcases ht with (ht | ⟨ht, -⟩) | ⟨-, rfl⟩
      · exact absurd ht hnot
      · simp at ht
      · exact .inr ⟨rfl, rfl, rfl, rfl⟩
    · rintro (⟨heq, -⟩ | ⟨-, rfl, rfl, rfl⟩)
      · cases heq
      · exact ⟨rfl, .inr ⟨rfl, rfl⟩⟩
  · have hne : k ≠ R.past.length := Nat.ne_of_gt hk
    have hnone : (R.past ++ [(j, R.node)])[k]? = none := by
      rw [List.getElem?_eq_none_iff, List.length_append]
      exact hk
    rw [hnone, List.getElem?_eq_none (Nat.le_of_lt hk)]
    simp [hne]

end

end Recorded

/-! ## Recording a pool -/

variable {σ : Type u} {ι : Type v} {α : Type w} {γ : Type v}

/-- The programs of `S` over recorded states; `names c` says which programs are called `c`. -/
def Scheduler.recorded (S : Scheduler σ ι α) (names : γ → ι → Proc σ ι α → Prop) :
    Scheduler (Recorded σ) (γ × ι) α where
  ready l R := S.ready l.2 R.node
  enter := Recorded.enter S.enter
  starts l t := ∃ t', names l.1 l.2 t' ∧ t = t'.zoom Recorded.present (Prod.mk l.1)

/-- The recorded call does what the call does. -/
inductive Recorded.Shows : Call σ ι α → Call (Recorded σ) (γ × ι) α → Prop
  | absent : Shows .absent .absent
  | waiting (c : γ) (l : ι) (t : Proc σ ι α) :
      Shows (.waiting l t) (.waiting (c, l) (t.zoom Recorded.present (Prod.mk c)))
  | finished (a : α) : Shows (.finished a) (.finished a)

namespace Recorded

/-- A segment leaves the past alone. -/
theorem segment_zoom (c : γ) (t : Proc σ ι α) (R : Recorded σ) :
    ((t.zoom present (Prod.mk c)).segment R).2 = { R with node := (t.segment R.node).2 } ∧
      Shows (Call.after (t.segment R.node).1)
        (Call.after ((t.zoom present (Prod.mk c)).segment R).1) := by
  induction t generalizing R with
  | done a => exact ⟨rfl, .finished a⟩
  | act f n ih => exact ih R.node { R with node := f R.node }
  | await l t ih => exact ⟨rfl, .waiting c l t⟩

end Recorded

namespace Pool

/-- The recorded pool is a record of the run to this pool. -/
structure Records (p : Pool σ ι α) (q : Pool (Recorded σ) (γ × ι) α) : Prop where
  node : q.shared.node = p.shared
  calls : ∀ i, Recorded.Shows (p.calls i) (q.calls i)

variable {S : Scheduler σ ι α} {names : γ → ι → Proc σ ι α → Prop}

theorem Records.step {p p' : Pool σ ι α} {q : Pool (Recorded σ) (γ × ι) α} (h : Records p q)
    (hnames : ∀ l t, S.starts l t → ∃ c, names c l t) (hp : Step S (fun _ _ => True) p p') :
    ∃ q', Step (S.recorded names) (fun _ _ => True) q q' ∧ Records p' q' := by
  cases hp with
  | start i l t habsent hstarts =>
      obtain ⟨c, hc⟩ := hnames l t hstarts
      have hcall := h.calls i
      rw [habsent] at hcall
      have hq : q.calls i = .absent := by
        cases hcall' : q.calls i <;> rw [hcall'] at hcall <;> cases hcall
      refine ⟨_, .start i (c, l) _ hq ⟨t, hc, rfl⟩, h.node, fun j => ?_⟩
      by_cases hj : j = i
      · subst hj
        simp only [Function.update_self]
        exact .waiting c l t
      · simp only [Function.update_of_ne hj]
        exact h.calls j
  | resume i l t hwait hready _ =>
      have hcall := h.calls i
      rw [hwait] at hcall
      obtain ⟨c, hq⟩ : ∃ c, q.calls i =
          .waiting (c, l) (t.zoom Recorded.present (Prod.mk c)) := by
        cases hcall' : q.calls i <;> rw [hcall'] at hcall <;> cases hcall
        exact ⟨_, rfl⟩
      have hready' : (S.recorded names).ready (c, l) q.shared = true := by
        change S.ready l q.shared.node = true
        rw [h.node]
        exact hready
      refine ⟨_, .resume i (c, l) _ hq hready' trivial, ?_, fun j => ?_⟩
      · have hsegment := (Recorded.segment_zoom c t
          (q.shared.enter S.enter i)).1
        change ((t.zoom Recorded.present (Prod.mk c)).segment (q.shared.enter S.enter i)).2.node = _
        rw [hsegment]
        change (t.segment (S.enter i q.shared.node)).2 = (t.segment (S.enter i p.shared)).2
        rw [h.node]
      · by_cases hj : j = i
        · subst hj
          simp only [resume, Function.update_self]
          have hsegment := (Recorded.segment_zoom c t (q.shared.enter S.enter j)).2
          change Recorded.Shows (Call.after (t.segment (S.enter j q.shared.node)).1) _ at hsegment
          rw [h.node] at hsegment
          exact hsegment
        · simp only [resume, Function.update_of_ne hj]
          exact h.calls j

/-- **Recording changes nothing.**  Every pool that is reached has a record. -/
theorem Reach.recorded {s₀ : σ} {p : Pool σ ι α}
    (hnames : ∀ l t, S.starts l t → ∃ c, names c l t) (h : Reach S (fun _ _ => True) s₀ p) :
    ∃ q, Reach (S.recorded names) (fun _ _ => True) ⟨s₀, []⟩ q ∧ Records p q := by
  induction h with
  | init => exact ⟨_, .init, rfl, fun _ => .absent⟩
  | step _ hstep ih =>
      obtain ⟨q, hq, hrecords⟩ := ih
      obtain ⟨q', hq', hrecords'⟩ := hrecords.step hnames hstep
      exact ⟨q', hq.step hq', hrecords'⟩

end Pool

end Shardd
