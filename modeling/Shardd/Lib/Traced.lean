import Mathlib.Data.List.Infix
import Shardd.Lib.Pool

/-!
# Programs that leave a trace

A `Traced` state carries the states that have been visited, the present one last.  `t.traced` does
what `t` does and records each state it makes.  It may be interrupted before each of its actions;
only an action that directly follows a suspension point comes together with it, so that a lock is
taken by the call that has found it free.

Whatever runs among such programs can only add to the trace.
-/

namespace Shardd

universe u v w

structure Traced (σ : Type u) where
  now : σ
  visited : List σ
  last : visited.getLast? = some now

namespace Traced

variable {σ : Type u}

def start (s : σ) : Traced σ := ⟨s, [s], rfl⟩

/-- The present state is left for `s`. -/
def move (S : Traced σ) (s : σ) : Traced σ := ⟨s, S.visited ++ [s], List.getLast?_concat⟩

/-- The index of the present state. -/
def index (S : Traced σ) : ℕ := S.visited.length - 1

/-- The states from an index on. -/
def since (S : Traced σ) (n : ℕ) : List σ := S.visited.drop n

variable {S S' : Traced σ} {n : ℕ}

lemma length_visited (S : Traced σ) : S.visited.length = S.index + 1 := by
  have hne : S.visited ≠ [] := fun h => by
    have hlast := S.last
    rw [h] at hlast
    cases hlast
  have hpos := List.length_pos_iff.2 hne
  unfold index
  omega

/-- The present state is among those since any state that has been visited. -/
lemma now_mem_since (h : n ≤ S.index) : S.now ∈ S.since n := by
  have hlength := S.length_visited
  refine List.mem_of_getLast? ?_
  rw [since, List.getLast?_drop, if_neg (by omega), S.last]

lemma prefix_move (S : Traced σ) (s : σ) : S.visited <+: (S.move s).visited :=
  List.prefix_append _ _

lemma index_le_of_prefix (h : S.visited <+: S'.visited) : S.index ≤ S'.index :=
  Nat.sub_le_sub_right h.length_le 1

lemma mem_since_of_prefix (h : S.visited <+: S'.visited) {s : σ} (hs : s ∈ S.since n) :
    s ∈ S'.since n :=
  (h.drop n).subset hs

end Traced

namespace Proc

variable {σ : Type u} {ι κ : Type v} {α : Type w}

/-- The program with a trace; `resumed` says that a suspension has just ended. -/
def traced (lab : ι → κ) (step : κ) : Bool → Proc σ ι α → Proc (Traced σ) κ α
  | _, done a => done a
  | true, act f n =>
      act (fun S => S.move (f S.now)) fun S => traced lab step false (n S.now)
  | false, act f n =>
      await step (act (fun S => S.move (f S.now)) fun S => traced lab step false (n S.now))
  | _, await l t => await (lab l) (traced lab step true t)

section Alone

variable {ready : ι → σ → Bool} {ready' : κ → Traced σ → Bool} {lab : ι → κ} {step : κ}

/-- Alone, the program with a trace does what the program does. -/
theorem exec_traced (hready : ∀ l S, ready' (lab l) S = ready l S.now)
    (hstep : ∀ S, ready' step S = true) (t : Proc σ ι α) (resumed : Bool) (S : Traced σ) :
    (exec ready' (t.traced lab step resumed) S).1 = (exec ready t S.now).1 ∧
      (exec ready' (t.traced lab step resumed) S).2.now = (exec ready t S.now).2 := by
  induction t generalizing resumed S with
  | done a => cases resumed <;> exact ⟨rfl, rfl⟩
  | act f n ih =>
      cases resumed with
      | true => exact ih S.now false (S.move (f S.now))
      | false =>
          simp only [traced, exec, hstep, if_true]
          exact ih S.now false (S.move (f S.now))
  | await l t ih =>
      have hawait : (await l t : Proc σ ι α).traced lab step resumed =
          await (lab l) (t.traced lab step true) := by
        cases resumed <;> rfl
      rw [hawait]
      simp only [exec, hready]
      split
      · exact ih true S
      · exact ⟨rfl, rfl⟩

end Alone

end Proc

/-! ## Among others -/

/-- Every call only adds to the trace. -/
def traceContract (σ : Type u) (κ : Type v) : Contract (Traced σ) κ where
  inv _ := True
  guar _ S S' := S.visited <+: S'.visited
  absent _ _ := True
  pause _ _ _ := True

section Rules

variable {σ : Type u} {ι κ : Type v} {α : Type w} {ready : κ → Traced σ → Bool}
  {enter : ℕ → Traced σ → Traced σ} {C : κ → Traced σ → Prop} {i : ℕ} {S₀ S : Traced σ}

/-- A fact that only grows with the trace is kept across a suspension. -/
lemma traceContract_rests {l : κ} {P : Traced σ → Prop} {J : Traced σ → Traced σ → Prop}
    (hgrown : S₀.visited <+: S.visited)
    (hstable : ∀ S S' : Traced σ, S.visited <+: S'.visited → P S → P S') (hP : P S)
    (hnext : ∀ S', P S' → ready l S' = true → C l S' → J S' (enter i S')) :
    (traceContract σ κ).Rests ready enter C i l J S₀ S :=
  ⟨trivial, hgrown, P, fun _ S S' _ hS hguar => hstable S S' hguar hS, hP,
    fun _ _ _ => trivial, fun S' _ hS' hr hc => hnext S' hS' hr hc⟩

variable (henter : ∀ S : Traced σ, S.visited <+: (enter i S).visited)

include henter

/-- Programs with a trace add to the trace, and keep what only grows with it. -/
lemma wp_traced (lab : ι → κ) (step : κ) (resumed : Bool) (t : Proc σ ι α) {P : Traced σ → Prop}
    (hstable : ∀ S S' : Traced σ, S.visited <+: S'.visited → P S → P S')
    (hgrown : S₀.visited <+: S.visited) (hP : P S) :
    (t.traced lab step resumed).wp ready enter (traceContract σ κ) C i
      (fun _ S₀ S => S₀.visited <+: S.visited ∧ P S) S₀ S := by
  have hrests : ∀ {S₀ S : Traced σ} {l : κ} {J : Traced σ → Traced σ → Prop},
      S₀.visited <+: S.visited → P S →
      (∀ S₀ S : Traced σ, S₀.visited <+: S.visited → P S → J S₀ S) →
      (traceContract σ κ).Rests ready enter C i l J S₀ S := fun hgrown hP hJ =>
    traceContract_rests hgrown hstable hP fun S' hS' _ _ =>
      hJ _ _ (henter S') (hstable _ _ (henter S') hS')
  induction t generalizing resumed S₀ S with
  | done a => cases resumed <;> exact ⟨hgrown, hP⟩
  | act f n ih =>
      have hact : ∀ S₀ S : Traced σ, S₀.visited <+: S.visited → P S →
          ((n S.now).traced lab step false).wp ready enter (traceContract σ κ) C i
            (fun _ S₀ S => S₀.visited <+: S.visited ∧ P S) S₀ (S.move (f S.now)) :=
        fun S₀ S hgrown hP => ih S.now false (hgrown.trans (S.prefix_move _))
          (hstable _ _ (S.prefix_move _) hP)
      cases resumed with
      | true => exact hact S₀ S hgrown hP
      | false => exact hrests hgrown hP hact
  | await l t ih =>
      cases resumed with
      | true => exact hrests hgrown hP fun _ _ h hP => ih true h hP
      | false => exact hrests hgrown hP fun _ _ h hP => ih true h hP

end Rules

end Shardd
