import Mathlib.Data.Option.Basic
import Mathlib.Tactic.Common

/-!
# Suspendable programs over a shared state

A `Proc σ ι α` is a program over a shared state `σ`.  It is built from atomic actions on the
state and from suspension points `l : ι`; between two suspension points a program runs alone,
and at a suspension point other programs may run.  A suspension point can also block: the
caller of `exec` and of the scheduler in `Lib/Pool.lean` says in which states it is ready.

`exec` is the sequential reading: the program runs by itself until it ends, or until it blocks
at a point that is not ready, which nobody else will ever make ready.
-/

namespace Shardd

universe u v w

/-- A program over the shared state `σ` with suspension points in `ι`. -/
inductive Proc (σ : Type u) (ι : Type v) (α : Type w) : Type (max u v w)
  | done (a : α) : Proc σ ι α
  /-- An atomic action; what comes next may depend on the state the action found. -/
  | act (upd : σ → σ) (next : σ → Proc σ ι α) : Proc σ ι α
  | await (l : ι) (next : Proc σ ι α) : Proc σ ι α

namespace Proc

variable {σ : Type u} {ι : Type v} {α β : Type w}

def bind : Proc σ ι α → (α → Proc σ ι β) → Proc σ ι β
  | done a, k => k a
  | act f n, k => act f fun s => (n s).bind k
  | await l t, k => await l (t.bind k)

instance : Monad (Proc σ ι) where
  pure := done
  bind := bind

/-- Read a value off the state. -/
def read (f : σ → α) : Proc σ ι α := act id fun s => done (f s)

/-- Change the state. -/
def update {ι : Type v} (f : σ → σ) : Proc σ ι PUnit := act f fun _ => done ⟨⟩

/-- Read a value and change the state in one atomic action. -/
def readUpdate (f : σ → α × σ) : Proc σ ι α := act (fun s => (f s).2) fun s => done (f s).1

/-- Suspend at `l`. -/
def suspend {σ : Type u} (l : ι) : Proc σ ι PUnit := await l (done ⟨⟩)

/-! ## Running alone -/

variable (ready : ι → σ → Bool)

/-- Run to the end with nobody else running.  `none` is a program that blocked for good; the
state is the one it blocked in. -/
def exec : Proc σ ι α → σ → Option α × σ
  | done a, s => (some a, s)
  | act f n, s => exec (n s) (f s)
  | await l t, s => if ready l s then exec t s else (none, s)

@[simp] theorem exec_pure (a : α) (s : σ) :
    exec ready (pure a : Proc σ ι α) s = (some a, s) := rfl

@[simp] theorem exec_read (f : σ → α) (s : σ) :
    exec ready (read f : Proc σ ι α) s = (some (f s), s) := rfl

@[simp] theorem exec_update (f : σ → σ) (s : σ) :
    exec ready (update f) s = (some ⟨⟩, f s) := rfl

@[simp] theorem exec_readUpdate (f : σ → α × σ) (s : σ) :
    exec ready (readUpdate f : Proc σ ι α) s = (some (f s).1, (f s).2) := rfl

theorem exec_suspend (l : ι) (s : σ) :
    exec ready (suspend l) s = if ready l s then (some ⟨⟩, s) else (none, s) := rfl

@[simp] theorem exec_suspend_of_ready {l : ι} {s : σ} (h : ready l s = true) :
    exec ready (suspend l) s = (some ⟨⟩, s) := by
  rw [exec_suspend, if_pos h]

@[simp] theorem exec_suspend_of_not_ready {l : ι} {s : σ} (h : ready l s = false) :
    exec ready (suspend l) s = (none, s) := by
  rw [exec_suspend, if_neg (by simp [h])]

/-- What running `k` on the outcome of a first program gives. -/
def andThen (k : α → σ → Option β × σ) : Option α × σ → Option β × σ
  | (some a, s) => k a s
  | (none, s) => (none, s)

@[simp] theorem andThen_some (k : α → σ → Option β × σ) (a : α) (s : σ) :
    andThen k (some a, s) = k a s := rfl

@[simp] theorem andThen_none (k : α → σ → Option β × σ) (s : σ) :
    andThen k ((none : Option α), s) = (none, s) := rfl

theorem exec_bind (t : Proc σ ι α) (k : α → Proc σ ι β) (s : σ) :
    exec ready (t >>= k) s = andThen (fun a => exec ready (k a)) (exec ready t s) := by
  change exec ready (t.bind k) s = _
  induction t generalizing s with
  | done a => rfl
  | act f n ih => exact ih s (f s)
  | await l t ih =>
    simp only [bind, exec]
    split
    · exact ih s
    · rfl

/-- A sequence that has ended has ended its first part. -/
theorem exec_bind_eq_some {t : Proc σ ι α} {k : α → Proc σ ι β} {s s'' : σ} {b : β}
    (h : exec ready (t >>= k) s = (some b, s'')) :
    ∃ a s', exec ready t s = (some a, s') ∧ exec ready (k a) s' = (some b, s'') := by
  rw [exec_bind] at h
  rcases ht : exec ready t s with ⟨_ | a, s'⟩
  · rw [ht] at h
    cases h
  · rw [ht] at h
    exact ⟨a, s', rfl, h⟩

/-! ## Programs that may fail

A fallible program is `ExceptT ε (Proc σ ι) α`: the error is a value of the program, so what it
did to the state before failing stays done. -/

section Fallible

variable {ε : Type w}

/-- `andThen` for a fallible first program: an error ends the composite. -/
def andThenOk (k : α → σ → Option (Except ε β) × σ) :
    Option (Except ε α) × σ → Option (Except ε β) × σ
  | (some (.ok a), s) => k a s
  | (some (.error e), s) => (some (.error e), s)
  | (none, s) => (none, s)

@[simp] theorem andThenOk_ok (k : α → σ → Option (Except ε β) × σ) (a : α) (s : σ) :
    andThenOk k (some (.ok a), s) = k a s := rfl

@[simp] theorem andThenOk_error (k : α → σ → Option (Except ε β) × σ) (e : ε) (s : σ) :
    andThenOk k (some (.error e), s) = (some (.error e), s) := rfl

@[simp] theorem andThenOk_none (k : α → σ → Option (Except ε β) × σ) (s : σ) :
    andThenOk k ((none : Option (Except ε α)), s) = (none, s) := rfl

@[simp] theorem exec_run_pure (a : α) (s : σ) :
    exec ready (pure a : ExceptT ε (Proc σ ι) α).run s = (some (.ok a), s) := rfl

@[simp] theorem exec_run_throw (e : ε) (s : σ) :
    exec ready (throw e : ExceptT ε (Proc σ ι) α).run s = (some (.error e), s) := rfl

theorem exec_run_bind (t : ExceptT ε (Proc σ ι) α) (k : α → ExceptT ε (Proc σ ι) β) (s : σ) :
    exec ready (t >>= k).run s =
      andThenOk (fun a => exec ready (k a).run) (exec ready t.run s) := by
  rw [ExceptT.run_bind, exec_bind]
  rcases exec ready t.run s with ⟨_ | (e | a), s'⟩ <;> rfl

@[simp] theorem exec_run_lift (t : Proc σ ι α) (s : σ) :
    exec ready (liftM t : ExceptT ε (Proc σ ι) α).run s =
      ((exec ready t s).1.map .ok, (exec ready t s).2) := by
  change exec ready (t >>= fun a => pure (Except.ok a)) s = _
  rw [exec_bind]
  rcases exec ready t s with ⟨_ | a, s'⟩ <;> rfl

@[simp] theorem exec_run_except (x : Except ε α) (s : σ) :
    exec ready (liftM x : ExceptT ε (Proc σ ι) α).run s = (some x, s) := rfl

end Fallible

/-- A program that has ended without an error has ended with a value. -/
theorem exists_ok {ε : Type u} {o : Option (Except ε α)}
    (h : (o.bind Except.toOption).isSome = true) : ∃ a, o = some (.ok a) := by
  rcases o with _ | _ | a
  · cases h
  · cases h
  · exact ⟨a, rfl⟩

end Proc

end Shardd
