import Shardd.Node.InsertRules

/-!
# The calls of a node

`NodeCall` is what may run at a node: requests, replicated events, deletions, the batch writer, the
orphan detector and the sweep.  `nodeScheduler` runs any number of calls of given kinds
concurrently; a call knows itself by `running`, which is how a lock remembers its owner.
-/

namespace Shardd

variable {D : Type}

/-- The batch writer flushes a stretch of what has been sent to it. -/
def writeBatch (env : Env D) (start size : ℕ) : NodeM D Unit := do
  let batch ← Proc.read fun s => (s.batchQueue.drop start).take size
  doFlush env batch

/-- `get_unpersisted_events`; `keys` is the order in which the scan meets the keys. -/
def SharedState.unpersistedEvents (s : SharedState D) (cutoff : ℕ) (keys : List OriginKey) :
    List Event :=
  (keys.filter fun k => (s.unpersisted k).any (· ≤ cutoff)).filterMap s.eventBuffer

/-- One round of the orphan detector. -/
def scanOrphans (env : Env D) (keys : List OriginKey) (ageThresholdMs : ℕ) : NodeM D Unit := do
  let now ← nowMs env
  let orphans ← Proc.read fun s => s.unpersistedEvents (now - ageThresholdMs) keys
  if orphans ≠ [] then
    doFlush env orphans

inductive NodeCall
  | create (input : LocalCreateInput)
  | insert (e : Event)
  | delete (target : String) (reason : Option String)
  | writeBatch (start size : ℕ)
  | scan (keys : List OriginKey) (ageThresholdMs : ℕ)
  | sweep
  deriving DecidableEq, Repr

/-- Requests, the batch writer and the sweep. -/
def NodeCall.Local : NodeCall → Prop
  | .create _ | .writeBatch _ _ | .sweep => True
  | _ => False

/-- What a call has answered. -/
inductive NodeAnswer
  | created (input : LocalCreateInput) (r : Except CreateLocalEventError LocalCreateResult)
  | inserted (e : Event) (new : Bool)
  | deleted (target : String) (r : Except CreateLocalEventError Event)
  | nothing

def NodeCall.program (env : Env D) : NodeCall → NodeM D NodeAnswer
  | .create input => do
      let r ← (createLocalEvents env input).run
      return .created input r
  | .insert e => do
      let new ← insertEvent env e
      return .inserted e new
  | .delete target reason => do
      let r ← (createMetaBucketDelete env target reason).run
      return .deleted target r
  | .writeBatch start size => do
      Shardd.writeBatch env start size
      return .nothing
  | .scan keys ageThresholdMs => do
      scanOrphans env keys ageThresholdMs
      return .nothing
  | .sweep => do
      sweepExpiredHolds env
      return .nothing

/-- Call `i` is resumed. -/
def SharedState.resumed (i : ℕ) (s : SharedState D) : SharedState D := { s with running := i }

/-- A node that runs calls of the kinds `kinds`. -/
def nodeScheduler (env : Env D) (kinds : NodeCall → Prop) :
    Scheduler (SharedState D) Wait NodeAnswer where
  ready := Wait.ready
  enter := SharedState.resumed
  starts l t := l = .start ∧ ∃ c, kinds c ∧ t = c.program env

/-- The pools a node reaches from `s₀` when every schedule is admitted. -/
abbrev NodeReach (env : Env D) (kinds : NodeCall → Prop) (s₀ : SharedState D)
    (p : Pool (SharedState D) Wait NodeAnswer) : Prop :=
  Pool.Reach (nodeScheduler env kinds) (fun _ _ => True) s₀ p

/-- The request call `i` has answered with a success, and the answer. -/
def succeeded {σ κ : Type} (p : Pool σ κ NodeAnswer) (i : ℕ) :
    Option (LocalCreateInput × LocalCreateResult) :=
  match p.calls i with
  | .finished (.created input (.ok r)) => some (input, r)
  | _ => none

lemma calls_of_succeeded {σ κ : Type} {p : Pool σ κ NodeAnswer} {i : ℕ}
    {input : LocalCreateInput} {r : LocalCreateResult} (h : succeeded p i = some (input, r)) :
    p.calls i = .finished (.created input (.ok r)) := by
  unfold succeeded at h
  split at h
  · rename_i hcall
    cases h
    exact hcall
  · cases h

/-- Start the calls, numbered from zero, and resume them in the given order. -/
def playCalls (env : Env D) (kinds : NodeCall → Prop) (C : Wait → SharedState D → Prop)
    [∀ l s, Decidable (C l s)] (s : SharedState D) (calls : List NodeCall) (order : List ℕ) :
    Pool (SharedState D) Wait NodeAnswer :=
  Pool.play (nodeScheduler env kinds) C ⟨s, fun _ => .absent⟩
    ((calls.zipIdx.map fun c => .start c.2 .start (c.1.program env)) ++ order.map .resume)

lemma reach_playCalls {env : Env D} {kinds : NodeCall → Prop} {C : Wait → SharedState D → Prop}
    [∀ l s, Decidable (C l s)] {s : SharedState D} {calls : List NodeCall} {order : List ℕ}
    (h : ∀ c ∈ calls, kinds c) :
    Pool.Reach (nodeScheduler env kinds) C s (playCalls env kinds C s calls order) := by
  apply Pool.Reach.init.play
  intro m hm
  rcases List.mem_append.1 hm with hm | hm
  · obtain ⟨c, hc, rfl⟩ := List.mem_map.1 hm
    exact ⟨rfl, c.1, h c.1 (List.fst_mem_of_mem_zipIdx hc), rfl⟩
  · obtain ⟨i, -, rfl⟩ := List.mem_map.1 hm
    trivial

section Rules

variable {env : Env D} {K : Contract (SharedState D) Wait} {C : Wait → SharedState D → Prop} {i : ℕ}
  {s₀ s : SharedState D}

/-- A request at one node. -/
lemma wp_create {input : LocalCreateInput}
    {At : List (ℕ × ℕ) → CreateStage → SharedState D → SharedState D → Prop}
    (h : CreateRules Wait.ready SharedState.resumed K C i (Lens.whole _) id env input At)
    (hs : At [] .idle s₀ s) :
    ((NodeCall.create input).program env).wp Wait.ready SharedState.resumed K C i
      (fun a s₀ s => ∃ r, a = .created input r ∧ At [] (.done r) s₀ s) s₀ s := by
  have hcreate := h.wp_createLocalEvents hs
  rw [Proc.zoom_whole] at hcreate
  apply Proc.wp_bind
  refine Proc.wp_mono (fun r s₀ s hr => ?_) hcreate
  exact ⟨r, rfl, hr⟩

/-- An insertion at one node. -/
lemma wp_insert {e : Event} {At : InsertStage → SharedState D → SharedState D → Prop}
    (h : InsertRules Wait.ready SharedState.resumed K C i (Lens.whole _) id env e At)
    (hs : At .receiving s₀ s) :
    ((NodeCall.insert e).program env).wp Wait.ready SharedState.resumed K C i
      (fun _ s₀ s => ∃ st, At st s₀ s) s₀ s := by
  have hinsert := h.wp_insertEvent hs
  rw [Proc.zoom_whole] at hinsert
  exact Proc.wp_bind (Proc.wp_mono (fun _ _ _ hs => hs) hinsert)

/-- The batch writer, once it has taken its batch. -/
lemma wp_writeBatch {J : SharedState D → SharedState D → Prop} {first size : ℕ}
    (h : (doFlush env ((s.batchQueue.drop first).take size)).wp Wait.ready SharedState.resumed K C i
      (fun _ => J) s₀ s) :
    ((NodeCall.writeBatch first size).program env).wp Wait.ready SharedState.resumed K C i
      (fun a s₀ s => a = .nothing ∧ J s₀ s) s₀ s := by
  apply Proc.wp_bind
  unfold Shardd.writeBatch
  apply Proc.wp_bind
  rw [Proc.wp_read]
  refine Proc.wp_mono (fun _ s₀ s hs => ?_) h
  exact ⟨rfl, hs⟩

end Rules

end Shardd
