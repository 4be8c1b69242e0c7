import Shardd.Node.Calls
import Shardd.Node.DeleteRules
import Shardd.Node.Startup

/-!
# A network of nodes

The state of a network is a family of node states.  A node runs the calls of `NodeCall`, except
that an event is only inserted when another node has minted it: `deliver` picks one of the events
the sender has minted, at any time and as often as the schedule likes.  A node may crash and start
again over its storage; its calls of before the crash are then those that are never resumed.
-/

namespace Shardd

variable {D : Type} {ν : Type}

/-! ## Restarts -/

/-- The process is gone: what is left is the storage, the world, and the history. -/
def SharedState.crashed (s : SharedState D) : SharedState D :=
  { SharedState.blank s.storage with
    clockReads := s.clockReads
    idsDrawn := s.idsDrawn
    storageCalls := s.storageCalls
    running := s.running
    minted := s.minted
    issued := s.issued }

/-- A crash, and a start over what the storage has. -/
def restartNode (env : Env D) : NodeM D Unit := do
  Proc.update SharedState.crashed
  newSharedState env

lemma only_saveDigests (env : Env D) (computed : Map EpochKey (ℕ × D)) (keys : List EpochKey) :
    (saveDigests env computed keys).Only (SharedState.Noted []) Wait.Free := by
  induction keys with
  | nil => trivial
  | cons key keys ih =>
      unfold saveDigests
      cases computed key with
      | none => exact ih
      | some hd =>
          refine (Proc.only_update fun s => { SharedState.Noted.refl [] s with }).bind fun _ => ?_
          refine Proc.Only.bind ?_ fun _ => ih
          apply only_storageCall
          · exact noted_callStorage env (fun _ => rfl) fun _ => rfl
          · exact Wait.free_request _
          · exact Wait.free_response _

/-! ## Calls -/

inductive NetCall (ν : Type)
  | call (n : ν) (c : NodeCall)
  /-- The `k`-th event that `sender` has minted reaches `receiver`. -/
  | deliver (sender receiver : ν) (k : ℕ)
  | restart (n : ν)

/-- The clients submit requests of `R`; the nodes do the rest by themselves. -/
def NetCall.Allowed (R : LocalCreateInput → Prop) : NetCall ν → Prop
  | .call _ (.create input) => R input
  | .call _ (.insert _) => False
  | _ => True

variable [DecidableEq ν]

/-- A program at node `n`. -/
abbrev atNode {α : Type} (n : ν) (t : NodeM D α) : Proc (ν → SharedState D) (ν × Wait) α :=
  t.zoom (Lens.component n) (Prod.mk n)

def NetCall.program (env : ν → Env D) : NetCall ν → Proc (ν → SharedState D) (ν × Wait) NodeAnswer
  | .call n c => atNode n (c.program (env n))
  | .deliver sender receiver k => do
      match ← Proc.read fun S => (S sender).minted[k]? with
      | none => return .nothing
      | some e => atNode receiver ((NodeCall.insert e).program (env receiver))
  | .restart n => do
      atNode n (restartNode (env n))
      return .nothing

def netScheduler (env : ν → Env D) (R : LocalCreateInput → Prop) :
    Scheduler (ν → SharedState D) (ν × Wait) NodeAnswer where
  ready l S := l.2.ready (S l.1)
  enter i S n := (S n).resumed i
  starts l t := l.2 = .start ∧ ∃ c : NetCall ν, c.Allowed R ∧ t = c.program env

/-- The pools a network of blank nodes reaches. -/
abbrev NetReach (env : ν → Env D) (R : LocalCreateInput → Prop)
    (p : Pool (ν → SharedState D) (ν × Wait) NodeAnswer) : Prop :=
  Pool.Reach (netScheduler env R) (fun _ _ => True) (fun _ => .blank .empty) p

/-- Start the calls, numbered from zero, and resume them in the given order. -/
def playNetwork [Inhabited ν] (env : ν → Env D) (R : LocalCreateInput → Prop)
    (calls : List (NetCall ν)) (order : List ℕ) :
    Pool (ν → SharedState D) (ν × Wait) NodeAnswer :=
  Pool.play (netScheduler env R) (fun _ _ => True) ⟨fun _ => .blank .empty, fun _ => .absent⟩
    ((calls.zipIdx.map fun c => .start c.2 (default, .start) (c.1.program env)) ++
      order.map .resume)

lemma reach_playNetwork [Inhabited ν] {env : ν → Env D} {R : LocalCreateInput → Prop}
    {calls : List (NetCall ν)} {order : List ℕ} (h : ∀ c ∈ calls, c.Allowed R) :
    NetReach env R (playNetwork env R calls order) := by
  apply Pool.Reach.init.play
  intro m hm
  rcases List.mem_append.1 hm with hm | hm
  · obtain ⟨c, hc, rfl⟩ := List.mem_map.1 hm
    exact ⟨rfl, c.1, h c.1 (List.fst_mem_of_mem_zipIdx hc), rfl⟩
  · obtain ⟨i, -, rfl⟩ := List.mem_map.1 hm
    trivial

end Shardd
