import Shardd.Node.Exec
import Shardd.Node.Startup

/-!
# What a start does

On an empty storage a start leaves a blank node, whichever of its storage calls fail.
-/

namespace Shardd

variable {D : Type} (env : Env D)

section Queries

variable {env} {s : SharedState D}

/-- A query of the start-up rebuilds its part of the state, or fails and leaves it. -/
lemma exec_startUpQuery {α : Type} (query : Storage D → α) (rebuild : α → NodeM D Unit)
    (s : SharedState D) :
    NodeM.exec (startUpQuery env query rebuild) s =
      if env.storageOutcome s.storageCalls = .ok then
        NodeM.exec (rebuild (query s.storage)) (s.setStorage s.storage (s.storageCalls + 1))
      else (some (), s.setStorage s.storage (s.storageCalls + 1)) := by
  have hcall := exec_storageCall env .startUp (fun st => (query st, st)) s
  simp only [NodeM.exec] at hcall
  simp only [startUpQuery, NodeM.exec, Proc.exec_bind, hcall, Proc.andThen_some]
  rcases s.callStorage_cases env (fun st => (query st, st)) with ⟨ho, h⟩ | ⟨ho, st, hst, h⟩
  · rw [h, if_pos ho]
  · obtain rfl : st = s.storage := by simpa using hst
    rw [h, if_neg ho]
    rfl

end Queries

/-! ## The empty storage -/

/-- The node after a start on the empty storage. -/
def SharedState.fresh (clockReads storageCalls : ℕ) : SharedState D :=
  { SharedState.blank .empty with clockReads := clockReads, storageCalls := storageCalls }

lemma Storage.markBucketAllocatorsPending_empty (nodeId : String) :
    (Storage.empty : Storage D).markBucketAllocatorsPending nodeId = .empty := by
  unfold markBucketAllocatorsPending
  have h : (fun k : String × String => if k.2 = nodeId then
      ((Storage.empty : Storage D).bucketAllocators k).map fun row =>
        { row with needsBump := true }
      else (Storage.empty : Storage D).bucketAllocators k) = fun _ => none := by
    funext k
    split <;> rfl
  rw [h]
  rfl

lemma exec_loadFromStorage_fresh (clockReads calls : ℕ) :
    ∃ r calls', NodeM.exec (loadFromStorage env).run (.fresh clockReads calls) =
      (some r, .fresh clockReads calls') := by
  have hmark := exec_storageCall env .startUp
    (fun st => ((), st.markBucketAllocatorsPending env.nodeId)) (.fresh clockReads calls)
  have hload := exec_storageCall env .startUp
    (fun st => (st.loadBucketAllocators env.nodeId, st)) (.fresh clockReads (calls + 1))
  have hempty := Storage.markBucketAllocatorsPending_empty (D := D) env.nodeId
  simp only [NodeM.exec] at hmark hload
  simp only [loadFromStorage, NodeM.exec, Proc.exec_run_bind, hmark]
  rcases (SharedState.fresh clockReads calls).callStorage_cases env
    (fun st => ((), st.markBucketAllocatorsPending env.nodeId)) with ⟨-, h⟩ | ⟨-, st, hst, h⟩
  · have hs : (SharedState.fresh clockReads calls).setStorage
        ((SharedState.fresh clockReads calls).storage.markBucketAllocatorsPending env.nodeId)
          (calls + 1) = (.fresh clockReads (calls + 1) : SharedState D) := by
      rw [show (SharedState.fresh clockReads calls).storage = (.empty : Storage D) from rfl, hempty]
      rfl
    rw [h]
    simp only [Proc.andThenOk_ok, Proc.exec_run_bind]
    rw [show (SharedState.fresh clockReads calls : SharedState D).storageCalls = calls from rfl, hs,
      hload]
    rcases (SharedState.fresh clockReads (calls + 1)).callStorage_cases env
      (fun st => (st.loadBucketAllocators env.nodeId, st)) with ⟨-, h'⟩ | ⟨-, st, hst, h'⟩
    · rw [h']
      exact ⟨_, calls + 2, rfl⟩
    · obtain rfl := (or_self_iff.1 hst : st = .empty)
      rw [h']
      exact ⟨_, calls + 2, rfl⟩
  · have hst' : st = .empty := by
      rcases hst with rfl | rfl
      · rfl
      · exact hempty
    rw [h, hst']
    exact ⟨_, calls + 1, rfl⟩

lemma exec_startUpQuery_fresh {α : Type} (query : Storage D → α) (rebuild : α → NodeM D Unit)
    (clockReads calls : ℕ)
    (h : ∃ calls', NodeM.exec (rebuild (query .empty)) (.fresh clockReads (calls + 1)) =
      (some (), .fresh clockReads calls')) :
    ∃ calls', NodeM.exec (startUpQuery env query rebuild) (.fresh clockReads calls) =
      (some (), .fresh clockReads calls') := by
  rw [exec_startUpQuery]
  split
  · exact h
  · exact ⟨calls + 1, rfl⟩

/-- A start on the empty storage leaves a blank node. -/
theorem exec_newSharedState_empty :
    ∃ calls, NodeM.exec (newSharedState env) (.blank .empty) = (some (), .fresh 1 calls) := by
  obtain ⟨r, c₁, h₁⟩ := exec_loadFromStorage_fresh env 0 0
  obtain ⟨c₂, h₂⟩ := exec_startUpQuery_fresh env Storage.aggregateBalances
    (fun balances => Proc.update fun s => s.rebuildBalances balances) 0 c₁ ⟨_, rfl⟩
  obtain ⟨c₃, h₃⟩ := exec_startUpQuery_fresh env
    (fun st => (st.sequencesByOriginEpoch, st.events.length))
    (fun stored => Proc.update fun s => s.rebuildHeads stored.1 stored.2) 0 c₂ ⟨_, rfl⟩
  obtain ⟨c₄, h₄⟩ := exec_startUpQuery_fresh env (fun st => st.events)
    (fun events => Proc.update fun s => s.rebuildOriginTracking events) 0 c₃ ⟨_, rfl⟩
  obtain ⟨c₅, h₅⟩ := exec_startUpQuery_fresh env Storage.queryAllEventsSorted
    (fun events => rebuildFromEvents env (env.clock 0) events) 1 c₄ ⟨_, rfl⟩
  obtain ⟨c₆, h₆⟩ := exec_startUpQuery_fresh env
    (fun st => st.queryEventsByBucket metaBucket) rebuildDeletedBuckets 1 c₅ ⟨_, rfl⟩
  refine ⟨c₆, ?_⟩
  have hstart : (.blank .empty : SharedState D) = .fresh 0 0 := rfl
  have hclock := exec_nowMs env (.fresh 0 c₄)
  simp only [NodeM.exec] at h₁ h₂ h₃ h₄ h₅ h₆ hclock
  simp only [newSharedState, NodeM.exec, Proc.exec_bind, hstart, h₁, h₂, h₃, h₄, hclock,
    Proc.andThen_some]
  rw [show ({ SharedState.fresh 0 c₄ with clockReads := (SharedState.fresh 0 c₄).clockReads + 1 } :
    SharedState D) = .fresh 1 c₄ from rfl,
    show (SharedState.fresh 0 c₄ : SharedState D).clockReads = 0 from rfl, h₅, Proc.andThen_some,
    h₆]

end Shardd
