import Shardd.Cluster.Run

/-!
# Identities and ledgers of a cluster

Whatever the nodes of a cluster go through, no two events share an id or an identity, and two nodes
that have accepted the same events keep one ledger.
-/

namespace Shardd

variable {ν D : Type} [DecidableEq ν]

/-! ## Two nodes -/

/-- Two nodes with one clock, whose storage never fails. -/
def World.pair : World Bool Unit where
  env n k :=
    { Env.plain (if n then "right" else "left") 1000 with
      freshId := fun i => Nat.repr (Nat.pair (if n then 1 else 0) (Nat.pair k i)) }
  nodeId n := if n then "right" else "left"
  hasher := { zero := (), chain := fun _ _ => () }
  nodeId_env _ _ := rfl
  hasher_env _ _ := rfl
  nodeId_injective := by decide
  freshId_injective := by
    rintro ⟨n, k, i⟩ ⟨m, l, j⟩ h
    have hpair := Nat.repr_injective h
    simp only [Nat.pair_eq_pair] at hpair
    obtain ⟨hn, rfl, rfl⟩ := hpair
    cases n <;> cases m <;> simp_all

namespace Cluster

variable {W : World ν D} {R : LocalCreateInput → Prop} {C : Cluster ν D}

/-- The cluster after an operation that runs to its end. -/
def operate (W : World ν D) (C : Cluster ν D) (n : ν) (op : NodeOp) : Cluster ν D :=
  C.operated W n op (NodeM.exec (op.program (C.env W n)) (C.node n)).2

/-- The cluster after a start that runs to its end. -/
def start (W : World ν D) (C : Cluster ν D) (n : ν) : Cluster ν D :=
  C.started W n
    (NodeM.exec (newSharedState (W.env n (C.lives n + 1))) (.blank (C.node n).storage)).2

lemma Run.operate (h : Run W R C) (n : ν) (op : NodeOp) (hup : 1 ≤ C.lives n)
    (hadmits : C.Admits R n op)
    (hrun : (NodeM.exec (op.program (C.env W n)) (C.node n)).1 = some ()) :
    Run W R (C.operate W n op) :=
  h.step (.operate hup hadmits (exec_of_fst hrun))

lemma Run.start (h : Run W R C) (n : ν) (hbound : C.lives n + 1 < 2 ^ 32)
    (hok : ∀ i, (W.env n (C.lives n + 1)).storageOutcome i = .ok)
    (hrun : (NodeM.exec (newSharedState (W.env n (C.lives n + 1)))
      (.blank (C.node n).storage)).1 = some ()) : Run W R (C.start W n) :=
  h.step (.start hbound ⟨exec_of_fst hrun, fun i _ => hok i⟩)

end Cluster

/-- Unless the credit of a transfer overflows, a node records what it mints. -/
lemma Cluster.Run.recorded {W : World ν D} {R : LocalCreateInput → Prop} {C : Cluster ν D}
    (hR : ∀ input, R input → input.amount ≠ Int64.minValue) (h : Cluster.Run W R C) :
    ∀ n, ∀ e ∈ (C.node n).minted, e ∈ (C.node n).batchQueue := by
  induction h with
  | init => exact fun n e he => by cases he
  | @step C C' hrun hstep ih =>
      have hsound := Cluster.Sound.of_run hrun
      intro m e he
      cases hstep with
      | @operate n op s' hup hadmits hexec =>
          obtain ⟨u, ⟨new, hnew, -, hrec⟩, hu⟩ := hsound.issues hup hadmits hexec
          have hnil : u = [] := by
            apply hu
            rintro input rfl
            exact hR input hadmits
          by_cases hm : m = n
          · subst hm
            rw [node_operated] at he ⊢
            rw [hnew.minted, List.mem_append] at he
            rcases he with he | he
            · obtain ⟨rest, hqueue, -⟩ := hnew.queue
              rw [hqueue]
              exact List.mem_append_left _ (ih m e he)
            · refine (hrec e he).resolve_left ?_
              rw [hnil]
              exact List.not_mem_nil
          · rw [node_operated_of_ne hm] at he ⊢
            exact ih m e he
      | @start n s' hbound hs =>
          by_cases hm : m = n
          · subst hm
            rw [node_started, hs.rebuilt.minted] at he
            cases he
          · rw [node_started_of_ne hm] at he ⊢
            exact ih m e he

end Shardd
