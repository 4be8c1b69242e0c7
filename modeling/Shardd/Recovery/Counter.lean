import Mathlib.Algebra.BigOperators.Group.Finset.Basic
import Shardd.Recovery.Lifetime

/-!
# The event counter

`event_count` counts one for every event a node accepts, and a deletion does not count back.  It is
the number of the seqs that are at most a head or pending as long as every bucket is empty when it
is deleted.
-/

namespace Shardd

open Finset

variable {D : Type}

/-- The node has nothing in the bucket. -/
def SharedState.Vacant (s : SharedState D) (bucket : String) : Prop :=
  ∀ key : EpochKey, key.1 = bucket → s.head key = 0 ∧ s.pending key = ∅

/-- A deletion meets an empty bucket. -/
def DeletesVacant (env : Env D) (op : LifeOp) (s : SharedState D) : Prop :=
  ∀ bucket, op.Deletes env s bucket → s.Vacant bucket

/-- Outside of these keys there are neither heads nor pending seqs. -/
def SharedState.Covers (s : SharedState D) (keys : Finset EpochKey) : Prop :=
  ∀ key, key ∉ keys → s.head key = 0 ∧ s.pending key = ∅

/-! ## Counting a log -/

namespace LogOf

variable {hasher : Hasher D} {A : Finset Event} {s : SharedState D}

lemma card_filter (h : LogOf hasher A s) (key : EpochKey) :
    #{e ∈ A | e.epochKey = key} = s.head key + #(s.pending key) := by
  have hinj : Set.InjOn Event.originSeq ({e ∈ A | e.epochKey = key} : Finset Event) := by
    intro e he e' he' heq
    obtain ⟨he, hkey⟩ := mem_filter.1 he
    obtain ⟨he', hkey'⟩ := mem_filter.1 he'
    exact h.eq_of_originKey e he e' he'
      (Event.originKey_eq_iff.2 ⟨hkey.trans hkey'.symm, heq⟩)
  have hpos : ∀ n ∈ seqsOf A key, 1 ≤ n := by
    intro n hn
    obtain ⟨e, he, rfl⟩ := mem_image.1 hn
    exact h.pos e (mem_of_mem_filter e he)
  rw [← (h.head key).card hpos, seqsOf, card_image_of_injOn hinj]

/-- Heads and pending seqs count the accepted events. -/
lemma sum_eq_card (h : LogOf hasher A s) {keys : Finset EpochKey} (hkeys : s.Covers keys) :
    ∑ key ∈ keys, (s.head key + #(s.pending key)) = #A := by
  have hall : ∀ e ∈ A, e.epochKey ∈ keys := by
    intro e he
    by_contra hnot
    obtain ⟨hhead, hpending⟩ := hkeys _ hnot
    have hacc := (h.accepted_iff e.epochKey (h.pos e he)).1 ⟨e, he, rfl⟩
    have hpos := h.pos e he
    rw [hhead, hpending] at hacc
    rcases hacc with hle | hmem
    · omega
    · exact notMem_empty _ hmem
  rw [card_eq_sum_card_fiberwise hall]
  exact sum_congr rfl fun key _ => (h.card_filter key).symm

lemma covers (h : LogOf hasher A s) : s.Covers (A.image Event.epochKey) := by
  intro key hkey
  have hnone : #{e ∈ A | e.epochKey = key} = 0 := by
    refine card_eq_zero.2 (filter_eq_empty_iff.2 fun e he heq => hkey ?_)
    exact heq ▸ mem_image_of_mem _ he
  rw [h.card_filter, Nat.add_eq_zero_iff, card_eq_zero] at hnone
  exact hnone

/-- Nothing has been accepted of an empty bucket. -/
lemma notMem_of_vacant (h : LogOf hasher A s) {e : Event} (hvacant : s.Vacant e.bucket) :
    e ∉ A := by
  intro he
  obtain ⟨hhead, hpending⟩ := hvacant e.epochKey rfl
  have hcard := h.card_filter e.epochKey
  rw [hhead, hpending, card_empty, card_eq_zero, filter_eq_empty_iff] at hcard
  exact hcard he rfl

lemma vacant (h : LogOf hasher A s) {bucket : String} (hA : ∀ e ∈ A, e.bucket ≠ bucket) :
    s.Vacant bucket := by
  intro key hkey
  refine h.covers key fun hmem => ?_
  obtain ⟨e, he, rfl⟩ := mem_image.1 hmem
  exact hA e he hkey

end LogOf

/-! ## Every life -/

section

variable {E : Set Event} {env : Env D} {base : List Event} {s : SharedState D}

/-- As long as only empty buckets are deleted, no event is ever gone. -/
lemma Lifetime.nothing_gone (hE : Identified E) (h : Lifetime DeletesVacant E env base s) :
    s.Unlocked ∧ ∃ A, Logged env E base A ∅ [] s := by
  induction h with
  | start hst hs => exact ⟨hs.rebuilt.unlocked, _, Lifetime.logged_of_starts hE hst hs⟩
  | step _ hvacant hstep ih =>
      obtain ⟨hfree, A, hlogged⟩ := ih
      obtain ⟨A', gone', hlogged', hcarries, -⟩ := hlogged.step hE hfree hstep
      have hgone : gone' = ∅ := by
        refine eq_empty_of_forall_notMem fun e he => ?_
        rcases hcarries.buried e he with he | ⟨he, hdeletes⟩
        · exact notMem_empty _ he
        · exact hlogged.log.notMem_of_vacant (hvacant _ hdeletes) he
      exact ⟨hcarries.unlocked, A', hgone ▸ hlogged'⟩
  | restart _ hnode hs ih =>
      obtain ⟨-, A, hlogged⟩ := ih
      have hst := Lifetime.wellFormed hlogged
      rw [← hnode] at hst
      exact ⟨hs.rebuilt.unlocked, _, Lifetime.logged_of_starts hE hst hs⟩

/-- **The event counter.**  In a life in which only empty buckets are deleted, the counter is the
sum of the heads and of the numbers of pending seqs, and it is what a start over the flushed storage
counts. -/
theorem event_count_of_lifetime (hE : Identified E) (h : Lifetime DeletesVacant E env base s) :
    (∃ keys, s.Covers keys) ∧
      (∀ keys, s.Covers keys →
        s.totalEventCount = ∑ key ∈ keys, (s.head key + #(s.pending key))) ∧
      ∀ (env' : Env D) (s' : SharedState D), s.Flushed base → Starts env' s.storage s' →
        s'.totalEventCount = s.totalEventCount := by
  obtain ⟨-, A, hlogged⟩ := h.nothing_gone hE
  have haccepted : ∀ e, e ∈ s.acceptedSince base ↔ e ∈ A := by
    intro e
    rw [hlogged.split]
    simp
  have hnodup : (s.acceptedSince base).Nodup := by
    have hall := hlogged.nodup
    rwa [List.append_nil] at hall
  refine ⟨⟨_, hlogged.log.covers⟩, fun keys hkeys => ?_, fun env' s' hflushed hs => ?_⟩
  · have hset : (s.acceptedSince base).toFinset = A := by
      ext e
      rw [List.mem_toFinset, haccepted]
    rw [hlogged.log.sum_eq_card hkeys, hlogged.count, ← hset, List.toFinset_card_of_nodup hnodup]
  · have hperm : s.storage.events.Perm (s.acceptedSince base) := by
      refine (List.perm_ext_iff_of_nodup hlogged.stored_nodup hnodup).2 fun e => ?_
      exact ⟨hlogged.stored e, hflushed e⟩
    rw [hs.totalEventCount, hlogged.count, hperm.length_eq]

end

/-! ## A deposit and a deletion -/

section Examples

/-- A node on an empty storage that never fails. -/
def counterEnv : Env Unit := Env.plain "node" 1000

/-- A deposit of another node. -/
def remoteDeposit : Event :=
  (LocalCreateInput.legacy "bucket" "alice" 5 none 0 "n1" false).chargeDraft.event "other-1" "other"
    (1, 1) 900

/-- The node after it has started and received the deposit. -/
def afterDeposit : SharedState Unit :=
  (NodeM.exec ((LifeOp.node (.insert remoteDeposit)).program counterEnv)
    (NodeM.exec (newSharedState counterEnv) (.blank .empty)).2).2

/-- The node after it has then deleted a bucket. -/
def afterDelete (target : String) : SharedState Unit :=
  (NodeM.exec ((LifeOp.delete target none).program counterEnv) afterDeposit).2

/-- The event of the deletion. -/
def counterTombstone (target : String) : Event :=
  (bucketDeleteDraft target none).event "0" "node" (1, 1) 1000

lemma Lifetime.afterDeposit {C : Env Unit → LifeOp → SharedState Unit → Prop} {es : List Event}
    (hes : remoteDeposit ∈ es)
    (hC : ∀ s, C counterEnv (.node (.insert remoteDeposit)) s) :
    Lifetime C {e | e ∈ es} counterEnv [] Shardd.afterDeposit := by
  have hstart : Starts counterEnv .empty
      (NodeM.exec (newSharedState counterEnv) (.blank .empty)).2 := by
    obtain ⟨calls, h⟩ := exec_newSharedState_empty counterEnv
    exact ⟨by rw [h], fun _ _ => rfl⟩
  have hst : (Storage.empty : Storage Unit).WellFormed {e | e ∈ es} counterEnv.nodeId := by
    constructor <;> simp [Storage.empty]
  refine .step (.start hst hstart) (hC _) ⟨exec_of_fst (by decide +kernel), hes, ?_⟩
  have hminted : Shardd.afterDeposit.minted = [] := by decide +kernel
  rw [hminted]
  exact ⟨List.nodup_nil, by simp, by simp⟩

lemma Lifetime.afterDelete {C : Env Unit → LifeOp → SharedState Unit → Prop} {target : String}
    (hC : ∀ s, C counterEnv (.node (.insert remoteDeposit)) s)
    (hC' : C counterEnv (.delete target none) Shardd.afterDeposit)
    (hrun : (NodeM.exec ((LifeOp.delete target none).program counterEnv)
      Shardd.afterDeposit).1 = some ())
    (hminted : (Shardd.afterDelete target).minted = [counterTombstone target]) :
    Lifetime C {e | e ∈ [remoteDeposit, counterTombstone target]} counterEnv []
      (Shardd.afterDelete target) := by
  refine .step (.afterDeposit (by simp) hC) hC' ⟨exec_of_fst hrun, trivial, ?_⟩
  have hbefore : Shardd.afterDeposit.acceptedSince [] = [remoteDeposit] := by decide +kernel
  rw [hminted, hbefore]
  refine ⟨List.nodup_singleton _, fun e he => ?_, fun e he _ => ?_⟩
  · rw [List.mem_singleton.1 he]
    simp
  · rw [List.mem_singleton.1 he]
    intro hmem
    have hid : "0" = "other-1" := congrArg Event.eventId (List.mem_singleton.1 hmem)
    exact absurd hid (by decide)

/-- A deposit has been received and another bucket has been deleted: the counter is two, and so is
the sum. -/
theorem event_count_of_lifetime_empty :
    ∃ keys, (afterDelete "empty").Covers keys ∧
      2 = ∑ key ∈ keys,
        ((afterDelete "empty").head key + #((afterDelete "empty").pending key)) := by
  have hE : Identified {e | e ∈ [remoteDeposit, counterTombstone "empty"]} :=
    identified_of_list (by decide +kernel)
  have hbefore : afterDeposit.batchQueue = [remoteDeposit] := by decide +kernel
  have hfirst : ∀ s, DeletesVacant counterEnv (.node (.insert remoteDeposit)) s := by
    rintro s bucket ⟨-, htarget, -⟩
    cases htarget
  have hvacant : DeletesVacant counterEnv (.delete "empty" none) afterDeposit := by
    rintro bucket ⟨rfl, -⟩
    have hlife : Lifetime DeletesVacant {e | e ∈ [remoteDeposit]} counterEnv [] afterDeposit :=
      .afterDeposit (by simp) hfirst
    obtain ⟨-, A, hlogged⟩ := hlife.nothing_gone (identified_of_list (by decide +kernel))
    refine hlogged.log.vacant fun e he => ?_
    have hmem : e ∈ afterDeposit.acceptedSince [] := (hlogged.split e).2 (.inl he)
    rw [SharedState.acceptedSince, hbefore] at hmem
    rw [List.mem_singleton.1 hmem]
    decide
  have hlife := Lifetime.afterDelete hfirst hvacant (by decide +kernel) (by decide +kernel)
  have hcount : (afterDelete "empty").totalEventCount = 2 := by decide +kernel
  obtain ⟨⟨keys, hkeys⟩, hsum, -⟩ := event_count_of_lifetime hE hlife
  exact ⟨keys, hkeys, hcount ▸ hsum keys hkeys⟩

/-- When the bucket of the deposit is deleted, the counter is two and the sum is one. -/
theorem event_count_after_delete :
    Lifetime (fun _ _ _ => True) {e | e ∈ [remoteDeposit, counterTombstone "bucket"]} counterEnv []
      (afterDelete "bucket") ∧
    ∃ keys, (afterDelete "bucket").Covers keys ∧
      (afterDelete "bucket").totalEventCount ≠ ∑ key ∈ keys,
        ((afterDelete "bucket").head key + #((afterDelete "bucket").pending key)) := by
  have hE : Identified {e | e ∈ [remoteDeposit, counterTombstone "bucket"]} :=
    identified_of_list (by decide +kernel)
  have hlife : Lifetime (fun _ _ _ => True)
      {e | e ∈ [remoteDeposit, counterTombstone "bucket"]} counterEnv [] (afterDelete "bucket") :=
    .afterDelete (fun _ => trivial) trivial (by decide +kernel) (by decide +kernel)
  refine ⟨hlife, ?_⟩
  obtain ⟨-, A, gone, hlogged⟩ := hlife.logged hE
  have hqueue : (afterDelete "bucket").batchQueue =
      [remoteDeposit, counterTombstone "bucket"] := by decide +kernel
  have hhead : (afterDelete "bucket").head remoteDeposit.epochKey = 0 := by decide +kernel
  have hpending : (afterDelete "bucket").pending remoteDeposit.epochKey = ∅ := by decide +kernel
  have hcount : (afterDelete "bucket").totalEventCount = 2 := by decide +kernel
  -- the deposit is gone from the log
  have hA : A ⊆ {counterTombstone "bucket"} := by
    intro e he
    have hmem : e ∈ (afterDelete "bucket").acceptedSince [] := (hlogged.split e).2 (.inl he)
    rw [SharedState.acceptedSince, hqueue] at hmem
    rcases List.mem_pair.1 hmem with rfl | rfl
    · have hacc := (hlogged.log.accepted_iff remoteDeposit.epochKey (le_refl 1)).1 ⟨_, he, rfl⟩
      rw [hhead, hpending] at hacc
      simp at hacc
    · exact mem_singleton_self _
  refine ⟨_, hlogged.log.covers, ?_⟩
  rw [hlogged.log.sum_eq_card hlogged.log.covers, hcount]
  have hcard := card_le_card hA
  rw [card_singleton] at hcard
  omega

end Examples

end Shardd
