import Shardd.Node.HeadSpec
import Shardd.Recovery.Rebuild

/-!
# The two ways to a contiguous head

At start-up `compute_contiguous_head` scans the sorted seqs of an epoch; online `advance_head` takes
one seq at a time and lets `drain_pending` walk the set of those that wait.  Both find the end of
the run that begins at `1`, and what the online one leaves pending is what lies beyond it.

The seqs are `u64` in the source.  The last section reads the two loops with the wrapping addition
of a release build: nothing changes, as long as the seq `0` is not pending, and `advance_head` never
lets it wait.
-/

namespace Shardd

variable {D : Type}

/-! ## The scan -/

theorem computeContiguousHead_isGreatest {seqs : List ℕ} (hsorted : seqs.Pairwise (· ≤ ·)) :
    IsGreatest {n | ∀ m, 1 ≤ m → m ≤ n → m ∈ seqs} (computeContiguousHead seqs) := by
  have hhead := isHead_computeContiguousHead (S := seqs.toFinset) (by simp) hsorted
  constructor
  · intro m hm hle
    exact List.mem_toFinset.1 (hhead.mem m hm hle)
  · intro n hn
    exact hhead.le_of_mem fun m hm hle => List.mem_toFinset.2 (hn m hm hle)

/-! ## The drain -/

/-- More rounds than there are pending seqs change nothing: the loop has ended. -/
lemma drainLoop_of_le {rounds head : ℕ} {pending : Finset ℕ} (h : pending.card ≤ rounds) :
    drainLoop rounds head pending = drainLoop pending.card head pending := by
  induction rounds generalizing head pending with
  | zero =>
      obtain rfl : pending = ∅ := Finset.card_eq_zero.1 (Nat.le_zero.1 h)
      rfl
  | succ rounds ih =>
      rw [drainLoop]
      split
      · rename_i hmem
        have hcard := Finset.card_erase_of_mem hmem
        have hpos : 0 < pending.card := Finset.card_pos.2 ⟨_, hmem⟩
        obtain ⟨n, hn⟩ : ∃ n, pending.card = n + 1 := ⟨pending.card - 1, by omega⟩
        have hsame : (pending.erase (head + 1)).card = n := by omega
        rw [ih (by omega), hn, drainLoop, if_pos hmem, hsame]
      · rename_i hmem
        cases hn : pending.card with
        | zero => rfl
        | succ n => rw [drainLoop, if_neg hmem]

/-- The loop stops at the end of the run behind `head`, and takes that run out. -/
theorem drainLoop_isGreatest (head : ℕ) (pending : Finset ℕ) :
    let out := drainLoop pending.card head pending
    IsGreatest {n | head ≤ n ∧ ∀ m, head < m → m ≤ n → m ∈ pending} out.1 ∧
      out.1 + 1 ∉ out.2 ∧ out.2 = pending \ Finset.Ioc head out.1 := by
  intro out
  obtain ⟨hle, hrun, hstop, hrest⟩ := drainLoop_spec pending.card head pending le_rfl
  refine ⟨⟨⟨hle, hrun⟩, fun n hn => ?_⟩, hstop, ?_⟩
  · by_contra hlt
    have hlt' : out.1 < n := not_le.1 hlt
    have hnext : out.1 + 1 ∈ pending := hn.2 _ (Nat.lt_succ_of_le hle) hlt'
    exact hstop ((hrest _).2 ⟨hnext, .inr (Nat.lt_succ_self _)⟩)
  · ext m
    rw [hrest, Finset.mem_sdiff, Finset.mem_Ioc, not_and_or, not_lt, not_le]

namespace SharedState

variable (s : SharedState D) (key : EpochKey) (head : ℕ)

/-- `drain_pending` touches the pending seqs of its epoch only. -/
lemma drainPending_eq :
    let out := drainLoop (s.pending key).card head (s.pending key)
    (s.drainPending key head).1 = out.1 ∧ (s.drainPending key head).2.pending key = out.2 ∧
      (∀ k, k ≠ key → (s.drainPending key head).2.pendingSeqs k = s.pendingSeqs k) ∧
      { (s.drainPending key head).2 with pendingSeqs := s.pendingSeqs } = s := by
  unfold drainPending
  cases hp : s.pendingSeqs key with
  | none =>
      have hpending : s.pending key = ∅ := by rw [pending, hp]; rfl
      rw [hpending]
      exact ⟨rfl, rfl, fun _ _ => rfl, rfl⟩
  | some p =>
      have hpending : s.pending key = p := by rw [pending, hp]; rfl
      rw [hpending]
      refine ⟨rfl, ?_, fun k hk => Map.insert_of_ne _ _ _ hk, rfl⟩
      simp [pending]

end SharedState

/-! ## Feeding seqs -/

/-- The seqs go through `advance_head` one by one. -/
def advanceHeads (env : Env D) (key : EpochKey) : List ℕ → NodeM D Unit
  | [] => return ()
  | seq :: rest => do
      advanceHead env key seq
      advanceHeads env key rest

/-- One seq more keeps the head at the end of the run. -/
lemma IsHead.advanceHead (env : Env D) {s : SharedState D} {key : EpochKey} {S : Finset ℕ}
    (h : IsHead S (s.head key) (s.pending key)) {seq : ℕ} (hpos : 1 ≤ seq) (hnew : seq ∉ S) :
    IsHead (insert seq S) ((s.advanceHead env key seq).head key)
      ((s.advanceHead env key seq).pending key) := by
  have hlt : s.head key < seq := by
    by_contra hle
    exact hnew (h.mem seq hpos (not_lt.1 hle))
  rcases Nat.lt_or_ge (s.head key + 1) seq with hgap | hnext
  · rw [SharedState.advanceHead_gap env hgap]
    have hinsert := h.insert_pending hgap
    simpa [SharedState.head, SharedState.pending] using hinsert
  · have hseq : seq = s.head key + 1 := by omega
    obtain ⟨h', p', hlt', hrun, hstop, hrest, hheads, hpending, -, -⟩ :=
      SharedState.advanceHead_next env key hseq
    have hhead : (s.advanceHead env key seq).head key = h' := by
      rw [SharedState.head, hheads, Map.insert_self, Option.getD_some]
    rw [hhead, hpending, if_pos rfl, hseq]
    refine h.insert_next hlt' (fun m hm hle => hrun m (by omega) hle) hstop fun m => ?_
    rw [hrest]
    refine and_congr_right fun hm => ⟨fun hor => ?_, .inr⟩
    have hbeyond := ((h.mem_pending m).1 hm).2
    have hne : m ≠ seq := fun heq => hnew (heq ▸ ((h.mem_pending m).1 hm).1)
    rcases hor with hle | hgt
    · omega
    · exact hgt

/-- Any number of seqs. -/
lemma IsHead.advanceHeads (env : Env D) {key : EpochKey} (seqs : List ℕ) :
    ∀ {s : SharedState D} {S : Finset ℕ}, IsHead S (s.head key) (s.pending key) →
      seqs.Nodup → (∀ m ∈ seqs, 1 ≤ m ∧ m ∉ S) →
      ∃ s', NodeM.exec (Shardd.advanceHeads env key seqs) s = (some (), s') ∧
        IsHead (S ∪ seqs.toFinset) (s'.head key) (s'.pending key) := by
  induction seqs with
  | nil =>
      intro s S h _ _
      exact ⟨s, rfl, by simpa using h⟩
  | cons seq seqs ih =>
      intro s S h hnodup hseqs
      obtain ⟨hnotin, hnodup'⟩ := List.nodup_cons.1 hnodup
      obtain ⟨hpos, hnew⟩ := hseqs seq List.mem_cons_self
      have hrest : ∀ m ∈ seqs, 1 ≤ m ∧ m ∉ insert seq S := by
        intro m hm
        obtain ⟨hposm, hnewm⟩ := hseqs m (List.mem_cons_of_mem _ hm)
        refine ⟨hposm, fun hmem => ?_⟩
        rcases Finset.mem_insert.1 hmem with rfl | hmem
        · exact hnotin hm
        · exact hnewm hmem
      obtain ⟨s', hrun, hs'⟩ := ih (h.advanceHead env hpos hnew) hnodup' hrest
      refine ⟨s', ?_, ?_⟩
      · have hfirst := exec_advanceHead env key seq s
        simp only [NodeM.exec] at hfirst hrun ⊢
        rw [Shardd.advanceHeads, Proc.exec_bind, hfirst, Proc.andThen_some, hrun]
      · have hset : insert seq S ∪ seqs.toFinset = S ∪ (seq :: seqs).toFinset := by
          rw [List.toFinset_cons, Finset.union_insert, Finset.insert_union]
        rw [← hset]
        exact hs'

/-! ## The two agree -/

/-- **Contiguous heads.**  The scan of an ascending list gives the end of the run from `1`; the
drain ends, gives the end of the run behind the head and takes that run out; and seqs fed in any
order leave the head that the scan of the sorted list gives, with the rest pending. -/
theorem contiguous_heads_agree (env : Env D) (key : EpochKey) :
    (∀ seqs : List ℕ, seqs.Pairwise (· ≤ ·) →
      IsGreatest {n | ∀ m, 1 ≤ m → m ≤ n → m ∈ seqs} (computeContiguousHead seqs)) ∧
    (∀ (s : SharedState D) (head : ℕ),
      let out := s.drainPending key head
      IsGreatest {n | head ≤ n ∧ ∀ m, head < m → m ≤ n → m ∈ s.pending key} out.1 ∧
        out.2.pending key = s.pending key \ Finset.Ioc head out.1 ∧
        out.1 + 1 ∉ out.2.pending key ∧
        (∀ k, k ≠ key → out.2.pendingSeqs k = s.pendingSeqs k) ∧
        { out.2 with pendingSeqs := s.pendingSeqs } = s ∧
        ∀ rounds, (s.pending key).card ≤ rounds →
          drainLoop rounds head (s.pending key) = (out.1, out.2.pending key)) ∧
    ∀ (s : SharedState D) (seqs arrivals : List ℕ), s.head key = 0 → s.pending key = ∅ →
      seqs.Nodup → (∀ m ∈ seqs, 1 ≤ m) → arrivals.Perm seqs →
      ∃ s', NodeM.exec (advanceHeads env key arrivals) s = (some (), s') ∧
        s'.head key = computeContiguousHead (seqs.insertionSort (· ≤ ·)) ∧
        s'.pending key = seqs.toFinset.filter fun m => s'.head key < m := by
  refine ⟨fun seqs => computeContiguousHead_isGreatest, fun s head => ?_, ?_⟩
  · obtain ⟨hfst, hpending, hother, hframe⟩ := s.drainPending_eq key head
    obtain ⟨hgreatest, hstop, hrest⟩ := drainLoop_isGreatest head (s.pending key)
    dsimp only
    rw [hfst, hpending]
    refine ⟨hgreatest, hrest, hstop, hother, hframe, fun rounds hrounds => ?_⟩
    rw [drainLoop_of_le hrounds]
  · intro s seqs arrivals hhead hpending hnodup hpos hperm
    have hempty : IsHead ∅ (s.head key) (s.pending key) := by
      rw [hhead, hpending]
      exact .empty
    obtain ⟨s', hrun, hs'⟩ := hempty.advanceHeads env arrivals (hperm.nodup_iff.2 hnodup)
      fun m hm => ⟨hpos m (hperm.mem_iff.1 hm), Finset.notMem_empty m⟩
    rw [Finset.empty_union, List.toFinset_eq_of_perm _ _ hperm] at hs'
    have hmem : ∀ n, n ∈ seqs.insertionSort (· ≤ ·) ↔ n ∈ seqs.toFinset := fun n => by
      rw [List.mem_insertionSort, List.mem_toFinset]
    have hscan := isHead_computeContiguousHead hmem (List.pairwise_insertionSort _ _)
    refine ⟨s', hrun, hs'.head_unique hscan, ?_⟩
    ext m
    rw [hs'.mem_pending, Finset.mem_filter]

/-- The seqs `3, 1, 5, 2` arrive: the head is `3`, and `5` waits. -/
theorem contiguous_heads_agree_four :
    let env := Env.plain "node" 1000
    ∃ s', NodeM.exec (advanceHeads env ("bucket", "other", 1) [3, 1, 5, 2])
        (.blank .empty) = (some (), s') ∧
      s'.head ("bucket", "other", 1) = 3 ∧ s'.pending ("bucket", "other", 1) = {5} := by
  intro env
  obtain ⟨s', hrun, hhead, hpending⟩ := (contiguous_heads_agree env ("bucket", "other", 1)).2.2
    (.blank .empty) [1, 2, 3, 5] [3, 1, 5, 2] rfl rfl (by decide) (by decide) (by decide)
  have hscan : computeContiguousHead ([1, 2, 3, 5].insertionSort (· ≤ ·)) = 3 := by decide
  rw [hscan] at hhead
  refine ⟨s', hrun, hhead, ?_⟩
  rw [hpending, hhead]
  decide

/-! ## 64 bits -/

/-- The loop of `drain_pending` on `u64`, with the wrapping addition. -/
def drainLoop64 : ℕ → UInt64 → Finset UInt64 → UInt64 × Finset UInt64
  | 0, head, pending => (head, pending)
  | rounds + 1, head, pending =>
      if head + 1 ∈ pending then drainLoop64 rounds (head + 1) (pending.erase (head + 1))
      else (head, pending)

/-- `compute_contiguous_head` on `u64`, with the wrapping addition. -/
def computeContiguousHead64 (seqs : List UInt64) : UInt64 := go 0 seqs
where
  go (head : UInt64) : List UInt64 → UInt64
    | [] => head
    | seq :: rest =>
        if seq = head + 1 then go seq rest
        else if head + 1 < seq then head
        else go head rest

lemma UInt64.toNat_add_one {n : UInt64} (h : n.toNat + 1 < 2 ^ 64) :
    (n + 1).toNat = n.toNat + 1 := by
  rw [UInt64.toNat_add, UInt64.toNat_one, Nat.mod_eq_of_lt h]

lemma UInt64.add_one_eq_zero {n : UInt64} (h : ¬ n.toNat + 1 < 2 ^ 64) : n + 1 = 0 := by
  have hlt := n.toNat_lt
  have hmax : n.toNat + 1 = 2 ^ 64 := by omega
  rw [← UInt64.toNat_inj, UInt64.toNat_add, UInt64.toNat_one, hmax]
  rfl

/-- The drain of `u64` seqs is that of the numbers, as long as `0` does not wait. -/
theorem drainLoop64_toNat (rounds : ℕ) {head : UInt64} {pending : Finset UInt64}
    (hzero : 0 ∉ pending) :
    (drainLoop64 rounds head pending).1.toNat =
        (drainLoop rounds head.toNat (pending.image UInt64.toNat)).1 ∧
      (drainLoop64 rounds head pending).2.image UInt64.toNat =
        (drainLoop rounds head.toNat (pending.image UInt64.toNat)).2 := by
  have hinj : Function.Injective UInt64.toNat := fun _ _ => UInt64.toNat_inj.1
  induction rounds generalizing head pending with
  | zero => exact ⟨rfl, rfl⟩
  | succ rounds ih =>
      have hmem : head + 1 ∈ pending ↔ head.toNat + 1 ∈ pending.image UInt64.toNat := by
        by_cases h : head.toNat + 1 < 2 ^ 64
        · rw [← UInt64.toNat_add_one h, hinj.mem_finset_image]
        · rw [UInt64.add_one_eq_zero h]
          refine iff_of_false hzero fun himage => ?_
          obtain ⟨m, -, hm⟩ := Finset.mem_image.1 himage
          have hlt := m.toNat_lt
          omega
      rw [drainLoop64, drainLoop]
      by_cases hnext : head + 1 ∈ pending
      · rw [if_pos hnext, if_pos (hmem.1 hnext)]
        have hlt : head.toNat + 1 < 2 ^ 64 := by
          by_contra h
          exact hzero (UInt64.add_one_eq_zero h ▸ hnext)
        have herase := @ih (head + 1) (pending.erase (head + 1))
          fun h => hzero (Finset.mem_of_mem_erase h)
        rwa [Finset.image_erase hinj, UInt64.toNat_add_one hlt] at herase
      · rw [if_neg hnext, if_neg fun h => hnext (hmem.2 h)]
        exact ⟨rfl, rfl⟩

/-- The scan of an ascending list of `u64` seqs is that of the numbers. -/
theorem computeContiguousHead64_toNat {seqs : List UInt64} (hsorted : seqs.Pairwise (· ≤ ·)) :
    (computeContiguousHead64 seqs).toNat = computeContiguousHead (seqs.map UInt64.toNat) := by
  have hgo : ∀ head : UInt64, (head = 0 ∨ ∀ seq ∈ seqs, head ≤ seq) →
      (computeContiguousHead64.go head seqs).toNat =
        computeContiguousHead.go head.toNat (seqs.map UInt64.toNat) := by
    induction seqs with
    | nil => exact fun _ _ => rfl
    | cons seq seqs ih =>
        intro head hhead
        obtain ⟨hle, hrest⟩ := List.pairwise_cons.1 hsorted
        have hkeep : head = 0 ∨ ∀ m ∈ seqs, head ≤ m :=
          hhead.imp id fun h m hm => h m (List.mem_cons_of_mem _ hm)
        have hlt := seq.toNat_lt
        rw [computeContiguousHead64.go, List.map_cons, computeContiguousHead.go]
        by_cases hmax : head.toNat + 1 < 2 ^ 64
        · have hnext : seq = head + 1 ↔ seq.toNat = head.toNat + 1 := by
            rw [← UInt64.toNat_inj, UInt64.toNat_add_one hmax]
          have hgap : head + 1 < seq ↔ head.toNat + 1 < seq.toNat := by
            rw [UInt64.lt_iff_toNat_lt, UInt64.toNat_add_one hmax]
          simp only [hnext, hgap]
          split
          · exact ih hrest seq (.inr hle)
          · split
            · rfl
            · exact ih hrest head hkeep
        · -- the head is the largest `u64`: what follows is that seq again
          have hseq : head ≤ seq := by
            rcases hhead with rfl | h
            · exact absurd (by decide) hmax
            · exact h seq List.mem_cons_self
          have hsame := UInt64.le_iff_toNat_le.1 hseq
          have hpos : (0 : UInt64) < seq := by
            rw [UInt64.lt_iff_toNat_lt, UInt64.toNat_zero]
            omega
          have hne : seq ≠ 0 := by
            rintro rfl
            exact absurd hpos (by decide)
          rw [UInt64.add_one_eq_zero hmax, if_neg hne, if_pos hpos, if_neg (by omega),
            if_neg (by omega)]
          obtain ⟨hge, hrun, -⟩ := computeContiguousHead_go_spec (seqs.map UInt64.toNat) head.toNat
            (List.pairwise_map.2 (hrest.imp UInt64.le_iff_toNat_le.1))
          by_contra hfar
          have hmem := hrun _ (lt_of_le_of_ne hge hfar) le_rfl
          obtain ⟨m, -, hm⟩ := List.mem_map.1 hmem
          have hbound := m.toNat_lt
          omega
  exact hgo 0 (.inl rfl)

end Shardd
