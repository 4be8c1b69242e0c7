import Mathlib.Data.List.Sort
import Shardd.Node.Startup
import Shardd.Recovery.Books

/-!
# What the start-up rebuilds

The pure parts of a start, one lemma for each structure: heads and pending seqs from the sorted seqs
of an epoch, balances and holds from the stored events, the reverse index, the buffer and the
digests.  Each is what the books of a node that has accepted the stored events say it is.
-/

namespace Shardd

/-! ## Heads -/

/-- The scan of a sorted list finds the end of the run behind `head`. -/
lemma computeContiguousHead_go_spec (seqs : List ℕ) (head : ℕ) (hsorted : seqs.Pairwise (· ≤ ·)) :
    head ≤ computeContiguousHead.go head seqs ∧
      (∀ n, head < n → n ≤ computeContiguousHead.go head seqs → n ∈ seqs) ∧
      computeContiguousHead.go head seqs + 1 ∉ seqs := by
  induction seqs generalizing head with
  | nil =>
      simp only [computeContiguousHead.go]
      exact ⟨le_refl _, fun n hn hn' => by omega, List.not_mem_nil⟩
  | cons seq seqs ih =>
      obtain ⟨hle, hrest⟩ := List.pairwise_cons.1 hsorted
      unfold computeContiguousHead.go
      split
      · rename_i hnext
        obtain ⟨hhead, hrun, hstop⟩ := ih seq hrest
        refine ⟨by omega, fun n hn hn' => ?_, ?_⟩
        · by_cases heq : n = seq
          · rw [heq]
            exact List.mem_cons_self
          · exact List.mem_cons_of_mem _ (hrun n (by omega) hn')
        · rw [List.mem_cons, not_or]
          exact ⟨by omega, hstop⟩
      · split
        · refine ⟨le_refl _, fun n hn hn' => by omega, fun hmem => ?_⟩
          rcases List.mem_cons.1 hmem with hmem | hmem
          · omega
          · have := hle _ hmem
            omega
        · obtain ⟨hhead, hrun, hstop⟩ := ih head hrest
          refine ⟨hhead, fun n hn hn' => List.mem_cons_of_mem _ (hrun n hn hn'), ?_⟩
          rw [List.mem_cons, not_or]
          exact ⟨by omega, hstop⟩

/-- The head and the seqs beyond it. -/
lemma isHead_computeContiguousHead {S : Finset ℕ} {seqs : List ℕ} (hmem : ∀ n, n ∈ seqs ↔ n ∈ S)
    (hsorted : seqs.Pairwise (· ≤ ·)) :
    IsHead S (computeContiguousHead seqs)
      (seqs.toFinset.filter fun seq => computeContiguousHead seqs < seq) := by
  obtain ⟨-, hrun, hstop⟩ := computeContiguousHead_go_spec seqs 0 hsorted
  constructor
  · intro n hn hn'
    exact (hmem n).1 (hrun n hn hn')
  · rw [← hmem]
    exact hstop
  · intro n
    rw [Finset.mem_filter, List.mem_toFinset, hmem]

/-- The last of an ascending list is its largest. -/
lemma isGreatest_getLast? {S : Finset ℕ} {seqs : List ℕ} (hmem : ∀ n, n ∈ seqs ↔ n ∈ S)
    (hsorted : seqs.Pairwise (· ≤ ·)) (m : ℕ) :
    seqs.getLast? = some m ↔ IsGreatest (S : Set ℕ) m := by
  have hlast : ∀ m, seqs.getLast? = some m → IsGreatest (S : Set ℕ) m := by
    intro m hm
    obtain ⟨l, rfl⟩ := List.getLast?_eq_some_iff.1 hm
    refine ⟨(hmem m).1 (by simp), fun n hn => ?_⟩
    rcases List.mem_append.1 ((hmem n).2 hn) with hn | hn
    · exact (List.pairwise_append.1 hsorted).2.2 n hn m (by simp)
    · rw [List.mem_singleton.1 hn]
  constructor
  · exact hlast m
  · intro hm
    rcases hl : seqs.getLast? with _ | m'
    · rw [List.getLast?_eq_none_iff.1 hl] at hmem
      exact absurd ((hmem m).2 hm.1) List.not_mem_nil
    · rw [(hlast m' hl).unique hm]

namespace Storage

variable {D : Type} (st : Storage D)

lemma sequencesByOriginEpoch_spec (key : EpochKey) :
    (st.sequencesByOriginEpoch key = none ∧ seqsOf st.events.toFinset key = ∅) ∨
      ∃ seqs, st.sequencesByOriginEpoch key = some seqs ∧ seqs.Pairwise (· ≤ ·) ∧
        ∀ n, n ∈ seqs ↔ n ∈ seqsOf st.events.toFinset key := by
  have hmem : ∀ n, n ∈ (st.events.filter fun e => e.epochKey = key).map Event.originSeq ↔
      n ∈ seqsOf st.events.toFinset key := by
    intro n
    simp [seqsOf]
  unfold sequencesByOriginEpoch
  dsimp only
  split
  · rename_i hnil
    left
    refine ⟨rfl, Finset.eq_empty_of_forall_notMem fun n hn => ?_⟩
    rw [← hmem, hnil] at hn
    exact List.not_mem_nil hn
  · right
    refine ⟨_, rfl, List.pairwise_insertionSort _ _, fun n => ?_⟩
    rw [List.mem_insertionSort, hmem]

end Storage

/-! ## Balances -/

namespace Storage

variable {D : Type}

/-- The sum over an account is what the replay of its events comes to. -/
lemma aggregateBalances_eq (st : Storage D) (key : BalanceKey) :
    (st.aggregateBalances key).getD 0 =
      (AccountState.replay (st.events.filter fun e => e.balanceKey = key)).balance := by
  have h : ∀ (es : List Event) (m : Map BalanceKey Int64),
      ((es.foldl (fun m e => m.insert e.balanceKey ((m e.balanceKey).getD 0 + e.amount)) m)
          key).getD 0 =
        ((es.filter fun e => e.balanceKey = key).foldl AccountState.applyEvent
          { AccountState.new with balance := (m key).getD 0 }).balance := by
    have hbalance : ∀ (es : List Event) (acc acc' : AccountState), acc.balance = acc'.balance →
        (es.foldl AccountState.applyEvent acc).balance =
          (es.foldl AccountState.applyEvent acc').balance := by
      intro es
      induction es with
      | nil => exact fun acc acc' h => h
      | cons e es ih =>
          intro acc acc' h
          apply ih
          rw [AccountState.balance_applyEvent, AccountState.balance_applyEvent, h]
    intro es
    induction es with
    | nil => exact fun m => rfl
    | cons e es ih =>
        intro m
        rw [List.foldl_cons, ih, List.filter_cons]
        by_cases hk : e.balanceKey = key
        · subst hk
          simp only [decide_true, if_true, List.foldl_cons, Map.insert_self, Option.getD_some]
          apply hbalance
          rw [AccountState.balance_applyEvent]
        · simp only [hk, decide_false, Bool.false_eq_true, if_false,
            Map.insert_of_ne _ _ _ (Ne.symm hk)]
  exact h st.events fun _ => none

end Storage

namespace SharedState

variable {D : Type}

/-- The rebuild of the accounts, account by account. -/
lemma account_foldl_rebuildAccount (now : ℕ) (es : List Event) (s : SharedState D)
    (key : BalanceKey) :
    (es.foldl (fun s e => s.rebuildAccount now e) s).account key =
      (es.filter fun e => e.balanceKey = key).foldl (AccountState.rebuild now) (s.account key) := by
  induction es generalizing s with
  | nil => rfl
  | cons e es ih =>
      have hstep : (s.rebuildAccount now e).account key =
          if key = e.balanceKey then (s.account key).rebuild now e else s.account key :=
        account_modifyAccount (s := s) e.balanceKey key fun acc => acc.rebuild now e
      rw [List.foldl_cons, ih, hstep, List.filter_cons]
      by_cases hk : key = e.balanceKey
      · subst hk
        simp
      · simp [hk, Ne.symm hk]

lemma foldl_rebuildAccount_frame (now : ℕ) (es : List Event) (s : SharedState D) :
    let s' := es.foldl (fun s e => s.rebuildAccount now e) s
    s' = { s with accounts := s'.accounts } := by
  induction es generalizing s with
  | nil => rfl
  | cons e es ih =>
      dsimp only
      rw [List.foldl_cons, ih]
      rfl

/-! ## The idempotency cache -/

/-- Of the events of a key, the loop keeps the first. -/
lemma foldl_cacheFirst (es : List Event) (m : Map IdemKey Event) (key : IdemKey) :
    es.foldl (fun m e => if m.containsKey e.idempotencyKey then m else m.insert e.idempotencyKey e)
        m key =
      (m key).or (es.find? fun e => e.idempotencyKey = key) := by
  induction es generalizing m with
  | nil => simp
  | cons e es ih =>
      rw [List.foldl_cons, ih]
      by_cases hkey : e.idempotencyKey = key
      · subst hkey
        rcases hm : m e.idempotencyKey with _ | x
        · simp [Map.containsKey, hm]
        · simp [Map.containsKey, hm]
      · have hkeep : (if m.containsKey e.idempotencyKey then m
            else m.insert e.idempotencyKey e) key = m key := by
          split
          · rfl
          · exact Map.insert_of_ne _ _ _ (Ne.symm hkey)
        rw [hkeep, List.find?_cons_of_neg (by simpa using hkey)]

/-- What is in the cache after its rebuild. -/
lemma of_rebuildIdempotencyCache {s : SharedState D} {events : List Event} {key : IdemKey}
    {e : Event} (h : (s.rebuildIdempotencyCache events).idempotencyCache key = some e) :
    s.idempotencyCache key = some e ∨ e ∈ events ∧ e.idempotencyKey = key := by
  change (events.reverse.take 10000).foldl _ s.idempotencyCache key = some e at h
  rw [foldl_cacheFirst] at h
  rcases Option.or_eq_some_iff.1 h with h | ⟨-, h⟩
  · exact .inl h
  · have hmem := List.mem_of_mem_take (List.mem_of_find?_eq_some h)
    have hkey := List.find?_some h
    exact .inr ⟨List.mem_reverse.1 hmem, of_decide_eq_true hkey⟩

end SharedState

/-! ## The reverse index -/

/-- The loop over the stored events finds the epochs of every account. -/
lemma foldl_origins (es : List Event) (key : BalanceKey) :
    (es.foldl (fun (m : Map BalanceKey (Finset EpochKey)) e =>
      m.insert e.balanceKey (insert e.epochKey ((m e.balanceKey).getD ∅))) fun _ => none) key =
        epochsOf es key := by
  induction es using List.reverseRecOn with
  | nil => simp [epochsOf]
  | append_singleton es e ih =>
      rw [List.foldl_append, List.foldl_cons, List.foldl_nil, Map.insert_apply, epochsOf_append]
      split
      · rename_i hk
        subst hk
        rw [ih]
      · exact ih

/-! ## Digests and the buffer -/

namespace SharedState

variable {D : Type} (hasher : Hasher D)

/-- One event of the digest loop, seen by its own epoch. -/
def digestOf (head : ℕ) (o : Option (ℕ × D)) (e : Event) : Option (ℕ × D) :=
  if head < e.originSeq then o
  else
    let (h, digest) := o.getD (0, hasher.zero)
    if e.originSeq = h + 1 then some (e.originSeq, hasher.chain digest e.canonical)
    else some (h, digest)

lemma rebuildDigest_frame (computed : Map EpochKey (ℕ × D)) (s : SharedState D) (e : Event) :
    let s' := (rebuildDigest hasher (computed, s) e).2
    s' = { s with eventBuffer := s'.eventBuffer } := by
  dsimp only [rebuildDigest]
  split
  · rfl
  · split <;> rfl

lemma foldl_rebuildDigest_frame (es : List Event) (st : Map EpochKey (ℕ × D) × SharedState D) :
    let s' := (es.foldl (rebuildDigest hasher) st).2
    s' = { st.2 with eventBuffer := s'.eventBuffer } := by
  induction es generalizing st with
  | nil => rfl
  | cons e es ih =>
      dsimp only
      rw [List.foldl_cons, ih, rebuildDigest_frame]

/-- The digest loop, epoch by epoch. -/
lemma foldl_rebuildDigest (es : List Event) (computed : Map EpochKey (ℕ × D)) (s : SharedState D)
    (key : EpochKey) :
    (es.foldl (rebuildDigest hasher) (computed, s)).1 key =
      (es.filter fun e => e.epochKey = key).foldl (digestOf hasher (s.head key))
        (computed key) := by
  induction es generalizing computed s with
  | nil => rfl
  | cons e es ih =>
      have hstep : (rebuildDigest hasher (computed, s) e).1 key =
          if e.epochKey = key then digestOf hasher (s.head key) (computed key) e
          else computed key := by
        by_cases hk : e.epochKey = key
        · subst hk
          rw [if_pos rfl]
          unfold rebuildDigest digestOf
          dsimp only
          split
          · rfl
          · split <;> simp
        · rw [if_neg hk]
          unfold rebuildDigest
          dsimp only
          split
          · rfl
          · split <;> simp [Ne.symm hk]
      have hhead : (rebuildDigest hasher (computed, s) e).2.head key = s.head key := by
        rw [rebuildDigest_frame]
        rfl
      rw [List.foldl_cons, ← Prod.mk.eta (p := rebuildDigest hasher (computed, s) e), ih, hhead,
        hstep, List.filter_cons]
      by_cases hk : e.epochKey = key
      · simp [hk]
      · simp [hk]

/-- Over an ascending list that goes on where the digest has come to, the loop chains the events up
to the head. -/
lemma foldl_digestOf {head : ℕ} (es : List Event) (k : ℕ) (d : D) (hk : k ≤ head)
    (hsorted : es.Pairwise fun a b => a.originSeq < b.originSeq)
    (hbeyond : ∀ e ∈ es, k < e.originSeq)
    (hrun : ∀ n, k < n → n ≤ head → ∃ e ∈ es, e.originSeq = n) :
    ∃ es' : List Event, (∀ e ∈ es', e ∈ es) ∧
      es'.map Event.originSeq = List.range' (k + 1) (head - k) ∧
      es.foldl (digestOf hasher head) (if k = 0 then none else some (k, d)) =
        if head = 0 then none
        else some (head, es'.foldl (fun d e => hasher.chain d e.canonical)
          (if k = 0 then hasher.zero else d)) := by
  induction es generalizing k d with
  | nil =>
      obtain rfl : k = head := by
        by_contra hne
        obtain ⟨e, he, -⟩ := hrun (k + 1) (by omega) (by omega)
        exact List.not_mem_nil he
      refine ⟨[], by simp, by simp, ?_⟩
      by_cases hzero : k = 0
      · simp [hzero]
      · simp [hzero]
  | cons e es ih =>
      obtain ⟨hlt, hrest⟩ := List.pairwise_cons.1 hsorted
      have hke := hbeyond e List.mem_cons_self
      by_cases hhead : head < e.originSeq
      · -- the run ends before this event
        obtain rfl : k = head := by
          by_contra hne
          obtain ⟨x, hx, hxseq⟩ := hrun (k + 1) (by omega) (by omega)
          rcases List.mem_cons.1 hx with rfl | hx
          · omega
          · have := hlt x hx
            omega
        obtain ⟨es', hes', hseqs, hfold⟩ := ih k d hk hrest
          (fun x hx => hbeyond x (List.mem_cons_of_mem _ hx)) fun n hn hn' => by omega
        refine ⟨es', fun x hx => List.mem_cons_of_mem _ (hes' x hx), hseqs, ?_⟩
        have hskip : digestOf hasher k (if k = 0 then none else some (k, d)) e =
            if k = 0 then none else some (k, d) := by
          unfold digestOf
          rw [if_pos hhead]
        rw [List.foldl_cons, hskip]
        exact hfold
      · -- this event is the next one
        have hnext : e.originSeq = k + 1 := by
          obtain ⟨x, hx, hxseq⟩ := hrun (k + 1) (by omega) (by omega)
          rcases List.mem_cons.1 hx with rfl | hx
          · exact hxseq
          · have := hlt x hx
            omega
        set d' := hasher.chain (if k = 0 then hasher.zero else d) e.canonical with hd'
        have hstep : digestOf hasher head (if k = 0 then none else some (k, d)) e =
            some (k + 1, d') := by
          unfold digestOf
          rw [if_neg hhead, hd', ← hnext]
          by_cases hzero : k = 0
          · simp [hzero, hnext]
          · simp [hzero, hnext]
        obtain ⟨es', hes', hseqs, hfold⟩ := ih (k + 1) d' (by omega) hrest
          (fun x hx => by rw [← hnext]; exact hlt x hx) fun n hn hn' => by
            obtain ⟨x, hx, hxseq⟩ := hrun n (by omega) hn'
            rcases List.mem_cons.1 hx with rfl | hx
            · omega
            · exact ⟨x, hx, hxseq⟩
        refine ⟨e :: es', ?_, ?_, ?_⟩
        · intro x hx
          rcases List.mem_cons.1 hx with rfl | hx
          · exact List.mem_cons_self
          · exact List.mem_cons_of_mem _ (hes' x hx)
        · rw [List.map_cons, hseqs, hnext, show head - k = (head - (k + 1)) + 1 by omega,
            List.range'_succ]
        · rw [List.foldl_cons, hstep]
          simpa [hd'] using hfold

/-- What is in the buffer after the digest loop. -/
lemma of_eventBuffer_foldl_rebuildDigest {es : List Event}
    {st : Map EpochKey (ℕ × D) × SharedState D} {k : OriginKey} {e : Event}
    (h : (es.foldl (rebuildDigest hasher) st).2.eventBuffer k = some e) :
    st.2.eventBuffer k = some e ∨ e ∈ es ∧ e.originKey = k := by
  induction es generalizing st with
  | nil => exact .inl h
  | cons x es ih =>
      rw [List.foldl_cons] at h
      rcases ih h with h | ⟨h, hk⟩
      · have hstep : ∀ computed (s : SharedState D),
            (rebuildDigest hasher (computed, s) x).2.eventBuffer k = some e →
            s.eventBuffer k = some e ∨ k = x.originKey ∧ e = x := by
          intro computed s h
          dsimp only [rebuildDigest] at h
          split at h
          · exact Map.of_insert h
          · split at h <;> exact .inl h
        rcases hstep st.1 st.2 h with h | ⟨rfl, rfl⟩
        · exact .inl h
        · exact .inr ⟨List.mem_cons_self, rfl⟩
      · exact .inr ⟨List.mem_cons_of_mem _ h, hk⟩

/-- What the digest loop puts into the buffer. -/
lemma eventBuffer_foldl_rebuildDigest (es : List Event) (computed : Map EpochKey (ℕ × D))
    (s : SharedState D) (hkeys : ∀ e ∈ es, ∀ e' ∈ es, e.originKey = e'.originKey → e = e')
    (hfresh : ∀ e ∈ es, ∀ e', s.eventBuffer e.originKey = some e' → e' = e) :
    let s' := (es.foldl (rebuildDigest hasher) (computed, s)).2
    (∀ k e, s'.eventBuffer k = some e →
      s.eventBuffer k = some e ∨ e ∈ es ∧ e.originKey = k) ∧
    ∀ e, (e ∈ es ∧ s.head e.epochKey < e.originSeq ∨ s.eventBuffer e.originKey = some e) →
      s'.eventBuffer e.originKey = some e := by
  induction es generalizing computed s with
  | nil =>
      refine ⟨fun k e h => .inl h, fun e h => ?_⟩
      rcases h with h | h
      · exact absurd h.1 List.not_mem_nil
      · exact h
  | cons e es ih =>
      have hhead : ∀ key, (rebuildDigest hasher (computed, s) e).2.head key = s.head key := by
        intro key
        rw [rebuildDigest_frame]
        rfl
      have hbuffer : (rebuildDigest hasher (computed, s) e).2.eventBuffer =
          if s.head e.epochKey < e.originSeq then s.eventBuffer.insert e.originKey e
          else s.eventBuffer := by
        unfold rebuildDigest
        dsimp only
        split
        · rfl
        · split <;> rfl
      have hfresh' : ∀ x ∈ es, ∀ x',
          (rebuildDigest hasher (computed, s) e).2.eventBuffer x.originKey = some x' → x' = x := by
        intro x hx x' hx'
        rw [hbuffer] at hx'
        split at hx'
        · rw [Map.insert_apply] at hx'
          split at hx'
          · rename_i hk
            cases hx'
            exact hkeys _ List.mem_cons_self x (List.mem_cons_of_mem _ hx) hk.symm
          · exact hfresh x (List.mem_cons_of_mem _ hx) x' hx'
        · exact hfresh x (List.mem_cons_of_mem _ hx) x' hx'
      obtain ⟨hin, hout⟩ := ih (rebuildDigest hasher (computed, s) e).1
        (rebuildDigest hasher (computed, s) e).2
        (fun x hx y hy => hkeys x (List.mem_cons_of_mem _ hx) y (List.mem_cons_of_mem _ hy)) hfresh'
      dsimp only
      rw [List.foldl_cons]
      refine ⟨fun k x hx => ?_, fun x hx => ?_⟩
      · rcases hin k x hx with h | ⟨h, hk⟩
        · rw [hbuffer] at h
          split at h
          · rw [Map.insert_apply] at h
            split at h
            · rename_i hk
              cases h
              exact .inr ⟨List.mem_cons_self, hk.symm⟩
            · exact .inl h
          · exact .inl h
        · exact .inr ⟨List.mem_cons_of_mem _ h, hk⟩
      · apply hout x
        rw [hhead, hbuffer]
        rcases hx with ⟨hx, hbeyond⟩ | hx
        · rcases List.mem_cons.1 hx with rfl | hx
          · right
            rw [if_pos hbeyond, Map.insert_self]
          · exact .inl ⟨hx, hbeyond⟩
        · right
          split
          · rw [Map.insert_apply]
            split
            · rename_i hk
              rw [hfresh e List.mem_cons_self x (hk ▸ hx)]
            · exact hx
          · exact hx

end SharedState

end Shardd
