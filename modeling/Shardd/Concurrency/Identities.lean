import Shardd.Node.Calls
import Shardd.Node.Startup

/-!
# Identities within one run

Requests of one bucket are serialised by account and not by bucket, so an allocator is shared by
calls that run concurrently.  As long as no call puts an allocator into the map where another call
has put one meanwhile, every identity is handed out once: an allocator that needs a bump has handed
out nothing in this run, the lock of the bump keeps it so, and afterwards it counts up in one epoch.
The race of two first writes to a bucket breaks this.
-/

namespace Shardd

variable {D : Type}

/-- The origin key of an identity. -/
def idKey (env : Env D) (bucket : String) (id : ℕ × ℕ) : OriginKey :=
  (bucket, env.nodeId, id.1, id.2)

/-! ## The invariant -/

/-- Every identity of the run has been handed out once; `hand` are those that have been handed out
and not been used yet. -/
structure Distinct (env : Env D) (hand : List OriginKey) (s : SharedState D) : Prop where
  unused : ∀ b, (∀ a, s.entry b = some a → a.needsBump = true) → ∀ k ∈ s.issued, k.1 ≠ b
  counted : ∀ {b a}, s.entry b = some a → a.needsBump = false → ∀ k ∈ s.issued, k.1 = b →
    ∃ n < a.nextSeq, k = idKey env b (a.currentEpoch, n)
  nodup : s.issued.Nodup
  owned : (s.minted.map Event.originKey ++ hand).Nodup
  issued : ∀ k ∈ s.minted.map Event.originKey ++ hand, k ∈ s.issued

namespace Distinct

variable {env : Env D} {hand : List OriginKey} {s s' : SharedState D} {b : String}
  {a : BucketAllocator}

/-- The invariant speaks of the entries, of what is minted and of what is issued. -/
lemma congr (h : Distinct env hand s) (hentry : ∀ b, s'.entry b = s.entry b)
    (hminted : s'.minted = s.minted) (hissued : s'.issued = s.issued) : Distinct env hand s' where
  unused b hb := by
    rw [hissued]
    exact h.unused b fun a ha => hb a ((hentry b).trans ha)
  counted {b a} ha hbump := by
    rw [hissued]
    exact h.counted ((hentry b).symm.trans ha) hbump
  nodup := hissued ▸ h.nodup
  owned := hminted ▸ h.owned
  issued := by
    rw [hminted, hissued]
    exact h.issued

/-- A new entry, where nothing has been handed out. -/
lemma of_unused (h : Distinct env hand s) (hb : ∀ k ∈ s.issued, k.1 ≠ b)
    (hother : ∀ b', b' ≠ b → s'.entry b' = s.entry b') (hminted : s'.minted = s.minted)
    (hissued : s'.issued = s.issued) : Distinct env hand s' where
  unused b' hb' := by
    rw [hissued]
    by_cases hne : b' = b
    · rw [hne]
      exact hb
    · exact h.unused b' fun a ha => hb' a ((hother b' hne).trans ha)
  counted {b' a} ha hbump := by
    rw [hissued]
    by_cases hne : b' = b
    · subst hne
      exact fun k hk hkb => absurd hkb (hb k hk)
    · exact h.counted ((hother b' hne).symm.trans ha) hbump
  nodup := hissued ▸ h.nodup
  owned := hminted ▸ h.owned
  issued := by
    rw [hminted, hissued]
    exact h.issued

lemma absent (h : Distinct env hand s) (hb : s.entry b = none) : ∀ k ∈ s.issued, k.1 ≠ b := by
  apply h.unused
  intro a ha
  rw [hb] at ha
  cases ha

lemma pending (h : Distinct env hand s) (ha : s.entry b = some a) (hbump : a.needsBump = true) :
    ∀ k ∈ s.issued, k.1 ≠ b := by
  apply h.unused
  intro a' ha'
  rw [ha] at ha'
  rw [← Option.some.inj ha']
  exact hbump

/-- The next identity of a usable entry is new. -/
lemma takeNext (h : Distinct env hand s) (husable : s.Usable b) :
    Distinct env (hand ++ [idKey env b (s.nextId b)]) (s.takeNext b env) := by
  obtain ⟨a, ha, hbump⟩ := husable
  have hnext : s.nextId b = (a.currentEpoch, a.nextSeq) := by simp [SharedState.nextId, ha]
  have hissued : (s.takeNext b env).issued = s.issued ++ [idKey env b (s.nextId b)] := rfl
  have hentry : (s.takeNext b env).entry b = some { a with nextSeq := a.nextSeq + 1 } := by
    rw [SharedState.entry_takeNext, ha]
    rfl
  have hnew : idKey env b (s.nextId b) ∉ s.issued := by
    intro hk
    obtain ⟨n, hn, heq⟩ := h.counted ha hbump _ hk rfl
    rw [hnext] at heq
    simp only [idKey, Prod.mk.injEq, true_and] at heq
    omega
  constructor
  · intro b' hb' k hk
    rw [hissued, List.mem_append, List.mem_singleton] at hk
    by_cases hne : b' = b
    · subst hne
      have := hb' _ hentry
      rw [hbump] at this
      cases this
    · rcases hk with hk | rfl
      · exact h.unused b' (fun a ha => hb' a ((SharedState.entry_takeNext_of_ne env hne).trans ha))
          k hk
      · exact Ne.symm hne
  · intro b' a' ha' hbump' k hk hkb
    rw [hissued, List.mem_append, List.mem_singleton] at hk
    by_cases hne : b' = b
    · subst hne
      rw [hentry] at ha'
      obtain rfl := Option.some.inj ha'
      rcases hk with hk | rfl
      · obtain ⟨n, hn, heq⟩ := h.counted ha hbump k hk hkb
        exact ⟨n, Nat.lt_succ_of_lt hn, heq⟩
      · exact ⟨a.nextSeq, Nat.lt_succ_self _, by rw [hnext]⟩
    · rw [SharedState.entry_takeNext_of_ne env hne] at ha'
      rcases hk with hk | rfl
      · exact h.counted ha' hbump' k hk hkb
      · exact absurd hkb.symm hne
  · rw [hissued, List.nodup_append]
    refine ⟨h.nodup, List.nodup_singleton _, fun x hx y hy hxy => ?_⟩
    rw [List.mem_singleton.1 hy] at hxy
    exact hnew (hxy ▸ hx)
  · change (s.minted.map Event.originKey ++ (hand ++ _)).Nodup
    rw [← List.append_assoc, List.nodup_append]
    refine ⟨h.owned, List.nodup_singleton _, fun x hx y hy hxy => ?_⟩
    rw [List.mem_singleton.1 hy] at hxy
    exact hnew (hxy ▸ h.issued x hx)
  · change ∀ k ∈ s.minted.map Event.originKey ++ (hand ++ _), _
    intro k hk
    rw [← List.append_assoc, List.mem_append] at hk
    rw [hissued]
    exact List.mem_append.2 (hk.imp (h.issued k) id)

/-- Using an identity. -/
lemma built {e : Event} (h : Distinct env (e.originKey :: hand) s) :
    Distinct env hand (s.built e) where
  unused := h.unused
  counted := h.counted
  nodup := h.nodup
  owned := by
    change ((s.minted ++ [e]).map Event.originKey ++ hand).Nodup
    rw [List.map_append, List.append_assoc]
    exact h.owned
  issued := by
    change ∀ k ∈ (s.minted ++ [e]).map Event.originKey ++ hand, k ∈ s.issued
    rw [List.map_append, List.append_assoc]
    exact h.issued

end Distinct

/-! ## The contract -/

/-- Call `k` is inside the critical section of the bump, and has not bumped yet. -/
def Bumping (k : ℕ) (b : String) (s : SharedState D) : Prop :=
  ∃ a, s.entry b = some a ∧ a.bumpLock = some k ∧ a.needsBump = true

/-- What call `i` may do to the allocators. -/
structure KeepsAllocators (i : ℕ) (s s' : SharedState D) : Prop where
  current : ∀ b j, (s.bucketAllocators b).current = some j →
    (s'.bucketAllocators b).current = some j
  bumping : ∀ b k, k ≠ i → Bumping k b s → Bumping k b s'

/-- A call puts an allocator into the map only where there is none. -/
def Unraced : Wait → SharedState D → Prop
  | .response (.loadBucketAllocators b) true, s => (s.bucketAllocators b).current = none
  | _, _ => True

instance (l : Wait) (s : SharedState D) : Decidable (Unraced l s) := by
  unfold Unraced
  split <;> infer_instance

def identityContract (env : Env D) : Contract (SharedState D) Wait where
  inv := Distinct env []
  guar := KeepsAllocators
  absent _ _ := True
  pause _ _ _ := True

namespace KeepsAllocators

variable {i : ℕ} {s s' s'' : SharedState D} {b : String}

lemma of_eq (h : s'.bucketAllocators = s.bucketAllocators) : KeepsAllocators i s s' where
  current b j hj := by rwa [h]
  bumping b k _ hk := by
    rw [Bumping, SharedState.entry, h]
    exact hk

lemma trans (h : KeepsAllocators i s s') (h' : KeepsAllocators i s' s'') :
    KeepsAllocators i s s'' where
  current b j hj := h'.current b j (h.current b j hj)
  bumping b k hk hb := h'.bumping b k hk (h.bumping b k hk hb)

/-- A change to the entry of one bucket, which nobody else is bumping. -/
lemma of_entry (b : String) (hfree : ∀ k, k ≠ i → ¬ Bumping k b s)
    (hcurrent : ∀ j, (s.bucketAllocators b).current = some j →
      (s'.bucketAllocators b).current = some j)
    (hother : ∀ b', b' ≠ b → s'.bucketAllocators b' = s.bucketAllocators b') :
    KeepsAllocators i s s' where
  current b' j hj := by
    by_cases hne : b' = b
    · subst hne
      exact hcurrent j hj
    · rwa [hother b' hne]
  bumping b' k hk hb := by
    by_cases hne : b' = b
    · subst hne
      exact absurd hb (hfree k hk)
    · rw [Bumping, SharedState.entry, hother b' hne]
      exact hb

end KeepsAllocators

/-- The judgement of a request: `ids` are the identities it has in hand. -/
structure IdAt (env : Env D) (i : ℕ) (b : String) (ids : List (ℕ × ℕ)) (s₀ s : SharedState D) :
    Prop where
  inv : Distinct env (ids.map (idKey env b)) s
  guar : KeepsAllocators i s₀ s
  running : s.running = i
  usable : ids ≠ [] → s.Usable b

namespace IdAt

variable {env : Env D} {i : ℕ} {b : String} {ids : List (ℕ × ℕ)} {s₀ s s' : SharedState D}

/-- An act that leaves the allocators alone. -/
lemma congr (h : IdAt env i b ids s₀ s) (halloc : s'.bucketAllocators = s.bucketAllocators)
    (hminted : s'.minted = s.minted) (hissued : s'.issued = s.issued)
    (hrunning : s'.running = s.running) : IdAt env i b ids s₀ s' where
  inv := h.inv.congr (fun b => by rw [SharedState.entry, halloc, SharedState.entry]) hminted hissued
  guar := h.guar.trans (.of_eq halloc)
  running := hrunning.trans h.running
  usable hne := (SharedState.usable_iff_of_bucketAllocators (by rw [halloc])).2 (h.usable hne)

/-- A call with no identity in hand may be suspended, with what others leave alone. -/
lemma rests {ready : Wait → SharedState D → Bool} {l : Wait} {P : SharedState D → Prop}
    (h : IdAt env i b [] s₀ s) (hstable : (identityContract env).Stable i P) (hP : P s) :
    (identityContract env).Rests ready SharedState.resumed Unraced i l
      (fun s₀ s => IdAt env i b [] s₀ s ∧ P s₀ ∧ Unraced l s₀ ∧ ready l s₀ = true ∧
        s = s₀.resumed i) s₀ s := by
  refine ⟨h.inv, h.guar, P, hstable, hP, fun _ _ _ => trivial, fun s' hinv hP hready hl => ?_⟩
  refine ⟨⟨Distinct.congr hinv (fun _ => rfl) rfl rfl, .of_eq rfl, rfl, fun hne => absurd rfl hne⟩,
    hP, hl, hready, rfl⟩

lemma rests_free {ready : Wait → SharedState D → Bool} {l : Wait} (h : IdAt env i b [] s₀ s) :
    (identityContract env).Rests ready SharedState.resumed Unraced i l (IdAt env i b []) s₀ s :=
  (h.rests (.true _ i) trivial).mono fun _ _ hs => hs.1

/-- Putting an allocator into the map where there is none. -/
lemma install (h : IdAt env i b [] s₀ s) (hnone : (s.bucketAllocators b).current = none)
    (a : BucketAllocator) : IdAt env i b [] s₀ (s.installAllocator b a).2 where
  inv := by
    have hentry : s.entry b = none := AllocatorSlot.entry_eq_none_iff.2 hnone
    refine h.inv.of_unused (h.inv.absent hentry) (fun b' hne => ?_) rfl rfl
    exact congrArg AllocatorSlot.entry (SharedState.setSlot_bucketAllocators_of_ne _ hne)
  guar := by
    refine h.guar.trans (.of_entry b (fun k _ hb => ?_) (fun j hj => ?_)
      fun b' hne => SharedState.setSlot_bucketAllocators_of_ne _ hne)
    · obtain ⟨a, ha, -⟩ := hb
      rw [SharedState.entry, AllocatorSlot.entry_eq_none_iff.2 hnone] at ha
      cases ha
    · rw [hnone] at hj
      cases hj
  running := h.running
  usable hne := absurd rfl hne

/-- Changing the entry of a bucket that nobody else is bumping: what has been handed out stays
handed out. -/
lemma modify (h : IdAt env i b [] s₀ s) {j : ℕ} {a : BucketAllocator}
    (hcurrent : (s.bucketAllocators b).current = some j) (ha : s.entry b = some a)
    (hfree : ∀ k, a.bumpLock = some k → k = i) (f : BucketAllocator → BucketAllocator)
    (hf : a.needsBump = true ∨ (f a).needsBump = a.needsBump ∧
      (f a).currentEpoch = a.currentEpoch ∧ (f a).nextSeq = a.nextSeq) :
    IdAt env i b [] s₀ (s.modifyAllocator b j f) ∧
      ((s.modifyAllocator b j f).bucketAllocators b).current = some j ∧
      (s.modifyAllocator b j f).entry b = some (f a) := by
  have hentry : (s.modifyAllocator b j f).entry b = some (f a) := by
    rw [← SharedState.modifyEntry_of_current hcurrent, SharedState.entry_modifyEntry, ha]
    rfl
  have hcurrent' : ((s.modifyAllocator b j f).bucketAllocators b).current = some j := by
    rw [SharedState.modifyAllocator, SharedState.setSlot_bucketAllocators]
    exact hcurrent
  have hother : ∀ b', b' ≠ b →
      (s.modifyAllocator b j f).bucketAllocators b' = s.bucketAllocators b' :=
    fun b' hne => SharedState.setSlot_bucketAllocators_of_ne _ hne
  refine ⟨⟨?_, ?_, h.running, fun hne => absurd rfl hne⟩, hcurrent', hentry⟩
  · rcases hf with hbump | ⟨hbump, hepoch, hseq⟩
    · exact h.inv.of_unused (h.inv.pending ha hbump)
        (fun b' hne => congrArg AllocatorSlot.entry (hother b' hne)) rfl rfl
    · refine
        { h.inv with
          unused := fun b' hb' => h.inv.unused b' fun a' ha' => ?_
          counted := fun {b' a'} ha' hbump' => ?_ }
      · by_cases hne : b' = b
        · subst hne
          rw [ha] at ha'
          obtain rfl := Option.some.inj ha'
          rw [← hbump]
          exact hb' _ hentry
        · exact hb' a' ((congrArg AllocatorSlot.entry (hother b' hne)).trans ha')
      · by_cases hne : b' = b
        · subst hne
          rw [hentry] at ha'
          obtain rfl := Option.some.inj ha'
          rw [hepoch, hseq]
          exact h.inv.counted ha (hbump ▸ hbump')
        · exact h.inv.counted ((congrArg AllocatorSlot.entry (hother b' hne)).symm.trans ha')
            hbump'
  · refine h.guar.trans (.of_entry b (fun k hk hb => ?_) (fun j' hj' => ?_) hother)
    · obtain ⟨a', ha', hlock, -⟩ := hb
      rw [ha] at ha'
      obtain rfl := Option.some.inj ha'
      exact hk (hfree k hlock)
    · rw [hcurrent'] 
      rw [hcurrent] at hj'
      exact hj'

end IdAt

/-! ## Allocation -/

section Allocate

variable {env : Env D} {i j : ℕ} {b : String} {s₀ s : SharedState D}

/-- The entry of a bucket stays the same one. -/
lemma current_stable (env : Env D) (i : ℕ) (b : String) (j : ℕ) :
    (identityContract env).Stable i fun s => (s.bucketAllocators b).current = some j :=
  fun _ _ _ _ hs hguar => KeepsAllocators.current hguar b j hs

lemma bumping_stable (env : Env D) (i : ℕ) (b : String) :
    (identityContract env).Stable i (Bumping i b) :=
  fun _ _ _ hk hs hguar => KeepsAllocators.bumping hguar b i hk.symm hs

/-- A storage call leaves everything but the storage alone. -/
lemma wp_storageCall {α : Type} {op : StorageOp} {f : Storage D → α × Storage D}
    {P : SharedState D → Prop} (hs : IdAt env i b [] s₀ s)
    (hstable : (identityContract env).Stable i P)
    (hkeep : ∀ s st calls, P s → P (s.setStorage st calls)) (hresumed : ∀ s, P s → P (s.resumed i))
    (hP : P s) :
    (storageCall env op f).run.wp Wait.ready SharedState.resumed (identityContract env) Unraced i
      (fun r s₀ s => IdAt env i b [] s₀ s ∧ P s ∧
        ∃ s', Unraced (.response op r.isOk) s' ∧ s = s'.resumed i) s₀ s := by
  unfold storageCall
  apply Proc.wp_bind
  apply Proc.wp_suspend
  refine (hs.rests hstable hP).mono fun s₀ s hs => ?_
  obtain ⟨hs, hP, -, -, rfl⟩ := hs
  apply Proc.wp_bind
  rw [Proc.wp_readUpdate]
  have hcalled : IdAt env i b [] s₀ ((s₀.resumed i).callStorage env f).2 ∧
      P ((s₀.resumed i).callStorage env f).2 := by
    unfold SharedState.callStorage
    split
    all_goals exact ⟨hs.congr rfl rfl rfl rfl, hkeep _ _ _ (hresumed _ hP)⟩
  apply Proc.wp_bind
  apply Proc.wp_suspend
  refine (hcalled.1.rests hstable hcalled.2).mono fun s₁ s hs => ?_
  obtain ⟨hs, hP, hl, -, rfl⟩ := hs
  exact ⟨hs, hresumed _ hP, s₁, hl, rfl⟩

/-- The look-up. -/
lemma wp_lookupAllocator (hs : IdAt env i b [] s₀ s) :
    (lookupAllocator env b).run.wp Wait.ready SharedState.resumed (identityContract env) Unraced i
      (fun r s₀ s => IdAt env i b [] s₀ s ∧
        ∀ j, r = .ok j → (s.bucketAllocators b).current = some j) s₀ s := by
  unfold lookupAllocator
  apply Proc.wp_run_bind
  apply Proc.wp_run_lift
  rw [Proc.wp_read]
  rcases hcurrent : (s.bucketAllocators b).current with _ | j
  · apply Proc.wp_run_bind
    refine Proc.wp_mono (fun r s₀ s hr => ?_) (wp_storageCall (P := fun _ => True) hs (.true _ i)
      (fun _ _ _ _ => trivial) (fun _ _ => trivial) trivial)
    cases r with
    | error e =>
        refine ⟨hr.1, ?_⟩
        rintro j ⟨⟩
    | ok epoch =>
        apply Proc.wp_run_bind
        refine Proc.wp_mono (fun r s₀ s hr => ?_) (wp_storageCall (P := fun _ => True) hr.1
          (.true _ i) (fun _ _ _ _ => trivial) (fun _ _ => trivial) trivial)
        obtain ⟨hs, -, s', hunraced, rfl⟩ := hr
        cases r with
        | error e =>
            refine ⟨hs, ?_⟩
            rintro j ⟨⟩
        | ok rows =>
            have hnone : (s'.bucketAllocators b).current = none := hunraced
            apply Proc.wp_run_lift
            rw [Proc.wp_readUpdate]
            refine ⟨hs.install hnone _, ?_⟩
            rintro j ⟨⟩
            exact congrArg AllocatorSlot.current (SharedState.setSlot_bucketAllocators _)
  · refine ⟨hs, ?_⟩
    rintro k ⟨⟩
    exact hcurrent

/-- A bucket with a current allocator has an entry. -/
lemma exists_entry (h : (s.bucketAllocators b).current = some j) : ∃ a, s.entry b = some a := by
  refine Option.ne_none_iff_exists'.1 fun hnone => ?_
  rw [AllocatorSlot.entry_eq_none_iff.1 hnone] at h
  cases h

/-- Inside the critical section of the bump: call `i` has the lock. -/
def Inside (i : ℕ) (b : String) (j : ℕ) (bumped : Bool) (s : SharedState D) : Prop :=
  (s.bucketAllocators b).current = some j ∧
    ∃ a, s.entry b = some a ∧ a.bumpLock = some i ∧ (bumped = true → a.needsBump = false)

/-- The section: the check is made again, and the epoch bumped if it is still to be. -/
lemma wp_bumpSection (hs : IdAt env i b [] s₀ s) (hin : Inside i b j false s) :
    ((do
        if ← (Proc.read fun s => (s.allocator b j).needsBump : NodeM D Bool) then
          let newEpoch ← bumpBucketEpoch env b
          (Proc.update fun s => s.modifyAllocator b j fun a =>
            { a with currentEpoch := newEpoch, nextSeq := 1, needsBump := false } : NodeM D Unit) :
      ExceptT StorageError (NodeM D) Unit).run).wp Wait.ready SharedState.resumed
        (identityContract env) Unraced i
      (fun r s₀ s => IdAt env i b [] s₀ s ∧ Inside i b j r.isOk s) s₀ s := by
  obtain ⟨hcurrent, a, ha, hlock, -⟩ := hin
  apply Proc.wp_run_bind
  apply Proc.wp_run_lift
  rw [Proc.wp_read]
  dsimp only
  rw [SharedState.allocator_of_current hcurrent ha]
  split
  · rename_i hbump
    -- nobody else bumps the entry while this call has the lock
    have hstable : (identityContract env).Stable i fun s =>
        (s.bucketAllocators b).current = some j ∧ Bumping i b s :=
      (current_stable env i b j).and (bumping_stable env i b)
    apply Proc.wp_run_bind
    refine Proc.wp_mono (fun r s₀ s hr => ?_) (wp_storageCall hs hstable
      (fun _ _ _ h => h) (fun _ h => h) ⟨hcurrent, a, ha, hlock, hbump⟩)
    obtain ⟨hs, ⟨hcurrent, a, ha, hlock, hbump⟩, -⟩ := hr
    cases r with
    | error e => exact ⟨hs, hcurrent, a, ha, hlock, fun h => by cases h⟩
    | ok newEpoch =>
        apply Proc.wp_run_lift
        rw [Proc.wp_update]
        obtain ⟨hs, hcurrent, ha⟩ := hs.modify hcurrent ha
          (fun k hk => Option.some.inj (hk.symm.trans hlock))
          (fun a => { a with currentEpoch := newEpoch, nextSeq := 1, needsBump := false })
          (.inl hbump)
        exact ⟨hs, hcurrent, _, ha, hlock, fun _ => rfl⟩
  · rename_i hbump
    exact ⟨hs, hcurrent, a, ha, hlock, fun _ => by simpa using hbump⟩

/-- The lazy bump. -/
lemma wp_lazyBump (hs : IdAt env i b [] s₀ s) (hcurrent : (s.bucketAllocators b).current = some j) :
    (lazyBump env b j).run.wp Wait.ready SharedState.resumed (identityContract env) Unraced i
      (fun r s₀ s => IdAt env i b [] s₀ s ∧
        (r = .ok () → (s.bucketAllocators b).current = some j ∧ s.Usable b)) s₀ s := by
  unfold lazyBump
  apply Proc.wp_run_bind
  apply Proc.wp_run_lift
  rw [Proc.wp_read]
  obtain ⟨a, ha⟩ := exists_entry hcurrent
  dsimp only
  rw [SharedState.allocator_of_current hcurrent ha]
  split
  · unfold withBumpLock
    rw [ExceptT.run_mk]
    apply Proc.wp_bind
    apply Proc.wp_suspend
    refine (hs.rests (current_stable env i b j) hcurrent).mono fun s₀ s hs => ?_
    obtain ⟨hs, hcurrent, -, hready, rfl⟩ := hs
    obtain ⟨a, ha⟩ := exists_entry hcurrent
    have hlock : a.bumpLock = none := by
      rw [SharedState.ready_bumpLock hcurrent ha] at hready
      exact Option.isNone_iff_eq_none.1 hready
    have hfree : ∀ k, a.bumpLock = some k → k = i := by
      intro k hk
      rw [hlock] at hk
      cases hk
    obtain ⟨hs, hcurrent, ha⟩ := hs.modify hcurrent ha hfree
      (fun a => { a with bumpLock := some (s₀.resumed i).running }) (.inr ⟨rfl, rfl, rfl⟩)
    apply Proc.wp_bind
    rw [Proc.wp_update]
    apply Proc.wp_bind
    refine Proc.wp_mono (fun r s₀ s hr => ?_)
      (wp_bumpSection hs ⟨hcurrent, _, ha, rfl, fun h => by cases h⟩)
    obtain ⟨hs, hcurrent, a, ha, hlock, hbumped⟩ := hr
    obtain ⟨hs, hcurrent, ha⟩ := hs.modify hcurrent ha
      (fun k hk => Option.some.inj (hk.symm.trans hlock)) (fun a => { a with bumpLock := none })
      (.inr ⟨rfl, rfl, rfl⟩)
    apply Proc.wp_bind
    rw [Proc.wp_update]
    refine ⟨hs, ?_⟩
    rintro rfl
    exact ⟨hcurrent, _, ha, hbumped rfl⟩
  · rename_i hbump
    exact ⟨hs, fun _ => ⟨hcurrent, a, ha, by simpa using hbump⟩⟩

/-- Taking an identity from a usable entry. -/
lemma wp_takeSeq {ids : List (ℕ × ℕ)} (hs : IdAt env i b ids s₀ s)
    (hcurrent : (s.bucketAllocators b).current = some j) (husable : s.Usable b) :
    (takeSeq env b j).wp Wait.ready SharedState.resumed (identityContract env) Unraced i
      (fun id => IdAt env i b (ids ++ [id])) s₀ s := by
  obtain ⟨a, ha, hbump⟩ := husable
  suffices htaken : IdAt env i b (ids ++ [s.nextId b]) s₀ (s.takeNext b env) by
    have htake := Prod.mk.inj (exec_takeSeq env hcurrent ha)
    rw [← Option.some.inj htake.1, ← htake.2] at htaken
    exact htaken
  constructor
  · rw [List.map_append]
    exact hs.inv.takeNext ⟨a, ha, hbump⟩
  · refine hs.guar.trans (.of_entry b (fun k _ hb => ?_) (fun j' hj' => ?_) fun b' hne => ?_)
    · obtain ⟨a', ha', -, hbump'⟩ := hb
      rw [ha] at ha'
      obtain rfl := Option.some.inj ha'
      rw [hbump] at hbump'
      cases hbump'
    · change (((s.modifyEntry b _).bucketAllocators b).current) = some j'
      rw [SharedState.modifyEntry, SharedState.setSlot_bucketAllocators,
        AllocatorSlot.current_modifyEntry]
      exact hj'
    · exact SharedState.setSlot_bucketAllocators_of_ne _ hne
  · exact hs.running
  · exact fun _ => SharedState.Usable.takeNext env ⟨a, ha, hbump⟩

/-- An allocation hands out one more identity. -/
theorem wp_allocateId {ids : List (ℕ × ℕ)} (hs : IdAt env i b ids s₀ s) :
    (allocate env b).run.wp Wait.ready SharedState.resumed (identityContract env) Unraced i
      (fun r => match r with
        | .ok id => IdAt env i b (ids ++ [id])
        | .error _ => IdAt env i b []) s₀ s := by
  unfold allocate
  apply Proc.wp_run_bind
  by_cases hids : ids = []
  · subst hids
    refine Proc.wp_mono (fun r s₀ s hr => ?_) (wp_lookupAllocator hs)
    obtain ⟨hs, hcurrent⟩ := hr
    cases r with
    | error e => exact hs
    | ok j =>
        apply Proc.wp_run_bind
        refine Proc.wp_mono (fun r s₀ s hr => ?_) (wp_lazyBump hs (hcurrent j rfl))
        obtain ⟨hs, husable⟩ := hr
        cases r with
        | error e => exact hs
        | ok _ =>
            obtain ⟨hcurrent, husable⟩ := husable rfl
            exact Proc.wp_run_lift (wp_takeSeq hs hcurrent husable)
  · -- with an identity in hand the entry is usable, and nothing is waited for
    obtain ⟨a, ha, hbump⟩ := hs.usable hids
    obtain ⟨j, hcurrent, -⟩ := AllocatorSlot.entry_eq_some_iff.1 ha
    unfold lookupAllocator
    apply Proc.wp_run_bind
    apply Proc.wp_run_lift
    rw [Proc.wp_read]
    dsimp only
    rw [hcurrent]
    apply Proc.wp_run_bind
    unfold lazyBump
    apply Proc.wp_run_bind
    apply Proc.wp_run_lift
    rw [Proc.wp_read]
    dsimp only
    rw [SharedState.allocator_of_current hcurrent ha, hbump]
    exact Proc.wp_run_lift (wp_takeSeq hs hcurrent ⟨a, ha, hbump⟩)

end Allocate

/-! ## Requests -/

/-- **Every step of a request keeps the identities distinct.** -/
theorem identityRules (env : Env D) (i : ℕ) (input : LocalCreateInput) :
    CreateRules Wait.ready SharedState.resumed (identityContract env) Unraced i (Lens.whole _) id
      env input fun ids _ => IdAt env i input.bucket ids where
  rest _ hs := hs.rests_free
  noted hs hnoted := hs.congr hnoted.bucketAllocators hnoted.minted hnoted.issued hnoted.running
  refuse _ hs := hs
  lock {s₀ s} hs := by
    have hensured : IdAt env i input.bucket [] s₀ (s.ensureAccount input.balanceKey) :=
      hs.congr rfl rfl rfl rfl
    exact hensured.rests_free.mono fun s₀ s hs => hs.congr rfl rfl rfl rfl
  hit hs _ := hs
  miss hs _ := hs
  ask hs := hs
  reload hs _ := hs.congr rfl rfl rfl rfl
  unknown hs _ := hs
  unanswered hs := hs
  allocate hs := by
    rw [Proc.zoom_whole]
    exact wp_allocateId hs
  mint {id credit es s₀ s checkedAt mode} now d hs _ hd _ _ _ := by
    let e := d.event (env.freshId s.idsDrawn) env.nodeId id now
    have hkey : e.originKey = idKey env input.bucket id := by
      change (d.key.1, _) = (input.bucket, _)
      rw [hd.bucket]
      rfl
    have hbuilt : IdAt env i input.bucket [] s₀ (s.built e) := by
      refine ⟨Distinct.built ?_, hs.guar.trans (.of_eq rfl), hs.running,
        fun hne => absurd rfl hne⟩
      rw [hkey]
      exact hs.inv
    exact hbuilt.congr rfl rfl rfl rfl
  settle {id id' s₀ s checkedAt reservationId} now hs _ := by
    let charge := input.captureDraft.event (env.freshId s.idsDrawn) env.nodeId id now
    let release := (input.settleReleaseDraft reservationId).event
      (env.freshId (s.idsDrawn + 1)) env.nodeId id' now
    have hbuilt : IdAt env i input.bucket [] s₀ ((s.built charge).built release) :=
      ⟨Distinct.built (Distinct.built hs.inv), hs.guar.trans (.of_eq rfl), hs.running,
        fun hne => absurd rfl hne⟩
    exact hbuilt.congr rfl rfl rfl rfl
  lockCredit {es s₀ s toAddr} hs _ := by
    have hensured : IdAt env i input.bucket [] s₀ (s.ensureAccount (input.bucket, toAddr)) :=
      hs.congr rfl rfl rfl rfl
    exact hensured.rests_free.mono fun s₀ s hs => hs.congr rfl rfl rfl rfl
  unlockCredit hs := hs.congr rfl rfl rfl rfl
  unlock hs _ := hs.congr rfl rfl rfl rfl

lemma identity_startsKept (env : Env D) :
    Pool.StartsKept (nodeScheduler env NodeCall.Local) (identityContract env) Unraced
      fun _ _ _ => True where
  absent i := .true _ i
  stable _ _ := .true _ _
  pause _ _ _ _ _ _ _ := trivial
  start := by
    rintro l t ⟨-, c, hc, rfl⟩ i s hinv - - -
    have hidle : ∀ b, IdAt env i b [] s (s.resumed i) := fun b =>
      ⟨Distinct.congr hinv (fun _ => rfl) rfl rfl, .of_eq rfl, rfl, fun hne => absurd rfl hne⟩
    cases c with
    | insert _ => exact absurd hc id
    | delete _ _ => exact absurd hc id
    | scan _ _ => exact absurd hc id
    | create input =>
        refine Proc.wp_mono (fun a s₀ s ha => ?_)
          (wp_create (identityRules env i input) (hidle input.bucket))
        obtain ⟨r, -, hs⟩ := ha
        exact ⟨hs.inv, hs.guar, trivial⟩
    | writeBatch first size =>
        refine Proc.wp_mono (fun a s₀ s ha => ?_) (wp_writeBatch (J := IdAt env i metaBucket [])
          (Proc.wp_of_only (fun _ _ _ hs hw => hs.congr hw.bucketAllocators hw.minted hw.issued
            hw.running) (fun _ _ _ _ hs => hs.rests_free) (only_doFlush env _) (hidle _)))
        exact ⟨ha.2.inv, ha.2.guar, trivial⟩
    | sweep =>
        exact ⟨Distinct.congr hinv (fun _ => rfl) rfl rfl, .of_eq rfl, trivial⟩

/-! ## Uniqueness -/

/-- **Identities are unique within one run**, as long as no two calls load the allocator of one
bucket at the same time. -/
theorem identities_nodup {env : Env D} {start : SharedState D}
    {p : Pool (SharedState D) Wait NodeAnswer} (hminted : start.minted = [])
    (hissued : start.issued = [])
    (h : Pool.Reach (nodeScheduler env NodeCall.Local) Unraced start p) :
    (p.shared.minted.map Event.originKey).Nodup := by
  have hstart : Distinct env [] start := by
    refine ⟨fun b _ k hk => ?_, fun {b a} _ _ k hk => ?_, ?_, ?_, fun k hk => ?_⟩
    · rw [hissued] at hk
      cases hk
    · rw [hissued] at hk
      cases hk
    · rw [hissued]
      exact List.nodup_nil
    · rw [hminted]
      exact List.nodup_nil
    · rw [hminted] at hk
      cases hk
  have hsound := Pool.sound_of_reach (identity_startsKept env) hstart (fun _ => trivial) h
  have howned := (show Distinct env [] p.shared from hsound.inv).owned
  rwa [List.append_nil] at howned

/-- Two first deposits of a node, on different accounts of one bucket. -/
private def firstDeposits : List NodeCall :=
  [.create (.legacy "bucket" "alice" 10 none 0 "n1" false),
    .create (.legacy "bucket" "bob" 10 none 0 "n2" false)]

/-- One after the other they get two identities. -/
theorem identities_nodup_deposits :
    let p := playCalls (Env.plain "node" 1000) NodeCall.Local Unraced (.blank .empty) firstDeposits
      ([0, 1].flatMap fun i => List.replicate 12 i)
    (p.shared.minted.map Event.originKey).length = 2 ∧
      (p.shared.minted.map Event.originKey).Nodup := by
  intro p
  have hlength : (p.shared.minted.map Event.originKey).length = 2 := by decide +kernel
  have hreach : Pool.Reach (nodeScheduler (Env.plain "node" 1000) NodeCall.Local) Unraced
      (.blank .empty) p := by
    apply reach_playCalls
    rintro c (- | ⟨- , - | ⟨-, ⟨⟩⟩⟩) <;> trivial
  exact ⟨hlength, identities_nodup rfl rfl hreach⟩

/-- Side by side, both find no allocator, and both put one into the map that begins at seq 1. -/
theorem identities_raced :
    let p := playCalls (Env.plain "node" 1000) NodeCall.Local (fun _ _ => True) (.blank .empty)
      firstDeposits ((List.range 8).flatMap fun _ => [0, 1])
    NodeReach (Env.plain "node" 1000) NodeCall.Local (.blank .empty) p ∧
      p.shared.minted.map Event.originKey = [("bucket", "node", 1, 1), ("bucket", "node", 1, 1)] ∧
      ¬ (p.shared.minted.map Event.originKey).Nodup := by
  intro p
  have hkeys : p.shared.minted.map Event.originKey =
      [("bucket", "node", 1, 1), ("bucket", "node", 1, 1)] := by decide +kernel
  refine ⟨reach_playCalls ?_, hkeys, ?_⟩
  · rintro c (- | ⟨- , - | ⟨-, ⟨⟩⟩⟩) <;> trivial
  · rw [hkeys]
    decide

end Shardd
