import Shardd.Node.Exec

/-!
# What an allocation does

`Prepared` lists what `allocate` can do before it takes a sequence number: find a usable entry,
bump the epoch of an entry that came from an earlier run, build the entry of a bucket that has
none, or fail at a storage call.  `exec_allocate` says that these are all the cases, and the rest
of the development argues by them.

An entry that is in the map and needs no bump is `Usable`: from then on an allocation does not
touch the storage and cannot fail.
-/

namespace Shardd

/-! ## Slots -/

namespace AllocatorSlot

variable {slot : AllocatorSlot} {f g : BucketAllocator → BucketAllocator} {a : BucketAllocator}

/-- Change the allocator the map holds. -/
def modifyEntry (slot : AllocatorSlot) (f : BucketAllocator → BucketAllocator) : AllocatorSlot :=
  match slot.current with
  | some i => slot.modify i f
  | none => slot

lemma entry_eq_none_iff : slot.entry = none ↔ slot.current = none := by
  rcases hc : slot.current with _ | i
  · simp [entry, hc]
  · have hlt := slot.current_lt i hc
    simp [entry, hc, hlt]

lemma entry_eq_some_iff :
    slot.entry = some a ↔ ∃ i, slot.current = some i ∧ slot.objects[i]? = some a := by
  simp [entry, Option.bind_eq_some_iff]

lemma entry_of_current {i : ℕ} (h : slot.current = some i) : slot.entry = slot.objects[i]? := by
  simp [entry, h]

lemma modifyEntry_of_current {i : ℕ} (h : slot.current = some i) :
    slot.modifyEntry f = slot.modify i f := by
  simp [modifyEntry, h]

@[simp] lemma current_modify (i : ℕ) : (slot.modify i f).current = slot.current := rfl

@[simp] lemma current_modifyEntry : (slot.modifyEntry f).current = slot.current := by
  unfold modifyEntry
  split <;> rfl

@[simp] lemma entry_modifyEntry : (slot.modifyEntry f).entry = slot.entry.map f := by
  rcases hc : slot.current with _ | i
  · simp [modifyEntry, entry, hc]
  · simp [modifyEntry, entry, hc, modify]

@[simp] lemma entry_install : (slot.install a).entry = some a := by
  simp [entry, install]

@[simp] lemma entry_forget : slot.forget.entry = none := rfl

@[simp] lemma entry_single : (single a).entry = some a := rfl

@[simp] lemma entry_empty : empty.entry = none := rfl

@[ext] lemma ext {slot slot' : AllocatorSlot} (hobjects : slot.objects = slot'.objects)
    (hcurrent : slot.current = slot'.current) : slot = slot' := by
  cases slot
  cases slot'
  simp only at hobjects hcurrent
  subst hobjects hcurrent
  rfl

lemma modify_modify (i : ℕ) : (slot.modify i f).modify i g = slot.modify i (g ∘ f) := by
  refine ext ?_ rfl
  simp [modify, List.modify_modify_eq]

lemma modify_congr {i : ℕ} (ha : slot.objects[i]? = some a) (hfg : f a = g a) :
    slot.modify i f = slot.modify i g := by
  refine ext (List.ext_getElem? fun j => ?_) rfl
  simp only [modify, List.getElem?_modify]
  by_cases hij : i = j
  · subst hij
    simp [ha, hfg]
  · simp [hij]

@[simp] lemma modify_id (i : ℕ) : slot.modify i id = slot := by
  refine ext ?_ rfl
  simp [modify]

end AllocatorSlot

/-! ## Entries -/

variable {D : Type}

namespace SharedState

variable (s : SharedState D) (bucket : String)

def entry : Option BucketAllocator := (s.bucketAllocators bucket).entry

def modifyEntry (f : BucketAllocator → BucketAllocator) : SharedState D :=
  s.setSlot bucket ((s.bucketAllocators bucket).modifyEntry f)

/-- The `(epoch, seq)` that the entry of a bucket hands out next. -/
def nextId : ℕ × ℕ := ((s.entry bucket).map fun a => (a.currentEpoch, a.nextSeq)).getD (0, 0)

/-- The state after the entry of a bucket has handed out its next identity. -/
def takeNext (env : Env D) : SharedState D :=
  { s.modifyEntry bucket (fun a => { a with nextSeq := a.nextSeq + 1 }) with
    issued := s.issued ++ [(bucket, env.nodeId, (s.nextId bucket).1, (s.nextId bucket).2)] }

/-- The bucket has an entry that needs no bump. -/
def Usable : Prop := ∃ a, s.entry bucket = some a ∧ a.needsBump = false

variable {s bucket} {bucket' : String} {f : BucketAllocator → BucketAllocator}
  {a : BucketAllocator} {slot : AllocatorSlot}

@[simp] lemma setSlot_bucketAllocators (slot : AllocatorSlot) :
    (s.setSlot bucket slot).bucketAllocators bucket = slot := by
  simp [setSlot]

lemma setSlot_bucketAllocators_of_ne (slot : AllocatorSlot) (h : bucket' ≠ bucket) :
    (s.setSlot bucket slot).bucketAllocators bucket' = s.bucketAllocators bucket' := by
  simp [setSlot, h]

lemma setSlot_self (h : s.bucketAllocators bucket = slot) : s.setSlot bucket slot = s := by
  subst h
  simp [setSlot]

lemma setSlot_setSlot (slot slot' : AllocatorSlot) :
    (s.setSlot bucket slot).setSlot bucket slot' = s.setSlot bucket slot' := by
  simp [setSlot]

@[simp] lemma entry_modifyEntry :
    (s.modifyEntry bucket f).entry bucket = (s.entry bucket).map f := by
  simp [entry, modifyEntry]

lemma entry_modifyEntry_of_ne (h : bucket' ≠ bucket) :
    (s.modifyEntry bucket f).entry bucket' = s.entry bucket' := by
  simp [entry, modifyEntry, setSlot_bucketAllocators_of_ne _ h]

lemma entry_takeNext (env : Env D) :
    (s.takeNext bucket env).entry bucket =
      (s.entry bucket).map fun a => { a with nextSeq := a.nextSeq + 1 } :=
  entry_modifyEntry

lemma entry_takeNext_of_ne (env : Env D) (h : bucket' ≠ bucket) :
    (s.takeNext bucket env).entry bucket' = s.entry bucket' :=
  entry_modifyEntry_of_ne h

lemma Usable.takeNext (env : Env D) (h : s.Usable bucket) :
    (s.takeNext bucket env).Usable bucket := by
  obtain ⟨a, ha, hbump⟩ := h
  exact ⟨{ a with nextSeq := a.nextSeq + 1 }, by simp [entry_takeNext, ha], hbump⟩

section Current

variable {i : ℕ} (hi : (s.bucketAllocators bucket).current = some i)

include hi

lemma modifyEntry_of_current : s.modifyEntry bucket f = s.modifyAllocator bucket i f := by
  rw [modifyEntry, AllocatorSlot.modifyEntry_of_current hi]
  rfl

variable (ha : s.entry bucket = some a)

include ha

lemma getElem?_objects_of_current : (s.bucketAllocators bucket).objects[i]? = some a := by
  rwa [entry, AllocatorSlot.entry_of_current hi] at ha

lemma allocator_of_current : s.allocator bucket i = a := by
  simp [allocator, getElem?_objects_of_current hi ha]

lemma allocator_modifyAllocator : (s.modifyAllocator bucket i f).allocator bucket i = f a := by
  have hobj := getElem?_objects_of_current hi ha
  simp [allocator, modifyAllocator, AllocatorSlot.modify, hobj]

lemma modifyAllocator_congr {g : BucketAllocator → BucketAllocator} (hfg : f a = g a) :
    s.modifyAllocator bucket i f = s.modifyAllocator bucket i g := by
  simp only [modifyAllocator,
    AllocatorSlot.modify_congr (getElem?_objects_of_current hi ha) hfg]

lemma modifyAllocator_eq_self (hf : f a = a) : s.modifyAllocator bucket i f = s := by
  rw [modifyAllocator_congr hi ha (g := id) hf, modifyAllocator, AllocatorSlot.modify_id]
  exact setSlot_self rfl

lemma ready_bumpLock : Wait.ready (.bumpLock bucket i) s = a.bumpLock.isNone := by
  simp [Wait.ready, getElem?_objects_of_current hi ha]

end Current

lemma modifyAllocator_modifyAllocator (i : ℕ) (f g : BucketAllocator → BucketAllocator) :
    (s.modifyAllocator bucket i f).modifyAllocator bucket i g =
      s.modifyAllocator bucket i (g ∘ f) := by
  simp only [modifyAllocator, setSlot_setSlot, setSlot_bucketAllocators,
    AllocatorSlot.modify_modify]

lemma setStorage_modifyAllocator (st : Storage D) (n i : ℕ)
    (f : BucketAllocator → BucketAllocator) :
    (s.modifyAllocator bucket i f).setStorage st n =
      (s.setStorage st n).modifyAllocator bucket i f := rfl

/-- The entry of a bucket, if there is one, has to be bumped before it is used. -/
def Unused (s : SharedState D) (bucket : String) : Prop :=
  ∀ a, s.entry bucket = some a → a.needsBump = true

/-- The row of a bucket after a bump. -/
def bumped (s : SharedState D) (bucket : String) (env : Env D) : BucketAllocatorRow :=
  Storage.bumpedRow (s.storage.bucketAllocators (bucket, env.nodeId))

def bumpedStorage (s : SharedState D) (bucket : String) (env : Env D) : Storage D :=
  (s.storage.bumpBucketEpoch bucket env.nodeId).2

end SharedState

/-! ## The cases -/

variable (env : Env D) (bucket : String)

/-- The state decides whether an allocation succeeds: from a usable entry it does, and otherwise it
does when the storage calls it makes succeed and the critical section of the bump is free. -/
def SharedState.CanAllocate (s : SharedState D) : Prop :=
  match s.entry bucket with
  | some a =>
      a.needsBump = false ∨ (a.bumpLock = none ∧ env.storageOutcome s.storageCalls = .ok)
  | none =>
      env.storageOutcome s.storageCalls = .ok ∧ env.storageOutcome (s.storageCalls + 1) = .ok

/-- What `allocate` can do up to the point where it takes a sequence number. -/
inductive Prepared (s : SharedState D) :
    Option (Except StorageError Unit) → SharedState D → Prop
  /-- The entry is usable. -/
  | hit : s.Usable bucket → Prepared s (some (.ok ())) s
  /-- The entry comes from an earlier run, and its epoch is bumped. -/
  | bumped {a : BucketAllocator} :
      s.entry bucket = some a → a.needsBump = true → s.CanAllocate env bucket →
      Prepared s (some (.ok ()))
        ((s.setStorage (s.bumpedStorage bucket env) (s.storageCalls + 1)).modifyEntry bucket
          fun a => { a with
            currentEpoch := (s.bumped bucket env).currentEpoch
            nextSeq := 1
            needsBump := false })
  /-- There is no entry, and one is built from the bumped row. -/
  | installed :
      s.entry bucket = none → s.CanAllocate env bucket →
      Prepared s (some (.ok ()))
        ((s.setStorage (s.bumpedStorage bucket env) (s.storageCalls + 2)).installAllocator bucket
          (.new (s.bumped bucket env).currentEpoch (s.bumped bucket env).nextSeq false)).2
  /-- A storage call fails; the row may have been bumped all the same. -/
  | failed {st : Storage D} {n : ℕ} :
      ¬ s.CanAllocate env bucket → st = s.storage ∨ st = s.bumpedStorage bucket env →
      Prepared s (some (.error .failed)) (s.setStorage st n)
  /-- Somebody else is bumping the entry. -/
  | blocked {a : BucketAllocator} :
      ¬ s.CanAllocate env bucket → s.entry bucket = some a → a.bumpLock ≠ none →
      Prepared s none s

section Programs

variable {env bucket} {s : SharedState D} {i : ℕ} {a : BucketAllocator}

lemma exec_lookupAllocator_of_current (h : (s.bucketAllocators bucket).current = some i) :
    NodeM.exec (lookupAllocator env bucket).run s = (some (.ok i), s) := by
  simp only [lookupAllocator, NodeM.exec, Proc.exec_run_bind, Proc.exec_run_lift, Proc.exec_read,
    Option.map_some, Proc.andThenOk_ok, h, Proc.exec_run_pure]

variable (env) in
lemma exec_lookupAllocator_of_absent (h : (s.bucketAllocators bucket).current = none) :
    (¬ s.CanAllocate env bucket ∧ ∃ st calls, (st = s.storage ∨ st = s.bumpedStorage bucket env) ∧
      NodeM.exec (lookupAllocator env bucket).run s =
        (some (.error .failed), s.setStorage st calls)) ∨
    s.CanAllocate env bucket ∧ NodeM.exec (lookupAllocator env bucket).run s =
      (some (.ok (s.bucketAllocators bucket).objects.length),
        ((s.setStorage (s.bumpedStorage bucket env) (s.storageCalls + 2)).installAllocator bucket
          (.new (s.bumped bucket env).currentEpoch (s.bumped bucket env).nextSeq false)).2) := by
  have hbump := exec_storageCall env (.bumpBucketEpoch bucket)
    (fun st => st.bumpBucketEpoch bucket env.nodeId) s
  have hload := fun s : SharedState D => exec_storageCall env (.loadBucketAllocators bucket)
    (fun st => (st.loadBucketAllocators env.nodeId, st)) s
  have habsent : s.entry bucket = none := AllocatorSlot.entry_eq_none_iff.2 h
  simp only [NodeM.exec] at hbump hload
  simp only [lookupAllocator, NodeM.exec, Proc.exec_run_bind, Proc.exec_run_lift, Proc.exec_read,
    Option.map_some, Proc.andThenOk_ok, h, bumpBucketEpoch, loadBucketAllocators, hbump]
  simp only [SharedState.CanAllocate, habsent]
  rcases s.callStorage_cases env (fun st => st.bumpBucketEpoch bucket env.nodeId) with
    ⟨ho₁, h₁⟩ | ⟨ho₁, st, hst, h₁⟩
  · simp only [h₁, Proc.andThenOk_ok, Proc.exec_run_bind, hload]
    rcases SharedState.callStorage_cases env (s.setStorage (s.bumpedStorage bucket env)
      (s.storageCalls + 1)) (fun st => (st.loadBucketAllocators env.nodeId, st)) with
      ⟨ho₂, h₂⟩ | ⟨ho₂, st, hst, h₂⟩
    · refine .inr ⟨⟨ho₁, ho₂⟩, ?_⟩
      simp only [SharedState.bumpedStorage] at h₂
      simp only [h₂, Proc.andThenOk_ok, Proc.exec_run_lift, Proc.exec_readUpdate, Option.map_some]
      simp only [Storage.bumpBucketEpoch, Storage.loadBucketAllocators,
        SharedState.setStorage_storage, Map.insert_self, Storage.bumpedRow_needsBump]
      rfl
    · have hst' : st = s.bumpedStorage bucket env := by simpa using hst
      refine .inl ⟨fun h => ho₂ h.2, st, s.storageCalls + 2, .inr hst', ?_⟩
      simp only [SharedState.bumpedStorage] at h₂
      simp only [h₂, Proc.andThenOk_error]
      rfl
  · refine .inl ⟨fun h => ho₁ h.1, st, s.storageCalls + 1, hst, ?_⟩
    simp only [h₁, Proc.andThenOk_error]

lemma exec_lazyBump_of_not_needsBump (h : (s.allocator bucket i).needsBump = false) :
    NodeM.exec (lazyBump env bucket i).run s = (some (.ok ()), s) := by
  simp only [lazyBump, NodeM.exec, Proc.exec_run_bind, Proc.exec_run_lift, Proc.exec_read,
    Option.map_some, Proc.andThenOk_ok, h, Bool.false_eq_true, if_false, Proc.exec_run_pure]

lemma exec_withBumpLock {α : Type} (body : NodeM D α)
    (h : Wait.ready (.bumpLock bucket i) s = true) :
    NodeM.exec (withBumpLock bucket i body) s =
      Proc.andThen
        (fun r s' =>
          (some r, s'.modifyAllocator bucket i fun a => { a with bumpLock := none }))
        (NodeM.exec body
          (s.modifyAllocator bucket i fun a => { a with bumpLock := some s.running })) := by
  simp only [withBumpLock, NodeM.exec, Proc.exec_bind, Proc.exec_suspend_of_ready _ h,
    Proc.andThen_some, Proc.exec_update]
  rfl

lemma exec_withBumpLock_of_not_ready {α : Type} (body : NodeM D α)
    (h : Wait.ready (.bumpLock bucket i) s = false) :
    NodeM.exec (withBumpLock bucket i body) s = (none, s) := by
  simp only [withBumpLock, NodeM.exec, Proc.exec_bind, Proc.exec_suspend_of_not_ready _ h,
    Proc.andThen_none]

variable (env) in
/-- The lazy bump of an entry from an earlier run, with the critical section free. -/
lemma exec_lazyBump_of_needsBump (hi : (s.bucketAllocators bucket).current = some i)
    (ha : s.entry bucket = some a) (h : a.needsBump = true) (hl : a.bumpLock = none) :
    (¬ s.CanAllocate env bucket ∧ ∃ st calls, (st = s.storage ∨ st = s.bumpedStorage bucket env) ∧
      NodeM.exec (lazyBump env bucket i).run s = (some (.error .failed), s.setStorage st calls)) ∨
    s.CanAllocate env bucket ∧ NodeM.exec (lazyBump env bucket i).run s =
      (some (.ok ()),
        (s.setStorage (s.bumpedStorage bucket env) (s.storageCalls + 1)).modifyEntry bucket fun a =>
          { a with
            currentEpoch := (s.bumped bucket env).currentEpoch
            nextSeq := 1
            needsBump := false }) := by
  have hready : Wait.ready (.bumpLock bucket i) s = true := by
    simp [SharedState.ready_bumpLock hi ha, hl]
  have hlock := fun body : NodeM D (Except StorageError Unit) =>
    exec_withBumpLock (s := s) body hready
  have hbump := fun s : SharedState D => exec_storageCall env (.bumpBucketEpoch bucket)
    (fun st => st.bumpBucketEpoch bucket env.nodeId) s
  simp only [NodeM.exec] at hbump hlock
  have hal := SharedState.allocator_of_current hi ha
  set s₁ := s.modifyAllocator bucket i fun a => { a with bumpLock := some s.running } with hs₁
  have hal₁ : (s₁.allocator bucket i).needsBump = true := by
    rw [hs₁, SharedState.allocator_modifyAllocator hi ha, h]
  simp only [lazyBump, NodeM.exec, Proc.exec_run_bind, Proc.exec_run_lift, Proc.exec_read,
    Option.map_some, Proc.andThenOk_ok, hal, h, if_true, ExceptT.run_mk, hlock, hal₁]
  simp only [bumpBucketEpoch, hbump]
  have hcan : s.CanAllocate env bucket ↔ env.storageOutcome s.storageCalls = .ok := by
    simp [SharedState.CanAllocate, ha, h, hl]
  rcases s₁.callStorage_cases env (fun st => st.bumpBucketEpoch bucket env.nodeId) with
    ⟨ho, h₁⟩ | ⟨ho, st, hst, h₁⟩
  · refine .inr ⟨hcan.2 ho, ?_⟩
    simp only [h₁, Proc.andThenOk_ok, Proc.exec_run_lift, Proc.exec_update, Option.map_some,
      Proc.andThen_some, SharedState.modifyAllocator_modifyAllocator]
    have hi' : ((s.setStorage (s.bumpedStorage bucket env)
      (s.storageCalls + 1)).bucketAllocators bucket).current = some i := hi
    rw [SharedState.modifyEntry_of_current hi', hs₁, SharedState.setStorage_modifyAllocator,
      SharedState.modifyAllocator_modifyAllocator]
    refine congrArg _ (SharedState.modifyAllocator_congr hi' ha ?_)
    simp only [Function.comp_apply, hl]
    rfl
  · refine .inl ⟨mt hcan.1 ho, ?_⟩
    simp only [h₁, Proc.andThenOk_error, Proc.andThen_some]
    rw [hs₁, SharedState.setStorage_modifyAllocator, SharedState.modifyAllocator_modifyAllocator]
    refine ⟨st, s.storageCalls + 1, hst, congrArg _ (SharedState.modifyAllocator_eq_self hi ha ?_)⟩
    simp only [Function.comp_apply, ← hl]
lemma exec_lazyBump_of_bumpLock (hi : (s.bucketAllocators bucket).current = some i)
    (ha : s.entry bucket = some a) (h : a.needsBump = true) (hl : a.bumpLock ≠ none) :
    NodeM.exec (lazyBump env bucket i).run s = (none, s) := by
  have hready : Wait.ready (.bumpLock bucket i) s = false := by
    simpa [SharedState.ready_bumpLock hi ha, Option.isSome_iff_ne_none] using hl
  have hlock := fun body : NodeM D (Except StorageError Unit) =>
    exec_withBumpLock_of_not_ready (s := s) body hready
  have hal := SharedState.allocator_of_current hi ha
  simp only [NodeM.exec] at hlock
  simp only [lazyBump, NodeM.exec, Proc.exec_run_bind, Proc.exec_run_lift, Proc.exec_read,
    Option.map_some, Proc.andThenOk_ok, hal, h, if_true, ExceptT.run_mk, hlock]

variable (env) in
lemma exec_takeSeq (hi : (s.bucketAllocators bucket).current = some i)
    (ha : s.entry bucket = some a) :
    NodeM.exec (takeSeq env bucket i) s = (some (s.nextId bucket), s.takeNext bucket env) := by
  have hal := SharedState.allocator_of_current hi ha
  simp [takeSeq, NodeM.exec, hal, SharedState.nextId, ha, SharedState.takeNext,
    SharedState.modifyEntry_of_current hi]

/-- What `allocate` does once it has an allocator. -/
lemma exec_lazyBump_takeSeq (hi : (s.bucketAllocators bucket).current = some i)
    (ha : s.entry bucket = some a) (h : a.needsBump = false) :
    Proc.andThenOk (fun _ s => Proc.exec Wait.ready
      (liftM (takeSeq env bucket i) : ExceptT StorageError (NodeM D) (ℕ × ℕ)).run s)
        (NodeM.exec (lazyBump env bucket i).run s) =
      (some (.ok (s.nextId bucket)), s.takeNext bucket env) := by
  have hbump : (s.allocator bucket i).needsBump = false := by
    rw [SharedState.allocator_of_current hi ha, h]
  have htake := exec_takeSeq env hi ha
  simp only [NodeM.exec] at htake
  rw [exec_lazyBump_of_not_needsBump hbump, Proc.andThenOk_ok, Proc.exec_run_lift, htake]
  rfl

end Programs

namespace Prepared

variable {env bucket} {s s' : SharedState D} {r : Option (Except StorageError Unit)}

/-- A preparation touches the allocators, their rows and the count of storage calls, and nothing
else. -/
lemma frame (h : Prepared env bucket s r s') :
    s' = { s with
      storage := { s.storage with bucketAllocators := s'.storage.bucketAllocators }
      bucketAllocators := s'.bucketAllocators
      storageCalls := s'.storageCalls } := by
  cases h with
  | hit _ => rfl
  | bumped _ _ _ => rfl
  | installed _ _ => rfl
  | failed _ hst => rcases hst with rfl | rfl <;> rfl
  | blocked _ _ _ => rfl

lemma accountLocks (h : Prepared env bucket s r s') : s'.accountLocks = s.accountLocks := by
  rw [h.frame]

lemma account (h : Prepared env bucket s r s') (key : BalanceKey) :
    s'.account key = s.account key := by
  rw [h.frame]
  rfl

/-- A preparation leaves the other buckets as they are. -/
lemma bucketAllocators_of_ne (h : Prepared env bucket s r s') {bucket' : String}
    (hne : bucket' ≠ bucket) : s'.bucketAllocators bucket' = s.bucketAllocators bucket' := by
  cases h with
  | hit _ => rfl
  | bumped _ _ _ => exact SharedState.setSlot_bucketAllocators_of_ne _ hne
  | installed _ _ => exact SharedState.setSlot_bucketAllocators_of_ne _ hne
  | failed _ _ => rfl
  | blocked _ _ _ => rfl

lemma canAllocate_iff (h : Prepared env bucket s r s') :
    s.CanAllocate env bucket ↔ r = some (.ok ()) := by
  cases h with
  | hit h =>
    obtain ⟨a, ha, hb⟩ := h
    simp [SharedState.CanAllocate, ha, hb]
  | bumped _ _ hcan => simp [hcan]
  | installed _ hcan => simp [hcan]
  | failed hcan _ => simp [hcan]
  | blocked hcan _ _ => simp [hcan]

lemma usable (h : Prepared env bucket s (some (.ok ())) s') : s'.Usable bucket := by
  cases h with
  | hit h => exact h
  | bumped ha _ _ =>
    rw [SharedState.Usable, SharedState.entry_modifyEntry]
    exact ⟨_, congrArg (Option.map _) ha, rfl⟩
  | installed _ _ =>
    exact ⟨.new (s.bumped bucket env).currentEpoch (s.bumped bucket env).nextSeq false,
      by simp [SharedState.entry, SharedState.installAllocator], rfl⟩

end Prepared

/-- An allocation is a preparation, and then the next identity of the entry. -/
theorem exec_allocate (s : SharedState D) :
    ∃ r s₁, Prepared env bucket s r s₁ ∧
      NodeM.exec (allocate env bucket).run s =
        match r with
        | some (.ok ()) => (some (.ok (s₁.nextId bucket)), s₁.takeNext bucket env)
        | some (.error err) => (some (.error err), s₁)
        | none => (none, s₁) := by
  have heq : NodeM.exec (allocate env bucket).run s =
      Proc.andThenOk (fun i s => Proc.andThenOk (fun _ s => Proc.exec Wait.ready
        (liftM (takeSeq env bucket i) : ExceptT StorageError (NodeM D) (ℕ × ℕ)).run s)
          (NodeM.exec (lazyBump env bucket i).run s))
        (NodeM.exec (lookupAllocator env bucket).run s) := by
    simp only [allocate, NodeM.exec, Proc.exec_run_bind]
    congr 1
    funext i s
    rw [Proc.exec_run_bind]
  rcases hc : (s.bucketAllocators bucket).current with _ | i
  · have habsent : s.entry bucket = none := AllocatorSlot.entry_eq_none_iff.2 hc
    rcases exec_lookupAllocator_of_absent env hc with
      ⟨hcan, st, calls, hst, hrun⟩ | ⟨hcan, hrun⟩
    · refine ⟨_, _, .failed (n := calls) hcan hst, ?_⟩
      rw [heq, hrun, Proc.andThenOk_error]
    · refine ⟨_, _, .installed habsent hcan, ?_⟩
      rw [heq, hrun, Proc.andThenOk_ok]
      exact exec_lazyBump_takeSeq
        (a := .new (s.bumped bucket env).currentEpoch (s.bumped bucket env).nextSeq false)
        (by simp [SharedState.installAllocator,
        SharedState.setStorage, AllocatorSlot.install])
        (by simp [SharedState.entry, SharedState.installAllocator]) rfl
  · obtain ⟨a, ha⟩ : ∃ a, s.entry bucket = some a := by
      refine Option.ne_none_iff_exists'.1 fun h => ?_
      simp [AllocatorSlot.entry_eq_none_iff.1 h] at hc
    rw [heq, exec_lookupAllocator_of_current hc, Proc.andThenOk_ok]
    rcases hb : a.needsBump with _ | _
    · exact ⟨_, _, .hit ⟨a, ha, hb⟩, exec_lazyBump_takeSeq hc ha hb⟩
    · by_cases hl : a.bumpLock = none
      · rcases exec_lazyBump_of_needsBump env hc ha hb hl with
          ⟨hcan, st, calls, hst, hrun⟩ | ⟨hcan, hrun⟩
        · refine ⟨_, _, .failed (n := calls) hcan hst, ?_⟩
          rw [hrun, Proc.andThenOk_error]
        · refine ⟨_, _, .bumped ha hb hcan, ?_⟩
          set s₁ := (s.setStorage (s.bumpedStorage bucket env) (s.storageCalls + 1)).modifyEntry
            bucket fun a => { a with
              currentEpoch := (s.bumped bucket env).currentEpoch
              nextSeq := 1
              needsBump := false } with hs₁
          have hc₁ : (s₁.bucketAllocators bucket).current = some i := by
            rw [hs₁, SharedState.modifyEntry, SharedState.setSlot_bucketAllocators,
              AllocatorSlot.current_modifyEntry]
            exact hc
          have ha₁ : s₁.entry bucket = some { a with
              currentEpoch := (s.bumped bucket env).currentEpoch
              nextSeq := 1
              needsBump := false } := by
            rw [hs₁, SharedState.entry_modifyEntry]
            exact congrArg (Option.map _) ha
          have htake := exec_takeSeq env hc₁ ha₁
          simp only [NodeM.exec] at htake
          rw [hrun, Proc.andThenOk_ok, Proc.exec_run_lift, htake]
          rfl
      · refine ⟨_, _, .blocked (by simp [SharedState.CanAllocate, ha, hb, hl]) ha hl, ?_⟩
        rw [exec_lazyBump_of_bumpLock hc ha hb hl, Proc.andThenOk_none]

/-- The allocators can allocate once more when the storage answers. -/
lemma SharedState.canAllocate_of_ok {env : Env D} {bucket : String} {s : SharedState D}
    (hok : ∀ n, env.storageOutcome n = .ok)
    (hbump : ∀ a, s.entry bucket = some a → a.bumpLock = none) : s.CanAllocate env bucket := by
  unfold CanAllocate
  split
  · rename_i a ha
    exact .inr ⟨hbump a ha, hok _⟩
  · exact ⟨hok _, hok _⟩

lemma SharedState.Usable.canAllocate {env : Env D} {bucket : String} {s : SharedState D}
    (h : s.Usable bucket) : s.CanAllocate env bucket := by
  obtain ⟨a, ha, hb⟩ := h
  simp [SharedState.CanAllocate, ha, hb]

namespace Prepared

variable {env : Env D} {bucket : String} {s s' : SharedState D}
  {r : Option (Except StorageError Unit)}

/-- From a usable entry there is nothing to prepare. -/
lemma of_usable (hp : Prepared env bucket s r s') (h : s.Usable bucket) :
    r = some (.ok ()) ∧ s' = s := by
  obtain ⟨a, ha, hb⟩ := h
  cases hp with
  | hit _ => exact ⟨rfl, rfl⟩
  | bumped ha' hb' _ => simp_all
  | installed h' _ => simp_all
  | failed hcan _ => exact absurd (SharedState.Usable.canAllocate ⟨a, ha, hb⟩) hcan
  | blocked hcan _ _ => exact absurd (SharedState.Usable.canAllocate ⟨a, ha, hb⟩) hcan

/-- A preparation leaves the allocators and their rows, or bumps the row of an entry that is not in
use; an entry it puts into use counts in the epoch of that row. -/
lemma bumps (hp : Prepared env bucket s r s') :
    (s'.bucketAllocators = s.bucketAllocators ∧
      s'.storage.bucketAllocators = s.storage.bucketAllocators) ∨
    s.Unused bucket ∧
      s'.storage.bucketAllocators =
        s.storage.bucketAllocators.insert (bucket, env.nodeId) (s.bumped bucket env) ∧
      (∀ b, b ≠ bucket → s'.entry b = s.entry b) ∧
      ∀ a, s'.entry bucket = some a → s.entry bucket = some a ∨
        a.currentEpoch = (s.bumped bucket env).currentEpoch ∧
        (a.nextSeq = 1 ∨ a.nextSeq = (s.bumped bucket env).nextSeq) ∧
        (a.bumpLock = none ∨ ∃ a₀, s.entry bucket = some a₀ ∧ a.bumpLock = a₀.bumpLock) := by
  cases hp with
  | hit _ => exact .inl ⟨rfl, rfl⟩
  | blocked _ _ _ => exact .inl ⟨rfl, rfl⟩
  | @bumped a ha hbump _ =>
      refine .inr ⟨fun a' ha' => ?_, rfl, fun b hb => ?_, fun a' ha' => .inr ?_⟩
      · rw [ha] at ha'
        cases ha'
        exact hbump
      · exact SharedState.entry_modifyEntry_of_ne hb
      · have hentry := SharedState.entry_modifyEntry.symm.trans ha'
        have ha : (s.setStorage (s.bumpedStorage bucket env) (s.storageCalls + 1)).entry bucket =
          some a := ha
        rw [ha] at hentry
        cases hentry
        exact ⟨rfl, .inl rfl, .inr ⟨a, ha, rfl⟩⟩
  | installed habsent _ =>
      refine .inr ⟨fun a ha => ?_, rfl, fun b hb => ?_, fun a ha => .inr ?_⟩
      · rw [habsent] at ha
        cases ha
      · exact congrArg AllocatorSlot.entry (SharedState.setSlot_bucketAllocators_of_ne _ hb)
      · have hnew : (((s.setStorage (s.bumpedStorage bucket env)
            (s.storageCalls + 2)).installAllocator bucket
              (.new (s.bumped bucket env).currentEpoch (s.bumped bucket env).nextSeq
                false)).2).entry bucket =
            some (.new (s.bumped bucket env).currentEpoch (s.bumped bucket env).nextSeq false) := by
          simp [SharedState.entry, SharedState.installAllocator]
        rw [hnew] at ha
        cases ha
        exact ⟨rfl, .inr rfl, .inl rfl⟩
  | failed hcan hst =>
      rcases hst with rfl | rfl
      · exact .inl ⟨rfl, rfl⟩
      · -- an entry in use would not have been bumped
        refine .inr ⟨fun a ha => ?_, rfl, fun _ _ => rfl, fun a ha => .inl ha⟩
        rcases hbump : a.needsBump with _ | _
        · exact absurd (SharedState.Usable.canAllocate ⟨a, ha, hbump⟩) hcan
        · rfl

end Prepared

end Shardd
