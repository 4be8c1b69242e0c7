import Shardd.Lib.WaitGraph
import Shardd.Node.Calls
import Shardd.Node.Startup

/-!
# Deadlock of the account locks

A transfer takes the lock of the receiving account while it holds the lock of its own.  Requests
and insertions never deadlock as long as the transfers of the run form no cycle of accounts; two
opposite transfers can block each other, and a transfer of an account to itself blocks itself.
-/

namespace Shardd

variable {D : Type}

/-- A request of the run is dispatched to a transfer from the one account to the other. -/
def Transfers (kinds : NodeCall → Prop) (source dest : BalanceKey) : Prop :=
  ∃ input toAddr, kinds (.create input) ∧ input.Pays toAddr ∧ source = input.balanceKey ∧
    dest = (input.bucket, toAddr)

/-- Call `i` waits for an account lock that call `j` holds. -/
abbrev WaitsFor (p : Pool (SharedState D) Wait NodeAnswer) : ℕ → ℕ → Prop :=
  WaitsOn (fun i key => (p.calls i).point = some (.account key))
    fun key j => p.shared.accountLocks key = some j

/-! ## The contract -/

/-- Call `i` leaves the locks of the others alone. -/
def KeepsLocks (i : ℕ) (s s' : SharedState D) : Prop :=
  ∀ key k, k ≠ i → (s.accountLocks key = some k ↔ s'.accountLocks key = some k)

/-- Call `i` holds these locks and no others. -/
def Holds (i : ℕ) (held : List BalanceKey) (s : SharedState D) : Prop :=
  ∀ key, s.accountLocks key = some i ↔ key ∈ held

def lockContract (kinds : NodeCall → Prop) : Contract (SharedState D) Wait where
  inv _ := True
  guar := KeepsLocks
  absent i := Holds i []
  pause i l s := ∀ key, l = .account key →
    ∀ key', s.accountLocks key' = some i → Transfers kinds key' key

lemma holds_stable (kinds : NodeCall → Prop) (i : ℕ) (held : List BalanceKey) :
    (lockContract (D := D) kinds).Stable i (Holds i held) := by
  intro j s s' hj hs hguar key
  rw [← hguar key i hj.symm]
  exact hs key

/-- The judgement: the locks of the others are as they were, and this call holds these. -/
structure HoldsAt (i : ℕ) (held : List BalanceKey) (s₀ s : SharedState D) : Prop where
  guar : KeepsLocks i s₀ s
  running : s.running = i
  holds : Holds i held s
  nodup : held.Nodup

namespace HoldsAt

variable {kinds : NodeCall → Prop} {i : ℕ} {held : List BalanceKey} {s₀ s s' : SharedState D}

/-- An act that leaves the locks alone. -/
lemma congr (h : HoldsAt i held s₀ s) (hlocks : s'.accountLocks = s.accountLocks)
    (hrunning : s'.running = s.running) : HoldsAt i held s₀ s' where
  guar key k hk := by
    rw [hlocks]
    exact h.guar key k hk
  running := hrunning.trans h.running
  holds key := by
    rw [hlocks]
    exact h.holds key
  nodup := h.nodup

/-- An act that takes a free lock or gives an own lock back. -/
lemma update (h : HoldsAt i held s₀ s) (key : BalanceKey) (owner : Option ℕ)
    {held' : List BalanceKey} (hbefore : ∀ k, s.accountLocks key = some k → k = i)
    (hafter : ∀ k, owner = some k → k = i)
    (hlocks : s'.accountLocks = fun k => if k = key then owner else s.accountLocks k)
    (hrunning : s'.running = s.running)
    (hheld : ∀ k, (if k = key then owner else s.accountLocks k) = some i ↔ k ∈ held')
    (hnodup : held'.Nodup) :
    HoldsAt i held' s₀ s' where
  guar k j hj := by
    rw [h.guar k j hj, hlocks]
    dsimp only
    split
    · rename_i hk
      subst hk
      exact ⟨fun h => absurd (hbefore j h) hj, fun h => absurd (hafter j h) hj⟩
    · exact Iff.rfl
  running := hrunning.trans h.running
  holds k := by
    rw [hlocks]
    exact hheld k
  nodup := hnodup

/-- The call may be suspended at a point where it asks for no lock, or for one that comes after all
it holds. -/
lemma rests {C : Wait → SharedState D → Prop} {l : Wait} (h : HoldsAt i held s₀ s)
    (hl : ∀ key, l = .account key → ∀ k ∈ held, Transfers kinds k key) :
    (lockContract kinds).Rests Wait.ready SharedState.resumed C i l
      (fun s₀ s => HoldsAt i held s₀ s ∧ Wait.ready l s = true) s₀ s := by
  refine ⟨trivial, h.guar, Holds i held, holds_stable kinds i held, h.holds,
    fun s' _ hs' key hkey k hk => hl key hkey k ((hs' k).1 hk), fun s' _ hs' hready _ => ?_⟩
  refine ⟨⟨fun _ _ _ => Iff.rfl, rfl, hs', h.nodup⟩, ?_⟩
  cases l <;> exact hready

lemma rests_free {C : Wait → SharedState D → Prop} {l : Wait} (h : HoldsAt i held s₀ s)
    (hl : l.Free) :
    (lockContract kinds).Rests Wait.ready SharedState.resumed C i l (HoldsAt i held) s₀ s :=
  (h.rests fun key hkey => absurd hkey (hl.2 key)).mono fun _ _ hs => hs.1

/-- The call takes a free lock. -/
lemma lock {key : BalanceKey} (h : HoldsAt i held s₀ s) (hfree : s.accountLocks key = none) :
    HoldsAt i (key :: held) s₀ (s.lockAccount key) := by
  apply h.update key (some i)
  · intro k hk
    rw [hfree] at hk
    cases hk
  · intro k hk
    exact (Option.some.inj hk).symm
  · funext k
    change s.accountLocks.insert key s.running k = _
    rw [Map.insert_apply, h.running]
  · rfl
  · intro k
    rw [List.mem_cons]
    split
    · rename_i heq
      exact ⟨fun _ => .inl heq, fun _ => rfl⟩
    · rename_i hne
      rw [h.holds k]
      exact ⟨.inr, fun hk => hk.resolve_left hne⟩
  · refine List.nodup_cons.2 ⟨fun hk => ?_, h.nodup⟩
    rw [(h.holds key).2 hk] at hfree
    cases hfree

/-- The call waits for a lock and takes it. -/
lemma rests_lock {C : Wait → SharedState D → Prop} {key : BalanceKey} (h : HoldsAt i held s₀ s)
    (hkey : ∀ k ∈ held, Transfers kinds k key) :
    (lockContract kinds).Rests Wait.ready SharedState.resumed C i (.account key)
      (fun s₀ s => HoldsAt i (key :: held) s₀ (s.lockAccount key) ∧
        s.accountLocks key = none) s₀ (s.ensureAccount key) := by
  have hensured : HoldsAt i held s₀ (s.ensureAccount key) := h.congr rfl rfl
  refine (hensured.rests (by rintro _ ⟨⟩; exact hkey)).mono fun s₀ s hs => ?_
  obtain ⟨hs, hready⟩ := hs
  have hfree : s.accountLocks key = none := Option.isNone_iff_eq_none.1 hready
  exact ⟨hs.lock hfree, hfree⟩

/-- The call gives its latest lock back. -/
lemma unlock {key : BalanceKey} (h : HoldsAt i (key :: held) s₀ s) :
    HoldsAt i held s₀ (s.unlockAccount key) := by
  obtain ⟨hkey, hnodup⟩ := List.nodup_cons.1 h.nodup
  have hown : s.accountLocks key = some i := (h.holds key).2 List.mem_cons_self
  apply h.update key none
  · intro k hk
    rw [hown] at hk
    exact (Option.some.inj hk).symm
  · rintro k ⟨⟩
  · funext k
    exact Map.remove_apply _ _ _
  · rfl
  · intro k
    split
    · rename_i heq
      subst heq
      refine ⟨fun hk => ?_, fun hk => absurd hk hkey⟩
      cases hk
    · rename_i hne
      rw [h.holds k, List.mem_cons]
      exact ⟨fun hk => hk.resolve_left hne, .inr⟩
  · exact hnodup

end HoldsAt

/-! ## Requests and insertions -/

/-- The locks a request holds at a stage. -/
def CreateStage.held (input : LocalCreateInput) : CreateStage → List BalanceKey
  | idle | done _ => []
  | working (some key) _ => [key, input.balanceKey]
  | locked | missing | asked _ | found _ | working none _ => [input.balanceKey]

/-- A request asks for its own lock first, and then for that of the receiving account. -/
theorem lockRules (env : Env D) (i : ℕ) {kinds : NodeCall → Prop} {input : LocalCreateInput}
    (hkind : kinds (.create input)) (C : Wait → SharedState D → Prop) :
    CreateRules Wait.ready SharedState.resumed (lockContract kinds) C i (Lens.whole _) id env input
      fun _ st => HoldsAt i (st.held input) where
  rest hl hs := hs.rests_free hl
  noted hs hnoted := hs.congr hnoted.accountLocks hnoted.running
  refuse _ hs := hs
  lock hs := (hs.rests_lock (fun k hk => absurd hk List.not_mem_nil)).mono fun _ _ h => h.1
  hit hs _ := hs
  miss hs _ := hs
  ask hs := hs
  reload hs _ := hs.congr rfl rfl
  unknown hs _ := hs
  unanswered hs := hs
  allocate {ids credit es s₀ s} hs := by
    rw [Proc.zoom_whole]
    refine Proc.wp_mono (fun r s₀ s hs => ?_) (Proc.wp_of_only (J := HoldsAt i _)
      (fun _ _ _ h hq => h.congr hq.accountLocks hq.running) (fun _ _ _ hl h => h.rests_free hl)
      (only_allocate env input.bucket) hs)
    cases r <;> exact hs
  mint {_ credit} _ _ _ _ _ _ _ hs _ _ _ _ _ := by
    cases credit <;> exact HoldsAt.congr hs rfl rfl
  settle _ hs _ := HoldsAt.congr hs rfl rfl
  lockCredit {es s₀ s toAddr} hs hpays := by
    have horder : ∀ k ∈ [input.balanceKey], Transfers kinds k (input.bucket, toAddr) := by
      intro k hk
      exact ⟨input, toAddr, hkind, hpays, List.mem_singleton.1 hk, rfl⟩
    exact (hs.rests_lock horder).mono fun _ _ h => h.1
  unlockCredit {es key s₀ s} hs := hs.unlock
  unlock {st r s₀ s} hs hends := by
    cases st with
    | found e => exact hs.unlock
    | working credit es =>
        cases credit with
        | none => exact hs.unlock
        | some key => cases hends
    | _ => cases hends

/-- An insertion asks for one lock at a time. -/
theorem insertLockRules (env : Env D) (i : ℕ) (kinds : NodeCall → Prop) (e : Event)
    (C : Wait → SharedState D → Prop) :
    InsertRules Wait.ready SharedState.resumed (lockContract kinds) C i (Lens.whole _) id env e
      fun _ => HoldsAt i [] where
  rest hl hs := hs.rests_free hl
  noted hs hnoted := hs.congr hnoted.accountLocks hnoted.running
  quiet hs hquiet := hs.congr hquiet.accountLocks hquiet.running
  tombstone hs _ := hs.congr rfl rfl
  cascade {s₀ s target} hs _ := by
    change HoldsAt i [] s₀ (s.callStorage env _).2
    unfold SharedState.callStorage
    split <;> exact hs.congr rfl rfl
  strip hs _ := hs.congr rfl rfl
  account key f hs _ := by
    refine (hs.rests_lock (fun k hk => absurd hk List.not_mem_nil)).mono fun s₀ s h => ?_
    have hmodified : HoldsAt i [key] s₀ ((s.lockAccount key).modifyAccount key f) :=
      h.1.congr rfl rfl
    exact hmodified.unlock
  cache hs _ := hs.congr rfl rfl
  conflict hs _ := hs.congr rfl rfl
  correct _ _ _ hs _ := hs.congr rfl rfl
  cacheCorrection hs _ := hs.congr rfl rfl

/-- Requests and replicated events. -/
def NodeCall.Writes : NodeCall → Prop
  | .create _ | .insert _ => True
  | _ => False

lemma lock_startsKept (env : Env D) {kinds : NodeCall → Prop} (hkinds : ∀ c, kinds c → c.Writes) :
    Pool.StartsKept (nodeScheduler env kinds) (lockContract kinds) (fun _ _ => True)
      fun _ _ _ => True where
  absent i := holds_stable kinds i []
  stable _ _ := .true _ _
  pause := by
    rintro l t ⟨rfl, -⟩ i s - - key ⟨⟩
  start := by
    rintro l t ⟨-, c, hc, rfl⟩ i s - habsent - -
    have hidle : HoldsAt i [] s (s.resumed i) :=
      ⟨fun _ _ _ => Iff.rfl, rfl, habsent, List.nodup_nil⟩
    cases c with
    | create input =>
        refine Proc.wp_mono (fun a s₀ s ha => ?_)
          (wp_create (lockRules env i hc fun _ _ => True) hidle)
        obtain ⟨r, -, hs⟩ := ha
        exact ⟨trivial, hs.guar, trivial⟩
    | insert e =>
        refine Proc.wp_mono (fun a s₀ s ha => ?_)
          (wp_insert (insertLockRules env i kinds e fun _ _ => True) hidle)
        obtain ⟨st, hs⟩ := ha
        exact ⟨trivial, hs.guar, trivial⟩
    | delete _ _ => exact absurd (hkinds _ hc) id
    | writeBatch _ _ => exact absurd (hkinds _ hc) id
    | scan _ _ => exact absurd (hkinds _ hc) id
    | sweep => exact absurd (hkinds _ hc) id

/-! ## Deadlock -/

/-- **No deadlock.**  While the transfers of the run form no cycle of accounts, no call waits for a
lock it holds, directly or around a cycle of calls. -/
theorem waitsFor_acyclic {env : Env D} {kinds : NodeCall → Prop} {start : SharedState D}
    {p : Pool (SharedState D) Wait NodeAnswer} (hkinds : ∀ c, kinds c → c.Writes)
    (hacyclic : ∀ key, ¬ Relation.TransGen (Transfers kinds) key key) (hfree : start.Unlocked)
    (h : NodeReach env kinds start p) (i : ℕ) : ¬ Relation.TransGen (WaitsFor p) i i := by
  have habsent : ∀ i, (lockContract kinds).absent i start := by
    intro i key
    rw [hfree key]
    refine ⟨fun hkey => ?_, fun hkey => absurd hkey List.not_mem_nil⟩
    cases hkey
  have hsound := Pool.sound_of_reach (lock_startsKept env hkinds) trivial habsent h
  refine WaitsOn.acyclic (fun j key key' hwaits hholds => ?_) hacyclic i
  obtain ⟨t, ht⟩ := Call.exists_of_point hwaits
  exact hsound.pause ht key rfl key' hholds

section Runs

/-- A transfer of five. -/
private def pays (source dest : String) : LocalCreateInput :=
  { LocalCreateInput.legacy "bucket" source (-5) none 5 ("n-" ++ source) false with
    transferTo := some dest }

/-- Both requests have debited their own account, and each asks for that of the other request's
receiver. -/
private def contended (first second : LocalCreateInput) :
    Pool (SharedState Unit) Wait NodeAnswer :=
  playCalls (Env.plain "node" 1000) NodeCall.Writes (fun _ _ => True) (.blank .empty)
    [.create first, .create second] [0, 1, 0, 1, 0, 0, 0, 0, 0, 0, 1, 1]

/-- Two transfers in a row: the first waits for the second, which goes on. -/
theorem waitsFor_acyclic_chain :
    let kinds := fun c => c = .create (pays "alice" "bob") ∨ c = .create (pays "bob" "carol")
    let p := playCalls (Env.plain "node" 1000) kinds (fun _ _ => True) (.blank .empty)
      [.create (pays "alice" "bob"), .create (pays "bob" "carol")]
      [0, 1, 0, 1, 0, 0, 0, 0, 0, 0, 1, 1]
    WaitsFor p 0 1 ∧ ¬ Relation.TransGen (WaitsFor p) 0 0 := by
  intro kinds p
  have hwaits : (p.calls 0).point = some (.account ("bucket", "bob")) := by decide +kernel
  have hholds : p.shared.accountLocks ("bucket", "bob") = some 1 := by decide +kernel
  have hkinds : ∀ c, kinds c → c.Writes := by
    rintro c (rfl | rfl) <;> trivial
  have hreach : NodeReach (Env.plain "node" 1000) kinds (.blank .empty) p := by
    apply reach_playCalls
    intro c hc
    simpa using hc
  have hacyclic : ∀ key, ¬ Relation.TransGen (Transfers kinds) key key := by
    apply acyclic_of_rank fun key => if key.2 = "alice" then 0 else if key.2 = "bob" then 1 else 2
    rintro _ _ ⟨input, toAddr, hin | hin, hpays, rfl, rfl⟩ <;> cases hin <;>
      cases hpays.1 <;> decide
  clear_value p
  exact ⟨⟨_, hwaits, hholds⟩, waitsFor_acyclic hkinds hacyclic (fun _ => rfl) hreach 0⟩

/-- Two opposite transfers block each other, and a transfer of an account to itself blocks
itself. -/
theorem waitsFor_cycle :
    let opposite := contended (pays "alice" "bob") (pays "bob" "alice")
    let own := contended (pays "alice" "alice") (pays "bob" "bob")
    (NodeReach (Env.plain "node" 1000) NodeCall.Writes (.blank .empty) opposite ∧
      WaitsFor opposite 0 1 ∧ WaitsFor opposite 1 0) ∧
    NodeReach (Env.plain "node" 1000) NodeCall.Writes (.blank .empty) own ∧ WaitsFor own 0 0 := by
  intro opposite own
  have hreach : ∀ first second, NodeReach (Env.plain "node" 1000) NodeCall.Writes (.blank .empty)
      (contended first second) := by
    intro first second
    apply reach_playCalls
    rintro c (- | ⟨-, - | ⟨-, ⟨⟩⟩⟩) <;> trivial
  have hfirst : (opposite.calls 0).point = some (.account ("bucket", "bob")) ∧
      opposite.shared.accountLocks ("bucket", "bob") = some 1 := by decide +kernel
  have hsecond : (opposite.calls 1).point = some (.account ("bucket", "alice")) ∧
      opposite.shared.accountLocks ("bucket", "alice") = some 0 := by decide +kernel
  have hown : (own.calls 0).point = some (.account ("bucket", "alice")) ∧
      own.shared.accountLocks ("bucket", "alice") = some 0 := by decide +kernel
  exact ⟨⟨hreach _ _, ⟨_, hfirst⟩, _, hsecond⟩, hreach _ _, _, hown⟩

end Runs

end Shardd
