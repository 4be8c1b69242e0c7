import Shardd.Recovery.History

/-!
# Idempotency across a restart

A restart fills the idempotency cache from the 10000 latest stored events and keeps the latest event
of each key.  A retry is answered with the winner of its key, the earliest event, and a further
duplicate is made up for by a void, exactly if the winner is also the latest event of its key and
among those 10000.
-/

namespace Shardd

variable {D : Type}

/-! ## The rebuilt cache -/

namespace Storage

variable (st : Storage D)

/-- The stored events a start files in the idempotency cache, the latest first. -/
def recent : List Event := st.queryAllEventsSorted.reverse.take 10000

/-- No event of the key of `w` comes after `w`, and `w` is among the recent events. -/
def LatestWins (w : Event) : Prop :=
  w ∈ st.recent ∧ ∀ e ∈ st.events, e.idempotencyKey = w.idempotencyKey → chronological e w

instance (w : Event) : Decidable (st.LatestWins w) := inferInstanceAs (Decidable (_ ∧ _))

variable {st}

lemma mem_of_mem_recent {e : Event} (h : e ∈ st.recent) : e ∈ st.events :=
  (List.mem_insertionSort _).1 (List.mem_reverse.1 (List.mem_of_mem_take h))

/-- Of the events of a key, the first recent one comes last in time. -/
lemma chronological_of_find_recent {key : IdemKey} {c e : Event}
    (hc : (st.recent.find? fun e => e.idempotencyKey = key) = some c) (he : e ∈ st.events)
    (hkey : e.idempotencyKey = key) : chronological e c := by
  have htotal : Std.Total chronological := ⟨fun a b => le_total _ _⟩
  have htrans : IsTrans Event chronological := ⟨fun _ _ _ hab hbc => le_trans hab hbc⟩
  have hsorted : (st.queryAllEventsSorted.reverse).Pairwise fun a b => chronological b a :=
    List.pairwise_reverse.2 (List.pairwise_insertionSort _ _)
  have hmem : e ∈ st.queryAllEventsSorted.reverse :=
    List.mem_reverse.2 ((List.mem_insertionSort _).2 he)
  obtain ⟨-, before, after, hsplit, hbefore⟩ := List.find?_eq_some_iff_append.1
    ((List.take_prefix 10000 _).find?_eq_some hc)
  rw [hsplit] at hsorted hmem
  rcases List.mem_append.1 hmem with hmem | hmem
  · exact absurd hkey (by simpa using hbefore e hmem)
  · rcases List.mem_cons.1 hmem with rfl | hmem
    · exact le_refl _
    · exact (List.pairwise_cons.1 (List.pairwise_append.1 hsorted).2.1).1 e hmem

/-- Two stored events with identities of their own do not share a place in time. -/
lemma originKey_eq_of_chronological {a b : Event} (h : chronological a b)
    (h' : chronological b a) : a.originKey = b.originKey := by
  have heq := le_antisymm h h'
  simp only [EmbeddingLike.apply_eq_iff_eq, Prod.mk.injEq] at heq
  obtain ⟨-, hbucket, hnode, hepoch, hseq⟩ := heq
  rw [Event.originKey, hbucket, hnode, hepoch, hseq, Event.originKey]

lemma find_recent_iff {E : Set Event} (hE : Identified E) (hworld : ∀ e ∈ st.events, e ∈ E)
    {w : Event} (hw : w ∈ st.events) :
    (st.recent.find? fun e => e.idempotencyKey = w.idempotencyKey) = some w ↔ st.LatestWins w := by
  constructor
  · intro hfind
    exact ⟨List.mem_of_find?_eq_some hfind,
      fun e he hkey => chronological_of_find_recent hfind he hkey⟩
  · rintro ⟨hrecent, hlast⟩
    rcases hfind : st.recent.find? fun e => e.idempotencyKey = w.idempotencyKey with _ | c
    · exact absurd (decide_eq_true rfl) (List.find?_eq_none.1 hfind w hrecent)
    · have hc := mem_of_mem_recent (List.mem_of_find?_eq_some hfind)
      have hkey : c.idempotencyKey = w.idempotencyKey := by simpa using List.find?_some hfind
      have horigin := originKey_eq_of_chronological (hlast c hc hkey)
        (chronological_of_find_recent hfind hw rfl)
      rw [hfind, hE.originKey c (hworld c hc) w (hworld w hw) horigin]

end Storage

lemma Rebuilt.cached {env : Env D} {st : Storage D} {s : SharedState D} (h : Rebuilt env st s)
    (key : IdemKey) :
    s.idempotencyCache key = st.recent.find? fun e => e.idempotencyKey = key := by
  rw [h.idempotencyCache]
  exact (SharedState.foldl_cacheFirst _ _ _).trans Option.none_or

/-! ## Balances -/

section Balances

variable {env : Env D} {s s' : SharedState D}

lemma SharedState.balance_mintCorrection {d : EventDraft}
    (htype : d.type = .void ∨ d.type = .holdRelease) (key : BalanceKey) :
    ((s.mintCorrection env d).account key).balance =
      if key = d.key then (s.account key).balance + d.amount else (s.account key).balance := by
  have hhold : (s.draftEvent env (env.clock s.clockReads) d).hasHold = false :=
    Event.hasHold_of_type htype
  unfold mintCorrection
  dsimp only
  rw [account_corrected hhold]
  split
  · rename_i hkey
    rw [AccountState.balance_applyEvent]
    exact (if_pos hkey).symm
  · rename_i hkey
    exact (if_neg hkey).symm

lemma Released.balance {winner loser : Event} {r : Option Unit}
    (h : Released env winner loser s r s') (key : BalanceKey) :
    (s'.account key).balance = (s.account key).balance := by
  cases h with
  | noHold _ => rfl
  | known _ _ => rfl
  | unallocated _ _ hp _ => rw [hp.account]
  | released _ _ hp =>
      rw [SharedState.balance_mintCorrection (.inr rfl), hp.account]
      split
      · exact Int64.add_zero _
      · rfl

lemma Released.ends {winner loser : Event} {r : Option Unit} (h : Released env winner loser s r s')
    (husable : s.Usable loser.bucket) : r = some () := by
  cases h with
  | noHold _ => rfl
  | known _ _ => rfl
  | unallocated _ _ hp hr => exact absurd (hp.of_usable husable).1 hr
  | released _ _ _ => rfl

lemma SharedState.Usable.mintCorrection {d : EventDraft} (h : s.Usable d.key.1) :
    (s.mintCorrection env d).Usable d.key.1 := by
  refine (usable_iff_of_bucketAllocators ?_).2 (h.takeNext env)
  unfold SharedState.mintCorrection
  dsimp only
  rw [corrected_frame]
  rfl

/-- A loser that is not known to be voided is voided. -/
lemma Corrected.voids {winner loser : Event} {r : Option Unit}
    (h : Corrected env winner loser s r s') (hunknown : ¬ s.Knows (voidIdemKey loser))
    (hunstored : ¬ s.Stores env (voidIdemKey loser))
    (hcan : s.asked.CanAllocate env loser.bucket) :
    r = some () ∧ (s'.account loser.balanceKey).balance =
      (s.account loser.balanceKey).balance + -loser.amount := by
  cases h with
  | known hknown => exact absurd hknown hunknown
  | stored _ hstored => exact absurd hstored hunstored
  | unallocated _ _ hp hr => exact absurd (hp.canAllocate_iff.1 hcan) hr
  | voided _ _ hp hreleased =>
      refine ⟨hreleased.ends hp.usable.mintCorrection, ?_⟩
      rw [hreleased.balance, SharedState.balance_mintCorrection (.inl rfl), hp.account]
      exact if_pos rfl

end Balances

/-! ## Retries and duplicates -/

/-- A retry of the key of `w` is answered with `w`, and the node accepts `d` and makes up for its
amount. -/
structure Settles (env : Env D) (s : SharedState D) (w d : Event) : Prop where
  retry : ∀ input mode, input.idempotencyKey = w.idempotencyKey → s.gate input = none →
    LocalCreateMode.fromInput input (env.clock s.clockReads) = .ok mode →
    (NodeM.exec (createLocalEvents env input).run s).1 =
      some (.ok { primaryEvent := w, emittedEvents := [] })
  duplicate : ∃ s', NodeM.exec (insertEvent env d) s = (some true, s') ∧
    (s'.account w.balanceKey).balance = (s.account w.balanceKey).balance

section Retries

variable {env : Env D} {s : SharedState D} {w d : Event}

/-- What a retry finds: the cached event, or the stored winner. -/
lemma retry_of_found (hfree : s.Unlocked)
    (hfound : s.idempotencyCache w.idempotencyKey = some w ∨
      s.idempotencyCache w.idempotencyKey = none ∧ s.storedWinner env w.idempotencyKey = some w)
    {input : LocalCreateInput} {mode : LocalCreateMode}
    (hkey : input.idempotencyKey = w.idempotencyKey) (hgate : s.gate input = none)
    (hmode : LocalCreateMode.fromInput input (env.clock s.clockReads) = .ok mode) :
    (NodeM.exec (createLocalEvents env input).run s).1 =
      some (.ok { primaryEvent := w, emittedEvents := [] }) := by
  obtain ⟨r, s', hcreated, hrun⟩ := exec_createLocalEvents env input s
  rw [hrun]
  cases hcreated with
  | rejected hreject =>
      rw [hgate] at hreject
      cases hreject
  | malformed _ hmalformed =>
      rw [hmode] at hmalformed
      cases hmalformed
  | blocked _ _ hblocked => exact absurd (hfree _) hblocked
  | cachedRetry _ _ _ hcached =>
      rw [hkey] at hcached
      rcases hfound with hfound | ⟨hnone, -⟩
      · rw [Option.some.inj (hcached.symm.trans hfound)]
      · rw [hnone] at hcached
        cases hcached
  | storedRetry _ _ _ hcached hstored =>
      rw [hkey] at hcached hstored
      rcases hfound with hfound | ⟨-, hfound⟩
      · rw [hfound] at hcached
        cases hcached
      · rw [Option.some.inj (hstored.symm.trans hfound)]
  | emitted _ _ _ hcached hstored _ =>
      rw [hkey] at hcached hstored
      rcases hfound with hfound | ⟨-, hfound⟩
      · rw [hfound] at hcached
        cases hcached
      · rw [hfound] at hstored
        cases hstored
  | stuck _ _ _ hcached hstored _ =>
      rw [hkey] at hcached hstored
      rcases hfound with hfound | ⟨-, hfound⟩
      · rw [hfound] at hcached
        cases hcached
      · rw [hfound] at hstored
        cases hstored

/-- The plain request of a key, which every node takes that has not deleted the bucket. -/
lemma exists_retry (env : Env D) (w : Event)
    (hlive : s.deletedBuckets.containsKey w.bucket = false) :
    ∃ input mode, input.idempotencyKey = w.idempotencyKey ∧ s.gate input = none ∧
      LocalCreateMode.fromInput input (env.clock s.clockReads) = .ok mode := by
  refine ⟨.legacy w.bucket w.account w.amount none 0 w.idempotencyNonce true, .charge none, rfl, ?_,
    rfl⟩
  simp [SharedState.gate, LocalCreateInput.legacy, hlive]

/-- A retry is answered with the cached event. -/
lemma retry_eq_cached (h : Settles env s w d) (hfree : s.Unlocked)
    (hlive : s.deletedBuckets.containsKey w.bucket = false) {c : Event}
    (hcached : s.idempotencyCache w.idempotencyKey = some c)
    (hc : c.idempotencyKey = w.idempotencyKey) : c = w := by
  obtain ⟨input, mode, hkey, hgate, hmode⟩ := exists_retry env w hlive
  have hanswer := h.retry input mode hkey hgate hmode
  rw [retry_of_found (w := c) hfree (.inl (hc.symm ▸ hcached)) (hkey.trans hc.symm) hgate hmode]
    at hanswer
  cases hanswer
  rfl

end Retries

section Duplicates

variable {env : Env D} {s : SharedState D} {w d : Event}

/-- A duplicate that the node has not seen. -/
structure SharedState.Accepts (s : SharedState D) (d : Event) : Prop where
  live : s.deletedBuckets.containsKey d.bucket = false
  absent : s.eventIsPresent d = false
  vacant : s.eventBuffer d.originKey = none
  plain : d.metaTargetBucket = none
  unlocked : s.Unlocked

lemma Event.of_idempotencyKey_eq {x y : Event} (h : x.idempotencyKey = y.idempotencyKey) :
    x.balanceKey = y.balanceKey ∧ x.amount = y.amount := by
  simp only [Event.idempotencyKey, Prod.mk.injEq] at h
  obtain ⟨-, hbucket, haccount, hamount⟩ := h
  exact ⟨by rw [Event.balanceKey, hbucket, haccount, Event.balanceKey], hamount⟩

lemma SharedState.balance_accepted (hkey : d.idempotencyKey = w.idempotencyKey) :
    ((s.accepted env d).account w.balanceKey).balance =
      (s.account w.balanceKey).balance + w.amount := by
  obtain ⟨hbalance, hamount⟩ := Event.of_idempotencyKey_eq hkey
  rw [account_accepted, if_pos hbalance.symm, AccountState.balance_applyEvent, hamount]

/-- With no cached event of its key, a duplicate is filed, and its amount stays. -/
lemma balance_of_uncached (hd : s.Accepts d) (hkey : d.idempotencyKey = w.idempotencyKey)
    (hcached : s.idempotencyCache w.idempotencyKey = none) :
    ∃ s', NodeM.exec (insertEvent env d) s = (some true, s') ∧
      (s'.account w.balanceKey).balance = (s.account w.balanceKey).balance + w.amount := by
  have hnone : s.conflicting d = none := by
    rw [SharedState.conflicting, hkey, hcached]
    rfl
  obtain ⟨r, s', hinserted, hrun⟩ := exec_insertEvent env d hd.plain hd.unlocked
  cases hinserted with
  | deleted hdeleted =>
      rw [hd.live] at hdeleted
      cases hdeleted
  | present _ hpresent =>
      rw [hd.absent] at hpresent
      cases hpresent
  | occupied _ _ hoccupied => exact absurd hd.vacant hoccupied
  | filed _ _ _ _ => exact ⟨_, hrun, SharedState.balance_accepted hkey⟩
  | conflict _ _ _ hconflict _ =>
      rw [hnone] at hconflict
      cases hconflict

/-- A duplicate of the cached event: whichever of the two loses is voided. -/
lemma balance_of_cached (hd : s.Accepts d) (hkey : d.idempotencyKey = w.idempotencyKey)
    (hcached : s.idempotencyCache w.idempotencyKey = some w) (hid : w.eventId ≠ d.eventId)
    (hok : ∀ n, env.storageOutcome n = .ok)
    (hbump : ∀ a, s.entry w.bucket = some a → a.bumpLock = none)
    (hvoid : ∀ x, x = w ∨ x = d → voidIdemKey x ≠ w.idempotencyKey ∧
      s.idempotencyCache (voidIdemKey x) = none ∧
      s.storage.findByIdempotencyKey (voidIdemKey x) = []) :
    ∃ s', NodeM.exec (insertEvent env d) s = (some true, s') ∧
      (s'.account w.balanceKey).balance = (s.account w.balanceKey).balance := by
  have hsome : s.conflicting d = some w := by
    rw [SharedState.conflicting, hkey, hcached]
    simp [hid]
  obtain ⟨r, s', hinserted, hrun⟩ := exec_insertEvent env d hd.plain hd.unlocked
  cases hinserted with
  | deleted hdeleted =>
      rw [hd.live] at hdeleted
      cases hdeleted
  | present _ hpresent =>
      rw [hd.absent] at hpresent
      cases hpresent
  | occupied _ _ hoccupied => exact absurd hd.vacant hoccupied
  | filed _ _ _ hnone =>
      rw [hsome] at hnone
      cases hnone
  | @conflict existing r _ _ _ _ hconflict hcorrected =>
      obtain rfl := Option.some.inj (hsome.symm.trans hconflict)
      generalize hwinner : (idempotencyWinner w d).1 = winner at hcorrected
      generalize hloser : (idempotencyWinner w d).2 = loser at hcorrected
      have hone : loser = w ∨ loser = d := by
        rw [← hloser]
        rcases idempotencyWinner_cases w d with h | h <;> rw [h]
        · exact .inr rfl
        · exact .inl rfl
      obtain ⟨hne, hunknown, hunstored⟩ := hvoid loser hone
      have hlost : loser.idempotencyKey = w.idempotencyKey := by
        rcases hone with rfl | rfl
        · rfl
        · exact hkey
      obtain ⟨hbalance, hamount⟩ := Event.of_idempotencyKey_eq hlost
      have hunknown' : ¬ SharedState.Knows
          ((s.accepted env d).remember d.idempotencyKey winner) (voidIdemKey loser) := by
        rw [SharedState.Knows, SharedState.remember, SharedState.accepted_frame]
        dsimp only
        rw [hkey, Map.insert_of_ne _ _ _ hne]
        exact fun hknown => hknown hunknown
      have hunstored' : ¬ SharedState.Stores env
          ((s.accepted env d).remember d.idempotencyKey winner) (voidIdemKey loser) := by
        rw [SharedState.Stores, SharedState.remember, SharedState.accepted_frame]
        exact fun hstored => hstored.2 hunstored
      have hcan : ((s.accepted env d).remember d.idempotencyKey winner).asked.CanAllocate env
          loser.bucket := by
        apply SharedState.canAllocate_of_ok hok
        intro a ha
        rw [SharedState.remember, SharedState.accepted_frame,
          show loser.bucket = w.bucket from congrArg Prod.fst hbalance] at ha
        exact hbump a ha
      obtain ⟨rfl, hvoided⟩ := hcorrected.voids hunknown' hunstored' hcan
      refine ⟨s', hrun, ?_⟩
      rw [hbalance, hamount] at hvoided
      rw [hvoided]
      change ((s.accepted env d).account w.balanceKey).balance + -w.amount = _
      rw [SharedState.balance_accepted hkey, Int64.add_assoc, Int64.add_right_neg, Int64.add_zero]

end Duplicates

/-! ## Restarts -/

/-- The winner of a key is what the winner rule picks among its events. -/
lemma canonicalWinner_eq {rows : List Event} {w : Event} (hw : w ∈ rows)
    (hleast : ∀ e ∈ rows, e = w ∨ w.beats e) : canonicalWinner rows = some w := by
  have hfold : ∀ (rest : List Event) (best : Event), w ∈ best :: rest →
      (∀ e ∈ best :: rest, e = w ∨ w.beats e) →
      rest.foldl (fun best e' => if e'.beats best then e' else best) best = w := by
    intro rest
    induction rest with
    | nil =>
        intro best hbest _
        exact (List.mem_singleton.1 hbest).symm
    | cons e rest ih =>
        intro best hmem hall
        rw [List.foldl_cons]
        have hbest := hall best List.mem_cons_self
        have he := hall e (List.mem_cons_of_mem _ List.mem_cons_self)
        have hrest : ∀ x ∈ rest, x = w ∨ w.beats x := fun x hx =>
          hall x (List.mem_cons_of_mem _ (List.mem_cons_of_mem _ hx))
        split
        · rename_i hbeats
          apply ih
          · rcases List.mem_cons.1 hmem with rfl | hmem
            · -- the winner is not beaten
              rcases he with rfl | he
              · exact absurd hbeats (Event.beats_irrefl _)
              · exact absurd hbeats (Event.beats_asymm he)
            · exact hmem
          · exact fun x hx => (List.mem_cons.1 hx).elim (fun h => h ▸ he) (hrest x)
        · rename_i hbeats
          apply ih
          · rcases List.mem_cons.1 hmem with rfl | hmem
            · exact List.mem_cons_self
            · rcases List.mem_cons.1 hmem with rfl | hmem
              · rcases hbest with rfl | hbest
                · exact List.mem_cons_self
                · exact absurd hbest hbeats
              · exact List.mem_cons_of_mem _ hmem
          · exact fun x hx => (List.mem_cons.1 hx).elim (fun h => h ▸ hbest) (hrest x)
  cases rows with
  | nil => cases hw
  | cons best rest => exact congrArg some (hfold rest best hw hleast)

/-- **Idempotency across a restart.**  Let `w` be the winner of its key among everything a node has
accepted, and `d` one more event of the key.  After the events have been flushed and the node has
restarted, a retry is answered with `w` and the node makes up for `d` if and only if `w` is also the
latest event of its key and a recent one; or else no event of the key is recent and its amount is
zero. -/
theorem settles_of_restart {E : Set Event} (hE : Identified E) {env env' : Env D}
    {base : List Event} {t : ℕ} {s s' : SharedState D} (h : History E env base t s)
    (hflushed : s.Flushed base) (hnode : env'.nodeId = env.nodeId)
    (hs : Starts env' s.storage s') (hok : ∀ n, env'.storageOutcome n = .ok) {w d : Event}
    (hw : w ∈ s.acceptedSince base)
    (hleast : ∀ e ∈ s.acceptedSince base, e.idempotencyKey = w.idempotencyKey → e = w ∨ w.beats e)
    (hlive : ∀ e ∈ s.acceptedSince base, e.metaTargetBucket ≠ some w.bucket)
    (hd : d ∈ E) (hnew : d ∉ s.acceptedSince base) (hpos : 1 ≤ d.originSeq)
    (hplain : d.metaTargetBucket = none) (hkey : d.idempotencyKey = w.idempotencyKey)
    (hvoid : ∀ x, x = w ∨ x = d → ∀ e ∈ s.acceptedSince base, e.idempotencyKey ≠ voidIdemKey x) :
    Settles env' s' w d ↔ s.storage.LatestWins w ∨
      w.amount = 0 ∧ ∀ e ∈ s.storage.recent, e.idempotencyKey ≠ w.idempotencyKey := by
  obtain ⟨lost, hkept⟩ := h.kept hE
  have hst := History.wellFormed hkept
  rw [← hnode] at hst
  have hr := hs.rebuilt
  have hstored : ∀ e, e ∈ s.storage.events ↔ e ∈ s.acceptedSince base :=
    fun e => ⟨hkept.books.stored e, hflushed e⟩
  have hwst := (hstored w).2 hw
  have hdst : d ∉ s.storage.events := fun hd => hnew ((hstored d).1 hd)
  -- the restarted node is live, knows neither void, and has not seen the duplicate
  have hnotDeleted : s'.deletedBuckets.containsKey w.bucket = false := by
    rw [Bool.eq_false_iff]
    intro hdeleted
    obtain ⟨e, he, htarget⟩ := (hr.deletedBuckets _).1 hdeleted
    exact hlive e ((hstored e).1 he) htarget
  obtain ⟨hvacant, habsent⟩ := (hr.log hE hst).not_isPresent hpos fun e he hsame =>
    hdst ((hE.originKey e (hst.world e (List.mem_toFinset.1 he)) d hd hsame) ▸
      List.mem_toFinset.1 he)
  have haccepts : s'.Accepts d := by
    refine ⟨?_, habsent, hvacant, hplain, hr.unlocked⟩
    rw [show d.bucket = w.bucket from congrArg Prod.fst (Event.of_idempotencyKey_eq hkey).1]
    exact hnotDeleted
  have hvoid' : ∀ x, x = w ∨ x = d → voidIdemKey x ≠ w.idempotencyKey ∧
      s'.idempotencyCache (voidIdemKey x) = none ∧
      s'.storage.findByIdempotencyKey (voidIdemKey x) = [] := by
    intro x hx
    refine ⟨fun heq => hvoid x hx w hw heq.symm, ?_, ?_⟩
    · rw [hr.cached, List.find?_eq_none]
      intro e he hmatch
      have hmem := (hstored e).1 (Storage.mem_of_mem_recent he)
      exact hvoid x hx e hmem (of_decide_eq_true hmatch)
    · rw [Storage.findByIdempotencyKey, hr.events, List.filter_eq_nil_iff]
      intro e he hmatch
      exact hvoid x hx e ((hstored e).1 he) (of_decide_eq_true hmatch)
  have hid : w.eventId ≠ d.eventId := fun heq =>
    hdst (hE.eventId w (hst.world w hwst) d hd heq ▸ hwst)
  constructor
  · intro hsettles
    rcases hcached : s'.idempotencyCache w.idempotencyKey with _ | c
    · refine .inr ⟨?_, ?_⟩
      · obtain ⟨s₁, hrun, hsame⟩ := hsettles.duplicate
        obtain ⟨s₂, hrun', hmore⟩ := balance_of_uncached haccepts hkey hcached
        rw [hrun] at hrun'
        obtain rfl := (Prod.mk.inj hrun').2
        rw [hsame] at hmore
        exact Int64.left_eq_add.1 hmore
      · rw [hr.cached, List.find?_eq_none] at hcached
        exact fun e he heq => hcached e he (decide_eq_true heq)
    · have hfind := hcached
      rw [hr.cached] at hfind
      have hc : c.idempotencyKey = w.idempotencyKey := by simpa using List.find?_some hfind
      obtain rfl := retry_eq_cached hsettles hr.unlocked hnotDeleted hcached hc
      exact .inl ((Storage.find_recent_iff hE hst.world hwst).1 hfind)
  · rintro (hlatest | ⟨hzero, hnone⟩)
    · have hcached : s'.idempotencyCache w.idempotencyKey = some w := by
        rw [hr.cached]
        exact (Storage.find_recent_iff hE hst.world hwst).2 hlatest
      refine ⟨fun input mode hin hgate hmode =>
        retry_of_found hr.unlocked (.inl hcached) hin hgate hmode, ?_⟩
      exact balance_of_cached haccepts hkey hcached hid hok (fun a ha => hr.bumpLock ha) hvoid'
    · have hcached : s'.idempotencyCache w.idempotencyKey = none := by
        rw [hr.cached, List.find?_eq_none]
        exact fun e he hmatch => hnone e he (of_decide_eq_true hmatch)
      have hfound : s'.storedWinner env' w.idempotencyKey = some w := by
        rw [SharedState.storedWinner, if_pos (hok _), Storage.findByIdempotencyKey, hr.events]
        apply canonicalWinner_eq
        · exact List.mem_filter.2 ⟨hwst, decide_eq_true rfl⟩
        · intro e he
          obtain ⟨hmem, hmatch⟩ := List.mem_filter.1 he
          exact hleast e ((hstored e).1 hmem) (of_decide_eq_true hmatch)
      refine ⟨fun input mode hin hgate hmode =>
        retry_of_found hr.unlocked (.inr ⟨hcached, hfound⟩) hin hgate hmode, ?_⟩
      obtain ⟨s₁, hrun, hsame⟩ := balance_of_uncached haccepts hkey hcached
      rw [hzero, Int64.add_zero] at hsame
      exact ⟨s₁, hrun, hsame⟩

section Runs

/-- A deposit of ten under one client nonce, as several nodes may have minted it. -/
private def deposit (eventId origin : String) (now : ℕ) : Event :=
  (LocalCreateInput.legacy "bucket" "alice" 10 none 0 "n1" false).chargeDraft.event eventId origin
    (1, 1) now

/-- A node that has taken an operation. -/
private def after (s : SharedState Unit) (op : NodeOp) : SharedState Unit :=
  (NodeM.exec (op.program (Env.plain "node" 1000)) s).2

/-- A node that starts over a storage. -/
private def started (st : Storage Unit) : SharedState Unit :=
  (NodeM.exec (newSharedState (Env.plain "node" 1000)) (.blank st)).2

/-- One stored event of the key. -/
theorem settles_of_restart_single :
    let w := deposit "e1" "peer" 900
    let d := deposit "e2" "other" 800
    let s := after (after (started .empty) (.insert w)) (.flush [w])
    Settles (Env.plain "node" 1000) (started s.storage) w d := by
  intro w d s
  let s₁ := after (started .empty) (.insert w)
  have hE : Identified {e | e ∈ [w, d]} := identified_of_list (by decide +kernel)
  have h₁ : NodeStep (Env.plain "node" 1000) {e | e ∈ [w, d]} [] (.insert w) (started .empty)
      s₁ := by
    apply NodeStep.of_not_minting (by decide +kernel) _ (by decide +kernel)
    exact ⟨by simp, by decide +kernel, by decide +kernel⟩
  have h₂ : NodeStep (Env.plain "node" 1000) {e | e ∈ [w, d]} [] (.flush [w]) s₁ s := by
    apply NodeStep.of_not_minting (by decide +kernel) _ (by decide +kernel)
    have hbatch : ∀ e ∈ [w], e ∈ s₁.acceptedSince [] := by decide +kernel
    exact hbatch
  have hstart : Starts (Env.plain "node" 1000) s.storage (started s.storage) :=
    ⟨exec_of_fst (by decide +kernel), fun _ _ => rfl⟩
  have haccepted : s.acceptedSince [] = [w] := by decide +kernel
  have hflushed : s.Flushed [] := by
    have h : ∀ e ∈ s.acceptedSince [], e ∈ s.storage.events := by decide +kernel
    exact h
  have hlatest : s.storage.LatestWins w := by decide +kernel
  have hfirst : History {e | e ∈ [w, d]} (Env.plain "node" 1000) [] 1000 (started .empty) :=
    .first fun _ => rfl
  have hhistory := History.step (.step hfirst h₁) h₂
  clear_value s
  have hone : ∀ e ∈ s.acceptedSince [], e = w := by
    rw [haccepted]
    exact fun e he => List.mem_singleton.1 he
  have hw : w ∈ s.acceptedSince [] := by
    rw [haccepted]
    exact List.mem_singleton_self w
  refine (settles_of_restart hE hhistory hflushed rfl hstart (fun _ => rfl) hw
    (fun e he _ => .inl (hone e he)) (fun e he => ?_) (by simp) (fun hd => ?_) (by decide)
    (by decide) (by decide) fun x hx e he => ?_).2 (.inl hlatest)
  · rw [hone e he]
    decide
  · exact absurd (hone d hd) (by decide)
  · rw [hone e he]
    rcases hx with rfl | rfl <;> decide

/-- With the winner and a voided loser stored, a retry is answered with the loser, and a duplicate
between the two doubles the balance. -/
theorem settles_of_restart_pair :
    let w := deposit "e1" "peer" 900
    let loser := deposit "e2" "other" 950
    let d := deposit "e3" "third" 920
    let s₂ := after (after (started .empty) (.insert w)) (.insert loser)
    let s := after s₂ (.flush s₂.batchQueue)
    let s' := started s.storage
    s.idempotencyCache w.idempotencyKey = some w ∧
      (∃ v ∈ s.storage.events, v.idempotencyKey = voidIdemKey loser) ∧
      (s.account ("bucket", "alice")).balance = 10 ∧
      (s'.account ("bucket", "alice")).balance = 10 ∧
      ((NodeM.exec (createLocalEvents (Env.plain "node" 1000)
        (.legacy "bucket" "alice" 10 none 0 "n1" false)).run s').1.map fun r =>
          r.toOption.map LocalCreateResult.primaryEvent) = some (some loser) ∧
      ((after s' (.insert d)).account ("bucket", "alice")).balance = 20 ∧
      ¬ Settles (Env.plain "node" 1000) s' w d := by
  intro w loser d s₂ s s'
  have hbefore : s.idempotencyCache w.idempotencyKey = some w := by decide +kernel
  have hvoided : ∃ v ∈ s.storage.events, v.idempotencyKey = voidIdemKey loser := by decide +kernel
  have hbalance : (s.account ("bucket", "alice")).balance = 10 := by decide +kernel
  have hrebuilt : (s'.account ("bucket", "alice")).balance = 10 := by decide +kernel
  have hretry : ((NodeM.exec (createLocalEvents (Env.plain "node" 1000)
      (.legacy "bucket" "alice" 10 none 0 "n1" false)).run s').1.map fun r =>
        r.toOption.map LocalCreateResult.primaryEvent) = some (some loser) := by decide +kernel
  have hdouble : ((after s' (.insert d)).account ("bucket", "alice")).balance = 20 := by
    decide +kernel
  have hgate : s'.gate (.legacy "bucket" "alice" 10 none 0 "n1" false) = none := by
    decide +kernel
  refine ⟨hbefore, hvoided, hbalance, hrebuilt, hretry, hdouble, fun hsettles => ?_⟩
  rw [hsettles.retry _ (.charge none) rfl hgate rfl] at hretry
  exact absurd hretry (by decide)

end Runs

end Shardd
