import Shardd.Node.Rules
import Shardd.Recovery.Accounts

/-!
# The books of a node

What a node has accepted is what it has loaded at its start and what it has sent to its batch
writer since.  `BooksOf` says that the rest of its state is what these events make it: the log, the
accounts up to expired holds, the largest seqs and the epochs of every account.  Events that have
been minted and not recorded show in the accounts only.
-/

namespace Shardd

/-! ## Events with identities of their own -/

/-- No two of the events share an id or an origin key. -/
structure Identified (E : Set Event) : Prop where
  eventId : ∀ e ∈ E, ∀ e' ∈ E, e.eventId = e'.eventId → e = e'
  originKey : ∀ e ∈ E, ∀ e' ∈ E, e.originKey = e'.originKey → e = e'

lemma Identified.pairwise {E : Set Event} (hE : Identified E) {es : List Event}
    (hsub : ∀ e ∈ es, e ∈ E) (hnodup : es.Nodup) :
    es.Pairwise fun a b => a.eventId ≠ b.eventId := by
  refine hnodup.imp_of_mem fun {a b} ha hb hne hid => ?_
  exact hne (hE.eventId a (hsub a ha) b (hsub b hb) hid)

/-- The order of events with different ids does not matter. -/
lemma AccountState.replay_perm {es es' : List Event}
    (hids : es.Pairwise fun a b => a.eventId ≠ b.eventId) (hperm : es.Perm es') :
    AccountState.replay es = AccountState.replay es' := by
  have hsymm : Std.Symm fun a b : Event => a.eventId ≠ b.eventId := ⟨fun _ _ h => h.symm⟩
  refine hperm.foldl_eq' (fun x hx y hy acc => ?_) _
  by_cases hxy : x = y
  · rw [hxy]
  · exact AccountState.applyEvent_comm acc (hids.forall hx hy hxy)

/-- The epochs with events on an account. -/
def epochsOf (es : List Event) (key : BalanceKey) : Option (Finset EpochKey) :=
  if ∃ e ∈ es, e.balanceKey = key then
    some ((es.filter fun e => e.balanceKey = key).map Event.epochKey).toFinset
  else none

lemma epochsOf_congr {es es' : List Event} (h : ∀ e, e ∈ es ↔ e ∈ es') (key : BalanceKey) :
    epochsOf es key = epochsOf es' key := by
  unfold epochsOf
  have hmem : (∃ e ∈ es, e.balanceKey = key) ↔ ∃ e ∈ es', e.balanceKey = key := by simp [h]
  have hset : ((es.filter fun e => e.balanceKey = key).map Event.epochKey).toFinset =
      ((es'.filter fun e => e.balanceKey = key).map Event.epochKey).toFinset := by
    ext k
    simp [h]
  simp only [hmem, hset]

/-- The epochs after one more event. -/
lemma epochsOf_append (es : List Event) (e : Event) (key : BalanceKey) :
    epochsOf (es ++ [e]) key =
      if key = e.balanceKey then some (insert e.epochKey ((epochsOf es key).getD ∅))
      else epochsOf es key := by
  unfold epochsOf
  by_cases hk : key = e.balanceKey
  · subst hk
    have hex : ∃ x ∈ es ++ [e], x.balanceKey = e.balanceKey := ⟨e, by simp, rfl⟩
    rw [if_pos hex, if_pos rfl, Option.some.injEq]
    ext k
    by_cases hes : ∃ x ∈ es, x.balanceKey = e.balanceKey
    · simp [if_pos hes, List.filter_append]
    · have hnil : es.filter (fun x => decide (x.balanceKey = e.balanceKey)) = [] := by
        rw [List.filter_eq_nil_iff]
        intro x hx
        simpa using fun hxe => hes ⟨x, hx, hxe⟩
      simp [if_neg hes, List.filter_append, hnil]
  · rw [if_neg hk]
    have hmem : (∃ x ∈ es ++ [e], x.balanceKey = key) ↔ ∃ x ∈ es, x.balanceKey = key := by
      simp [Ne.symm hk]
    simp only [hmem, List.filter_append, List.filter_cons, List.filter_nil, Ne.symm hk,
      decide_false, Bool.false_eq_true, if_false, List.append_nil]

/-! ## The invariant -/

variable {D : Type}

/-- The events a node has accepted in a run that began with `base`. -/
def SharedState.acceptedSince (base : List Event) (s : SharedState D) : List Event :=
  base ++ s.batchQueue

/-- The books of a node that began with the events `base`, has minted `unrecorded` without
recording them, and has dropped no hold that was live at the instant `t`. -/
structure BooksOf (E : Set Event) (hasher : Hasher D) (t : ℕ) (base unrecorded : List Event)
    (s : SharedState D) : Prop where
  known : ∀ e ∈ s.acceptedSince base ++ unrecorded, e ∈ E
  nodup : (s.acceptedSince base ++ unrecorded).Nodup
  log : LogOf hasher (s.acceptedSince base).toFinset s
  account : ∀ key, AccountState.Shows t (s.account key)
    (AccountState.replay ((s.acceptedSince base ++ unrecorded).filter fun e => e.balanceKey = key))
  maxKnownSeqs : ∀ key m, s.maxKnownSeqs key = some m ↔
    IsGreatest (seqsOf (s.acceptedSince base).toFinset key : Set ℕ) m
  origins : ∀ key, s.accountOriginEpochs key = epochsOf (s.acceptedSince base) key
  stored : ∀ e ∈ s.storage.events, e ∈ s.acceptedSince base
  stored_nodup : s.storage.events.Nodup

/-- The two states keep the same books. -/
structure SharedState.SameBooks (s s' : SharedState D) : Prop where
  log : s.SameLog s'
  account : ∀ key, s'.account key = s.account key
  maxKnownSeqs : s'.maxKnownSeqs = s.maxKnownSeqs
  accountOriginEpochs : s'.accountOriginEpochs = s.accountOriginEpochs
  events : s'.storage.events = s.storage.events
  batchQueue : s'.batchQueue = s.batchQueue

namespace BooksOf

variable {env : Env D} {E : Set Event} {hasher : Hasher D} {t : ℕ} {base u u' : List Event}
  {s s' : SharedState D} {e : Event}

lemma congr (h : BooksOf E hasher t base u s) (hs : s.SameBooks s') :
    BooksOf E hasher t base u s' := by
  obtain ⟨hlog, hacc, hmax, horigins, hevents, hqueue⟩ := hs
  have haccepted : s'.acceptedSince base = s.acceptedSince base := by
    rw [SharedState.acceptedSince, hqueue, SharedState.acceptedSince]
  constructor
  · rw [haccepted]
    exact h.known
  · rw [haccepted]
    exact h.nodup
  · rw [haccepted]
    exact h.log.of_sameLog hlog
  · intro key
    rw [haccepted, hacc]
    exact h.account key
  · rw [haccepted, hmax]
    exact h.maxKnownSeqs
  · rw [haccepted, horigins]
    exact h.origins
  · rw [haccepted, hevents]
    exact h.stored
  · rw [hevents]
    exact h.stored_nodup

/-- The order of what is yet to be recorded does not matter. -/
lemma perm (hE : Identified E) (h : BooksOf E hasher t base u s) (hperm : u.Perm u') :
    BooksOf E hasher t base u' s := by
  have hall : (s.acceptedSince base ++ u).Perm (s.acceptedSince base ++ u') :=
    hperm.append_left _
  refine { h with known := ?_, nodup := ?_, account := ?_ }
  · intro e he
    exact h.known e (hall.mem_iff.2 he)
  · exact hall.nodup_iff.1 h.nodup
  · intro key
    rw [← AccountState.replay_perm _ (hall.filter _)]
    · exact h.account key
    · apply hE.pairwise
      · intro e he
        exact h.known e (List.mem_of_mem_filter he)
      · exact h.nodup.filter _

/-- An account after one more event on some account. -/
lemma shows_append (hE : Identified E) {es : List Event} (hknown : ∀ x ∈ es ++ [e], x ∈ E)
    (hnodup : (es ++ [e]).Nodup) {key : BalanceKey} {acc : AccountState}
    (hacc : AccountState.Shows t acc
      (AccountState.replay (es.filter fun x => x.balanceKey = key))) :
    AccountState.Shows t (if key = e.balanceKey then acc.applyEvent e else acc)
      (AccountState.replay ((es ++ [e]).filter fun x => x.balanceKey = key)) := by
  rw [List.filter_append]
  by_cases hk : key = e.balanceKey
  · subst hk
    have hfilter : ([e].filter fun x => decide (x.balanceKey = e.balanceKey)) = [e] := by simp
    rw [if_pos rfl, hfilter, AccountState.replay, List.foldl_append]
    apply hacc.applyEvent
    apply AccountState.lookup_replay_eq_none
    intro x hx hid
    have hxe : x = e := hE.eventId x
      (hknown x (List.mem_append_left _ (List.mem_of_mem_filter hx))) e (hknown e (by simp)) hid
    rw [List.nodup_append] at hnodup
    exact hnodup.2.2 x (List.mem_of_mem_filter hx) e (by simp) hxe
  · have hfilter : ([e].filter fun x => decide (x.balanceKey = key)) = [] := by
      simp [Ne.symm hk]
    rw [if_neg hk, hfilter, List.append_nil]
    exact hacc

/-- A new event is applied. -/
lemma applied (hE : Identified E) (h : BooksOf E hasher t base u s) (he : e ∈ E)
    (hnew : e ∉ s.acceptedSince base ++ u) (hlog : s.SameLog s')
    (hacc : ∀ key, s'.account key =
      if key = e.balanceKey then (s.account key).applyEvent e else s.account key)
    (hmax : s'.maxKnownSeqs = s.maxKnownSeqs)
    (horigins : s'.accountOriginEpochs = s.accountOriginEpochs)
    (hevents : s'.storage.events = s.storage.events) (hqueue : s'.batchQueue = s.batchQueue) :
    BooksOf E hasher t base (u ++ [e]) s' := by
  have haccepted : s'.acceptedSince base = s.acceptedSince base := by
    rw [SharedState.acceptedSince, hqueue, SharedState.acceptedSince]
  have hknown : ∀ x ∈ s.acceptedSince base ++ u ++ [e], x ∈ E := by
    intro x hx
    rcases List.mem_append.1 hx with hx | hx
    · exact h.known x hx
    · rw [List.mem_singleton.1 hx]
      exact he
  have hnodup : (s.acceptedSince base ++ u ++ [e]).Nodup := by
    rw [List.nodup_append]
    refine ⟨h.nodup, List.nodup_singleton e, fun x hx y hy hxy => ?_⟩
    rw [List.mem_singleton.1 hy] at hxy
    exact hnew (hxy ▸ hx)
  constructor
  · rw [haccepted, ← List.append_assoc]
    exact hknown
  · rw [haccepted, ← List.append_assoc]
    exact hnodup
  · rw [haccepted]
    exact h.log.of_sameLog hlog
  · intro key
    rw [haccepted, hacc, ← List.append_assoc]
    exact shows_append hE hknown hnodup (h.account key)
  · rw [haccepted, hmax]
    exact h.maxKnownSeqs
  · rw [haccepted, horigins]
    exact h.origins
  · rw [haccepted, hevents]
    exact h.stored
  · rw [hevents]
    exact h.stored_nodup

/-- What has been applied is recorded. -/
lemma recorded (h : BooksOf E hasher t base (e :: u) s)
    (hlog : LogOf hasher (insert e (s.acceptedSince base).toFinset) s')
    (hacc : ∀ key, s'.account key = s.account key)
    (hmax : s'.maxKnownSeqs = s.maxKnownSeqs.insert e.epochKey
      (match s.maxKnownSeqs e.epochKey with
        | some m => if m < e.originSeq then e.originSeq else m
        | none => e.originSeq))
    (horigins : s'.accountOriginEpochs = s.accountOriginEpochs.insert e.balanceKey
      (insert e.epochKey ((s.accountOriginEpochs e.balanceKey).getD ∅)))
    (hevents : s'.storage.events = s.storage.events)
    (hqueue : s'.batchQueue = s.batchQueue ++ [e]) : BooksOf E hasher t base u s' := by
  have haccepted : s'.acceptedSince base = s.acceptedSince base ++ [e] := by
    rw [SharedState.acceptedSince, hqueue, SharedState.acceptedSince, List.append_assoc]
  have hset : (s.acceptedSince base ++ [e]).toFinset =
      insert e (s.acceptedSince base).toFinset := by
    ext x
    simp
  have hlist : s'.acceptedSince base ++ u = s.acceptedSince base ++ e :: u := by
    rw [haccepted, List.append_assoc, List.singleton_append]
  constructor
  · rw [hlist]
    exact h.known
  · rw [hlist]
    exact h.nodup
  · rw [haccepted, hset]
    exact hlog
  · intro key
    rw [hlist, hacc]
    exact h.account key
  · intro key m
    rw [haccepted, hset, seqsOf_insert, hmax, Map.insert_apply]
    by_cases hk : key = e.epochKey
    · subst hk
      rw [if_pos rfl, if_pos rfl]
      exact ReplicaOf.isGreatest_insert (h.maxKnownSeqs e.epochKey)
    · rw [if_neg hk, if_neg (Ne.symm hk)]
      exact h.maxKnownSeqs key m
  · intro key
    rw [haccepted, horigins, epochsOf_append, Map.insert_apply]
    split
    · rename_i hk
      rw [hk, h.origins]
    · exact h.origins key
  · intro x hx
    rw [haccepted]
    rw [hevents] at hx
    exact List.mem_append_left _ (h.stored x hx)
  · rw [hevents]
    exact h.stored_nodup

/-- A new event is applied and recorded at once. -/
lemma booked (hE : Identified E) (h : BooksOf E hasher t base u s) (he : e ∈ E)
    (hnew : e ∉ s.acceptedSince base ++ u)
    (hlog : LogOf hasher (insert e (s.acceptedSince base).toFinset) s')
    (hacc : ∀ key, s'.account key =
      if key = e.balanceKey then (s.account key).applyEvent e else s.account key)
    (hmax : s'.maxKnownSeqs = s.maxKnownSeqs.insert e.epochKey
      (match s.maxKnownSeqs e.epochKey with
        | some m => if m < e.originSeq then e.originSeq else m
        | none => e.originSeq))
    (horigins : s'.accountOriginEpochs = s.accountOriginEpochs.insert e.balanceKey
      (insert e.epochKey ((s.accountOriginEpochs e.balanceKey).getD ∅)))
    (hevents : s'.storage.events = s.storage.events)
    (hqueue : s'.batchQueue = s.batchQueue ++ [e]) : BooksOf E hasher t base u s' := by
  have hmodify : ∀ key,
      (s.modifyAccount e.balanceKey fun acc => acc.applyEvent e).account key =
        if key = e.balanceKey then (s.account key).applyEvent e else s.account key := by
    intro key
    rw [SharedState.account_modifyAccount]
  have happlied : BooksOf E hasher t base (u ++ [e])
      (s.modifyAccount e.balanceKey fun acc => acc.applyEvent e) :=
    h.applied hE he hnew ⟨rfl, rfl, rfl, rfl⟩ hmodify rfl rfl rfl rfl
  have hperm : (u ++ [e]).Perm ([e] ++ u) := List.perm_append_comm
  have hfirst := happlied.perm hE hperm
  refine hfirst.recorded hlog (fun key => ?_) hmax horigins hevents hqueue
  rw [hacc, hmodify]

/-- An event that is yet to be recorded is new to the log. -/
lemma originKey_ne (hE : Identified E) (h : BooksOf E hasher t base (e :: u) s) :
    ∀ x ∈ (s.acceptedSince base).toFinset, x.originKey ≠ e.originKey := by
  intro x hx hkey
  rw [List.mem_toFinset] at hx
  have hxe : x = e := hE.originKey x (h.known x (List.mem_append_left _ hx)) e
    (h.known e (by simp)) hkey
  have hnodup := h.nodup
  rw [List.nodup_append] at hnodup
  exact hnodup.2.2 x hx e List.mem_cons_self hxe

end BooksOf

end Shardd
