import Shardd.Recovery.History

/-!
# What a history and a restart leave

Three results read off the run lemma of `Recovery/History.lean`: the heads, pending seqs and largest
seqs are those of the accepted events, the digests are the folds over the accepted prefixes, and a
restart of a flushed node keeps the ledger.

The last two rest on one fact: `BooksOf.agree`, that the accepted events determine the books.
-/

namespace Shardd

variable {D : Type}

/-! ## Heads -/

/-- The head of a set of seqs is the largest `n` with `1, …, n` among them. -/
lemma IsHead.isGreatest {S P : Finset ℕ} {h : ℕ} (hS : IsHead S h P) :
    IsGreatest {n | ∀ m, 1 ≤ m → m ≤ n → m ∈ S} h := by
  constructor
  · exact hS.mem
  · intro n hn
    by_contra hlt
    exact hS.next (hn (h + 1) (by omega) (by omega))

/-- **Heads.**  In every state of a history, the head of an epoch is the end of the run of its
accepted seqs, the pending seqs are the accepted ones beyond it, and the largest seq seen is the
largest accepted one. -/
theorem heads_of_history {E : Set Event} (hE : Identified E) {env : Env D} {base : List Event}
    {t : ℕ} {s : SharedState D} (h : History E env base t s) (key : EpochKey) :
    IsGreatest {n | ∀ m, 1 ≤ m → m ≤ n → m ∈ seqsOf (s.acceptedSince base).toFinset key}
        (s.head key) ∧
      (∀ n, n ∈ s.pending key ↔
        n ∈ seqsOf (s.acceptedSince base).toFinset key ∧ s.head key < n) ∧
      s.head key + 1 ∉ s.pending key ∧
      ∀ m, s.maxKnownSeqs key = some m ↔
        IsGreatest (seqsOf (s.acceptedSince base).toFinset key : Set ℕ) m := by
  obtain ⟨lost, hkept⟩ := h.kept hE
  have hhead := hkept.books.log.head key
  refine ⟨hhead.isGreatest, hhead.mem_pending, ?_, hkept.books.maxKnownSeqs key⟩
  intro hnext
  exact hhead.next ((hhead.mem_pending _).1 hnext).1

/-- When the second deposit of another node has arrived ahead of its first, the head of its epoch
is `0` and the deposit is pending; a deposit of the node itself has moved its own head to `1`. -/
theorem heads_of_history_gap :
    let env := Env.plain "node" 1000
    let second := (LocalCreateInput.legacy "bucket" "alice" 5 none 0 "n2" false).chargeDraft.event
      "other-2" "other" (1, 2) 900
    let deposit := LocalCreateInput.legacy "bucket" "alice" 7 none 0 "n1" false
    let own : EpochKey := ("bucket", "node", 1)
    let s := (NodeM.exec (newSharedState env) (.blank .empty)).2
    let s₁ := (NodeM.exec ((NodeOp.insert second).program env) s).2
    let s₂ := (NodeM.exec ((NodeOp.create deposit).program env) s₁).2
    IsGreatest {n | ∀ m, 1 ≤ m → m ≤ n →
        m ∈ seqsOf (s₂.acceptedSince []).toFinset second.epochKey} 0 ∧
      IsGreatest {n | ∀ m, 1 ≤ m → m ≤ n → m ∈ seqsOf (s₂.acceptedSince []).toFinset own} 1 ∧
      2 ∈ s₂.pending second.epochKey ∧ s₂.maxKnownSeqs second.epochKey = some 2 := by
  intro env second deposit own s s₁ s₂
  have hE : Identified {e | e ∈ second :: s₂.minted} := identified_of_list (by decide +kernel)
  -- what the node does, evaluated
  have hfacts : ((NodeM.exec ((NodeOp.insert second).program env) s).1 = some () ∧
      (NodeM.exec ((NodeOp.create deposit).program env) s₁).1 = some ()) ∧
      (s.minted = [] ∧ s₁.minted = [] ∧ s₂.minted.Nodup ∧
        ∀ e ∈ s₂.minted, e ∉ s₁.acceptedSince []) ∧
      second.metaTargetBucket = none ∧ s₂.head second.epochKey = 0 ∧ s₂.head own = 1 ∧
      2 ∈ s₂.pending second.epochKey ∧ s₂.maxKnownSeqs second.epochKey = some 2 := by
    decide +kernel
  obtain ⟨⟨hrun₁, hrun₂⟩, ⟨hminted, hminted₁, hnodup, hnew⟩, hmeta, hhead, hhead', hpending,
    hmax⟩ := hfacts
  have h₁ : NodeStep env {e | e ∈ second :: s₂.minted} [] (.insert second) s s₁ := by
    apply NodeStep.of_not_minting hrun₁ _ hminted₁
    refine ⟨List.mem_cons_self, hmeta, fun hmem => ?_⟩
    rw [hminted] at hmem
    cases hmem
  have h₂ : NodeStep env {e | e ∈ second :: s₂.minted} [] (.create deposit) s₁ s₂ := by
    refine ⟨exec_of_fst hrun₂, trivial,
      ⟨hnodup, fun e he => List.mem_cons_of_mem _ he, fun e he _ hknown => hnew e he ?_⟩⟩
    have hknown : e ∈ s₁.acceptedSince [] ++ [] := hknown
    rwa [List.append_nil] at hknown
  have hhistory : History {e | e ∈ second :: s₂.minted} env [] _ s₂ :=
    .step (.step (.first fun _ => rfl) h₁) h₂
  have hspec := heads_of_history hE hhistory second.epochKey
  have hspec' := heads_of_history hE hhistory own
  rw [hhead] at hspec
  rw [hhead'] at hspec'
  clear_value s₂
  exact ⟨hspec.1, hspec'.1, hpending, hmax⟩

/-! ## The accepted events determine the books -/

/-- The two states keep one ledger: they have the same log, and from the instant `t` on their
accounts answer alike. -/
structure SharedState.SameLedgerFrom (env env' : Env D) (t : ℕ) (s s' : SharedState D) : Prop where
  balance : ∀ key, (s'.account key).balance = (s.account key).balance
  eventCount : ∀ key, (s'.account key).eventCount = (s.account key).eventCount
  availableBalance : ∀ key now, t ≤ now →
    (s'.account key).availableBalance now = (s.account key).availableBalance now
  /-- A settle is let through by both or by neither, and mints the same. -/
  settle : ∀ (input : LocalCreateInput) (now : ℕ) (id : String), t ≤ now →
    ((LocalCreateMode.settle id).plan env' input now (s'.account input.balanceKey)).toOption =
      ((LocalCreateMode.settle id).plan env input now (s.account input.balanceKey)).toOption
  release : ∀ (input : LocalCreateInput) (now : ℕ) (id : String), t ≤ now →
    ((LocalCreateMode.release id).plan env' input now (s'.account input.balanceKey)).toOption =
      ((LocalCreateMode.release id).plan env input now (s.account input.balanceKey)).toOption
  head : ∀ key, s'.head key = s.head key
  pending : ∀ key, s'.pending key = s.pending key
  buffered : ∀ key, ∀ n ∈ s.pending key,
    ∃ e, s.eventBuffer (key.at n) = some e ∧ s'.eventBuffer (key.at n) = some e
  maxKnownSeqs : s'.maxKnownSeqs = s.maxKnownSeqs
  accountOriginEpochs : s'.accountOriginEpochs = s.accountOriginEpochs
  digests : s'.digests = s.digests

section Plans

variable {env env' : Env D} {input : LocalCreateInput} {now : ℕ} {acc acc' : AccountState}
  {id : String}

lemma LocalCreateMode.plan_settle_toOption
    (h : (acc'.settleCheck id input.amount now).toOption =
      (acc.settleCheck id input.amount now).toOption) :
    ((LocalCreateMode.settle id).plan env' input now acc').toOption =
      ((LocalCreateMode.settle id).plan env input now acc).toOption := by
  simp only [plan]
  generalize acc'.settleCheck id input.amount now = r' at h ⊢
  generalize acc.settleCheck id input.amount now = r at h ⊢
  rcases r' with _ | ⟨⟩ <;> rcases r with _ | ⟨⟩
  · rfl
  · cases h
  · cases h
  · rfl

lemma LocalCreateMode.plan_release_toOption
    (h : (acc'.openReservation id now).toOption = (acc.openReservation id now).toOption) :
    ((LocalCreateMode.release id).plan env' input now acc').toOption =
      ((LocalCreateMode.release id).plan env input now acc).toOption := by
  simp only [plan]
  generalize acc'.openReservation id now = r' at h ⊢
  generalize acc.openReservation id now = r at h ⊢
  rcases r' with _ | r' <;> rcases r with _ | r
  · rfl
  · cases h
  · cases h
  · rfl

end Plans

/-- Two logs of the same events agree. -/
lemma LogOf.agree {hasher : Hasher D} {A : Finset Event} {s s' : SharedState D}
    (h : LogOf hasher A s) (h' : LogOf hasher A s') :
    (∀ key, s'.head key = s.head key) ∧ (∀ key, s'.pending key = s.pending key) ∧
      (∀ key, ∀ n ∈ s.pending key,
        ∃ e, s.eventBuffer (key.at n) = some e ∧ s'.eventBuffer (key.at n) = some e) ∧
      s'.digests = s.digests := by
  have hhead : ∀ key, s'.head key = s.head key :=
    fun key => (h'.head key).head_unique (h.head key)
  refine ⟨hhead, fun key => (h'.head key).pending_unique (h.head key), ?_, ?_⟩
  · intro key n hn
    obtain ⟨hmem, hbeyond⟩ := ((h.head key).mem_pending n).1 hn
    obtain ⟨e, he, hkey⟩ := mem_seqsOf.1 hmem
    have hepoch : e.epochKey = key ∧ e.originSeq = n := by
      obtain ⟨bucket, node, epoch⟩ := key
      simp only [Event.originKey, EpochKey.at, Prod.mk.injEq] at hkey
      simp [Event.epochKey, hkey]
    obtain ⟨rfl, rfl⟩ := hepoch
    refine ⟨e, ?_, ?_⟩
    · rw [← Event.originKey_eq_at]
      exact h.waiting e he hbeyond
    · rw [← Event.originKey_eq_at]
      exact h'.waiting e he (by rw [hhead]; exact hbeyond)
  · funext key
    obtain ⟨d, hd, hdigest⟩ := h.digest key
    obtain ⟨d', hd', hdigest'⟩ := h'.digest key
    rw [hhead] at hd' hdigest'
    rw [hdigest, hdigest', Chains.unique h.eq_of_originKey hd hd']

/-- **Determinism.**  The accepted events determine the books, but for expired holds. -/
theorem BooksOf.agree {E : Set Event} (hE : Identified E) {env env' : Env D} {hasher : Hasher D}
    {t t' : ℕ} {base base' : List Event} {s s' : SharedState D}
    (h : BooksOf E hasher t base [] s) (h' : BooksOf E hasher t' base' [] s')
    (hsame : ∀ e, e ∈ s'.acceptedSince base' ↔ e ∈ s.acceptedSince base) :
    s.SameLedgerFrom env env' (max t t') s' := by
  have hset : (s'.acceptedSince base').toFinset = (s.acceptedSince base).toFinset := by
    ext e
    simp [hsame]
  have hlog := h'.log
  rw [hset] at hlog
  obtain ⟨hhead, hpending, hbuffered, hdigests⟩ := h.log.agree hlog
  -- both accounts show the replay of one set of events
  have hnodup := h.nodup
  have hnodup' := h'.nodup
  have hknown := h.known
  rw [List.append_nil] at hnodup hnodup' hknown
  have hperm := (List.perm_ext_iff_of_nodup hnodup' hnodup).2 hsame
  have hshows : ∀ key, ∃ full, AccountState.Shows (max t t') (s.account key) full ∧
      AccountState.Shows (max t t') (s'.account key) full := by
    intro key
    have hacc := (h.account key).mono (le_max_left t t')
    have hacc' := (h'.account key).mono (le_max_right t t')
    rw [List.append_nil] at hacc hacc'
    refine ⟨_, hacc, ?_⟩
    rw [← AccountState.replay_perm _ (hperm.symm.filter _)] at hacc'
    · exact hacc'
    · apply hE.pairwise
      · intro e he
        exact hknown e (List.mem_of_mem_filter he)
      · exact hnodup.filter _
  constructor
  · intro key
    obtain ⟨full, hacc, hacc'⟩ := hshows key
    rw [hacc.balance, hacc'.balance]
  · intro key
    obtain ⟨full, hacc, hacc'⟩ := hshows key
    rw [hacc.eventCount, hacc'.eventCount]
  · intro key now hle
    obtain ⟨full, hacc, hacc'⟩ := hshows key
    rw [hacc.availableBalance hle, hacc'.availableBalance hle]
  · intro input now id hle
    obtain ⟨full, hacc, hacc'⟩ := hshows input.balanceKey
    apply LocalCreateMode.plan_settle_toOption
    rw [hacc.settleCheck hle, hacc'.settleCheck hle]
  · intro input now id hle
    obtain ⟨full, hacc, hacc'⟩ := hshows input.balanceKey
    apply LocalCreateMode.plan_release_toOption
    rw [hacc.openReservation hle, hacc'.openReservation hle]
  · exact hhead
  · exact hpending
  · exact hbuffered
  · funext key
    apply Option.ext
    intro m
    rw [h.maxKnownSeqs, h'.maxKnownSeqs, hset]
  · funext key
    rw [h.origins, h'.origins]
    exact epochsOf_congr hsame key
  · exact hdigests

/-! ## Restarts -/

/-- A flushed node and its restart have accepted the same. -/
lemma acceptedSince_restart {E : Set Event} {hasher : Hasher D} {t : ℕ} {base lost : List Event}
    {s s' : SharedState D} {env' : Env D} (h : BooksOf E hasher t base lost s)
    (hflushed : s.Flushed base) (hs : Starts env' s.storage s') (e : Event) :
    e ∈ s'.acceptedSince s.storage.events ↔ e ∈ s.acceptedSince base := by
  rw [hs.rebuilt.acceptedSince]
  exact ⟨h.stored e, hflushed e⟩

/-- **Digests.**  In every state of a history, the digest of an epoch is the fold over the events
at the seqs up to the head, and a restart of the flushed node computes the same digests. -/
theorem digests_of_history {E : Set Event} (hE : Identified E) {env : Env D} {base : List Event}
    {t : ℕ} {s : SharedState D} (h : History E env base t s) :
    (∀ key, 1 ≤ s.head key → ∃ es : List Event, (∀ e ∈ es, e ∈ s.acceptedSince base) ∧
      es.map Event.originKey = (List.range' 1 (s.head key)).map key.at ∧
      s.digests key = some (s.head key,
        es.foldl (fun d e => env.hasher.chain d e.canonical) env.hasher.zero)) ∧
    ∀ (env' : Env D) (s' : SharedState D), s.Flushed base → env'.nodeId = env.nodeId →
      env'.hasher = env.hasher → Starts env' s.storage s' → s'.digests = s.digests := by
  obtain ⟨lost, hkept⟩ := h.kept hE
  constructor
  · intro key hhead
    obtain ⟨d, ⟨es, hes, hkeys, rfl⟩, hdigest⟩ := hkept.books.log.digest key
    refine ⟨es, fun e he => List.mem_toFinset.1 (hes e he), hkeys, ?_⟩
    rw [hdigest, if_neg (by omega)]
  · intro env' s' hflushed hnode hhasher hs
    have hst := History.wellFormed hkept
    rw [← hnode] at hst
    have hlog := (hs.rebuilt.books hE hst).log
    have hset : (s'.acceptedSince s.storage.events).toFinset = (s.acceptedSince base).toFinset := by
      ext e
      simp [acceptedSince_restart hkept.books hflushed hs]
    rw [hset, hhasher] at hlog
    exact (hkept.books.log.agree hlog).2.2.2

/-- Two deposits of another node arrive in the wrong order, the node writes one of its own, and all
are flushed; the digests cover them, before a restart and after it. -/
theorem digests_of_history_flushed :
    let env : Env (List String) :=
      { nodeId := "node"
        hold := { multiplier := 5, durationMs := 600000 }
        hasher := { zero := [], chain := fun d c => d ++ [c] }
        clock := fun _ => 1000
        freshId := fun n => toString n
        storageOutcome := fun _ => .ok }
    let first := (LocalCreateInput.legacy "bucket" "alice" 5 none 0 "n1" false).chargeDraft.event
      "other-1" "other" (1, 1) 900
    let second := (LocalCreateInput.legacy "bucket" "alice" 5 none 0 "n2" false).chargeDraft.event
      "other-2" "other" (1, 2) 900
    let deposit := LocalCreateInput.legacy "bucket" "alice" 7 none 0 "n3" false
    let s := (NodeM.exec (newSharedState env) (.blank .empty)).2
    let s₁ := (NodeM.exec ((NodeOp.insert second).program env) s).2
    let s₂ := (NodeM.exec ((NodeOp.insert first).program env) s₁).2
    let s₃ := (NodeM.exec ((NodeOp.create deposit).program env) s₂).2
    let s₄ := (NodeM.exec ((NodeOp.flush s₃.batchQueue).program env) s₃).2
    let s' := (NodeM.exec (newSharedState env) (.blank s₄.storage)).2
    (∃ es : List Event, s₄.digests first.epochKey = some (2, es.map Event.canonical)) ∧
      (∃ es : List Event, s₄.digests ("bucket", "node", 1) = some (1, es.map Event.canonical)) ∧
      s'.digests = s₄.digests := by
  intro env first second deposit s s₁ s₂ s₃ s₄ s'
  have hE : Identified {e | e ∈ first :: second :: s₃.minted} :=
    identified_of_list (by decide +kernel)
  -- what the node does, evaluated
  have hfacts : ((NodeM.exec ((NodeOp.insert second).program env) s).1 = some () ∧
      (NodeM.exec ((NodeOp.insert first).program env) s₁).1 = some () ∧
      (NodeM.exec ((NodeOp.create deposit).program env) s₂).1 = some () ∧
      (NodeM.exec ((NodeOp.flush s₃.batchQueue).program env) s₃).1 = some () ∧
      (NodeM.exec (newSharedState env) (.blank s₄.storage)).1 = some ()) ∧
      (s.minted = [] ∧ s₁.minted = [] ∧ s₂.minted = [] ∧ s₃.minted.Nodup ∧
        s₄.minted = s₃.minted ∧ ∀ e ∈ s₃.minted, e ∉ s₂.acceptedSince []) ∧
      (first.metaTargetBucket = none ∧ second.metaTargetBucket = none) ∧
      (∀ e ∈ s₃.batchQueue, e ∈ s₃.acceptedSince []) ∧
      (∀ e ∈ s₄.acceptedSince [], e ∈ s₄.storage.events) ∧
      s₄.head first.epochKey = 2 ∧ s₄.head ("bucket", "node", 1) = 1 := by decide +kernel
  obtain ⟨⟨hrun₁, hrun₂, hrun₃, hrun₄, hrun'⟩, ⟨hminted, hminted₁, hminted₂, hnodup, hminted₄,
    hnew⟩, ⟨hmeta, hmeta'⟩, hbatch, hflushed, hhead, hhead'⟩ := hfacts
  have h₁ : NodeStep env {e | e ∈ first :: second :: s₃.minted} [] (.insert second) s s₁ := by
    apply NodeStep.of_not_minting hrun₁ _ hminted₁
    refine ⟨List.mem_cons_of_mem _ List.mem_cons_self, hmeta', fun hmem => ?_⟩
    rw [hminted] at hmem
    cases hmem
  have h₂ : NodeStep env {e | e ∈ first :: second :: s₃.minted} [] (.insert first) s₁ s₂ := by
    apply NodeStep.of_not_minting hrun₂ _ hminted₂
    refine ⟨List.mem_cons_self, hmeta, fun hmem => ?_⟩
    rw [hminted₁] at hmem
    cases hmem
  have h₃ : NodeStep env {e | e ∈ first :: second :: s₃.minted} [] (.create deposit) s₂ s₃ := by
    refine ⟨exec_of_fst hrun₃, trivial,
      ⟨hnodup, fun e he => List.mem_cons_of_mem _ (List.mem_cons_of_mem _ he),
        fun e he _ hknown => hnew e he ?_⟩⟩
    have hknown : e ∈ s₂.acceptedSince [] ++ [] := hknown
    rwa [List.append_nil] at hknown
  have h₄ : NodeStep env {e | e ∈ first :: second :: s₃.minted} [] (.flush s₃.batchQueue)
      s₃ s₄ := by
    refine ⟨exec_of_fst hrun₄, hbatch, ⟨?_, fun e he => ?_, fun e he hnot => ?_⟩⟩
    · rw [hminted₄]
      exact hnodup
    · rw [hminted₄] at he
      exact List.mem_cons_of_mem _ (List.mem_cons_of_mem _ he)
    · rw [hminted₄] at he
      exact absurd he hnot
  have hstart : Starts env s₄.storage s' := ⟨exec_of_fst hrun', fun _ _ => rfl⟩
  have hspec := digests_of_history hE
    (.step (.step (.step (.step (.first fun _ => rfl) h₁) h₂) h₃) h₄)
  have hrestart := hspec.2 env s' hflushed rfl rfl hstart
  have hdigest := hspec.1 first.epochKey
  have hdigest' := hspec.1 ("bucket", "node", 1)
  rw [hhead] at hdigest
  rw [hhead'] at hdigest'
  clear_value s' s₄
  have hfold : ∀ es : List Event,
      es.foldl (fun d e => env.hasher.chain d e.canonical) env.hasher.zero =
        es.map Event.canonical := by
    intro es
    have happend : ∀ (es : List Event) (d : List String),
        es.foldl (fun d e => d ++ [e.canonical]) d = d ++ es.map Event.canonical := by
      intro es
      induction es with
      | nil => simp
      | cons e es ih => simp [ih]
    exact (happend es []).trans (List.nil_append _)
  refine ⟨?_, ?_, hrestart⟩
  · obtain ⟨es, -, -, hdigest⟩ := hdigest (by decide)
    exact ⟨es, by rw [hdigest, ← hfold]⟩
  · obtain ⟨es, -, -, hdigest⟩ := hdigest' (by decide)
    exact ⟨es, by rw [hdigest, ← hfold]⟩

/-- **Restarts.**  As long as no transfer fails at its credit, a restart of a node whose events have
all been flushed keeps the ledger. -/
theorem ledger_of_restart {E : Set Event} (hE : Identified E) {env env' : Env D}
    {base : List Event} {t : ℕ} {s s' : SharedState D} (h : CompleteHistory E env base t s)
    (hflushed : s.Flushed base) (hnode : env'.nodeId = env.nodeId)
    (hhasher : env'.hasher = env.hasher) (hs : Starts env' s.storage s') :
    s.SameLedgerFrom env env' (max t (env'.clock 0)) s' := by
  have hkept := h.kept hE
  have hst := History.wellFormed hkept
  rw [← hnode] at hst
  have hbooks := hs.rebuilt.books hE hst
  rw [hhasher] at hbooks
  exact hkept.books.agree hE hbooks (acceptedSince_restart hkept.books hflushed hs)

/-- A hold that has been flushed is there again after a restart. -/
theorem ledger_of_restart_hold :
    let env := Env.plain "node" 1000
    let reserve :=
      { LocalCreateInput.legacy "bucket" "alice" 0 none 3 "n1" false with
        holdAmount := some 3
        holdExpiresAtUnixMs := some 5000 }
    let s := (NodeM.exec (newSharedState env) (.blank .empty)).2
    let s₁ := (NodeM.exec ((NodeOp.create reserve).program env) s).2
    let s₂ := (NodeM.exec ((NodeOp.flush s₁.minted).program env) s₁).2
    let s' := (NodeM.exec (newSharedState env) (.blank s₂.storage)).2
    (s₂.account ("bucket", "alice")).availableBalance 2000 = -3 ∧
      s₂.SameLedgerFrom env env 1000 s' := by
  intro env reserve s s₁ s₂ s'
  have hE : Identified {e | e ∈ s₁.minted} := identified_of_list (by decide +kernel)
  have h₁ : NodeStep env {e | e ∈ s₁.minted} [] (.create reserve) s s₁ := by
    refine ⟨exec_of_fst (by decide +kernel), trivial, ⟨by decide +kernel, fun e he => he, ?_⟩⟩
    have hnone : s.acceptedSince [] ++ NodeOp.delivered (.create reserve) = [] := by decide +kernel
    rw [hnone]
    simp
  have h₂ : NodeStep env {e | e ∈ s₁.minted} [] (.flush s₁.minted) s₁ s₂ := by
    have hsame : s₂.minted = s₁.minted := by decide +kernel
    refine ⟨exec_of_fst (by decide +kernel), ?_, ⟨by decide +kernel, ?_, ?_⟩⟩
    · have hbatch : ∀ e ∈ s₁.minted, e ∈ s₁.acceptedSince [] := by decide +kernel
      exact hbatch
    · rw [hsame]
      exact fun e he => he
    · rw [hsame]
      exact fun e he hnot => absurd he hnot
  have hstart : Starts env s₂.storage s' := ⟨exec_of_fst (by decide +kernel), fun _ _ => rfl⟩
  have hflushed : s₂.Flushed [] := by
    have h : ∀ e ∈ s₂.acceptedSince [], e ∈ s₂.storage.events := by decide +kernel
    exact h
  have hheld : (s₂.account ("bucket", "alice")).availableBalance 2000 = -3 := by decide +kernel
  have hcompletes : (NodeOp.create reserve).Completes env s := by
    rintro ⟨_, _, _, -, -, -, -, -, -, -, -, -, hmin⟩
    exact absurd hmin (by decide)
  have hsame := ledger_of_restart hE
    (.step (.step (.first fun _ => rfl) hcompletes h₁) (by trivial) h₂) hflushed rfl rfl hstart
  clear_value s' s₂
  exact ⟨hheld, hsame⟩

/-- After a deposit of `1`, a transfer of `i64::MIN` is refused and leaves its debit on the account;
all that has been accepted is flushed, and the restart knows nothing of the debit. -/
theorem not_ledger_of_restart_overflow :
    let env := Env.plain "node" 1000
    let deposit := LocalCreateInput.legacy "bucket" "alice" 1 none 0 "n1" false
    let transfer :=
      { LocalCreateInput.legacy "bucket" "alice" Int64.minValue none 9223372036854775807 "n2" false
        with transferTo := some "bob" }
    let s := (NodeM.exec (newSharedState env) (.blank .empty)).2
    let s₁ := (NodeM.exec ((NodeOp.create deposit).program env) s).2
    let s₂ := (NodeM.exec ((NodeOp.create transfer).program env) s₁).2
    let s₃ := (NodeM.exec ((NodeOp.flush s₂.batchQueue).program env) s₂).2
    let s' := (NodeM.exec (newSharedState env) (.blank s₃.storage)).2
    (∃ E, Identified E ∧ History E env [] 1000 s₃) ∧ s₃.Flushed [] ∧ Starts env s₃.storage s' ∧
      (s₃.account ("bucket", "alice")).balance = -9223372036854775807 ∧
      (s'.account ("bucket", "alice")).balance = 1 ∧
      ¬ s₃.SameLedgerFrom env env 1000 s' := by
  intro env deposit transfer s s₁ s₂ s₃ s'
  have hE : Identified {e | e ∈ s₂.minted} := identified_of_list (by decide +kernel)
  -- what the node does, evaluated
  have hfacts : ((NodeM.exec ((NodeOp.create deposit).program env) s).1 = some () ∧
      (NodeM.exec ((NodeOp.create transfer).program env) s₁).1 = some () ∧
      (NodeM.exec ((NodeOp.flush s₂.batchQueue).program env) s₂).1 = some () ∧
      (NodeM.exec (newSharedState env) (.blank s₃.storage)).1 = some ()) ∧
      (s.minted = [] ∧ s.acceptedSince [] = [] ∧ s₁.minted = s₂.minted.take 1 ∧
        s₁.acceptedSince [] = s₂.minted.take 1 ∧ s₂.minted.Nodup ∧ s₃.minted = s₂.minted) ∧
      (∀ e ∈ s₂.batchQueue, e ∈ s₂.acceptedSince []) ∧
      (∀ e ∈ s₃.acceptedSince [], e ∈ s₃.storage.events) ∧
      (s₃.account ("bucket", "alice")).balance = -9223372036854775807 ∧
      (s'.account ("bucket", "alice")).balance = 1 := by decide +kernel
  obtain ⟨⟨hrun₁, hrun₂, hrun₃, hrun'⟩, ⟨hminted, haccepted, hminted₁, haccepted₁, hnodup,
    hminted₃⟩, hbatch, hflushed, hbefore, hafter⟩ := hfacts
  have h₁ : NodeStep env {e | e ∈ s₂.minted} [] (.create deposit) s s₁ := by
    refine ⟨exec_of_fst hrun₁, trivial, ⟨?_, fun e he => ?_, fun e _ _ hknown => ?_⟩⟩
    · rw [hminted₁]
      exact hnodup.sublist (List.take_sublist 1 _)
    · rw [hminted₁] at he
      exact List.mem_of_mem_take he
    · rw [haccepted] at hknown
      cases hknown
  have h₂ : NodeStep env {e | e ∈ s₂.minted} [] (.create transfer) s₁ s₂ := by
    refine ⟨exec_of_fst hrun₂, trivial, ⟨hnodup, fun e he => he, fun e _ hnot hknown => hnot ?_⟩⟩
    have hknown : e ∈ s₁.acceptedSince [] ++ [] := hknown
    rw [haccepted₁, List.append_nil] at hknown
    rwa [hminted₁]
  have h₃ : NodeStep env {e | e ∈ s₂.minted} [] (.flush s₂.batchQueue) s₂ s₃ := by
    refine ⟨exec_of_fst hrun₃, hbatch, ⟨?_, fun e he => ?_, fun e he hnot => ?_⟩⟩
    · rw [hminted₃]
      exact hnodup
    · rwa [hminted₃] at he
    · rw [hminted₃] at he
      exact absurd he hnot
  have hhistory : History {e | e ∈ s₂.minted} env [] 1000 s₃ :=
    .step (.step (.step (.first fun _ => rfl) h₁) h₂) h₃
  have hstart : Starts env s₃.storage s' := ⟨exec_of_fst hrun', fun _ _ => rfl⟩
  clear_value s' s₃
  refine ⟨⟨_, hE, hhistory⟩, hflushed, hstart, hbefore, hafter, fun hsame => ?_⟩
  have hbalance := hsame.balance ("bucket", "alice")
  rw [hbefore, hafter] at hbalance
  exact absurd hbalance (by decide)

end Shardd
