import Shardd.Gateway.Submission

/-!
# What the reads of a chain depend on

The methods that read a chain fetch the events and balances of the whole mesh, and the gateway's
cache is one for all buckets.  The events are filtered by bucket.  The balances are not, so that a
balance may be that of another bucket; nor is the cache, so that a transaction is found at whatever
bucket it is asked for.
-/

namespace Shardd

/-! ## The methods -/

inductive ChainMethod
  | getBalance
  | getTransactionCount
  | blockNumber
  | getBlockByNumber
  | getBlockByHash
  | getTransactionByHash
  | getTransactionReceipt
  deriving DecidableEq

/-- The methods that ask the cache. -/
def ChainMethod.AsksCache (method : ChainMethod) : Prop :=
  method = .getTransactionByHash ∨ method = .getTransactionReceipt

/-- A transaction that the gateway has sent, with the internal name of the bucket. -/
structure SentTransaction where
  bucket : String
  t : CheckedTransaction
  timestampSecs : ℕ

section Reads

variable (alloy : Alloy) (text : TextLib)

/-- It has passed the checks of a call at that bucket. -/
def SentTransaction.Genuine (s : SentTransaction) : Prop :=
  ∃ (userId : Uuid) (rawBucket : String) (mesh : MeshReplies) (params : Option Json),
    s.bucket = internalBucketForUser userId rawBucket ∧
      checkSubmission alloy text mesh s.bucket rawBucket params = .ok s.t

/-- The cache after these transactions have been sent. -/
def evmTxsOf (history : List SentTransaction) : Map String Json :=
  history.foldl (fun evmTxs s =>
    evmTxs.insert (txHash alloy s.t.rawBytes) (s.t.evmTx alloy s.timestampSecs)) fun _ => none

/-- What the mesh answers, and what the gateway has sent. -/
structure ChainWorld where
  mesh : MeshReplies
  history : List SentTransaction

/-- `evm_rpc_handler` for the methods that read. -/
def chainRead (method : ChainMethod) (w : ChainWorld) (bucket : String) (params : Option Json) :
    RpcResult :=
  match method with
  | .getBalance => ethGetBalance text w.mesh params
  | .getTransactionCount => ethGetTransactionCount text w.mesh bucket params
  | .blockNumber => ethBlockNumber w.mesh bucket
  | .getBlockByNumber => ethGetBlockByNumber alloy text w.mesh bucket params
  | .getBlockByHash => ethGetBlockByHash alloy text w.mesh bucket params
  | .getTransactionByHash =>
      ethGetTransactionByHash alloy text w.mesh bucket params (evmTxsOf alloy w.history)
  | .getTransactionReceipt =>
      ethGetTransactionReceipt alloy text w.mesh bucket params (evmTxsOf alloy w.history)

/-! ## Worlds that agree on a bucket -/

/-- The worlds have the same events, balances and sent transactions of the bucket. -/
structure ChainWorld.AgreeOn (bucket : String) (w w' : ChainWorld) : Prop where
  events : (w.mesh.events.getD []).filter (·.bucket = bucket) =
    (w'.mesh.events.getD []).filter (·.bucket = bucket)
  balances : (w.mesh.balances.getD []).filter (·.bucket = bucket) =
    (w'.mesh.balances.getD []).filter (·.bucket = bucket)
  history : w.history.filter (·.bucket = bucket) = w'.history.filter (·.bucket = bucket)

/-- The request gives the same result in any two worlds that agree on its bucket. -/
def ReadsOwnBucket (method : ChainMethod) (bucket : String) (params : Option Json) : Prop :=
  ∀ w w' : ChainWorld, (∀ s ∈ w.history, s.Genuine alloy text) →
    (∀ s ∈ w'.history, s.Genuine alloy text) → w.AgreeOn bucket w' →
      chainRead alloy text method w bucket params = chainRead alloy text method w' bucket params

/-- The request does not ask for a balance, nor for a transaction that another bucket takes. -/
structure AsksOwnBucket (method : ChainMethod) (bucket : String) (params : Option Json) : Prop where
  balance : method = .getBalance → ∀ address, extractParamStr text params 0 ≠ .ok address
  transaction : method.AsksCache → ∀ hash, extractParamStr text params 0 = .ok hash →
    ∀ s : SentTransaction, s.Genuine alloy text → txHash alloy s.t.rawBytes = text.lowercase hash →
      s.bucket = bucket

end Reads

/-! ## The cache -/

section Cache

variable {alloy : Alloy} {text : TextLib} {bucket hash : String}

/-- What the cache says of a hash is what the last transaction with that hash has left. -/
lemma evmTxsOf_concat (history : List SentTransaction) (s : SentTransaction) :
    evmTxsOf alloy (history ++ [s]) = (evmTxsOf alloy history).insert (txHash alloy s.t.rawBytes)
      (s.t.evmTx alloy s.timestampSecs) :=
  List.foldl_concat ..

lemma evmTxsOf_filter {history : List SentTransaction}
    (hown : ∀ s ∈ history, txHash alloy s.t.rawBytes = hash → s.bucket = bucket) :
    evmTxsOf alloy (history.filter (·.bucket = bucket)) hash = evmTxsOf alloy history hash := by
  induction history using List.reverseRecOn with
  | nil => rfl
  | append_singleton history s ih =>
      have ih := ih fun s hs => hown s (List.mem_append_left _ hs)
      have hs := hown s (List.mem_append_right _ (List.mem_singleton_self _))
      rw [List.filter_append, evmTxsOf_concat, Map.insert_apply]
      by_cases hbucket : s.bucket = bucket
      · rw [List.filter_singleton, decide_eq_true hbucket]
        rw [cond_true, evmTxsOf_concat, Map.insert_apply, ih]
      · rw [if_neg fun heq => hbucket (hs heq.symm), List.filter_singleton,
          decide_eq_false hbucket, cond_false, List.append_nil, ih]

/-- The cache that the calls of a gateway leave is that of a history of genuine transactions. -/
lemma exists_history_send {σ : Type} {history : List SentTransaction} {mesh : MeshReplies}
    {access : MeshAccess σ} {timestampSecs : ℕ} {userId : Uuid} {rawBucket : String}
    {params : Option Json} {nodes : σ} (hhistory : ∀ s ∈ history, s.Genuine alloy text) :
    ∃ history', (∀ s ∈ history', s.Genuine alloy text) ∧
      (ethSendRawTransaction alloy text mesh access timestampSecs
        (internalBucketForUser userId rawBucket) rawBucket params (evmTxsOf alloy history)
          nodes).evmTxs = evmTxsOf alloy history' := by
  cases hcheck : checkSubmission alloy text mesh (internalBucketForUser userId rawBucket) rawBucket
      params with
  | error err =>
      rw [send_of_error hcheck]
      exact ⟨history, hhistory, rfl⟩
  | ok t =>
      rw [send_of_ok hcheck rfl]
      cases (fanOut access (t.request alloy (internalBucketForUser userId rawBucket))
        (fanOutNodes access) ⟨none, nodes, []⟩).lastErr with
      | some err => exact ⟨history, hhistory, rfl⟩
      | none =>
          set sent : SentTransaction := ⟨internalBucketForUser userId rawBucket, t, timestampSecs⟩
          refine ⟨history ++ [sent], fun s hs => ?_, (evmTxsOf_concat history sent).symm⟩
          rcases List.mem_append.1 hs with hs | hs
          · exact hhistory s hs
          · obtain rfl := List.mem_singleton.1 hs
            exact ⟨userId, rawBucket, mesh, params, rfl, hcheck⟩

end Cache

/-! ## What is read of other buckets -/

section Own

variable {alloy : Alloy} {text : TextLib} {bucket hash address : String} {method : ChainMethod}
  {params : Option Json} {w w' : ChainWorld}

lemma ChainWorld.AgreeOn.sorted (h : w.AgreeOn bucket w') :
    w.mesh.getBucketEventsSorted bucket = w'.mesh.getBucketEventsSorted bucket :=
  congrArg (sortBy Event.compareBlocks) h.events

lemma ChainWorld.AgreeOn.cached (h : w.AgreeOn bucket w')
    (hw : ∀ s ∈ w.history, s.Genuine alloy text) (hw' : ∀ s ∈ w'.history, s.Genuine alloy text)
    (hown : ∀ s : SentTransaction, s.Genuine alloy text → txHash alloy s.t.rawBytes = hash →
      s.bucket = bucket) :
    evmTxsOf alloy w.history hash = evmTxsOf alloy w'.history hash := by
  rw [← evmTxsOf_filter fun s hs => hown s (hw s hs), h.history,
    evmTxsOf_filter fun s hs => hown s (hw' s hs)]

/-- A request that asks for nothing of other buckets depends on its own only. -/
lemma AsksOwnBucket.reads (h : AsksOwnBucket alloy text method bucket params) :
    ReadsOwnBucket alloy text method bucket params := by
  intro w w' hw hw' hagree
  have hsorted := hagree.sorted
  have hcached : method.AsksCache → ∀ param, extractParamStr text params 0 = .ok param →
      evmTxsOf alloy w.history (text.lowercase param) =
        evmTxsOf alloy w'.history (text.lowercase param) := fun hasks param hparam =>
    hagree.cached hw hw' (h.transaction hasks param hparam)
  generalize hevents : w.mesh.getBucketEventsSorted bucket = events at hsorted
  cases method with
  | getBalance =>
      show ethGetBalance text w.mesh params = ethGetBalance text w'.mesh params
      cases hparam : extractParamStr text params 0 with
      | error err =>
          have hfails : ∀ mesh : MeshReplies, ethGetBalance text mesh params = .error err := by
            intro mesh
            rw [ethGetBalance, hparam]
            rfl
          rw [hfails, hfails]
      | ok address => exact absurd hparam (h.balance rfl address)
  | getTransactionCount =>
      show ethGetTransactionCount text w.mesh bucket params = _
      rw [ethGetTransactionCount, hevents, hsorted]
      rfl
  | blockNumber =>
      show ethBlockNumber w.mesh bucket = _
      rw [ethBlockNumber, hevents, hsorted]
      rfl
  | getBlockByNumber =>
      show ethGetBlockByNumber alloy text w.mesh bucket params = _
      rw [ethGetBlockByNumber, hevents, hsorted]
      rfl
  | getBlockByHash =>
      show ethGetBlockByHash alloy text w.mesh bucket params = _
      rw [ethGetBlockByHash, hevents, hsorted]
      rfl
  | getTransactionByHash =>
      show ethGetTransactionByHash alloy text w.mesh bucket params (evmTxsOf alloy w.history) =
        ethGetTransactionByHash alloy text w'.mesh bucket params (evmTxsOf alloy w'.history)
      rw [ethGetTransactionByHash, ethGetTransactionByHash, hevents, hsorted]
      cases hparam : extractParamStr text params 0 with
      | error err => rfl
      | ok param =>
          dsimp only [bind, Except.bind]
          rw [hcached (.inl rfl) param hparam]
  | getTransactionReceipt =>
      show ethGetTransactionReceipt alloy text w.mesh bucket params (evmTxsOf alloy w.history) =
        ethGetTransactionReceipt alloy text w'.mesh bucket params (evmTxsOf alloy w'.history)
      rw [ethGetTransactionReceipt, ethGetTransactionReceipt, hevents, hsorted]
      cases hparam : extractParamStr text params 0 with
      | error err => rfl
      | ok param =>
          dsimp only [bind, Except.bind]
          rw [hcached (.inr rfl) param hparam]

/-! ## Requests that read more -/

/-- A balance of the address at another bucket. -/
def foreignRow (bucket address : String) : AccountBalance where
  bucket := bucket ++ "'"
  account := address
  balance := 1
  availableBalance := 1
  activeHoldTotal := 0
  reservedByOrigin := ∅
  eventCount := 1

/-- A world in which nobody has anything. -/
def emptyWorld : ChainWorld := ⟨⟨some [], some []⟩, []⟩

lemma chainRead_getBalance (hparam : extractParamStr text params 0 = .ok address) (w : ChainWorld) :
    chainRead alloy text .getBalance w bucket params =
      .ok (.string (weiText (balanceOf text w.mesh.queryBalances address))) := by
  show ethGetBalance text w.mesh params = _
  rw [ethGetBalance, hparam]
  rfl

lemma balanceOf_foreignRow : balanceOf text [foreignRow bucket address] address = 1 := by
  have hfind : [foreignRow bucket address].find?
      (fun b => text.lowercase b.account = text.lowercase address) =
        some (foreignRow bucket address) := List.find?_cons_of_pos (decide_eq_true rfl)
  rw [balanceOf, hfind]
  rfl

lemma foreign_ne (bucket : String) : bucket ++ "'" ≠ bucket := by
  intro h
  have hlength := congrArg String.length h
  rw [String.length_append] at hlength
  have hone : "'".length = 1 := by decide
  omega

/-- A balance of another bucket is shown. -/
lemma not_reads_of_balance (hparam : extractParamStr text params 0 = .ok address) :
    ¬ ReadsOwnBucket alloy text .getBalance bucket params := by
  intro hreads
  set row := foreignRow bucket address
  have hfiltered : [row].filter (·.bucket = bucket) = [] := by
    have hother : decide (row.bucket = bucket) = false := decide_eq_false (foreign_ne bucket)
    rw [List.filter_singleton, hother, cond_false]
  have hsame := hreads emptyWorld ⟨⟨some [], some [row]⟩, []⟩
    (fun s hs => absurd hs List.not_mem_nil) (fun s hs => absurd hs List.not_mem_nil)
    ⟨rfl, hfiltered.symm, rfl⟩
  rw [chainRead_getBalance hparam, chainRead_getBalance hparam] at hsame
  have htext : weiText 0 = weiText (balanceOf text [row] address) :=
    Json.string.inj (Except.ok.inj hsame)
  rw [balanceOf_foreignRow] at htext
  exact absurd (hexNumber_injective htext) (by decide)

/-- A transaction that another bucket takes is found. -/
lemma not_reads_of_transaction {s : SentTransaction} (hasks : method.AsksCache)
    (hparam : extractParamStr text params 0 = .ok hash) (hgenuine : s.Genuine alloy text)
    (hhash : txHash alloy s.t.rawBytes = text.lowercase hash) (hother : s.bucket ≠ bucket) :
    ¬ ReadsOwnBucket alloy text method bucket params := by
  intro hreads
  have hfiltered : [s].filter (·.bucket = bucket) = [] := by
    rw [List.filter_singleton, decide_eq_false hother, cond_false]
  have hsame := hreads emptyWorld ⟨⟨some [], some []⟩, [s]⟩
    (fun s hs => absurd hs List.not_mem_nil)
    (fun s' hs' => List.mem_singleton.1 hs' ▸ hgenuine) ⟨rfl, rfl, hfiltered.symm⟩
  have hcached : evmTxsOf alloy [s] (text.lowercase hash) =
      some (s.t.evmTx alloy s.timestampSecs) :=
    hhash ▸ (congrFun (evmTxsOf_concat [] s) _).trans (Map.insert_self _ _ _)
  have hevents : emptyWorld.mesh.getBucketEventsSorted bucket = [] :=
    List.mergeSort_nil
  rcases hasks with rfl | rfl
  · have hnothing : chainRead alloy text .getTransactionByHash emptyWorld bucket params =
        .ok .null := by
      show ethGetTransactionByHash alloy text emptyWorld.mesh bucket params (evmTxsOf alloy []) = _
      rw [ethGetTransactionByHash, hparam, hevents]
      rfl
    have hfound : chainRead alloy text .getTransactionByHash ⟨⟨some [], some []⟩, [s]⟩ bucket
        params = .ok (s.t.evmTx alloy s.timestampSecs) := by
      show ethGetTransactionByHash alloy text emptyWorld.mesh bucket params (evmTxsOf alloy [s]) = _
      rw [ethGetTransactionByHash, hparam, hevents]
      dsimp only [bind, Except.bind]
      rw [hcached]
      rfl
    rw [hnothing, hfound] at hsame
    cases hsame
  · have hnothing : chainRead alloy text .getTransactionReceipt emptyWorld bucket params =
        .ok .null := by
      show ethGetTransactionReceipt alloy text emptyWorld.mesh bucket params
        (evmTxsOf alloy []) = _
      rw [ethGetTransactionReceipt, hparam, hevents]
      rfl
    have hfound : ∃ entries, chainRead alloy text .getTransactionReceipt
        ⟨⟨some [], some []⟩, [s]⟩ bucket params = .ok (.object entries) := by
      show ∃ entries, ethGetTransactionReceipt alloy text emptyWorld.mesh bucket params
        (evmTxsOf alloy [s]) = .ok (.object entries)
      rw [ethGetTransactionReceipt, hparam, hevents]
      dsimp only [bind, Except.bind]
      rw [hcached]
      exact ⟨_, rfl⟩
    obtain ⟨entries, hfound⟩ := hfound
    rw [hnothing, hfound] at hsame
    cases hsame

/-- **Reads of a chain.**  A request depends on its own bucket only exactly when it asks neither for
a balance nor for a transaction that another bucket takes. -/
theorem readsOwnBucket_iff (alloy : Alloy) (text : TextLib) (method : ChainMethod)
    (bucket : String) (params : Option Json) :
    ReadsOwnBucket alloy text method bucket params ↔
      AsksOwnBucket alloy text method bucket params := by
  refine ⟨fun hreads => ⟨fun hbalance address hparam => ?_,
    fun hasks hash hparam s hgenuine hhash => ?_⟩, AsksOwnBucket.reads⟩
  · subst hbalance
    exact not_reads_of_balance hparam hreads
  · by_contra hother
    exact not_reads_of_transaction hasks hparam hgenuine hhash hother hreads

/-- The balance of an address that has one credit at another bucket only. -/
theorem balance_of_another_bucket :
    ChainWorld.AgreeOn "b" emptyWorld ⟨⟨some [], some [foreignRow "b" "0x01"]⟩, []⟩ ∧
      chainRead testAlloy plainText .getBalance emptyWorld "b" (oneParam "0x01") =
        .ok (.string "0x0") ∧
      chainRead testAlloy plainText .getBalance ⟨⟨some [], some [foreignRow "b" "0x01"]⟩, []⟩ "b"
        (oneParam "0x01") = .ok (.string "0xde0b6b3a7640000") ∧
      ¬ ReadsOwnBucket testAlloy plainText .getBalance "b" (oneParam "0x01") := by
  have hfiltered : [foreignRow "b" "0x01"].filter (·.bucket = "b") = [] := by
    have hother : decide ((foreignRow "b" "0x01").bucket = "b") = false :=
      decide_eq_false (foreign_ne "b")
    rw [List.filter_singleton, hother, cond_false]
  refine ⟨⟨rfl, hfiltered.symm, rfl⟩, ?_, ?_, not_reads_of_balance rfl⟩
  · have hzero : weiText 0 = "0x0" := by decide
    rw [chainRead_getBalance rfl]
    show Except.ok (Json.string (weiText 0)) = _
    rw [hzero]
  · have hbalance : balanceOf plainText [foreignRow "b" "0x01"] "0x01" = 1 := balanceOf_foreignRow
    rw [chainRead_getBalance rfl]
    show Except.ok (Json.string (weiText (balanceOf plainText [foreignRow "b" "0x01"] "0x01"))) = _
    have hone : weiText 1 = "0xde0b6b3a7640000" := by decide
    rw [hbalance, hone]

end Own

end Shardd
