import Shardd.Gateway.Chain

/-!
# The blocks of a bucket

The events of a bucket are its blocks, numbered from zero, and `eth_blockNumber` is how many there
are, so that it is the number of no block, and the block that is `latest` has the number before it.
The blocks that there are form a chain; a transaction is found in its block unless the cache answers
for it, or an earlier event has the same hash, as the credit of a transfer has that of its debit.
-/

namespace Shardd

/-! ## Numbers and hashes as texts -/

section Texts

/-- A number is none of the words for a block. -/
lemma hexNumber_ne {word : String} (hword : word.toList.head? ≠ some '0') (n : ℕ) :
    hexNumber n ≠ word := by
  rintro rfl
  rw [toList_hexNumber] at hword
  exact hword rfl

lemma blockIndex_hexNumber (events : List Event) (k : ℕ) :
    blockIndex events (hexNumber k) = if k < 2 ^ 64 then k else 0 := by
  have hlatest : ¬ (hexNumber k = "latest" ∨ hexNumber k = "pending") := by
    rintro (h | h)
    · exact hexNumber_ne (by decide) k h
    · exact hexNumber_ne (by decide) k h
  rw [blockIndex, if_neg hlatest, if_neg (hexNumber_ne (by decide) k), trimHexPrefix_hexNumber,
    parseHex_toDigits]
  split <;> rfl

lemma blockIndex_latest (events : List Event) : blockIndex events "latest" = events.length - 1 :=
  if_pos (.inl rfl)

lemma B256.text_injective : Function.Injective B256.text := by
  intro a b h
  have htext : String.ofList (hexEncode a.bytes) = String.ofList (hexEncode b.bytes) :=
    (String.append_right_inj _).1 h
  have hbytes := hexEncode_injective (String.ofList_injective htext)
  cases a
  cases b
  congr

end Texts

/-! ## One consistent chain -/

section View

variable (alloy : Alloy) (text : TextLib) (evmTxs : Map String Json) (mesh : MeshReplies)
  (bucket : String)

def blockByNumber (number : String) : RpcResult :=
  ethGetBlockByNumber alloy text mesh bucket (oneParam number)

/-- The hashes of the transactions that a block lists. -/
def listedTxs (block : Json) : List String :=
  (((block.get "transactions").bind Json.asArray).getD []).filterMap Json.asStr

/-- The transaction or receipt names the number and the hash of the block. -/
def NamesBlock (block answer : Json) : Prop :=
  answer.text "blockNumber" = block.text "number" ∧ answer.text "blockHash" = block.text "hash"

/-- The blocks whose numbers are below `m` are all there, the last of them is the latest, each has
the hash of the one before it, and what their hashes and those of their transactions lead to are
these blocks again. -/
structure ChainBelow (m : ℕ) : Prop where
  present : ∀ k < m, ∃ entries, blockByNumber alloy text mesh bucket (hexNumber k) =
    .ok (.object entries)
  latest : blockByNumber alloy text mesh bucket "latest" =
    blockByNumber alloy text mesh bucket (hexNumber (m - 1))
  linked : ∀ k, k + 1 < m → ∀ before block,
    blockByNumber alloy text mesh bucket (hexNumber k) = .ok before →
    blockByNumber alloy text mesh bucket (hexNumber (k + 1)) = .ok block →
      block.text "parentHash" = before.text "hash"
  byHash : ∀ k < m, ∀ block hash,
    blockByNumber alloy text mesh bucket (hexNumber k) = .ok block →
    block.text "hash" = some hash →
      ethGetBlockByHash alloy text mesh bucket (oneParam hash) = .ok block
  transactions : ∀ k < m, ∀ block,
    blockByNumber alloy text mesh bucket (hexNumber k) = .ok block →
    ∀ hash ∈ listedTxs block,
      (∃ tx, ethGetTransactionByHash alloy text mesh bucket (oneParam hash) evmTxs = .ok tx ∧
        NamesBlock block tx) ∧
      ∃ tx, ethGetTransactionReceipt alloy text mesh bucket (oneParam hash) evmTxs = .ok tx ∧
        NamesBlock block tx

/-- The chain is consistent up to the block that `eth_blockNumber` names. -/
def ConsistentChain : Prop :=
  ∀ n, ethBlockNumber mesh bucket = .ok (.string (hexNumber n)) →
    ChainBelow alloy text evmTxs mesh bucket (n + 1)

end View

/-! ## The blocks that there are -/

section Blocks

variable {alloy : Alloy} {text : TextLib} {evmTxs : Map String Json} {mesh : MeshReplies}
  {bucket : String}

lemma blockByNumber_eq (number : String) :
    blockByNumber alloy text mesh bucket number =
      if h : blockIndex (mesh.getBucketEventsSorted bucket) number <
          (mesh.getBucketEventsSorted bucket).length then
        .ok (buildBlockResponse alloy text (mesh.getBucketEventsSorted bucket) ⟨_, h⟩)
      else .ok .null := by
  show (if h : _ then _ else _ : RpcResult) = _
  rfl

lemma blockByNumber_congr {number number' : String}
    (h : blockIndex (mesh.getBucketEventsSorted bucket) number =
      blockIndex (mesh.getBucketEventsSorted bucket) number') :
    blockByNumber alloy text mesh bucket number = blockByNumber alloy text mesh bucket number' := by
  rw [blockByNumber_eq, blockByNumber_eq]
  simp only [h]

/-- The block of an index below the number of events. -/
lemma blockByNumber_of_index {number : String} {k : ℕ}
    (hindex : blockIndex (mesh.getBucketEventsSorted bucket) number = k)
    (hk : k < (mesh.getBucketEventsSorted bucket).length) :
    blockByNumber alloy text mesh bucket number =
      .ok (buildBlockResponse alloy text (mesh.getBucketEventsSorted bucket) ⟨k, hk⟩) := by
  subst hindex
  rw [blockByNumber_eq, dif_pos hk]

lemma blockByNumber_of_le {number : String} {k : ℕ}
    (hindex : blockIndex (mesh.getBucketEventsSorted bucket) number = k)
    (hk : (mesh.getBucketEventsSorted bucket).length ≤ k) :
    blockByNumber alloy text mesh bucket number = .ok .null := by
  subst hindex
  rw [blockByNumber_eq, dif_neg hk.not_gt]

section Lookups

variable {events : List Event} {hash : String} {idx : Fin events.length}

lemma blockByHash_of_found (hevents : mesh.getBucketEventsSorted bucket = events)
    (hfind : events.findFinIdx? (fun event =>
      (blockHashForEvent alloy event).text = text.lowercase hash) = some idx) :
    ethGetBlockByHash alloy text mesh bucket (oneParam hash) =
      .ok (buildBlockResponse alloy text events idx) := by
  subst hevents
  rw [ethGetBlockByHash, extractParamStr_oneParam]
  dsimp only [bind, Except.bind]
  rw [hfind]
  rfl

lemma transactionByHash_of_found (hevents : mesh.getBucketEventsSorted bucket = events)
    (hmiss : evmTxs (text.lowercase hash) = none)
    (hfind : events.findFinIdx? (fun event =>
      HasTxHash alloy text (text.lowercase hash) event) = some idx) :
    ethGetTransactionByHash alloy text mesh bucket (oneParam hash) evmTxs =
      .ok (buildTxObject alloy text (events.get idx) idx) := by
  rw [ethGetTransactionByHash, extractParamStr_oneParam, hevents]
  dsimp only [bind, Except.bind]
  rw [hmiss]
  dsimp only
  rw [transactionIn, hfind]
  rfl

lemma transactionReceipt_of_found (hevents : mesh.getBucketEventsSorted bucket = events)
    (hmiss : evmTxs (text.lowercase hash) = none)
    (hfind : events.findFinIdx? (fun event =>
      HasTxHash alloy text (text.lowercase hash) event) = some idx) :
    ethGetTransactionReceipt alloy text mesh bucket (oneParam hash) evmTxs =
      .ok (receipt hash (hexNumber idx) (blockHashForEvent alloy (events.get idx)).text
        (events.get idx).account (extractToFromEvent text (events.get idx))) := by
  rw [ethGetTransactionReceipt, extractParamStr_oneParam, hevents]
  dsimp only [bind, Except.bind]
  rw [hmiss]
  dsimp only
  rw [receiptIn, hfind]
  rfl

end Lookups

section Fields

variable {events : List Event} {k : Fin events.length}

lemma number_block : (buildBlockResponse alloy text events k).text "number" =
    some (hexNumber k) := rfl

end Fields

/-- **The chain ends too early.**  Whatever the events of the bucket and the cache are, the chain is
not consistent up to the block that `eth_blockNumber` names. -/
theorem not_consistentChain (alloy : Alloy) (text : TextLib) (evmTxs : Map String Json)
    (mesh : MeshReplies) (bucket : String) :
    ¬ ConsistentChain alloy text evmTxs mesh bucket := by
  intro hchain
  set events := mesh.getBucketEventsSorted bucket with hevents
  have hview := hchain events.length rfl
  obtain ⟨entries, hpresent⟩ := hview.present events.length (Nat.lt_succ_self _)
  have hindex := blockIndex_hexNumber events events.length
  by_cases hword : events.length < 2 ^ 64
  · -- the block of that number is one behind the last
    rw [if_pos hword] at hindex
    rw [blockByNumber_of_le hindex le_rfl] at hpresent
    cases hpresent
  · -- the number does not fit a word, and is read as that of the first block
    rw [if_neg hword] at hindex
    have hpos : 0 < events.length := by omega
    have hlast : events.length - 1 < events.length := Nat.sub_lt hpos Nat.one_pos
    have hlatest := hview.latest
    rw [blockByNumber_of_index (blockIndex_latest events) hlast, Nat.add_sub_cancel,
      blockByNumber_of_index hindex hpos] at hlatest
    have hnumber := congrArg (Json.text "number") (Except.ok.inj hlatest)
    rw [number_block, number_block] at hnumber
    have hzero : events.length - 1 = 0 := hexNumber_injective (Option.some.inj hnumber)
    omega

/-! ### A bucket with one event -/

def soleEvent : Event where
  eventId := "test"
  originNodeId := "node"
  originEpoch := 1
  originSeq := 1
  createdAtUnixMs := 1000
  type := .standard
  bucket := "b"
  account := "alice"
  amount := 5
  note := none
  idempotencyNonce := "n1"
  voidRef := none
  holdAmount := 0
  holdExpiresAtUnixMs := 0
  transferTo := none

def soleMesh : MeshReplies := ⟨some [soleEvent], some []⟩

lemma events_soleMesh : soleMesh.getBucketEventsSorted "b" = [soleEvent] :=
  List.mergeSort_singleton soleEvent

/-- The block number is 1, there is no block 1, and the latest block is block 0. -/
theorem chain_of_one_event :
    ethBlockNumber soleMesh "b" = .ok (.string "0x1") ∧
      blockByNumber testAlloy plainText soleMesh "b" "0x1" = .ok .null ∧
      blockByNumber testAlloy plainText soleMesh "b" "latest" =
        blockByNumber testAlloy plainText soleMesh "b" "0x0" ∧
      ¬ ConsistentChain testAlloy plainText (fun _ => none) soleMesh "b" := by
  have hnumber : hexNumber 1 = "0x1" := by decide
  have hblock : blockByNumber testAlloy plainText soleMesh "b" "0x1" = .ok .null := by
    have hindex : blockIndex (soleMesh.getBucketEventsSorted "b") "0x1" = 1 := by
      rw [← hnumber, blockIndex_hexNumber]
      rfl
    exact blockByNumber_of_le hindex (by rw [events_soleMesh]; rfl)
  refine ⟨?_, hblock, ?_, fun hchain => ?_⟩
  · rw [ethBlockNumber, events_soleMesh]
    rfl
  · have hzero : hexNumber 0 = "0x0" := by decide
    refine blockByNumber_congr ?_
    rw [blockIndex_latest, events_soleMesh, ← hzero, blockIndex_hexNumber]
    rfl
  · have hview := hchain 1 (by rw [ethBlockNumber, events_soleMesh]; rfl)
    obtain ⟨entries, hpresent⟩ := hview.present 1 (by decide)
    rw [hnumber, hblock] at hpresent
    cases hpresent

/-! ## As far as it goes -/

/-- The blocks below the one that `eth_blockNumber` names do form a consistent chain when their
hashes differ, the cache knows none of their transactions, and no earlier event has the hash of a
transaction. -/
theorem chainBelow_length {events : List Event}
    (hevents : mesh.getBucketEventsSorted bucket = events) (hword : events.length < 2 ^ 64)
    (hlower : ∀ hash : B256, text.lowercase hash.text = hash.text)
    (hdistinct : ∀ i j : Fin events.length,
      idHash alloy (events.get i) = idHash alloy (events.get j) → i = j)
    (huncached : ∀ event ∈ events, evmTxs (extractTxHashFromEvent alloy text event).text = none)
    (hfirst : ∀ i j : Fin events.length,
      HasTxHash alloy text (extractTxHashFromEvent alloy text (events.get i)).text (events.get j) →
        i ≤ j) :
    ChainBelow alloy text evmTxs mesh bucket events.length := by
  subst hevents
  set events := mesh.getBucketEventsSorted bucket with hevents
  have hblock : ∀ {k : ℕ} (hk : k < events.length),
      blockByNumber alloy text mesh bucket (hexNumber k) =
        .ok (buildBlockResponse alloy text events ⟨k, hk⟩) := fun {k} hk =>
    blockByNumber_of_index ((blockIndex_hexNumber events k).trans (if_pos (hk.trans hword))) hk
  -- the transaction of a block leads to its index
  have hfind : ∀ k : Fin events.length, events.findFinIdx? (fun event =>
      HasTxHash alloy text (text.lowercase (extractTxHashFromEvent alloy text (events.get k)).text)
        event) = some k := by
    intro k
    rw [hlower, List.findFinIdx?_eq_some_iff]
    exact ⟨decide_eq_true (.inl rfl), fun j hjk hhas =>
      (hfirst k j (of_decide_eq_true hhas)).not_gt hjk⟩
  refine ⟨fun k hk => ⟨_, hblock hk⟩, blockByNumber_congr ?_,
    fun k hk before block hbefore hnext => ?_, fun k hk block hash hnumber hhash => ?_,
    fun k hk block hnumber hash hlisted => ?_⟩
  · rw [blockIndex_latest, blockIndex_hexNumber, if_pos (by omega)]
  · rw [hblock (by omega)] at hbefore
    rw [hblock hk] at hnext
    obtain rfl := Except.ok.inj hbefore
    obtain rfl := Except.ok.inj hnext
    rfl
  · rw [hblock hk] at hnumber
    obtain rfl := Except.ok.inj hnumber
    obtain rfl : (idHash alloy (events.get ⟨k, hk⟩)).text = hash := Option.some.inj hhash
    have hindex : events.findFinIdx? (fun event => (blockHashForEvent alloy event).text =
        text.lowercase (idHash alloy (events.get ⟨k, hk⟩)).text) = some ⟨k, hk⟩ := by
      rw [hlower, List.findFinIdx?_eq_some_iff]
      refine ⟨decide_eq_true rfl, fun j hjk hsame => ?_⟩
      have hsame := B256.text_injective (of_decide_eq_true hsame)
      exact hjk.ne (hdistinct j ⟨k, hk⟩ hsame)
    exact blockByHash_of_found rfl hindex
  · rw [hblock hk] at hnumber
    obtain rfl := Except.ok.inj hnumber
    obtain rfl := List.mem_singleton.1 hlisted
    have hmiss := huncached (events.get ⟨k, hk⟩) (List.get_mem _ _)
    rw [← hlower] at hmiss
    exact ⟨⟨_, transactionByHash_of_found rfl hmiss (hfind ⟨k, hk⟩), rfl, rfl⟩,
      _, transactionReceipt_of_found rfl hmiss (hfind ⟨k, hk⟩), rfl, rfl⟩

end Blocks

end Shardd
