import Shardd.Gateway.Transactions
import Shardd.Lib.Json
import Shardd.Lib.Ranking

/-!
# A bucket as a chain (`apps/gateway/src/evm_rpc.rs`)

Wallets read a bucket as an Ethereum chain: its events, in the order of time, are the blocks, each
with one transaction.  Every method asks the mesh for all events or all balances anew and looks in
them for what it needs; transactions that this gateway has sent are kept in a cache of their own,
which is asked first.
-/

namespace Shardd

/-! ## Texts -/

/-- What the gateway takes from its text libraries: `str::to_lowercase`, and the parser and the
printer of JSON values. -/
structure TextLib where
  lowercase : String → String
  parse : String → Option Json
  render : Json → String

/-- `format!("0x{:x}", n)`. -/
def hexNumber (n : ℕ) : String := "0x" ++ String.ofList (Nat.toDigits 16 n)

/-- `format!("0x{:x}", hash)`. -/
def B256.text (hash : B256) : String := "0x" ++ String.ofList (hexEncode hash.bytes)

lemma trimHexPrefix_of_hexDigits {digits : List Char} (h : ∀ c ∈ digits, IsHexDigit c) :
    trimHexPrefix digits = digits := by
  unfold trimHexPrefix
  split
  · have hx : IsHexDigit 'x' := h 'x' (List.mem_cons_of_mem _ List.mem_cons_self)
    exact absurd hx (by decide)
  · rfl

lemma toList_hexNumber (n : ℕ) : (hexNumber n).toList = '0' :: 'x' :: Nat.toDigits 16 n := by
  simp [hexNumber]

lemma trimHexPrefix_hexNumber (n : ℕ) :
    trimHexPrefix (hexNumber n).toList = Nat.toDigits 16 n := by
  rw [toList_hexNumber, trimHexPrefix]
  exact trimHexPrefix_of_hexDigits fun c hc => isHexDigit_of_mem_toDigits hc

lemma hexNumber_injective : Function.Injective hexNumber := by
  intro m n h
  have hdigits : Nat.toDigits 16 m = Nat.toDigits 16 n := by
    rw [← trimHexPrefix_hexNumber, h, trimHexPrefix_hexNumber]
  have hread := parseHex_toDigits (m + n + 1) m
  rw [hdigits, parseHex_toDigits, if_pos (by omega), if_pos (by omega)] at hread
  exact (Option.some.inj hread).symm

def emptyBloom : String := "0x" ++ String.ofList (List.replicate 512 '0')

def zeroHash : String := "0x0000000000000000000000000000000000000000000000000000000000000000"

def zeroAddr : String := "0x0000000000000000000000000000000000000000"

def unclesHash : String := "0x1dcc4de8dec75d7aab85b567b6ccd41ad312451b948a7413f0a142fd40d49347"

abbrev RpcResult := Except EvmRpcErrorBody Json

section Methods

variable (alloy : Alloy) (text : TextLib)

def extractParamStr (params : Option Json) (index : ℕ) : Except EvmRpcErrorBody String :=
  match params.bind Json.asArray with
  | none => .error ⟨-32602, "params must be an array"⟩
  | some items =>
    match items[index]? with
    | none => .error ⟨-32602, "missing param at index " ++ toString index⟩
    | some (.string s) => .ok s
    | some .null => .ok zeroAddr
    | some val => .ok (text.render val)

/-- The parameters of a method that takes one text. -/
def oneParam (param : String) : Option Json := some (.array [.string param])

variable {text} in
lemma extractParamStr_oneParam (param : String) :
    extractParamStr text (oneParam param) 0 = .ok param := rfl

/-! ## What the mesh answers -/

/-- What is answered to a request for the events and to one for the balances; `none` stands for
every failure. -/
structure MeshReplies where
  events : Option (List Event)
  balances : Option (List AccountBalance)

/-- By time, and then by id. -/
def Event.compareBlocks (a b : Event) : Ordering :=
  (compare a.createdAtUnixMs b.createdAtUnixMs).then (compare a.eventId b.eventId)

namespace MeshReplies

variable (mesh : MeshReplies) (bucket : String)

def getBucketEventsSorted : List Event :=
  sortBy Event.compareBlocks ((mesh.events.getD []).filter (·.bucket = bucket))

/-- The balances of all buckets. -/
def queryBalances : List AccountBalance := mesh.balances.getD []

end MeshReplies

/-! ## Accounts -/

section Accounts

variable (mesh : MeshReplies) (bucket : String) (params : Option Json)

/-- The balance of the first account with that name, in any bucket. -/
def balanceOf (accounts : List AccountBalance) (address : String) : Int64 :=
  ((accounts.find? fun b =>
    text.lowercase b.account = text.lowercase address).map (·.balance)).getD 0

/-- A balance in wei. -/
def weiText (balance : Int64) : String :=
  hexNumber ((max balance.toInt 0).toNat * evmWeiScale)

def ethGetBalance : RpcResult := do
  let address ← extractParamStr text params 0
  return .string (weiText (balanceOf text mesh.queryBalances address))

/-- The events with which an address has been debited. -/
def nonceOf (events : List Event) (address : String) : ℕ :=
  events.countP fun e => decide (text.lowercase e.account = text.lowercase address ∧ e.amount < 0)

def ethGetTransactionCount : RpcResult := do
  let address ← extractParamStr text params 0
  return .string (hexNumber (nonceOf text (mesh.getBucketEventsSorted bucket) address))

def ethBlockNumber : RpcResult :=
  .ok (.string (hexNumber (mesh.getBucketEventsSorted bucket).length))

end Accounts

/-! ## Blocks and transactions -/

/-- The hash of the id of an event. -/
def idHash (event : Event) : B256 := alloy.keccak256 event.eventId.toByteArray.data.toList

def blockHashForEvent (event : Event) : B256 := idHash alloy event

/-- What the note of a transaction says under a key. -/
def evmField (event : Event) (key : String) : Option Json :=
  ((event.note.bind text.parse).bind (Json.get "evm")).bind (Json.get key)

def extractTxHashFromEvent (event : Event) : B256 :=
  match ((evmField text event "tx_hash").bind Json.asStr).bind fun txHash =>
      hexDecode (trimHexPrefix txHash.toList) with
  | some bytes => if h : bytes.length = 32 then ⟨bytes, h⟩ else idHash alloy event
  | none => idHash alloy event

def extractToFromEvent (event : Event) : String :=
  ((evmField text event "to").bind Json.asStr).getD zeroAddr

def buildTxObject (event : Event) (blockNum : ℕ) : Json :=
  let nonce := (evmField text event "nonce").bind Json.asU64
  let value := if event.amount < 0 then event.amount.toInt.natAbs * evmWeiScale else 0
  .object [
    ("hash", .string (extractTxHashFromEvent alloy text event).text),
    ("nonce", .string (hexNumber (nonce.getD 0).toNat)),
    ("blockHash", .string (blockHashForEvent alloy event).text),
    ("blockNumber", .string (hexNumber blockNum)),
    ("transactionIndex", .string "0x0"),
    ("from", .string event.account),
    ("to", .string (extractToFromEvent text event)),
    ("value", .string (hexNumber value)),
    ("gas", .string "0x5208"),
    ("gasPrice", .string "0x0"),
    ("input", .string "0x"),
    ("chainId", .string "0x0"),
    ("v", .string "0x0"),
    ("r", .string zeroHash),
    ("s", .string zeroHash)]

def buildBlockResponse (events : List Event) (blockNum : Fin events.length) : Json :=
  let event := events[blockNum]
  let parentHash := if blockNum.val = 0 then zeroHash
    else (blockHashForEvent alloy events[blockNum.val - 1]).text
  .object [
    ("number", .string (hexNumber blockNum)),
    ("hash", .string (blockHashForEvent alloy event).text),
    ("parentHash", .string parentHash),
    ("timestamp", .string (hexNumber (event.createdAtUnixMs / 1000))),
    ("miner", .string zeroAddr),
    ("difficulty", .string "0x0"),
    ("totalDifficulty", .string "0x0"),
    ("gasLimit", .string "0x5208"),
    ("gasUsed", .string "0x5208"),
    ("extraData", .string "0x"),
    ("logsBloom", .string emptyBloom),
    ("receiptsRoot", .string zeroHash),
    ("stateRoot", .string zeroHash),
    ("transactions", .array [.string (extractTxHashFromEvent alloy text event).text]),
    ("size", .string "0x0"),
    ("uncles", .array []),
    ("sha3Uncles", .string unclesHash),
    ("nonce", .string "0x0000000000000000"),
    ("mixHash", .string zeroHash),
    ("baseFeePerGas", .string "0x0")]

section Queries

variable (mesh : MeshReplies) (bucket : String) (params : Option Json)

def blockIndex (events : List Event) (blockNumStr : String) : ℕ :=
  if blockNumStr = "latest" ∨ blockNumStr = "pending" then events.length - 1
  else if blockNumStr = "earliest" then 0
  else (parseHex (2 ^ 64) (trimHexPrefix blockNumStr.toList)).getD 0

def ethGetBlockByNumber : RpcResult := do
  let blockNumStr ← extractParamStr text params 0
  let events := mesh.getBucketEventsSorted bucket
  if h : blockIndex events blockNumStr < events.length then
    return buildBlockResponse alloy text events ⟨_, h⟩
  else return .null

def ethGetBlockByHash : RpcResult := do
  let hashStr ← extractParamStr text params 0
  let events := mesh.getBucketEventsSorted bucket
  match events.findFinIdx? fun event =>
      (blockHashForEvent alloy event).text = text.lowercase hashStr with
  | some idx => return buildBlockResponse alloy text events idx
  | none => return .null

/-- The transaction of the event is asked for, by its own hash or by that of the event. -/
def HasTxHash (hash : String) (event : Event) : Prop :=
  (extractTxHashFromEvent alloy text event).text = hash ∨ (idHash alloy event).text = hash

instance (hash : String) (event : Event) : Decidable (HasTxHash alloy text hash event) :=
  inferInstanceAs (Decidable (_ ∨ _))

variable (evmTxs : Map String Json)

/-- The first transaction with a hash. -/
def transactionIn (events : List Event) (hash : String) : Json :=
  match events.findFinIdx? fun event => HasTxHash alloy text hash event with
  | some idx => buildTxObject alloy text events[idx] idx
  | none => .null

def ethGetTransactionByHash : RpcResult := do
  let txHashStr ← extractParamStr text params 0
  match evmTxs (text.lowercase txHashStr) with
  | some cached => return cached
  | none =>
    return transactionIn alloy text (mesh.getBucketEventsSorted bucket) (text.lowercase txHashStr)

/-- A receipt; the block is the number and the hash it names. -/
def receipt (txHashStr blockNumber blockHash fromAddr toAddr : String) : Json :=
  .object [
    ("transactionHash", .string txHashStr),
    ("transactionIndex", .string "0x0"),
    ("blockNumber", .string blockNumber),
    ("blockHash", .string blockHash),
    ("from", .string fromAddr),
    ("to", .string toAddr),
    ("cumulativeGasUsed", .string "0x5208"),
    ("gasUsed", .string "0x5208"),
    ("contractAddress", .null),
    ("logs", .array []),
    ("logsBloom", .string emptyBloom),
    ("status", .string "0x1"),
    ("effectiveGasPrice", .string "0x0")]

/-- The receipt of the first transaction with a hash. -/
def receiptIn (events : List Event) (txHashStr : String) : Json :=
  match events.findFinIdx? fun event =>
      HasTxHash alloy text (text.lowercase txHashStr) event with
  | some idx =>
      receipt txHashStr (hexNumber idx) (blockHashForEvent alloy events[idx]).text
        events[idx].account (extractToFromEvent text events[idx])
  | none => .null

def ethGetTransactionReceipt : RpcResult := do
  let txHashStr ← extractParamStr text params 0
  match evmTxs (text.lowercase txHashStr) with
  | some cached =>
      return receipt txHashStr "0x0" zeroHash ((cached.text "from").getD zeroAddr)
        ((cached.text "to").getD zeroAddr)
  | none => return receiptIn alloy text (mesh.getBucketEventsSorted bucket) txHashStr

end Queries

end Methods

/-- Texts without upper-case letters, and no notes. -/
def plainText : TextLib := ⟨id, fun _ => none, fun _ => ""⟩

end Shardd
