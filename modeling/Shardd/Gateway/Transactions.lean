import Shardd.Gateway.Names
import Shardd.Node.Service

/-!
# Signed transactions at the gateway (`apps/gateway/src/evm_rpc.rs`)

A bucket answers as an Ethereum chain.  `eth_sendRawTransaction` decodes a signed transaction,
checks it against the bucket's chain id and the sender's nonce, and turns it into a transfer.  The
chain id is the first four bytes of the hash of the bucket's name, as wallets derive it, and the
user the bucket belongs to is no part of it.
-/

namespace Shardd

/-! ## Transactions -/

structure B256 where
  bytes : List UInt8
  length_bytes : bytes.length = 32
  deriving DecidableEq

structure Address where
  bytes : List UInt8
  length_bytes : bytes.length = 20
  deriving DecidableEq

inductive TxKind
  | create
  | call (toAddr : Address)
  deriving DecidableEq

structure TxLegacy where
  chainId : Option UInt64
  nonce : UInt64
  gasPrice : BitVec 128
  gasLimit : UInt64
  toKind : TxKind
  value : BitVec 256
  input : List UInt8
  deriving DecidableEq

structure Signature where
  r : BitVec 256
  s : BitVec 256
  yParity : Bool
  deriving DecidableEq

structure SignedTransaction where
  tx : TxLegacy
  signature : Signature
  deriving DecidableEq

/-- What the gateway takes from its Ethereum library. -/
structure Alloy where
  keccak256 : List UInt8 → B256
  rlpDecodeSigned : List UInt8 → Except String SignedTransaction
  recoverSigner : SignedTransaction → Option Address
  /-- The text of an address, with its checksum. -/
  addressText : Address → String

structure EvmRpcErrorBody where
  code : ℤ
  message : String
  deriving DecidableEq

def evmWeiScale : ℕ := 1000000000000000000

/-! ## The chain id -/

/-- `u32::from_be_bytes`. -/
def u32FromBeBytes (a b c d : UInt8) : ℕ :=
  ((a.toNat * 256 + b.toNat) * 256 + c.toNat) * 256 + d.toNat

variable (alloy : Alloy)

def chainIdForBucket (bucket : String) : UInt64 :=
  let hash := (alloy.keccak256 bucket.toByteArray.data.toList).bytes
  .ofNat (u32FromBeBytes (hash.getD 0 0) (hash.getD 1 0) (hash.getD 2 0) (hash.getD 3 0))

/-- Step 4 of `eth_send_raw_transaction`. -/
def checkChainId (rawBucket : String) (tx : TxLegacy) : Except EvmRpcErrorBody UInt64 :=
  let txChainId := tx.chainId.getD 0
  let expectedChain := chainIdForBucket alloy rawBucket
  if txChainId ≠ expectedChain then
    .error ⟨-32000, "wrong chain_id: got " ++ toString txChainId ++ ", expected " ++
      toString expectedChain⟩
  else .ok expectedChain

/-! ## The checks that need no mesh -/

/-- `trim_start_matches("0x")`, which takes off every leading `0x`. -/
def trimHexPrefix : List Char → List Char
  | '0' :: 'x' :: rest => trimHexPrefix rest
  | text => text

/-- Step 5: a whole number of credits within `i64`. -/
def transferValue (value : BitVec 256) : Except EvmRpcErrorBody Int64 :=
  if 2 ^ 128 ≤ value.toNat then .error ⟨-32000, "value too large"⟩
  else if value.toNat % evmWeiScale ≠ 0 then
    .error ⟨-32000, "value must be a multiple of 10^18 wei (1 shardd unit)"⟩
  else if 2 ^ 63 ≤ value.toNat / evmWeiScale then .error ⟨-32000, "value exceeds i64 range"⟩
  else .ok (.ofNat (value.toNat / evmWeiScale))

/-- A transaction that has passed the checks up to the nonce. -/
structure CheckedTransaction where
  rawBytes : List UInt8
  fromStr : String
  toStr : String
  value : Int64
  nonce : UInt64
  expectedChain : UInt64

/-- Steps 1 to 5 of `eth_send_raw_transaction`. -/
def checkTransaction (rawBucket rawHex : String) : Except EvmRpcErrorBody CheckedTransaction := do
  let rawBytes ← match hexDecode (trimHexPrefix rawHex.toList) with
    | none => throw ⟨-32602, "invalid hex"⟩
    | some bytes => pure bytes
  let signed ← match alloy.rlpDecodeSigned rawBytes with
    | .error e => throw ⟨-32602, "invalid transaction: " ++ e⟩
    | .ok signed => pure signed
  let sender ← match alloy.recoverSigner signed with
    | none => throw ⟨-32602, "signature recovery failed"⟩
    | some address => pure address
  let toAddr ← match signed.tx.toKind with
    | .call address => pure address
    | .create => throw ⟨-32602, "contract creation not supported"⟩
  let expectedChain ← checkChainId alloy rawBucket signed.tx
  let value ← transferValue signed.tx.value
  return { rawBytes := rawBytes
           fromStr := alloy.addressText sender
           toStr := alloy.addressText toAddr
           value := value
           nonce := signed.tx.nonce
           expectedChain := expectedChain }

/-! ## The nonce and the request -/

/-- Step 6. -/
def checkNonce (nonce currentNonce : UInt64) : Except EvmRpcErrorBody Unit :=
  if nonce ≠ currentNonce then
    .error ⟨-32000, "nonce too " ++ (if nonce < currentNonce then "low" else "high") ++ ": got " ++
      toString nonce ++ ", expected " ++ toString currentNonce⟩
  else .ok ()

/-- The hash of the bytes as they came. -/
def txHash (rawBytes : List UInt8) : String :=
  "0x" ++ String.ofList (hexEncode (alloy.keccak256 rawBytes).bytes)

namespace CheckedTransaction

variable (t : CheckedTransaction)

/-- The JSON text of the note; the keys of an object are in alphabetical order. -/
def note : String :=
  "\x7b\"evm\":\x7b\"chain_id\":" ++ toString t.expectedChain ++ ",\"nonce\":" ++
    toString t.nonce ++ ",\"to\":\"" ++ t.toStr ++ "\",\"tx_hash\":\"" ++
    txHash alloy t.rawBytes ++ "\"\x7d\x7d"

/-- Steps 7 and 8: the transfer that is asked of the nodes. -/
def request (bucket : String) : CreateEventRequest where
  bucket := bucket
  account := t.fromStr
  amount := -t.value
  note := some (t.note alloy)
  idempotencyNonce := txHash alloy t.rawBytes
  maxOverdraft := none
  holdAmount := none
  holdExpiresAtUnixMs := none
  settleReservation := none
  releaseReservation := none
  skipHold := some true
  allowReservedBucket := false
  transferTo := some t.toStr

end CheckedTransaction

/-! ## Replay on another bucket -/

/-- The chain-id check lets the transaction through at the bucket `p.2` of the user `p.1`. -/
def AcceptsChainId (p : Uuid × String) (tx : TxLegacy) : Prop :=
  ∃ chain, checkChainId alloy p.2 tx = .ok chain

instance (p : Uuid × String) (tx : TxLegacy) : Decidable (AcceptsChainId alloy p tx) :=
  match h : checkChainId alloy p.2 tx with
  | .ok chain => .isTrue ⟨chain, h⟩
  | .error _ => .isFalse fun ⟨_, hok⟩ => by rw [h] at hok; cases hok

/-- The first four bytes of the hash of a bucket's name. -/
def chainBytes (bucket : String) : List UInt8 :=
  (alloy.keccak256 bucket.toByteArray.data.toList).bytes.take 4

section Replay

variable {alloy} {p q : Uuid × String} {tx : TxLegacy}

lemma acceptsChainId_iff :
    AcceptsChainId alloy p tx ↔ tx.chainId.getD 0 = chainIdForBucket alloy p.2 := by
  unfold AcceptsChainId checkChainId
  dsimp only
  by_cases h : tx.chainId.getD 0 = chainIdForBucket alloy p.2
  · rw [if_neg (not_not.2 h)]
    exact ⟨fun _ => h, fun _ => ⟨_, rfl⟩⟩
  · rw [if_pos h]
    refine ⟨fun hok => ?_, fun heq => absurd heq h⟩
    obtain ⟨_, hok⟩ := hok
    cases hok

/-- A number of four bytes tells the bytes. -/
lemma u32FromBeBytes_inj {a b c d a' b' c' d' : UInt8}
    (h : u32FromBeBytes a b c d = u32FromBeBytes a' b' c' d') :
    a = a' ∧ b = b' ∧ c = c' ∧ d = d' := by
  have ha := a.toNat_lt
  have hb := b.toNat_lt
  have hc := c.toNat_lt
  have hd := d.toNat_lt
  have ha' := a'.toNat_lt
  have hb' := b'.toNat_lt
  have hc' := c'.toNat_lt
  have hd' := d'.toNat_lt
  unfold u32FromBeBytes at h
  exact ⟨UInt8.toNat_inj.1 (by omega), UInt8.toNat_inj.1 (by omega), UInt8.toNat_inj.1 (by omega),
    UInt8.toNat_inj.1 (by omega)⟩

lemma u32FromBeBytes_lt (a b c d : UInt8) : u32FromBeBytes a b c d < 2 ^ 32 := by
  have ha := a.toNat_lt
  have hb := b.toNat_lt
  have hc := c.toNat_lt
  have hd := d.toNat_lt
  unfold u32FromBeBytes
  omega

/-- Two hashes begin with the same four bytes exactly when these are the same one by one. -/
lemma B256.take_four_eq_iff (x y : B256) : x.bytes.take 4 = y.bytes.take 4 ↔
    x.bytes.getD 0 0 = y.bytes.getD 0 0 ∧ x.bytes.getD 1 0 = y.bytes.getD 1 0 ∧
      x.bytes.getD 2 0 = y.bytes.getD 2 0 ∧ x.bytes.getD 3 0 = y.bytes.getD 3 0 := by
  have hx := x.length_bytes
  have hy := y.length_bytes
  rcases hxs : x.bytes with _ | ⟨a, _ | ⟨b, _ | ⟨c, _ | ⟨d, xs⟩⟩⟩⟩ <;> simp [hxs] at hx
  rcases hys : y.bytes with _ | ⟨a', _ | ⟨b', _ | ⟨c', _ | ⟨d', ys⟩⟩⟩⟩ <;> simp [hys] at hy
  simp

lemma chainIdForBucket_eq_iff (bucket bucket' : String) :
    chainIdForBucket alloy bucket = chainIdForBucket alloy bucket' ↔
      chainBytes alloy bucket = chainBytes alloy bucket' := by
  have hlt : ∀ a b c d, u32FromBeBytes a b c d < 2 ^ 64 := fun a b c d =>
    lt_trans (u32FromBeBytes_lt a b c d) (by decide)
  rw [chainBytes, chainBytes, B256.take_four_eq_iff]
  constructor
  · intro h
    have hnat := congrArg UInt64.toNat h
    simp only [chainIdForBucket, UInt64.toNat_ofNat', Nat.mod_eq_of_lt (hlt _ _ _ _)] at hnat
    exact u32FromBeBytes_inj hnat
  · rintro ⟨h₀, h₁, h₂, h₃⟩
    simp only [chainIdForBucket, h₀, h₁, h₂, h₃]

/-- **Replay on another bucket.**  A transaction that is let through at one bucket is let through
at another one, of whatever user, exactly when the hashes of their names begin with the same four
bytes. -/
theorem acceptsChainId_iff_of_accepts (h : AcceptsChainId alloy p tx) :
    AcceptsChainId alloy q tx ↔ chainBytes alloy p.2 = chainBytes alloy q.2 := by
  rw [acceptsChainId_iff] at h ⊢
  rw [h, chainIdForBucket_eq_iff]

end Replay

/-! ## Two users with a bucket of the same name -/

/-- The hash of the name `test`. -/
def keccakTest : B256 where
  bytes := [0x9c, 0x22, 0xff, 0x5f, 0x21, 0xf0, 0xb8, 0x1b, 0x11, 0x3e, 0x63, 0xf7, 0xdb, 0x6d,
    0xa9, 0x4f, 0xed, 0xef, 0x11, 0xb2, 0x11, 0x9b, 0x40, 0x88, 0xb8, 0x96, 0x64, 0xfb, 0x9a,
    0x3c, 0xb6, 0x58]
  length_bytes := rfl

/-- A library that knows this hash. -/
def testAlloy : Alloy where
  keccak256 _ := keccakTest
  rlpDecodeSigned _ := .error "unexpected end of input"
  recoverSigner _ := none
  addressText address := "0x" ++ String.ofList (hexEncode address.bytes)

/-- A transfer of one credit on the chain of `test`. -/
def testTx : TxLegacy where
  chainId := some 2619539295
  nonce := 0
  gasPrice := 0
  gasLimit := 21000
  toKind := .call ⟨List.replicate 19 0 ++ [1], rfl⟩
  value := 1000000000000000000
  input := []

def firstUser : Uuid := ⟨List.replicate 16 5, rfl⟩

def secondUser : Uuid := ⟨List.replicate 16 2, rfl⟩

theorem acceptsChainId_test : AcceptsChainId testAlloy (secondUser, "test") testTx ↔
    chainBytes testAlloy "test" = chainBytes testAlloy "test" :=
  acceptsChainId_iff_of_accepts (show AcceptsChainId testAlloy (firstUser, "test") testTx by decide)

/-- The same transaction at the buckets `test` of two users. -/
theorem acceptsChainId_of_two_users :
    ((firstUser, "test") : Uuid × String) ≠ (secondUser, "test") ∧
      AcceptsChainId testAlloy (firstUser, "test") testTx ∧
      AcceptsChainId testAlloy (secondUser, "test") testTx := by
  decide

end Shardd
