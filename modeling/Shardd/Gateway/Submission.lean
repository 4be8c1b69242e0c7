import Shardd.Broadcast.Selection
import Shardd.Gateway.Chain

/-!
# Sending a transaction (`apps/gateway/src/evm_rpc.rs`)

A transaction that has passed its checks is offered to up to three nodes, one after the other, until
one of them accepts it.  The loop keeps the last error only, and its absence is taken for success:
when none of the three nodes can be asked, there is none, and the transaction is reported as sent.
-/

namespace Shardd

/-! ## The checks -/

section Checks

variable (alloy : Alloy) (text : TextLib)

/-- Steps 1 to 6 of `eth_send_raw_transaction`. -/
def checkSubmission (mesh : MeshReplies) (bucket rawBucket : String) (params : Option Json) :
    Except EvmRpcErrorBody CheckedTransaction := do
  let rawHex ← extractParamStr text params 0
  let t ← checkTransaction alloy rawBucket rawHex
  checkNonce t.nonce (.ofNat (nonceOf text (mesh.getBucketEventsSorted bucket) t.fromStr))
  return t

/-- What the gateway notes of a transaction that it has sent. -/
def CheckedTransaction.evmTx (t : CheckedTransaction) (timestampSecs : ℕ) : Json :=
  .object [
    ("hash", .string (txHash alloy t.rawBytes)),
    ("from", .string t.fromStr),
    ("to", .string t.toStr),
    ("value", .string (hexNumber (t.value.toInt.natAbs * evmWeiScale))),
    ("nonce", .string (hexNumber t.nonce.toNat)),
    ("timestamp_secs", .posInt (.ofNat timestampSecs))]

end Checks

/-! ## The fan-out -/

/-- What a node answers, or that it does not; errors come with their texts. -/
inductive SubmitReply
  | accepted
  | nodeErr (err : String)
  | meshErr (err : String)
  deriving DecidableEq

/-- What an answer leaves as the last error. -/
def SubmitReply.lastErr : SubmitReply → Option EvmRpcErrorBody
  | .accepted => none
  | .nodeErr err => some ⟨-32000, "node error: " ++ err⟩
  | .meshErr err => some ⟨-32000, "mesh error: " ++ err⟩

lemma SubmitReply.lastErr_eq_none_iff {reply : SubmitReply} :
    reply.lastErr = none ↔ reply = .accepted := by
  cases reply <;> simp [lastErr]

/-- Nodes that report to be ready come first, and then those that are near. -/
def compareForFanOut (left right : MeshNode) : Ordering :=
  let ready (node : MeshNode) : Bool := node.health.any fun h => h.ready && !h.overloaded
  (compare (ready right) (ready left)).then (compare left.rtt right.rtt)

/-- The mesh as the gateway reaches it.  A request to a peer changes what is behind it. -/
structure MeshAccess (σ : Type) where
  config : MeshClientConfig
  peers : PeerTable
  now : ℕ
  parsePeerId : String → Option String
  requestTo : String → CreateEventRequest → σ → SubmitReply × σ

/-- Where a fan-out has got to. -/
structure FanOut (σ : Type) where
  lastErr : Option EvmRpcErrorBody
  nodes : σ
  /-- History: the peers that have been asked, with their answers. -/
  asked : List (String × SubmitReply)

section Loop

variable {σ : Type} (access : MeshAccess σ) (request : CreateEventRequest)

def fanOut : List MeshNode → FanOut σ → FanOut σ
  | [], f => f
  | node :: rest, f =>
    match access.parsePeerId node.peerId with
    | none => fanOut rest f
    | some peerId =>
      let out := access.requestTo peerId request f.nodes
      let f' : FanOut σ := ⟨out.1.lastErr, out.2, f.asked ++ [(peerId, out.1)]⟩
      if out.1 = .accepted then f' else fanOut rest f'

/-- The nodes that a transaction may be offered to. -/
def fanOutNodes : List MeshNode :=
  (sortBy compareForFanOut (allNodes access.config access.peers access.now)).take 3

end Loop

/-- What a call comes to. -/
structure Sent (σ : Type) where
  result : RpcResult
  evmTxs : Map String Json
  nodes : σ
  /-- History: the peers that have been asked, with their answers. -/
  asked : List (String × SubmitReply)

def ethSendRawTransaction {σ : Type} (alloy : Alloy) (text : TextLib) (mesh : MeshReplies)
    (access : MeshAccess σ) (timestampSecs : ℕ) (bucket rawBucket : String) (params : Option Json)
    (evmTxs : Map String Json) (nodes : σ) : Sent σ :=
  match checkSubmission alloy text mesh bucket rawBucket params with
  | .error err => ⟨.error err, evmTxs, nodes, []⟩
  | .ok t =>
    let f := fanOut access (t.request alloy bucket) (fanOutNodes access) ⟨none, nodes, []⟩
    match f.lastErr with
    | some err => ⟨.error err, evmTxs, f.nodes, f.asked⟩
    | none =>
        ⟨.ok (.string (txHash alloy t.rawBytes)),
          evmTxs.insert (txHash alloy t.rawBytes) (t.evmTx alloy timestampSecs), f.nodes, f.asked⟩

/-! ## What the loop tells -/

section Verdict

variable {σ : Type} {access : MeshAccess σ} {request : CreateEventRequest}

/-- Some peer has accepted the transfer. -/
def Accepted (asked : List (String × SubmitReply)) : Prop := ∃ p ∈ asked, p.2 = .accepted

lemma Accepted.append_iff {asked asked' : List (String × SubmitReply)} :
    Accepted (asked ++ asked') ↔ Accepted asked ∨ Accepted asked' := by
  simp only [Accepted, List.mem_append, or_and_right, exists_or]

lemma accepted_singleton_iff {peerId : String} {reply : SubmitReply} :
    Accepted [(peerId, reply)] ↔ reply = .accepted := by
  simp only [Accepted, List.mem_singleton, exists_eq_left]

variable (access request) in
/-- Whom the loop asks, and when it ends without an error: nobody has been asked and there was none,
or the last one has accepted. -/
lemma fanOut_spec (nodes : List MeshNode) (f : FanOut σ) :
    ∃ asked, (fanOut access request nodes f).asked = f.asked ++ asked ∧
      (asked = [] ↔ ∀ node ∈ nodes, access.parsePeerId node.peerId = none) ∧
      ((fanOut access request nodes f).lastErr = none ↔
        asked = [] ∧ f.lastErr = none ∨ Accepted asked) := by
  have hnone : ¬ Accepted [] := fun hacc => by
    obtain ⟨p, hp, -⟩ := hacc
    exact List.not_mem_nil hp
  induction nodes generalizing f with
  | nil =>
      refine ⟨[], (List.append_nil _).symm,
        iff_of_true rfl fun _ h => absurd h List.not_mem_nil, ?_⟩
      rw [fanOut, or_iff_left hnone]
      exact (and_iff_right rfl).symm
  | cons node rest ih =>
      cases hparse : access.parsePeerId node.peerId with
      | none =>
          obtain ⟨asked, hasked, hempty, herr⟩ := ih f
          refine ⟨asked, ?_, ?_, ?_⟩
          · rw [fanOut, hparse]
            exact hasked
          · rw [hempty, List.forall_mem_cons, hparse]
            exact (and_iff_right rfl).symm
          · rw [fanOut, hparse]
            exact herr
      | some peerId =>
          have hsome : ¬ ∀ n ∈ node :: rest, access.parsePeerId n.peerId = none := fun hall => by
            rw [hall node List.mem_cons_self] at hparse
            cases hparse
          set out := access.requestTo peerId request f.nodes with hout
          set f' : FanOut σ := ⟨out.1.lastErr, out.2, f.asked ++ [(peerId, out.1)]⟩ with hf'
          have hstep : fanOut access request (node :: rest) f =
              if out.1 = .accepted then f' else fanOut access request rest f' := by
            rw [fanOut, hparse]
          rw [hstep]
          by_cases haccepted : out.1 = .accepted
          · rw [if_pos haccepted]
            refine ⟨[(peerId, out.1)], rfl, iff_of_false (List.cons_ne_nil _ _) hsome, ?_⟩
            refine iff_of_true ?_ (.inr (accepted_singleton_iff.2 haccepted))
            rw [hf', haccepted]
            rfl
          · rw [if_neg haccepted]
            obtain ⟨asked, hasked, -, herr⟩ := ih f'
            refine ⟨(peerId, out.1) :: asked, ?_,
              iff_of_false (List.cons_ne_nil _ _) hsome, ?_⟩
            · rw [hasked, hf', List.append_assoc]
              rfl
            · have hfails : ¬ f'.lastErr = none := mt SubmitReply.lastErr_eq_none_iff.1 haccepted
              have hcons : ¬ (peerId, out.1) :: asked = [] := List.cons_ne_nil _ _
              rw [herr, or_iff_right (fun h => hfails h.2), or_iff_right (fun h => hcons h.1)]
              have hsplit : Accepted ((peerId, out.1) :: asked) ↔
                  Accepted [(peerId, out.1)] ∨ Accepted asked :=
                @Accepted.append_iff [(peerId, out.1)] asked
              rw [hsplit, or_iff_right (mt accepted_singleton_iff.1 haccepted)]

variable (access request) in
/-- The loop of a call ends without an error exactly when a node has accepted, or nobody could be
asked. -/
lemma fanOut_start (nodes : List MeshNode) (s : σ) :
    ((fanOut access request nodes ⟨none, s, []⟩).asked = [] ↔
        ∀ node ∈ nodes, access.parsePeerId node.peerId = none) ∧
      ((fanOut access request nodes ⟨none, s, []⟩).lastErr = none ↔
        (fanOut access request nodes ⟨none, s, []⟩).asked = [] ∨
          Accepted (fanOut access request nodes ⟨none, s, []⟩).asked) := by
  obtain ⟨asked, hasked, hempty, herr⟩ := fanOut_spec access request nodes ⟨none, s, []⟩
  rw [List.nil_append] at hasked
  rw [hasked, herr]
  exact ⟨hempty, or_congr_left (and_iff_left rfl)⟩

end Verdict

/-! ## Accepted transactions -/

section Executed

variable {σ : Type}

/-- A hash is returned, and the transaction noted, only if some node has accepted it; and when no
node that was asked has, the call fails. -/
structure Executed (evmTxs : Map String Json) (sent : Sent σ) : Prop where
  returned : ∀ v, sent.result = .ok v → Accepted sent.asked
  recorded : sent.evmTxs ≠ evmTxs → Accepted sent.asked
  refused : ¬ Accepted sent.asked → ∃ err, sent.result = .error err

variable {alloy : Alloy} {text : TextLib} {mesh : MeshReplies} {access : MeshAccess σ}
  {timestampSecs : ℕ} {bucket rawBucket : String} {params : Option Json}
  {evmTxs : Map String Json} {nodes : σ}

/-- A call that fails its checks asks nobody. -/
lemma send_of_error {err : EvmRpcErrorBody}
    (h : checkSubmission alloy text mesh bucket rawBucket params = .error err) :
    ethSendRawTransaction alloy text mesh access timestampSecs bucket rawBucket params evmTxs
      nodes = ⟨.error err, evmTxs, nodes, []⟩ := by
  rw [ethSendRawTransaction, h]

/-- A transaction that has passed its checks is sent unless the loop leaves an error. -/
lemma send_of_ok {t : CheckedTransaction}
    (h : checkSubmission alloy text mesh bucket rawBucket params = .ok t) {f : FanOut σ}
    (hf : fanOut access (t.request alloy bucket) (fanOutNodes access) ⟨none, nodes, []⟩ = f) :
    ethSendRawTransaction alloy text mesh access timestampSecs bucket rawBucket params evmTxs
        nodes =
      (f.lastErr.elim ⟨.ok (.string (txHash alloy t.rawBytes)),
        evmTxs.insert (txHash alloy t.rawBytes) (t.evmTx alloy timestampSecs), f.nodes, f.asked⟩
        fun err => ⟨.error err, evmTxs, f.nodes, f.asked⟩) := by
  rw [ethSendRawTransaction, h]
  dsimp only
  rw [hf]
  cases f.lastErr <;> rfl

/-- **Sent transactions.**  What a call reports is right exactly when the transaction fails its
checks, or one of the three nodes has a peer id that can be read. -/
theorem executed_iff :
    Executed evmTxs (ethSendRawTransaction alloy text mesh access timestampSecs bucket rawBucket
        params evmTxs nodes) ↔
      (∃ err, checkSubmission alloy text mesh bucket rawBucket params = .error err) ∨
        ∃ node ∈ fanOutNodes access, (access.parsePeerId node.peerId).isSome := by
  cases hcheck : checkSubmission alloy text mesh bucket rawBucket params with
  | error err =>
      rw [send_of_error hcheck]
      refine iff_of_true ⟨fun v hv => ?_, fun hne => absurd rfl hne, fun _ => ⟨err, rfl⟩⟩
        (.inl ⟨err, rfl⟩)
      cases hv
  | ok t =>
      obtain ⟨hempty, herr⟩ := fanOut_start access (t.request alloy bucket) (fanOutNodes access)
        nodes
      set f := fanOut access (t.request alloy bucket) (fanOutNodes access) ⟨none, nodes, []⟩ with hf
      rw [send_of_ok hcheck hf.symm]
      have hasked : f.asked ≠ [] ↔
          ∃ node ∈ fanOutNodes access, (access.parsePeerId node.peerId).isSome := by
        rw [Ne, hempty]
        push Not
        simp only [Option.isSome_iff_ne_none, Ne]
      have hpasses : ¬ ∃ err, Except.ok t = (.error err : Except EvmRpcErrorBody _) := fun h => by
        obtain ⟨err, herr⟩ := h
        cases herr
      rw [or_iff_right hpasses, ← hasked]
      cases hlast : f.lastErr with
      | some err =>
          refine iff_of_true ⟨fun v hv => ?_, fun hne => absurd rfl hne, fun _ => ⟨err, rfl⟩⟩ ?_
          · cases hv
          · intro hnobody
            rw [herr.2 (.inl hnobody)] at hlast
            cases hlast
      | none =>
          refine ⟨fun h => ?_, fun hasked => ?_⟩
          · obtain ⟨p, hp, -⟩ := h.returned _ rfl
            exact List.ne_nil_of_mem hp
          · have haccepted : Accepted f.asked := (herr.1 hlast).resolve_left hasked
            exact ⟨fun _ _ => haccepted, fun _ => haccepted, fun hno => absurd haccepted hno⟩

end Executed

/-! ### Nobody to ask -/

/-- A signed transfer of one credit on the chain of `test`. -/
def testRawBytes : List UInt8 :=
  [0xf8, 0x6c, 0x80, 0x80, 0x82, 0x52, 0x08, 0x94, 0x00, 0x00, 0x00, 0x00, 0x00, 0x00, 0x00,
    0x00, 0x00, 0x00, 0x00, 0x00, 0x00, 0x00, 0x00, 0x00, 0x00, 0x00, 0x00, 0x01, 0x88, 0x0d,
    0xe0, 0xb6, 0xb3, 0xa7, 0x64, 0x00, 0x00, 0x80, 0x85, 0x01, 0x38, 0x45, 0xfe, 0xe2, 0xa0,
    0xea, 0xeb, 0x5e, 0x07, 0xf0, 0x3a, 0x01, 0x69, 0x72, 0x6a, 0xd4, 0x33, 0x83, 0xc4, 0x74,
    0x33, 0x54, 0x8f, 0xa2, 0xeb, 0x56, 0x00, 0xfc, 0xdb, 0xf3, 0xd8, 0x0f, 0x9f, 0xab, 0xbb,
    0x20, 0x61, 0xa0, 0x46, 0x8b, 0x7f, 0xbc, 0x82, 0xaa, 0x03, 0x39, 0x6e, 0x95, 0xee, 0x77,
    0x3a, 0xa5, 0xb3, 0x82, 0xe4, 0xfb, 0xa6, 0x69, 0x1a, 0xf7, 0x1e, 0xaa, 0x42, 0x04, 0xdf,
    0xc6, 0xc6, 0x3f, 0x49, 0x3b]

def testRawTx : String := "0x" ++ String.ofList (hexEncode testRawBytes)

def testSigned : SignedTransaction where
  tx := testTx
  signature :=
    { r := 0xeaeb5e07f03a0169726ad43383c47433548fa2eb5600fcdbf3d80f9fabbb2061
      s := 0x468b7fbc82aa03396e95ee773aa5b382e4fba6691af71eaa4204dfc6c63f493b
      yParity := true }

def testSigner : Address where
  bytes := [0xf3, 0x9f, 0xd6, 0xe5, 0x1a, 0xad, 0x88, 0xf6, 0xf4, 0xce, 0x6a, 0xb8, 0x82, 0x72,
    0x79, 0xcf, 0xff, 0xb9, 0x22, 0x66]
  length_bytes := rfl

/-- The hash of these bytes. -/
def keccakRawTx : B256 where
  bytes := [0x08, 0xc0, 0xb6, 0x50, 0xc0, 0x7b, 0xd7, 0xd6, 0xb9, 0x81, 0xf9, 0xb2, 0x58, 0x62,
    0x8d, 0xe0, 0x95, 0x2b, 0x8b, 0x3d, 0x42, 0xbb, 0x59, 0xd3, 0x0a, 0xbf, 0x58, 0xdb, 0x70,
    0xf4, 0x62, 0x6c]
  length_bytes := rfl

/-- A library that knows this transaction and the hash of `test`. -/
def sendAlloy : Alloy where
  keccak256 bytes := if bytes = testRawBytes then keccakRawTx else keccakTest
  rlpDecodeSigned raw :=
    if raw = testRawBytes then .ok testSigned else .error "unexpected end of input"
  recoverSigner _ := some testSigner
  addressText address :=
    if address = testSigner then "0xf39Fd6e51aad88F6F4ce6aB8827279cffFb92266"
    else "0x" ++ String.ofList (hexEncode address.bytes)

/-- A gateway that has not found any node yet. -/
def emptyAccess : MeshAccess Unit where
  config := defaultConfig
  peers := ⟨[], List.nodup_nil⟩
  now := 1000
  parsePeerId := some
  requestTo _ _ _ := (.accepted, ())

lemma checkTransaction_testRawTx :
    ∃ t, checkTransaction sendAlloy "test" testRawTx = .ok t ∧ t.nonce = 0 := by
  have hhex : hexDecode (trimHexPrefix testRawTx.toList) = some testRawBytes := by
    have htext : testRawTx.toList = '0' :: 'x' :: hexEncode testRawBytes := by
      simp [testRawTx]
    rw [htext, trimHexPrefix,
      trimHexPrefix_of_hexDigits fun c hc => isHexDigit_of_mem_hexEncode hc, hexDecode_hexEncode]
  rw [checkTransaction, hhex]
  exact ⟨_, rfl, rfl⟩

lemma checkSubmission_testRawTx :
    ∃ t, checkSubmission sendAlloy plainText ⟨none, none⟩ "b" "test" (oneParam testRawTx) =
      .ok t := by
  obtain ⟨t, ht, hnonce⟩ := checkTransaction_testRawTx
  have hevents : (⟨none, none⟩ : MeshReplies).getBucketEventsSorted "b" = [] :=
    List.mergeSort_nil
  refine ⟨t, ?_⟩
  rw [checkSubmission, extractParamStr_oneParam, hevents]
  dsimp only [bind, Except.bind]
  rw [ht]
  dsimp only
  rw [hnonce]
  rfl

/-- Its checks passed, the transaction is reported as sent and noted, and nobody was asked. -/
theorem sent_to_nobody :
    ∃ t : CheckedTransaction,
      ethSendRawTransaction sendAlloy plainText ⟨none, none⟩ emptyAccess 1 "b" "test"
          (oneParam testRawTx) (fun _ => none) () =
        ⟨.ok (.string (txHash sendAlloy t.rawBytes)),
          Map.insert (fun _ => none) (txHash sendAlloy t.rawBytes) (t.evmTx sendAlloy 1), (), []⟩ ∧
      ¬ Executed (fun _ => none) (ethSendRawTransaction sendAlloy plainText ⟨none, none⟩ emptyAccess
        1 "b" "test" (oneParam testRawTx) (fun _ => none) ()) := by
  obtain ⟨t, ht⟩ := checkSubmission_testRawTx
  have hnodes : fanOutNodes emptyAccess = [] := by
    have hall : allNodes emptyAccess.config emptyAccess.peers emptyAccess.now = [] :=
      List.mergeSort_nil
    rw [fanOutNodes, hall]
    exact congrArg (List.take 3) List.mergeSort_nil
  have hsent : ethSendRawTransaction sendAlloy plainText ⟨none, none⟩ emptyAccess 1 "b" "test"
      (oneParam testRawTx) (fun _ => none) () = _ := send_of_ok ht (by rw [hnodes])
  refine ⟨t, hsent, fun h => ?_⟩
  rw [hsent] at h
  obtain ⟨p, hp, -⟩ := h.returned _ rfl
  exact List.not_mem_nil hp

end Shardd
