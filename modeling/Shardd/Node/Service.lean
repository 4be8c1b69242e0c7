import Mathlib.Tactic.Common
import Shardd.Node.CreateSpec

/-!
# The service of a node (`apps/node/src/service.rs`)

What gateways and billing reach of a node: the request that creates events, with the checks that
stand before `create_local_events` and the errors a caller sees, and the listing of all balances.
Broadcasting the emitted events, and the acknowledgements that a response then carries, are not
part of it.
-/

namespace Shardd

open Std (TreeMap)

/-! ## Requests and errors -/

structure CreateEventRequest where
  bucket : String
  account : String
  amount : Int64
  note : Option String
  idempotencyNonce : String
  maxOverdraft : Option UInt64
  holdAmount : Option UInt64
  holdExpiresAtUnixMs : Option ℕ
  settleReservation : Option String
  releaseReservation : Option String
  skipHold : Option Bool
  allowReservedBucket : Bool
  transferTo : Option String
  deriving DecidableEq, Repr

def CreateEventRequest.input (req : CreateEventRequest) : LocalCreateInput where
  bucket := req.bucket
  account := req.account
  amount := req.amount
  note := req.note
  maxOverdraft := req.maxOverdraft.getD 0
  idempotencyNonce := req.idempotencyNonce
  allowReservedBucket := req.allowReservedBucket
  holdAmount := req.holdAmount
  holdExpiresAtUnixMs := req.holdExpiresAtUnixMs
  settleReservation := req.settleReservation
  releaseReservation := req.releaseReservation
  skipHold := req.skipHold.getD false
  transferTo := req.transferTo

structure CreateEventResponse where
  event : Event
  emittedEvents : List Event
  balance : Int64
  availableBalance : Int64
  deduplicated : Bool

inductive NodePhase
  | warming
  | ready
  | shuttingDown
  deriving DecidableEq

inductive NodeRpcErrorCode
  | serviceUnavailable
  | insufficientFunds
  | invalidInput
  | notFound
  | internal
  deriving DecidableEq

structure InsufficientFundsError where
  error : String
  balance : Int64
  availableBalance : Int64
  projectedAvailableBalance : Int64
  limit : Int64
  holdBlocking : Bool
  hint : Option String
  deriving DecidableEq

structure NodeRpcError where
  code : NodeRpcErrorCode
  message : String
  insufficientFunds : Option InsufficientFundsError
  deriving DecidableEq

namespace NodeRpcError

def serviceUnavailable (message : String) : NodeRpcError where
  code := .serviceUnavailable
  message := message
  insufficientFunds := none

def invalidInput (message : String) : NodeRpcError where
  code := .invalidInput
  message := message
  insufficientFunds := none

def ofInsufficientFunds (error : InsufficientFundsError) : NodeRpcError where
  code := .insufficientFunds
  message := error.error
  insufficientFunds := some error

end NodeRpcError

def validateEventNote (note : Option String) : Except String Unit :=
  match note with
  | none => .ok ()
  | some note =>
      if maxEventNoteChars < note.length then
        .error ("note must be at most " ++ toString maxEventNoteChars ++ " characters")
      else .ok ()

def holdHint : String :=
  "implicit hold (hold_multiplier × |amount|) pushed projected_available below the floor; " ++
    "the bare debit math would clear. Retry with `skip_hold: true` for one-shot administrative " ++
    "writes, or pass an explicit smaller `hold_amount`. See protocol.md §11.4."

/-- What a caller sees of an error of `create_local_events`. -/
def CreateLocalEventError.toRpc (maxOverdraft : UInt64) : CreateLocalEventError → NodeRpcError
  | .insufficientFunds balance available projected holdBlocking =>
      .ofInsufficientFunds
        { error := "insufficient_funds"
          balance := balance
          availableBalance := available
          projectedAvailableBalance := projected
          limit := -maxOverdraft.toInt64
          holdBlocking := holdBlocking
          hint := if holdBlocking then some holdHint else none }
  | .bucketReserved name => .invalidInput ("bucket name '" ++ name ++ "' is reserved")
  | .bucketDeleted name =>
      .invalidInput ("bucket '" ++ name ++ "' was permanently deleted and cannot be written to")
  | .invalidRequest message => .invalidInput message
  | .reservationNotFound id => .invalidInput ("reservation '" ++ id ++ "' not found")
  | .reservationExpired id => .invalidInput ("reservation '" ++ id ++ "' has expired")
  | .reservationAlreadyReleased id =>
      .invalidInput ("reservation '" ++ id ++ "' has already been released")
  | .reservationOverspend reserved attempted =>
      .invalidInput ("settle attempted " ++ toString attempted.toNat ++
        " against a reservation of " ++ toString reserved.toNat)

variable {D : Type}

/-! ## Balances -/

namespace SharedState

variable (s : SharedState D) (key : BalanceKey) (now : ℕ)

/-- `account_balance`; an account whose lock is taken counts as empty. -/
def accountBalance : Int64 :=
  if s.accountLocks key = none then (s.account key).balance else 0

def accountAvailableBalance : Int64 :=
  if s.accountLocks key = none then (s.account key).availableBalance now else 0

end SharedState

structure OriginReservationSummary where
  reservedAmount : UInt64
  reservationCount : ℕ
  nextExpiryUnixMs : Option ℕ
  latestExpiryUnixMs : Option ℕ

structure AccountBalance where
  bucket : String
  account : String
  balance : Int64
  availableBalance : Int64
  activeHoldTotal : Int64
  reservedByOrigin : TreeMap String OriginReservationSummary
  eventCount : ℕ

/-- The row shows the account; what it says of the origins of holds is left open. -/
structure AccountBalance.Shows (row : AccountBalance) (acc : AccountState) (now : ℕ) : Prop where
  balance : row.balance = acc.balance
  availableBalance : row.availableBalance = acc.availableBalance now
  activeHoldTotal : row.activeHoldTotal = (acc.activeHoldTotal now).toInt64
  eventCount : row.eventCount = acc.eventCount

/-- `get_all_balances`: a row for each account whose lock is free, in the order of the keys. -/
structure SharedState.GetAllBalances (s : SharedState D) (now : ℕ) (rows : List AccountBalance) :
    Prop where
  row : ∀ row ∈ rows, ∃ acc, s.accounts (row.bucket, row.account) = some acc ∧
    s.accountLocks (row.bucket, row.account) = none ∧ row.Shows acc now
  total : ∀ key acc, s.accounts key = some acc → s.accountLocks key = none →
    ∃ row ∈ rows, (row.bucket, row.account) = key
  sorted : rows.Pairwise fun a b => toLex (a.bucket, a.account) < toLex (b.bucket, b.account)

/-! ## Creating events -/

def createEvent (env : Env D) (phase : NodePhase) (req : CreateEventRequest) :
    ExceptT NodeRpcError (NodeM D) CreateEventResponse := do
  match validateEventNote req.note with
  | .error message => throw (.invalidInput message)
  | .ok () =>
  if !req.allowReservedBucket && isReservedBucketName req.bucket then
    throw (.invalidInput ("bucket name '" ++ req.bucket ++ "' is reserved"))
  match phase with
  | .shuttingDown => throw (.serviceUnavailable "node shutting down")
  | .warming => throw (.serviceUnavailable "node warming up")
  | .ready =>
  match ← ((createLocalEvents env req.input).run :
      NodeM D (Except CreateLocalEventError LocalCreateResult)) with
  | .error err => throw (err.toRpc (req.maxOverdraft.getD 0))
  | .ok result =>
    let event := result.primaryEvent
    let balance ← (Proc.read fun s => s.accountBalance event.balanceKey : NodeM D Int64)
    let now ← (nowMs env : NodeM D ℕ)
    let available ←
      (Proc.read fun s => s.accountAvailableBalance event.balanceKey now : NodeM D Int64)
    return { event := event
             emittedEvents := result.emittedEvents
             balance := balance
             availableBalance := available
             deduplicated := result.emittedEvents.isEmpty }

section Spec

variable (env : Env D) {req : CreateEventRequest} {s : SharedState D}

/-- What a caller is told of the outcome `r` of a request that has left the node in state `s'`. -/
def CreateEventRequest.response (req : CreateEventRequest)
    (r : Except CreateLocalEventError LocalCreateResult) (s' : SharedState D) :
    Except NodeRpcError CreateEventResponse × SharedState D :=
  match r with
  | .error err => (.error (err.toRpc (req.maxOverdraft.getD 0)), s')
  | .ok result =>
      let key := result.primaryEvent.balanceKey
      (.ok { event := result.primaryEvent
             emittedEvents := result.emittedEvents
             balance := s'.accountBalance key
             availableBalance := s'.accountAvailableBalance key (env.clock s'.clockReads)
             deduplicated := result.emittedEvents.isEmpty }, s'.tick)

/-- Past its own checks the service answers what becomes of the request. -/
theorem exec_createEvent (hnote : validateEventNote req.note = .ok ())
    (hallowed : req.allowReservedBucket = true ∨ isReservedBucketName req.bucket = false) :
    ∃ r s', Created env req.input s r s' ∧
      NodeM.exec (createEvent env .ready req).run s =
        match r with
        | none => (none, s')
        | some r => ((some (req.response env r s').1), (req.response env r s').2) := by
  obtain ⟨r, s', hcreated, hrun⟩ := exec_createLocalEvents env req.input s
  have hgate : ¬ (!req.allowReservedBucket && isReservedBucketName req.bucket) = true := by
    rcases hallowed with h | h <;> simp [h]
  have hclock := fun s : SharedState D => exec_nowMs env s
  simp only [NodeM.exec] at hrun hclock
  refine ⟨r, s', hcreated, ?_⟩
  simp only [createEvent, NodeM.exec, hnote, if_neg hgate, Proc.exec_run_bind, Proc.exec_run_lift,
    hrun]
  rcases r with _ | err | result
  · rfl
  · simp only [Option.map_some, Proc.andThenOk_ok, Proc.exec_run_throw]
    rfl
  · simp only [Option.map_some, Proc.andThenOk_ok, Proc.exec_run_bind, Proc.exec_run_lift,
      Proc.exec_read, hclock, Proc.exec_run_pure]
    rfl

end Spec

end Shardd
