import Shardd.Node.Allocator
import Shardd.Node.Heads

/-!
# Local event creation (`create_local_events`, §3.1)

The request dispatch `LocalCreateMode::from_input` and the four branches it leads to.  Every
branch runs under the lock of the request's account; a transfer takes the lock of the receiving
account as well, while it holds the first.
-/

namespace Shardd

/-! ## Requests -/

structure LocalCreateInput where
  bucket : String
  account : String
  amount : Int64
  note : Option String
  maxOverdraft : UInt64
  idempotencyNonce : String
  allowReservedBucket : Bool
  holdAmount : Option UInt64
  holdExpiresAtUnixMs : Option ℕ
  settleReservation : Option String
  releaseReservation : Option String
  skipHold : Bool
  transferTo : Option String
  deriving DecidableEq, Repr

/-- The request shape of every caller without reservation fields. -/
def LocalCreateInput.legacy (bucket account : String) (amount : Int64) (note : Option String)
    (maxOverdraft : UInt64) (idempotencyNonce : String) (allowReservedBucket : Bool) :
    LocalCreateInput where
  bucket := bucket
  account := account
  amount := amount
  note := note
  maxOverdraft := maxOverdraft
  idempotencyNonce := idempotencyNonce
  allowReservedBucket := allowReservedBucket
  holdAmount := none
  holdExpiresAtUnixMs := none
  settleReservation := none
  releaseReservation := none
  skipHold := false
  transferTo := none

structure LocalCreateResult where
  primaryEvent : Event
  /-- Empty on an idempotent retry. -/
  emittedEvents : List Event
  deriving DecidableEq, Repr

inductive LocalCreateMode
  | charge (holdOverride : Option (UInt64 × ℕ))
  | reserve
  | settle (reservationId : String)
  | release (reservationId : String)
  deriving DecidableEq, Repr

namespace LocalCreateInput

variable (input : LocalCreateInput)

def balanceKey : BalanceKey := (input.bucket, input.account)

def idempotencyKey : IdemKey :=
  (input.idempotencyNonce, input.bucket, input.account, input.amount)

/-- The hold fields, which must come as a pair. -/
def explicitHold : Except CreateLocalEventError (Option (UInt64 × ℕ)) :=
  match input.holdAmount, input.holdExpiresAtUnixMs with
  | some amt, some expires => .ok (some (amt, expires))
  | none, none => .ok none
  | _, _ => .error (.invalidRequest
      "hold_amount and hold_expires_at_unix_ms must be set together")

end LocalCreateInput

/-- `LocalCreateMode::from_input`; `now` is the clock reading of the expiry check. -/
def LocalCreateMode.fromInput (input : LocalCreateInput) (now : ℕ) :
    Except CreateLocalEventError LocalCreateMode := do
  if input.settleReservation.isSome && input.releaseReservation.isSome then
    throw (.invalidRequest "settle_reservation and release_reservation are mutually exclusive")
  let explicitHold ← input.explicitHold
  if input.skipHold then
    if input.settleReservation.isSome || input.releaseReservation.isSome then
      throw (.invalidRequest "skip_hold cannot be combined with settle/release")
    if explicitHold.isSome then
      throw (.invalidRequest "skip_hold cannot be combined with explicit hold fields")
  match input.settleReservation with
  | some reservationId =>
      if 0 ≤ input.amount then
        throw (.invalidRequest "settle_reservation requires a debit (amount < 0)")
      if explicitHold.isSome then
        throw (.invalidRequest "settle_reservation cannot be combined with explicit hold fields")
      return .settle reservationId
  | none =>
  match input.releaseReservation with
  | some reservationId =>
      if input.amount ≠ 0 then
        throw (.invalidRequest "release_reservation requires amount == 0")
      if explicitHold.isSome then
        throw (.invalidRequest "release_reservation cannot be combined with explicit hold fields")
      return .release reservationId
  | none =>
  match explicitHold with
  | some (holdAmount, holdExpiresAtUnixMs) =>
      if holdAmount = 0 then
        throw (.invalidRequest "hold_amount must be > 0 when supplied")
      if holdExpiresAtUnixMs ≤ now then
        throw (.invalidRequest "hold_expires_at_unix_ms must be in the future")
      if input.amount = 0 then
        return .reserve
      if 0 < input.amount then
        throw (.invalidRequest "credits cannot carry a hold")
      return .charge (some (holdAmount, holdExpiresAtUnixMs))
  | none =>
      if input.skipHold then
        -- no hold at all: an override of size zero
        return .charge (some (0, 0))
      return .charge none

/-! ## Building events -/

/-- The fields of an `Event { .. }` literal that the branch decides for itself.  The id, the origin
and the time come from the node. -/
structure EventDraft where
  type : EventType
  key : BalanceKey
  amount : Int64
  note : Option String
  idempotencyNonce : String
  voidRef : Option String
  /-- `(hold_amount, hold_expires_at_unix_ms)`. -/
  hold : UInt64 × ℕ
  transferTo : Option String
  deriving DecidableEq, Repr

def EventDraft.event (d : EventDraft) (eventId nodeId : String) (id : ℕ × ℕ)
    (createdAtUnixMs : ℕ) : Event where
  eventId := eventId
  originNodeId := nodeId
  originEpoch := id.1
  originSeq := id.2
  createdAtUnixMs := createdAtUnixMs
  type := d.type
  bucket := d.key.1
  account := d.key.2
  amount := d.amount
  note := d.note
  idempotencyNonce := d.idempotencyNonce
  voidRef := d.voidRef
  holdAmount := d.hold.1
  holdExpiresAtUnixMs := d.hold.2
  transferTo := d.transferTo

namespace LocalCreateInput

variable (input : LocalCreateInput)

/-- The reservation a charge with a hold emits first. -/
def holdDraft (hold : UInt64 × ℕ) : EventDraft where
  type := .reservationCreate
  key := input.balanceKey
  amount := 0
  note := none
  idempotencyNonce := "reserve:" ++ input.idempotencyNonce
  voidRef := none
  hold := hold
  transferTo := none

/-- The charge or credit itself. -/
def chargeDraft : EventDraft where
  type := .standard
  key := input.balanceKey
  amount := input.amount
  note := input.note
  idempotencyNonce := input.idempotencyNonce
  voidRef := none
  hold := (0, 0)
  transferTo := input.transferTo

/-- The credit side of a transfer. -/
def creditDraft (toAddr : String) (creditAmount : Int64) : EventDraft where
  type := .standard
  key := (input.bucket, toAddr)
  amount := creditAmount
  note := input.note
  idempotencyNonce := "credit:" ++ input.idempotencyNonce
  voidRef := none
  hold := (0, 0)
  transferTo := none

def reserveDraft : EventDraft where
  type := .reservationCreate
  key := input.balanceKey
  amount := 0
  note := input.note
  idempotencyNonce := input.idempotencyNonce
  voidRef := none
  hold := (input.holdAmount.getD 0, input.holdExpiresAtUnixMs.getD 0)
  transferTo := none

/-- The charge of a settle. -/
def captureDraft : EventDraft where
  type := .standard
  key := input.balanceKey
  amount := input.amount
  note := input.note
  idempotencyNonce := input.idempotencyNonce
  voidRef := none
  hold := (0, 0)
  transferTo := none

/-- The release that goes with the charge of a settle. -/
def settleReleaseDraft (reservationId : String) : EventDraft where
  type := .holdRelease
  key := input.balanceKey
  amount := 0
  note := none
  idempotencyNonce := "release:" ++ input.idempotencyNonce
  voidRef := some reservationId
  hold := (0, 0)
  transferTo := none

def releaseDraft (reservationId : String) : EventDraft where
  type := .holdRelease
  key := input.balanceKey
  amount := 0
  note := input.note
  idempotencyNonce := input.idempotencyNonce
  voidRef := some reservationId
  hold := (0, 0)
  transferTo := none

end LocalCreateInput

variable {D : Type} (env : Env D)

/-- An event literal, with `Event::generate_id()` for its id. -/
def buildEvent (id : ℕ × ℕ) (createdAtUnixMs : ℕ) (d : EventDraft) : NodeM D Event :=
  .readUpdate fun s =>
    let e := d.event (env.freshId s.idsDrawn) env.nodeId id createdAtUnixMs
    (e, { s with idsDrawn := s.idsDrawn + 1, minted := s.minted ++ [e] })

/-- What minting `e` does to its account. -/
def AccountState.applyEvent (acc : AccountState) (e : Event) : AccountState :=
  ((acc.post e.amount).trackReservation e).applyReleaseOf e

/-- The account and the idempotency cache after a local event. -/
def SharedState.applyLocal (s : SharedState D) (e : Event) : SharedState D :=
  (s.modifyAccount e.balanceKey fun acc => acc.applyEvent e).cacheEvent e

/-- An allocator error is reported as insufficient funds. -/
def allocateOrFail (bucket : String) (balance available : Int64) :
    ExceptT CreateLocalEventError (NodeM D) (ℕ × ℕ) := ExceptT.mk do
  match ← (allocate env bucket).run with
  | .ok pair => return .ok pair
  | .error _ => return .error (.insufficientFunds balance available balance false)

def readAccount (key : BalanceKey) : NodeM D AccountState := .read fun s => s.account key

/-- `allocate_or_fail(bucket, state.balance, state.available_balance(now_ms))`. -/
def allocateFor (key : BalanceKey) (now : ℕ) :
    ExceptT CreateLocalEventError (NodeM D) (ℕ × ℕ) := do
  let acc ← (readAccount key : NodeM D AccountState)
  allocateOrFail env key.1 acc.balance (acc.availableBalance now)

/-- Allocate an identity, build the event, apply it under its account's lock. -/
def mintLocal (now : ℕ) (d : EventDraft) :
    ExceptT CreateLocalEventError (NodeM D) Event := do
  let id ← allocateFor env d.key now
  let e ← (buildEvent env id now d : NodeM D Event)
  (Proc.update fun s => s.applyLocal e : NodeM D Unit)
  return e

/-! ## The branches -/

section Branches

variable (input : LocalCreateInput) (now : ℕ)

/-- The reservation event before the charge, if there is a hold. -/
def emitHold (hold : UInt64 × ℕ) : ExceptT CreateLocalEventError (NodeM D) (List Event) := do
  if 0 < hold.1 then
    let e ← mintLocal env now (input.holdDraft hold)
    return [e]
  else
    return []

/-- The credit side of a transfer, under the lock of the receiving account. -/
def emitCredit (toAddr : String) : ExceptT CreateLocalEventError (NodeM D) (List Event) :=
  ExceptT.mk <| withAccount (input.bucket, toAddr) <| ExceptT.run do
    match checkedAbs input.amount with
    | none => throw (.invalidRequest "transfer amount overflows i64")
    | some creditAmount =>
        let e ← mintLocal env now (input.creditDraft toAddr creditAmount)
        return [e]

/-- The credit side, if the request is a transfer. -/
def emitTransfer : ExceptT CreateLocalEventError (NodeM D) (List Event) :=
  match input.transferTo with
  | some toAddr => emitCredit env input now toAddr
  | none => pure []

def emitChargeLocked (holdOverride : Option (UInt64 × ℕ)) :
    ExceptT CreateLocalEventError (NodeM D) LocalCreateResult := do
  let acc ← (readAccount input.balanceKey : NodeM D AccountState)
  let hold := chargeHold acc env.nodeId env.hold input.amount input.maxOverdraft now holdOverride
  match overdraftGuard acc input.amount input.maxOverdraft now hold.1 with
  | some err => throw err
  | none =>
    let held ← emitHold env input now hold
    let charge ← mintLocal env now input.chargeDraft
    let credited ← emitTransfer env input now
    let emitted := held ++ [charge] ++ credited
    (flushLocalEvents env emitted : NodeM D Unit)
    return { primaryEvent := charge, emittedEvents := emitted }

def emitReserveLocked : ExceptT CreateLocalEventError (NodeM D) LocalCreateResult := do
  let acc ← (readAccount input.balanceKey : NodeM D AccountState)
  match reserveGuard acc input.maxOverdraft now (input.holdAmount.getD 0) with
  | some err => throw err
  | none =>
    let e ← mintLocal env now input.reserveDraft
    (flushLocalEvents env [e] : NodeM D Unit)
    return { primaryEvent := e, emittedEvents := [e] }

/-- The checks a settle and a release make on the reservation they name. -/
def AccountState.openReservation (acc : AccountState) (reservationId : String) (now : ℕ) :
    Except CreateLocalEventError ReservationState :=
  match acc.reservations.lookup reservationId with
  | none => .error (.reservationNotFound reservationId)
  | some reservation =>
      if reservationId ∈ acc.released then .error (.reservationAlreadyReleased reservationId)
      else if reservation.expiresAtUnixMs ≤ now then .error (.reservationExpired reservationId)
      else .ok reservation

/-- The checks of a settle: the reservation is open and covers the amount. -/
def AccountState.settleCheck (acc : AccountState) (reservationId : String) (amount : Int64)
    (now : ℕ) : Except CreateLocalEventError Unit := do
  let reservation ← acc.openReservation reservationId now
  let attempted := unsignedAbs amount
  if reservation.amount < attempted then
    throw (.reservationOverspend reservation.amount attempted)

def emitSettleLocked (reservationId : String) :
    ExceptT CreateLocalEventError (NodeM D) LocalCreateResult := do
  let acc ← (readAccount input.balanceKey : NodeM D AccountState)
  match acc.settleCheck reservationId input.amount now with
  | .error err => throw err
  | .ok () =>
    -- both identities up front, so that neither event lands without the other
    let chargeId ← allocateFor env input.balanceKey now
    let releaseId ← allocateFor env input.balanceKey now
    let charge ← (buildEvent env chargeId now input.captureDraft : NodeM D Event)
    let release ← (buildEvent env releaseId now (input.settleReleaseDraft reservationId) :
      NodeM D Event)
    (Proc.update fun s => (s.applyLocal charge).applyLocal release : NodeM D Unit)
    (flushLocalEvents env [charge, release] : NodeM D Unit)
    return { primaryEvent := charge, emittedEvents := [charge, release] }

def emitReleaseLocked (reservationId : String) :
    ExceptT CreateLocalEventError (NodeM D) LocalCreateResult := do
  let acc ← (readAccount input.balanceKey : NodeM D AccountState)
  match acc.openReservation reservationId now with
  | .error err => throw err
  | .ok _ =>
    let release ← mintLocal env now (input.releaseDraft reservationId)
    (flushLocalEvents env [release] : NodeM D Unit)
    return { primaryEvent := release, emittedEvents := [release] }

def emitLocked (mode : LocalCreateMode) :
    ExceptT CreateLocalEventError (NodeM D) LocalCreateResult :=
  match mode with
  | .charge holdOverride => emitChargeLocked env input now holdOverride
  | .reserve => emitReserveLocked env input now
  | .settle reservationId => emitSettleLocked env input now reservationId
  | .release reservationId => emitReleaseLocked env input now reservationId

end Branches

/-! ## The request -/

/-- The canonical winner among stored events of one key. -/
def canonicalWinner : List Event → Option Event
  | [] => none
  | e :: rest => some (rest.foldl (fun best e' => if e'.beats best then e' else best) e)

/-- The idempotency check: the cache, then the storage.  A storage failure counts as no match. -/
def findExisting (key : IdemKey) : NodeM D (Option Event) := do
  match ← (Proc.read fun s => s.idempotencyCache key : NodeM D (Option Event)) with
  | some existing => return some existing
  | none =>
      match ← (storageCall env .findByIdempotencyKey
        fun st => (st.findByIdempotencyKey key, st)).run with
      | .error _ => return none
      | .ok found =>
          match canonicalWinner found with
          | none => return none
          | some winner => do
              Proc.update fun s =>
                { s with idempotencyCache := s.idempotencyCache.insert key winner }
              return some winner

def createLocalEvents (input : LocalCreateInput) :
    ExceptT CreateLocalEventError (NodeM D) LocalCreateResult := do
  if !input.allowReservedBucket && isReservedBucketName input.bucket then
    throw (.bucketReserved input.bucket)
  if ← (Proc.read fun s => s.deletedBuckets.containsKey input.bucket : NodeM D Bool) then
    throw (.bucketDeleted input.bucket)
  -- the reading only matters for a request with explicit hold fields
  let checkedAt ← nowMs env
  let mode ← LocalCreateMode.fromInput input checkedAt
  ExceptT.mk <| withAccount input.balanceKey <| ExceptT.run do
    match ← (findExisting env input.idempotencyKey : NodeM D (Option Event)) with
    | some existing => return { primaryEvent := existing, emittedEvents := [] }
    | none =>
        let now ← nowMs env
        emitLocked env input now mode

end Shardd
