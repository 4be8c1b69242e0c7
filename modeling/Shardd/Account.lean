import Shardd.Lib.Map
import Shardd.Types

/-!
# Account state and the admission arithmetic (`AccountState` in `apps/node/src/state.rs`)

The state a node keeps under an account's lock, and the pure part of admitting a debit or a
reservation: how a hold is sized (`chargeHold`) and whether the overdraft guard lets the request
through (`overdraftGuard`, `reserveGuard`).
-/

namespace Shardd

/-! ## Machine arithmetic that Lean does not have under the source's name -/

/-- `i64::unsigned_abs`. -/
def unsignedAbs (x : Int64) : UInt64 := UInt64.ofNat x.toInt.natAbs

/-- `i64::checked_abs`. -/
def checkedAbs (x : Int64) : Option Int64 :=
  if x = Int64.minValue then none else some (if x < 0 then -x else x)

lemma checkedAbs_eq_none_iff {x : Int64} : checkedAbs x = none ↔ x = Int64.minValue := by
  unfold checkedAbs
  split <;> simp_all

/-- `u64::saturating_mul`. -/
def saturatingMul (x y : UInt64) : UInt64 := UInt64.ofNat (min (x.toNat * y.toNat) (2 ^ 64 - 1))

/-- `u64::saturating_sub`. -/
def saturatingSub (x y : UInt64) : UInt64 := if x ≤ y then 0 else x - y

/-- `u64::div_ceil`. -/
def divCeil (x y : ℕ) : ℕ := (x + y - 1) / y

/-! ## Accounts -/

structure ReservationState where
  originNodeId : String
  amount : UInt64
  expiresAtUnixMs : ℕ
  deriving DecidableEq, Repr

structure AccountState where
  balance : Int64
  eventCount : ℕ
  /-- Reservation holds keyed by the hold's `event_id`. -/
  reservations : Finmap fun _ : String => ReservationState
  /-- The `event_id`s of the holds that a hold release has released. -/
  released : Finset String

namespace AccountState

def new : AccountState where
  balance := 0
  eventCount := 0
  reservations := ∅
  released := ∅

variable (acc : AccountState) (nowMs : ℕ)

def isActive (eventId : String) (r : ReservationState) : Bool :=
  decide (nowMs < r.expiresAtUnixMs) && decide (eventId ∉ acc.released)

def activeReservations : Finmap fun _ : String => ReservationState :=
  acc.reservations.filter fun eventId r => acc.isActive nowMs eventId r

/-- The `u64` sum of the active holds; the sum of a release build wraps. -/
def activeHoldTotal : UInt64 :=
  UInt64.ofNat ((acc.activeReservations nowMs).weight fun _ r => r.amount.toNat)

def activeHoldTotalForOrigin (originNodeId : String) (minRemainingMs : ℕ) : UInt64 :=
  UInt64.ofNat
    (((acc.activeReservations nowMs).filter fun _ r =>
        r.originNodeId == originNodeId &&
          decide (minRemainingMs ≤ r.expiresAtUnixMs - nowMs)).weight
      fun _ r => r.amount.toNat)

def availableBalance : Int64 := acc.balance - (acc.activeHoldTotal nowMs).toInt64

def trackReservation (e : Event) : AccountState :=
  if e.hasHold then
    { acc with
      reservations := acc.reservations.insert e.eventId
        { originNodeId := e.originNodeId
          amount := e.holdAmount
          expiresAtUnixMs := e.holdExpiresAtUnixMs } }
  else acc

def applyRelease (eventId : String) : AccountState :=
  { acc with released := insert eventId acc.released }

/-- The release section of `insert_event` and `apply_correction_event`. -/
def applyReleaseOf (e : Event) : AccountState :=
  match e.type, e.voidRef with
  | .holdRelease, some voidRef => acc.applyRelease voidRef
  | _, _ => acc

/-- Add an amount to the balance and count its event. -/
def post (amount : Int64) : AccountState :=
  { acc with balance := acc.balance + amount, eventCount := acc.eventCount + 1 }

/-- The body of `sweep_expired_holds` for one account. -/
def sweepExpired : AccountState where
  balance := acc.balance
  eventCount := acc.eventCount
  reservations := acc.reservations.filter fun _ r => decide (nowMs < r.expiresAtUnixMs)
  released := acc.released.filter fun eventId =>
    (acc.reservations.lookup eventId).all fun r => decide (nowMs < r.expiresAtUnixMs)

end AccountState

/-! ## Sizing a hold and guarding the overdraft -/

structure HoldConfig where
  multiplier : UInt64
  durationMs : ℕ

/-- Failure modes of `create_local_events`. -/
inductive CreateLocalEventError
  /-- `(balance, available_balance, projected_available, hold_blocking)`. -/
  | insufficientFunds (balance available projected : Int64) (holdBlocking : Bool)
  | bucketReserved (bucket : String)
  | bucketDeleted (bucket : String)
  | invalidRequest (message : String)
  | reservationNotFound (id : String)
  | reservationExpired (id : String)
  | reservationAlreadyReleased (id : String)
  /-- `(reservation_amount, attempted_amount)`. -/
  | reservationOverspend (reserved attempted : UInt64)
  deriving DecidableEq, Repr

section Admission

variable (acc : AccountState) (nodeId : String) (cfg : HoldConfig)
  (amount : Int64) (maxOverdraft : UInt64) (nowMs : ℕ)

/-- `-(max_overdraft as i64)`. -/
def overdraftFloor : Int64 := -maxOverdraft.toInt64

/-- The hold an implicit sizing asks for before it is shrunk. -/
def rawHold : UInt64 :=
  if amount < 0 ∧ 0 < cfg.multiplier then saturatingMul (unsignedAbs amount) cfg.multiplier else 0

def renewalWindowMs : ℕ := if cfg.durationMs = 0 then 0 else divCeil cfg.durationMs 10

/-- What the bare debit leaves above the floor. -/
def headroom : Int64 :=
  let rest := acc.availableBalance nowMs + amount - overdraftFloor maxOverdraft
  if rest < 0 then 0 else rest

/-- `(hold_amount, hold_expires_at_unix_ms)` of a charge.  Without an override the implicit hold
is shrunk to the headroom, and what this node already holds is taken off. -/
def chargeHold (holdOverride : Option (UInt64 × ℕ)) : UInt64 × ℕ :=
  match holdOverride with
  | some hold => hold
  | none =>
    let currentHold :=
      acc.activeHoldTotalForOrigin nowMs nodeId (renewalWindowMs cfg)
    let maxUsefulHold :=
      if amount < 0 then (headroom acc amount maxOverdraft nowMs).toUInt64 else rawHold cfg amount
    let requestedHold :=
      if rawHold cfg amount ≤ maxUsefulHold then rawHold cfg amount else maxUsefulHold
    let holdAmount := saturatingSub requestedHold currentHold
    (holdAmount, if 0 < holdAmount then (nowMs + cfg.durationMs) % 2 ^ 64 else 0)

/-- The overdraft guard of a charge: the error it is rejected with, if any. -/
def overdraftGuard (holdAmount : UInt64) : Option CreateLocalEventError :=
  if amount < 0 then
    let avail := acc.availableBalance nowMs
    let projected := avail + amount - holdAmount.toInt64
    let floor := overdraftFloor maxOverdraft
    if projected < floor then
      some (.insufficientFunds acc.balance avail projected (decide (floor ≤ avail + amount)))
    else none
  else none

/-- The overdraft guard of a pure reservation. -/
def reserveGuard (holdAmount : UInt64) : Option CreateLocalEventError :=
  let avail := acc.availableBalance nowMs
  let projected := avail - holdAmount.toInt64
  if projected < overdraftFloor maxOverdraft then
    some (.insufficientFunds acc.balance avail projected false)
  else none

end Admission

end Shardd
