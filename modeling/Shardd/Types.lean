import Mathlib.Data.Int.Basic
import Mathlib.Logic.Function.Basic
import Mathlib.Order.Defs.LinearOrder
import Mathlib.Data.String.Basic
import Mathlib.Tactic.Common

/-!
# Events and their keys (`libs/types`)

The immutable ledger entry `Event`, the keys under which a node files it, and the deterministic
winner rule for events that share an idempotency key.

Amounts and balances are `i64` and overdrafts and holds are `u64`, as in the source, and their
operators are the wrapping ones of a release build.  Times, epochs and sequence numbers are
natural numbers.
-/

namespace Shardd

/-- `(bucket, origin_node_id, origin_epoch, origin_seq)`. -/
abbrev OriginKey := String × String × ℕ × ℕ

/-- `(bucket, origin_node_id, origin_epoch)`. -/
abbrev EpochKey := String × String × ℕ

/-- `(bucket, account)`. -/
abbrev BalanceKey := String × String

/-- `(nonce, bucket, account, amount)`. -/
abbrev IdemKey := String × String × String × Int64

/-! ## Reserved bucket names -/

def metaBucket : String := "__meta__"

def billingBucketPrefix : String := "__billing__"

def isReservedBucketName (name : String) : Bool :=
  name == metaBucket || billingBucketPrefix.toList.isPrefixOf name.toList

/-! ## Events -/

def maxEventNoteChars : ℕ := 4096

inductive EventType
  | standard
  | reservationCreate
  | void
  | holdRelease
  | bucketDelete
  deriving DecidableEq, Repr

def EventType.display : EventType → String
  | .standard => "standard"
  | .reservationCreate => "reservation_create"
  | .void => "void"
  | .holdRelease => "hold_release"
  | .bucketDelete => "bucket_delete"

structure Event where
  eventId : String
  originNodeId : String
  originEpoch : ℕ
  originSeq : ℕ
  createdAtUnixMs : ℕ
  type : EventType
  bucket : String
  account : String
  amount : Int64
  note : Option String
  idempotencyNonce : String
  voidRef : Option String
  holdAmount : UInt64
  holdExpiresAtUnixMs : ℕ
  transferTo : Option String
  deriving DecidableEq, Repr

namespace Event

variable (e : Event)

def originKey : OriginKey := (e.bucket, e.originNodeId, e.originEpoch, e.originSeq)

def epochKey : EpochKey := (e.bucket, e.originNodeId, e.originEpoch)

def balanceKey : BalanceKey := (e.bucket, e.account)

def idempotencyKey : IdemKey := (e.idempotencyNonce, e.bucket, e.account, e.amount)

/-- The text that is hashed.  `note` is left out, and an absent `void_ref` is the empty text. -/
def canonical : String :=
  e.originNodeId ++ ":" ++ toString e.originEpoch ++ ":" ++ toString e.originSeq ++ ":" ++
    e.eventId ++ ":" ++ e.type.display ++ ":" ++ e.bucket ++ ":" ++ e.account ++ ":" ++
    toString e.amount.toInt ++ ":" ++ e.voidRef.getD "" ++ ":" ++ e.idempotencyNonce ++ ":" ++
    toString e.holdAmount.toNat ++ ":" ++ toString e.holdExpiresAtUnixMs

/-- Whether this event contributes an active reservation. -/
def hasHold : Bool :=
  match e.type with
  | .reservationCreate => decide (0 < e.holdAmount) && decide (0 < e.holdExpiresAtUnixMs)
  | .standard =>
      decide (e.amount < 0) && decide (0 < e.holdAmount) && decide (0 < e.holdExpiresAtUnixMs)
  | .void | .holdRelease | .bucketDelete => false

/-- The bucket a `BucketDelete` event of the meta log deletes. -/
def metaTargetBucket : Option String :=
  if e.type = .bucketDelete ∧ e.bucket = metaBucket then some e.account else none

theorem originKey_eq_iff {e e' : Event} :
    e.originKey = e'.originKey ↔ e.epochKey = e'.epochKey ∧ e.originSeq = e'.originSeq := by
  simp [originKey, epochKey, and_assoc]

theorem metaTargetBucket_eq_none {e : Event} (h : e.type ≠ .bucketDelete) :
    e.metaTargetBucket = none := by
  simp [metaTargetBucket, h]

theorem hasHold_of_type {e : Event} (h : e.type = .void ∨ e.type = .holdRelease) :
    e.hasHold = false := by
  rcases h with h | h <;> simp [hasHold, h]

end Event

/-! ## The winner among events of one idempotency key -/

/-- The order of the winner rule: earlier first, and by `event_id` at the same time. -/
def Event.beats (a b : Event) : Prop :=
  a.createdAtUnixMs < b.createdAtUnixMs ∨
    a.createdAtUnixMs = b.createdAtUnixMs ∧ a.eventId < b.eventId

instance (a b : Event) : Decidable (a.beats b) := inferInstanceAs (Decidable (_ ∨ _))

/-- The winner and the loser of two events. -/
def idempotencyWinner (a b : Event) : Event × Event :=
  if a.createdAtUnixMs < b.createdAtUnixMs then (a, b)
  else if b.createdAtUnixMs < a.createdAtUnixMs then (b, a)
  else if a.eventId < b.eventId then (a, b)
  else (b, a)

namespace Event

theorem beats_irrefl (a : Event) : ¬ a.beats a := by
  simp [beats]

theorem beats_trans {a b c : Event} (hab : a.beats b) (hbc : b.beats c) : a.beats c := by
  unfold beats at *
  rcases hab with hab | ⟨hab, hid⟩ <;> rcases hbc with hbc | ⟨hbc, hid'⟩
  · exact .inl (hab.trans hbc)
  · exact .inl (hbc ▸ hab)
  · exact .inl (hab ▸ hbc)
  · exact .inr ⟨hab.trans hbc, hid.trans hid'⟩

theorem beats_asymm {a b : Event} (h : a.beats b) : ¬ b.beats a :=
  fun h' => beats_irrefl a (beats_trans h h')

/-- Events with different ids are ordered one way or the other. -/
theorem beats_total {a b : Event} (h : a.eventId ≠ b.eventId) : a.beats b ∨ b.beats a := by
  unfold beats
  rcases lt_trichotomy a.createdAtUnixMs b.createdAtUnixMs with hlt | heq | hgt
  · exact .inl (.inl hlt)
  · rcases lt_or_gt_of_ne h with hid | hid
    · exact .inl (.inr ⟨heq, hid⟩)
    · exact .inr (.inr ⟨heq.symm, hid⟩)
  · exact .inr (.inl hgt)

end Event

theorem idempotencyWinner_of_beats {a b : Event} (h : a.beats b) :
    idempotencyWinner a b = (a, b) := by
  unfold Event.beats at h
  unfold idempotencyWinner
  rcases h with h | ⟨h, hid⟩
  · rw [if_pos h]
  · rw [if_neg (by omega), if_neg (by omega), if_pos hid]

theorem idempotencyWinner_of_beaten {a b : Event} (h : b.beats a) :
    idempotencyWinner a b = (b, a) := by
  unfold Event.beats at h
  unfold idempotencyWinner
  rcases h with h | ⟨h, hid⟩
  · rw [if_neg (by omega), if_pos h]
  · rw [if_neg (by omega), if_neg (by omega), if_neg (not_lt_of_gt hid)]

/-- The winner of two events is one of them, and beats the other. -/
theorem idempotencyWinner_eq {a b w l : Event} (hid : a.eventId ≠ b.eventId)
    (h : idempotencyWinner a b = (w, l)) : (w = a ∧ l = b ∨ w = b ∧ l = a) ∧ w.beats l := by
  rcases Event.beats_total hid with hbeats | hbeats
  · rw [idempotencyWinner_of_beats hbeats] at h
    cases h
    exact ⟨.inl ⟨rfl, rfl⟩, hbeats⟩
  · rw [idempotencyWinner_of_beaten hbeats] at h
    cases h
    exact ⟨.inr ⟨rfl, rfl⟩, hbeats⟩

/-- Whichever of two events wins, the other one loses. -/
theorem idempotencyWinner_cases (a b : Event) :
    idempotencyWinner a b = (a, b) ∨ idempotencyWinner a b = (b, a) := by
  unfold idempotencyWinner
  split
  · exact .inl rfl
  · split
    · exact .inr rfl
    · split
      · exact .inl rfl
      · exact .inr rfl

end Shardd
