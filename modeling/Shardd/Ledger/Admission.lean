import Shardd.Account
import Shardd.Lib.Machine

/-!
# The admission arithmetic against exact arithmetic

A debit or a reservation is admitted when the available balance, less the amount and the hold,
stays above the overdraft floor.  The code makes the test in `i64` and `u64`.  Here is the same
test over the integers, and the condition on the inputs under which every machine operation on the
way gives the exact result, so that the two tests decide alike.

The condition is not met by every request: an overdraft from `2 ^ 63` on changes its sign in the
cast, and the overdraft of `u64::MAX` that stands for "no limit" becomes a floor of `1`.
-/

namespace Shardd

/-! ## The exact test -/

namespace AccountState

variable (acc : AccountState) (nowMs : ℕ)

def exactHoldTotal : ℕ := (acc.activeReservations nowMs).weight fun _ r => r.amount.toNat

def exactAvailable : ℤ := acc.balance.toInt - acc.exactHoldTotal nowMs

def exactHoldTotalForOrigin (originNodeId : String) (minRemainingMs : ℕ) : ℕ :=
  ((acc.activeReservations nowMs).filter fun _ r =>
    r.originNodeId == originNodeId && decide (minRemainingMs ≤ r.expiresAtUnixMs - nowMs)).weight
      fun _ r => r.amount.toNat

end AccountState

section Exact

variable (acc : AccountState) (nodeId : String) (cfg : HoldConfig)
  (amount : Int64) (maxOverdraft : UInt64) (nowMs : ℕ)

/-- The implicit hold of a debit: a multiple of the amount, shrunk to what the bare debit leaves
above the floor, less what this node already holds. -/
def exactImplicitHold : ℕ :=
  min (amount.toInt.natAbs * cfg.multiplier.toNat)
    (acc.exactAvailable nowMs + amount.toInt + maxOverdraft.toNat).toNat -
      acc.exactHoldTotalForOrigin nowMs nodeId (renewalWindowMs cfg)

/-- Every operation of a charge gives the exact result, and the charge is let through exactly when
the exact test lets it through. -/
structure ChargeExact (holdOverride : Option (UInt64 × ℕ)) : Prop where
  holdTotal : (acc.activeHoldTotal nowMs).toNat = acc.exactHoldTotal nowMs
  holdTotalCast : (acc.activeHoldTotal nowMs).toInt64.toInt = (acc.activeHoldTotal nowMs).toNat
  available : (acc.availableBalance nowMs).toInt = acc.exactAvailable nowMs
  overdraftCast : maxOverdraft.toInt64.toInt = maxOverdraft.toNat
  floor : (overdraftFloor maxOverdraft).toInt = -maxOverdraft.toNat
  bare : (acc.availableBalance nowMs + amount).toInt = acc.exactAvailable nowMs + amount.toInt
  headroom : holdOverride = none →
    (acc.availableBalance nowMs + amount - overdraftFloor maxOverdraft).toInt =
      acc.exactAvailable nowMs + amount.toInt + maxOverdraft.toNat
  hold : holdOverride = none →
    (chargeHold acc nodeId cfg amount maxOverdraft nowMs holdOverride).1.toNat =
      exactImplicitHold acc nodeId cfg amount maxOverdraft nowMs
  expiry : holdOverride = none →
    0 < (chargeHold acc nodeId cfg amount maxOverdraft nowMs holdOverride).1 →
      (chargeHold acc nodeId cfg amount maxOverdraft nowMs holdOverride).2 = nowMs + cfg.durationMs
  holdCast :
    (chargeHold acc nodeId cfg amount maxOverdraft nowMs holdOverride).1.toInt64.toInt =
      (chargeHold acc nodeId cfg amount maxOverdraft nowMs holdOverride).1.toNat
  projected :
    (acc.availableBalance nowMs + amount -
      (chargeHold acc nodeId cfg amount maxOverdraft nowMs holdOverride).1.toInt64).toInt =
      acc.exactAvailable nowMs + amount.toInt -
        (chargeHold acc nodeId cfg amount maxOverdraft nowMs holdOverride).1.toNat
  decision :
    overdraftGuard acc amount maxOverdraft nowMs
        (chargeHold acc nodeId cfg amount maxOverdraft nowMs holdOverride).1 = none ↔
      -(maxOverdraft.toNat : ℤ) ≤ acc.exactAvailable nowMs + amount.toInt -
        (chargeHold acc nodeId cfg amount maxOverdraft nowMs holdOverride).1.toNat

/-- What the inputs of a debit have to satisfy for its arithmetic to be exact. -/
structure ChargeFits (holdOverride : Option (UInt64 × ℕ)) : Prop where
  holdTotal : acc.exactHoldTotal nowMs < 2 ^ 63
  available : -2 ^ 63 ≤ acc.exactAvailable nowMs
  overdraft : maxOverdraft.toNat < 2 ^ 63
  bare : -2 ^ 63 ≤ acc.exactAvailable nowMs + amount.toInt
  explicit : ∀ hold expires, holdOverride = some (hold, expires) →
    hold.toNat < 2 ^ 63 ∧ -2 ^ 63 ≤ acc.exactAvailable nowMs + amount.toInt - hold.toNat
  implicit : holdOverride = none →
    acc.exactAvailable nowMs + amount.toInt + maxOverdraft.toNat < 2 ^ 63 ∧
      (0 < exactImplicitHold acc nodeId cfg amount maxOverdraft nowMs →
        nowMs + cfg.durationMs < 2 ^ 64)

/-- Every operation of a pure reservation gives the exact result, and so does its decision. -/
structure ReserveExact (hold : UInt64) : Prop where
  holdTotal : (acc.activeHoldTotal nowMs).toNat = acc.exactHoldTotal nowMs
  holdTotalCast : (acc.activeHoldTotal nowMs).toInt64.toInt = (acc.activeHoldTotal nowMs).toNat
  available : (acc.availableBalance nowMs).toInt = acc.exactAvailable nowMs
  overdraftCast : maxOverdraft.toInt64.toInt = maxOverdraft.toNat
  floor : (overdraftFloor maxOverdraft).toInt = -maxOverdraft.toNat
  holdCast : hold.toInt64.toInt = hold.toNat
  projected : (acc.availableBalance nowMs - hold.toInt64).toInt =
    acc.exactAvailable nowMs - hold.toNat
  decision : reserveGuard acc maxOverdraft nowMs hold = none ↔
    -(maxOverdraft.toNat : ℤ) ≤ acc.exactAvailable nowMs - hold.toNat

structure ReserveFits (hold : UInt64) : Prop where
  holdTotal : acc.exactHoldTotal nowMs < 2 ^ 63
  available : -2 ^ 63 ≤ acc.exactAvailable nowMs
  overdraft : maxOverdraft.toNat < 2 ^ 63
  holdFits : hold.toNat < 2 ^ 63
  projected : -2 ^ 63 ≤ acc.exactAvailable nowMs - hold.toNat

end Exact

/-! ## Exactness, operation by operation -/

section Operations

variable {acc : AccountState} {nowMs : ℕ} {maxOverdraft : UInt64}

/-- The sum of the holds and its cast are exact when the sum is an `i64`, and only then. -/
lemma activeHoldTotal_exact_iff :
    ((acc.activeHoldTotal nowMs).toNat = acc.exactHoldTotal nowMs ∧
      (acc.activeHoldTotal nowMs).toInt64.toInt = (acc.activeHoldTotal nowMs).toNat) ↔
      acc.exactHoldTotal nowMs < 2 ^ 63 := by
  have hsum : (acc.activeHoldTotal nowMs).toNat = acc.exactHoldTotal nowMs ↔
      acc.exactHoldTotal nowMs < 2 ^ 64 := UInt64.toNat_ofNat_iff
  rw [UInt64.toInt_toInt64_iff]
  constructor
  · rintro ⟨hn, hlt⟩
    omega
  · intro hlt
    have hn := hsum.2 (by omega)
    exact ⟨hn, by omega⟩

lemma availableBalance_exact_iff (h : acc.exactHoldTotal nowMs < 2 ^ 63) :
    (acc.availableBalance nowMs).toInt = acc.exactAvailable nowMs ↔
      -2 ^ 63 ≤ acc.exactAvailable nowMs := by
  obtain ⟨hsum, hcast⟩ := activeHoldTotal_exact_iff.2 h
  have hexact : acc.exactAvailable nowMs =
      acc.balance.toInt - (acc.activeHoldTotal nowMs).toInt64.toInt := by
    rw [hcast, hsum]
    rfl
  have hhigh := acc.balance.toInt_lt
  rw [hexact, AccountState.availableBalance, Int64.toInt_sub_iff, Int64.Fits]
  omega

lemma overdraftFloor_exact (h : maxOverdraft.toNat < 2 ^ 63) :
    (overdraftFloor maxOverdraft).toInt = -maxOverdraft.toNat := by
  have hcast := UInt64.toInt_toInt64_iff.2 h
  rw [← hcast, overdraftFloor, Int64.toInt_neg_iff, Int64.Fits]
  omega

lemma unsignedAbs_toNat (x : Int64) : (unsignedAbs x).toNat = x.toInt.natAbs := by
  have hlow := x.le_toInt
  have hhigh := x.toInt_lt
  rw [unsignedAbs, UInt64.toNat_ofNat_iff]
  omega

lemma toInt_of_checkedAbs {a c : Int64} (h : checkedAbs a = some c) :
    a.toInt < 0 ∧ c.toInt = -a.toInt ∨ 0 ≤ a.toInt ∧ c.toInt = a.toInt := by
  have hzero : (0 : Int64).toInt = 0 := rfl
  have hlow := a.le_toInt
  have hhigh := a.toInt_lt
  unfold checkedAbs at h
  split at h
  · cases h
  · rename_i hmin
    have hne : a.toInt ≠ -2 ^ 63 := fun heq => hmin (Int64.toInt.inj heq)
    simp only [Option.some.injEq] at h
    subst h
    split
    · rename_i hneg
      rw [Int64.lt_iff_toInt_lt, hzero] at hneg
      exact .inl ⟨hneg, Int64.toInt_neg_iff.2 (by unfold Int64.Fits; omega)⟩
    · rename_i hneg
      rw [Int64.lt_iff_toInt_lt, hzero] at hneg
      exact .inr ⟨by omega, rfl⟩

lemma saturatingMul_toNat (x y : UInt64) :
    (saturatingMul x y).toNat = min (x.toNat * y.toNat) (2 ^ 64 - 1) := by
  rw [saturatingMul, UInt64.toNat_ofNat_iff]
  omega

lemma saturatingSub_toNat (x y : UInt64) : (saturatingSub x y).toNat = x.toNat - y.toNat := by
  unfold saturatingSub
  split
  · rename_i h
    have h' := UInt64.le_iff_toNat_le.1 h
    simp only [UInt64.toNat_zero]
    omega
  · rename_i h
    have h' := UInt64.not_le.1 h
    exact UInt64.toNat_sub_of_le _ _ (UInt64.le_of_lt h')

variable {nodeId : String} {cfg : HoldConfig} {amount : Int64}

lemma rawHold_toNat (cfg : HoldConfig) (hdebit : amount < 0) :
    (rawHold cfg amount).toNat =
      min (amount.toInt.natAbs * cfg.multiplier.toNat) (2 ^ 64 - 1) := by
  unfold rawHold
  by_cases hmul : 0 < cfg.multiplier
  · rw [if_pos ⟨hdebit, hmul⟩, saturatingMul_toNat, unsignedAbs_toNat]
  · have hzero : cfg.multiplier.toNat = 0 := by
      have := UInt64.lt_iff_toNat_lt.not.1 hmul
      simpa using this
    rw [if_neg (fun h => hmul h.2), hzero]
    rfl

lemma activeHoldTotalForOrigin_toNat (nodeId : String) (h : acc.exactHoldTotal nowMs < 2 ^ 64)
    (minRemainingMs : ℕ) :
    (acc.activeHoldTotalForOrigin nowMs nodeId minRemainingMs).toNat =
      acc.exactHoldTotalForOrigin nowMs nodeId minRemainingMs := by
  have hle : acc.exactHoldTotalForOrigin nowMs nodeId minRemainingMs ≤ acc.exactHoldTotal nowMs :=
    Finmap.weight_filter_le _ _ _
  exact UInt64.toNat_ofNat_iff.2 (lt_of_le_of_lt hle h)

lemma headroom_toNat {exact : ℤ}
    (h : (acc.availableBalance nowMs + amount - overdraftFloor maxOverdraft).toInt = exact) :
    (headroom acc amount maxOverdraft nowMs).toUInt64.toNat = exact.toNat := by
  unfold headroom
  dsimp only
  have hneg :
      acc.availableBalance nowMs + amount - overdraftFloor maxOverdraft < 0 ↔ exact < 0 := by
    rw [Int64.lt_iff_toInt_lt, h]
    rfl
  split
  · rename_i hlt
    have := hneg.1 hlt
    have hzero : (0 : Int64).toUInt64.toNat = 0 := rfl
    omega
  · rename_i hge
    have hnonneg := hneg.not.1 hge
    have hcast := Int64.toNat_toUInt64
      (x := acc.availableBalance nowMs + amount - overdraftFloor maxOverdraft) (by omega)
    omega

/-- The implicit hold is exact when the headroom is. -/
lemma chargeHold_none_exact (hdebit : amount < 0) (hsum : acc.exactHoldTotal nowMs < 2 ^ 63)
    (hfits : acc.exactAvailable nowMs + amount.toInt + maxOverdraft.toNat < 2 ^ 63)
    (h : (acc.availableBalance nowMs + amount - overdraftFloor maxOverdraft).toInt =
      acc.exactAvailable nowMs + amount.toInt + maxOverdraft.toNat) :
    (chargeHold acc nodeId cfg amount maxOverdraft nowMs none).1.toNat =
      exactImplicitHold acc nodeId cfg amount maxOverdraft nowMs := by
  have hheadroom := headroom_toNat h
  have hraw := rawHold_toNat cfg hdebit
  have hcurrent := activeHoldTotalForOrigin_toNat nodeId
    (lt_trans hsum (by decide)) (renewalWindowMs cfg)
  simp only [chargeHold, if_pos hdebit, saturatingSub_toNat, hcurrent, exactImplicitHold]
  congr 1
  rw [apply_ite UInt64.toNat, hheadroom, hraw]
  simp only [UInt64.le_iff_toNat_le, hheadroom, hraw]
  generalize amount.toInt.natAbs * cfg.multiplier.toNat = raw
  split <;> omega

lemma toInt_lt_zero (hdebit : amount < 0) : amount.toInt < 0 := by
  have h := Int64.lt_iff_toInt_lt.1 hdebit
  simpa using h

lemma overdraftGuard_eq_none_iff (hdebit : amount < 0) (hold : UInt64) :
    overdraftGuard acc amount maxOverdraft nowMs hold = none ↔
      (overdraftFloor maxOverdraft).toInt ≤
        (acc.availableBalance nowMs + amount - hold.toInt64).toInt := by
  simp only [overdraftGuard, if_pos hdebit]
  rw [← Int64.le_iff_toInt_le]
  split
  · rename_i hlt
    simp [Int64.not_le.2 hlt]
  · rename_i hlt
    simp [Int64.not_lt.1 hlt]

lemma reserveGuard_eq_none_iff (hold : UInt64) :
    reserveGuard acc maxOverdraft nowMs hold = none ↔
      (overdraftFloor maxOverdraft).toInt ≤
        (acc.availableBalance nowMs - hold.toInt64).toInt := by
  simp only [reserveGuard]
  rw [← Int64.le_iff_toInt_le]
  split
  · rename_i hlt
    simp [Int64.not_le.2 hlt]
  · rename_i hlt
    simp [Int64.not_lt.1 hlt]

end Operations

/-! ## Exactly when the arithmetic is exact -/

section Iff

variable {acc : AccountState} {nodeId : String} {cfg : HoldConfig} {amount : Int64}
  {maxOverdraft : UInt64} {nowMs : ℕ}

lemma chargeFits_of_exact {holdOverride : Option (UInt64 × ℕ)}
    (h : ChargeExact acc nodeId cfg amount maxOverdraft nowMs holdOverride) :
    ChargeFits acc nodeId cfg amount maxOverdraft nowMs holdOverride where
  holdTotal := activeHoldTotal_exact_iff.1 ⟨h.holdTotal, h.holdTotalCast⟩
  available := h.available ▸ Int64.le_toInt _
  overdraft := UInt64.toInt_toInt64_iff.1 h.overdraftCast
  bare := h.bare ▸ Int64.le_toInt _
  explicit hold expires hov := by
    subst hov
    exact ⟨UInt64.toInt_toInt64_iff.1 h.holdCast, le_of_le_of_eq (Int64.le_toInt _) h.projected⟩
  implicit hov := by
    refine ⟨lt_of_eq_of_lt (h.headroom hov).symm (Int64.toInt_lt _), fun hpos => ?_⟩
    have hhold : 0 < (chargeHold acc nodeId cfg amount maxOverdraft nowMs holdOverride).1 := by
      rw [UInt64.lt_iff_toNat_lt, h.hold hov]
      exact hpos
    have hexpiry := h.expiry hov hhold
    subst hov
    simp only [chargeHold] at hexpiry hhold
    rw [if_pos hhold] at hexpiry
    omega

lemma chargeExact_of_fits {holdOverride : Option (UInt64 × ℕ)} (hdebit : amount < 0)
    (h : ChargeFits acc nodeId cfg amount maxOverdraft nowMs holdOverride) :
    ChargeExact acc nodeId cfg amount maxOverdraft nowMs holdOverride := by
  obtain ⟨hsum, hcast⟩ := activeHoldTotal_exact_iff.2 h.holdTotal
  have hneg := toInt_lt_zero hdebit
  have hbalance := acc.balance.toInt_lt
  have havail := (availableBalance_exact_iff h.holdTotal).2 h.available
  have hbound : acc.exactAvailable nowMs < 2 ^ 63 := havail ▸ Int64.toInt_lt _
  have hfloor := overdraftFloor_exact h.overdraft
  have hbare : (acc.availableBalance nowMs + amount).toInt =
      acc.exactAvailable nowMs + amount.toInt := by
    rw [← havail, Int64.toInt_add_iff, havail, Int64.Fits]
    exact ⟨h.bare, by omega⟩
  have hheadroom : holdOverride = none →
      (acc.availableBalance nowMs + amount - overdraftFloor maxOverdraft).toInt =
        acc.exactAvailable nowMs + amount.toInt + maxOverdraft.toNat := by
    intro hov
    have hlt := (h.implicit hov).1
    have hlow := h.bare
    have hsub := Int64.toInt_sub_iff (x := acc.availableBalance nowMs + amount)
      (y := overdraftFloor maxOverdraft)
    rw [hbare, hfloor, Int64.Fits] at hsub
    rw [hsub.2 (by omega)]
    omega
  have hhold : holdOverride = none →
      (chargeHold acc nodeId cfg amount maxOverdraft nowMs holdOverride).1.toNat =
        exactImplicitHold acc nodeId cfg amount maxOverdraft nowMs := by
    intro hov
    have heq := hheadroom hov
    have hlt := (h.implicit hov).1
    subst hov
    exact chargeHold_none_exact hdebit h.holdTotal hlt heq
  set hold := chargeHold acc nodeId cfg amount maxOverdraft nowMs holdOverride with hdef
  -- an implicit hold fits because it is at most the headroom
  have hfits : hold.1.toNat < 2 ^ 63 ∧
      -2 ^ 63 ≤ acc.exactAvailable nowMs + amount.toInt - hold.1.toNat := by
    rcases hov : holdOverride with _ | ⟨amt, expires⟩
    · have hlt := (h.implicit hov).1
      have hlow := h.bare
      have hodr := h.overdraft
      have hle : exactImplicitHold acc nodeId cfg amount maxOverdraft nowMs ≤
          (acc.exactAvailable nowMs + amount.toInt + maxOverdraft.toNat).toNat := by
        unfold exactImplicitHold
        omega
      rw [hhold hov]
      omega
    · have hexplicit := h.explicit amt expires hov
      rw [hdef, hov]
      exact hexplicit
  have hholdCast := UInt64.toInt_toInt64_iff.2 hfits.1
  have hprojected : (acc.availableBalance nowMs + amount - hold.1.toInt64).toInt =
      acc.exactAvailable nowMs + amount.toInt - hold.1.toNat := by
    have hsub := Int64.toInt_sub_iff (x := acc.availableBalance nowMs + amount)
      (y := hold.1.toInt64)
    rw [hbare, hholdCast, Int64.Fits] at hsub
    exact hsub.2 (by omega)
  refine ⟨hsum, hcast, havail, UInt64.toInt_toInt64_iff.2 h.overdraft, hfloor, hbare, hheadroom,
    hhold, fun hov hpos => ?_, hholdCast, hprojected, ?_⟩
  · have hexpires := (h.implicit hov).2 (by
      have hpos' := UInt64.lt_iff_toNat_lt.1 hpos
      rw [← hdef, hhold hov] at hpos'
      exact hpos')
    subst hov
    simp only [chargeHold] at hdef hpos ⊢
    rw [if_pos hpos]
    exact Nat.mod_eq_of_lt hexpires
  · rw [← hdef, overdraftGuard_eq_none_iff hdebit, hfloor, hprojected]

lemma reserveExact_iff_fits {hold : UInt64} :
    ReserveExact acc maxOverdraft nowMs hold ↔ ReserveFits acc maxOverdraft nowMs hold := by
  constructor
  · intro h
    exact ⟨activeHoldTotal_exact_iff.1 ⟨h.holdTotal, h.holdTotalCast⟩,
      h.available ▸ Int64.le_toInt _, UInt64.toInt_toInt64_iff.1 h.overdraftCast,
      UInt64.toInt_toInt64_iff.1 h.holdCast, le_of_le_of_eq (Int64.le_toInt _) h.projected⟩
  · intro h
    obtain ⟨hsum, hcast⟩ := activeHoldTotal_exact_iff.2 h.holdTotal
    have havail := (availableBalance_exact_iff h.holdTotal).2 h.available
    have hbound : acc.exactAvailable nowMs < 2 ^ 63 := havail ▸ Int64.toInt_lt _
    have hfloor := overdraftFloor_exact h.overdraft
    have hholdCast := UInt64.toInt_toInt64_iff.2 h.holdFits
    have hprojected : (acc.availableBalance nowMs - hold.toInt64).toInt =
        acc.exactAvailable nowMs - hold.toNat := by
      have hsub := Int64.toInt_sub_iff (x := acc.availableBalance nowMs) (y := hold.toInt64)
      rw [havail, hholdCast, Int64.Fits] at hsub
      exact hsub.2 ⟨h.projected, by omega⟩
    refine ⟨hsum, hcast, havail, UInt64.toInt_toInt64_iff.2 h.overdraft, hfloor, hholdCast,
      hprojected, ?_⟩
    rw [reserveGuard_eq_none_iff, hfloor, hprojected]

end Iff

/-- **Admission arithmetic.**  The arithmetic of a debit and of a reservation is exact, and they are
let through exactly when the exact test lets them through, if and only if the inputs fit. -/
theorem admission_exact_iff (acc : AccountState) (nodeId : String) (cfg : HoldConfig)
    (amount : Int64) (maxOverdraft : UInt64) (nowMs : ℕ) (holdOverride : Option (UInt64 × ℕ))
    (holdAmount : UInt64) (hdebit : amount < 0) :
    (ChargeExact acc nodeId cfg amount maxOverdraft nowMs holdOverride ↔
      ChargeFits acc nodeId cfg amount maxOverdraft nowMs holdOverride) ∧
    (ReserveExact acc maxOverdraft nowMs holdAmount ↔
      ReserveFits acc maxOverdraft nowMs holdAmount) :=
  ⟨⟨chargeFits_of_exact, chargeExact_of_fits hdebit⟩, reserveExact_iff_fits⟩

/-- The debit and the reservation of an empty account with an overdraft of `10`. -/
theorem admission_exact_iff_new :
    (ChargeExact .new "node" ⟨5, 600000⟩ (-1) 10 0 none ↔
      ChargeFits .new "node" ⟨5, 600000⟩ (-1) 10 0 none) ∧
    (ReserveExact .new 10 0 3 ↔ ReserveFits .new 10 0 3) :=
  admission_exact_iff .new "node" ⟨5, 600000⟩ (-1) 10 0 none 3 (by decide)

/-- A debit of `1` with the overdraft `u64::MAX` of the billing path, from an empty account: the
exact test lets it through and the guard does not. -/
theorem overdraftGuard_of_maxOverdraft :
    let maxOverdraft : UInt64 := 18446744073709551615
    let hold := chargeHold .new "node" ⟨5, 600000⟩ (-1) maxOverdraft 0 none
    overdraftGuard .new (-1) maxOverdraft 0 hold.1 ≠ none ∧
      -(maxOverdraft.toNat : ℤ) ≤
        AccountState.new.exactAvailable 0 + (-1 : Int64).toInt - hold.1.toNat := by
  decide +kernel

end Shardd
