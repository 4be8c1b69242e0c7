import Mathlib.Algebra.Order.Ring.Int
import Mathlib.Tactic.Common

/-!
# Machine integers as integers

Each wrapping operator of `Int64` and `UInt64` as integer arithmetic: the exact result, plus a
multiple of `2 ^ 64` that is zero when the exact result can be represented.  Together with the
ranges of the two types these are linear facts, so `omega` decides what a machine expression does.
-/

/-- The integers an `i64` can represent. -/
def Int64.Fits (x : ℤ) : Prop := -2 ^ 63 ≤ x ∧ x < 2 ^ 63

namespace Int64

theorem fits_toInt (x : Int64) : Fits x.toInt := ⟨x.le_toInt, x.toInt_lt⟩

theorem bmod_eq_add_mul (x : ℤ) : ∃ k : ℤ, x.bmod (2 ^ 64) = x + k * 2 ^ 64 := by
  refine ⟨-x.bdiv (2 ^ 64), ?_⟩
  have h := Int.bmod_eq_self_sub_bdiv_mul x (2 ^ 64)
  rw [h]
  generalize x.bdiv (2 ^ 64) = q
  omega

theorem toInt_add_eq (x y : Int64) : ∃ k : ℤ, (x + y).toInt = x.toInt + y.toInt + k * 2 ^ 64 := by
  rw [Int64.toInt_add]
  exact bmod_eq_add_mul _

theorem toInt_sub_eq (x y : Int64) : ∃ k : ℤ, (x - y).toInt = x.toInt - y.toInt + k * 2 ^ 64 := by
  rw [Int64.toInt_sub]
  exact bmod_eq_add_mul _

theorem toInt_neg_eq (x : Int64) : ∃ k : ℤ, (-x).toInt = -x.toInt + k * 2 ^ 64 := by
  rw [Int64.toInt_neg]
  exact bmod_eq_add_mul _

/-- An addition is exact when its exact result fits, and only then. -/
theorem toInt_add_iff {x y : Int64} :
    (x + y).toInt = x.toInt + y.toInt ↔ Fits (x.toInt + y.toInt) := by
  obtain ⟨k, hk⟩ := toInt_add_eq x y
  have hlow := (x + y).le_toInt
  have hhigh := (x + y).toInt_lt
  unfold Fits
  omega

theorem toInt_sub_iff {x y : Int64} :
    (x - y).toInt = x.toInt - y.toInt ↔ Fits (x.toInt - y.toInt) := by
  obtain ⟨k, hk⟩ := toInt_sub_eq x y
  have hlow := (x - y).le_toInt
  have hhigh := (x - y).toInt_lt
  unfold Fits
  omega

theorem toInt_neg_iff {x : Int64} : (-x).toInt = -x.toInt ↔ Fits (-x.toInt) := by
  obtain ⟨k, hk⟩ := toInt_neg_eq x
  have hlow := (-x).le_toInt
  have hhigh := (-x).toInt_lt
  unfold Fits
  omega

theorem toNat_toUInt64 {x : Int64} (h : 0 ≤ x.toInt) : (x.toUInt64.toNat : ℤ) = x.toInt := by
  rw [Int64.toNat_toUInt64_of_le (Int64.le_iff_toInt_le.2 (by simpa using h))]
  exact Int.toNat_of_nonneg h

end Int64

namespace UInt64

theorem toNat_ofNat_iff {n : ℕ} : (UInt64.ofNat n).toNat = n ↔ n < 2 ^ 64 := by
  rw [UInt64.toNat_ofNat']
  omega

theorem toInt_toInt64_eq (x : UInt64) : ∃ k : ℤ, x.toInt64.toInt = x.toNat + k * 2 ^ 64 := by
  have h : x.toInt64.toInt = (x.toNat : ℤ).bmod (2 ^ 64) := by
    rw [← Int64.toInt_toBitVec, UInt64.toBitVec_toInt64, BitVec.toInt_eq_toNat_bmod]
    rfl
  rw [h]
  exact Int64.bmod_eq_add_mul _

/-- The cast to `i64` keeps the value of the lower half of the range, and only of that. -/
theorem toInt_toInt64_iff {x : UInt64} : x.toInt64.toInt = x.toNat ↔ x.toNat < 2 ^ 63 := by
  obtain ⟨k, hk⟩ := toInt_toInt64_eq x
  have hlow := x.toInt64.le_toInt
  have hhigh := x.toInt64.toInt_lt
  have hx := x.toNat_lt
  omega

end UInt64
