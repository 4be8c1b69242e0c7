import Mathlib.Tactic.Common

/-!
# Hexadecimal text

`hexEncode` writes two lower-case digits a byte, and `hexDecode` reads them back; it takes
upper-case digits as well, and refuses an odd length and any other character.  `parseHex` reads a
number below a bound.
-/

namespace Shardd

def hexEncode (bytes : List UInt8) : List Char :=
  bytes.flatMap fun b => [Nat.digitChar (b.toNat / 16), Nat.digitChar (b.toNat % 16)]

/-- The value of a digit. -/
def hexVal (c : Char) : Option ℕ :=
  if '0' ≤ c ∧ c ≤ '9' then some (c.toNat - '0'.toNat)
  else if 'a' ≤ c ∧ c ≤ 'f' then some (c.toNat - 'a'.toNat + 10)
  else if 'A' ≤ c ∧ c ≤ 'F' then some (c.toNat - 'A'.toNat + 10)
  else none

def hexDecode : List Char → Option (List UInt8)
  | [] => some []
  | [_] => none
  | high :: low :: rest => do
      let x ← hexVal high
      let y ← hexVal low
      let bytes ← hexDecode rest
      some (UInt8.ofNat (16 * x + y) :: bytes)

/-- The characters `hexEncode` writes. -/
def IsHexDigit (c : Char) : Prop := '0' ≤ c ∧ c ≤ '9' ∨ 'a' ≤ c ∧ c ≤ 'f'

instance (c : Char) : Decidable (IsHexDigit c) := inferInstanceAs (Decidable (_ ∨ _))

lemma IsHexDigit.isAlphanum {c : Char} (h : IsHexDigit c) : c.isAlphanum = true := by
  rcases h with ⟨hlow, hhigh⟩ | ⟨hlow, hhigh⟩
  · have hdigit : c.isDigit = true := by
      show (decide (c.val ≥ '0'.val) && decide (c.val ≤ '9'.val)) = true
      exact Bool.and_eq_true_iff.2 ⟨decide_eq_true hlow, decide_eq_true hhigh⟩
    show (c.isAlpha || c.isDigit) = true
    rw [hdigit, Bool.or_true]
  · have hlower : c.isLower = true := by
      have hle : c.val ≤ 'z'.val := UInt32.le_trans hhigh (by decide)
      show (decide (c.val ≥ 'a'.val) && decide (c.val ≤ 'z'.val)) = true
      exact Bool.and_eq_true_iff.2 ⟨decide_eq_true hlow, decide_eq_true hle⟩
    show ((c.isUpper || c.isLower) || c.isDigit) = true
    rw [hlower, Bool.or_true, Bool.true_or]

lemma hexVal_digitChar {n : ℕ} (h : n < 16) : hexVal (Nat.digitChar n) = some n := by
  revert n
  decide

lemma isHexDigit_digitChar {n : ℕ} (h : n < 16) : IsHexDigit (Nat.digitChar n) := by
  revert n
  decide

@[simp] lemma hexEncode_nil : hexEncode [] = [] := rfl

@[simp] lemma hexEncode_cons (b : UInt8) (bytes : List UInt8) :
    hexEncode (b :: bytes) =
      Nat.digitChar (b.toNat / 16) :: Nat.digitChar (b.toNat % 16) :: hexEncode bytes := rfl

lemma hexEncode_append (bytes bytes' : List UInt8) :
    hexEncode (bytes ++ bytes') = hexEncode bytes ++ hexEncode bytes' :=
  List.flatMap_append

/-- What has been written is read back. -/
theorem hexDecode_hexEncode (bytes : List UInt8) : hexDecode (hexEncode bytes) = some bytes := by
  induction bytes with
  | nil => rfl
  | cons b bytes ih =>
      have hbyte := b.toNat_lt
      have hhigh := hexVal_digitChar (show b.toNat / 16 < 16 by omega)
      have hlow := hexVal_digitChar (show b.toNat % 16 < 16 by omega)
      have hsum : 16 * (b.toNat / 16) + b.toNat % 16 = b.toNat := by omega
      rw [hexEncode_cons, hexDecode]
      simp only [hhigh, hlow, ih, Option.bind_eq_bind, Option.bind_some, hsum, UInt8.ofNat_toNat]

theorem hexEncode_injective : Function.Injective hexEncode := by
  intro a b h
  have ha := hexDecode_hexEncode a
  rw [h, hexDecode_hexEncode] at ha
  exact (Option.some.inj ha).symm

theorem isHexDigit_of_mem_hexEncode {bytes : List UInt8} {c : Char} (h : c ∈ hexEncode bytes) :
    IsHexDigit c := by
  simp only [hexEncode, List.mem_flatMap, List.mem_cons, List.not_mem_nil, or_false] at h
  obtain ⟨b, -, rfl | rfl⟩ := h
  · have hbyte := b.toNat_lt
    exact isHexDigit_digitChar (by omega)
  · exact isHexDigit_digitChar (by omega)

theorem length_hexEncode (bytes : List UInt8) : (hexEncode bytes).length = 2 * bytes.length := by
  induction bytes with
  | nil => rfl
  | cons b bytes ih =>
      rw [hexEncode_cons, List.length_cons, List.length_cons, ih, List.length_cons]
      omega

/-! ## Numbers -/

/-- A hexadecimal number below `bound`, as an unsigned integer is read: a plus sign may stand in
front. -/
def parseHex (bound : ℕ) (text : List Char) : Option ℕ :=
  let digits := match text with
    | '+' :: rest => rest
    | _ => text
  if digits = [] then none
  else (digits.foldlM (fun n c => (hexVal c).map (16 * n + ·)) 0).filter (· < bound)

lemma isHexDigit_of_mem_toDigits {c : Char} {n : ℕ} (h : c ∈ Nat.toDigits 16 n) : IsHexDigit c := by
  induction n using Nat.strongRecOn with
  | ind n ih =>
    by_cases hn : n < 16
    · rw [Nat.toDigits_of_lt_base hn, List.mem_singleton] at h
      exact h ▸ isHexDigit_digitChar hn
    · rw [Nat.toDigits_of_base_le (by decide) (Nat.le_of_not_lt hn)] at h
      rcases List.mem_append.1 h with hc | hc
      · exact ih (n / 16) (by omega) hc
      · rw [List.mem_singleton.1 hc]
        exact isHexDigit_digitChar (Nat.mod_lt n (by decide))

lemma foldlM_toDigits (n : ℕ) :
    (Nat.toDigits 16 n).foldlM (fun n c => (hexVal c).map (16 * n + ·)) 0 = some n := by
  induction n using Nat.strongRecOn with
  | ind n ih =>
    by_cases hn : n < 16
    · simp [Nat.toDigits_of_lt_base hn, hexVal_digitChar hn]
    · have hlast := hexVal_digitChar (Nat.mod_lt n (show 16 > 0 by decide))
      rw [Nat.toDigits_of_base_le (by decide) (Nat.le_of_not_lt hn), List.foldlM_append,
        ih (n / 16) (by omega)]
      simp [hlast, Nat.div_add_mod]

/-- A number is read back from its hexadecimal digits. -/
theorem parseHex_toDigits (bound n : ℕ) :
    parseHex bound (Nat.toDigits 16 n) = if n < bound then some n else none := by
  have hplus : (match Nat.toDigits 16 n with
      | '+' :: rest => rest
      | _ => Nat.toDigits 16 n) = Nat.toDigits 16 n := by
    split
    · rename_i rest heq
      have hc : IsHexDigit '+' := isHexDigit_of_mem_toDigits (heq ▸ List.mem_cons_self)
      exact absurd hc (by decide)
    · rfl
  unfold parseHex
  dsimp only
  rw [hplus, if_neg Nat.toDigits_ne_nil, foldlM_toDigits]
  simp [Option.filter]

end Shardd
