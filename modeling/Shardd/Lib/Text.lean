import Mathlib.Data.List.Basic
import Mathlib.Data.List.DropRight

/-!
# Splitting and reading texts

`splitOnce` and `rsplitOnce` cut a list at the first and at the last occurrence of a separator,
`stripPrefix` takes a prefix off, `trim` takes off the white space at both ends, and
`parseUnsigned` reads a decimal number below a bound.  A text that was put together from parts is
read back as these parts when the separator occurs where it is expected.

Fields with a mark behind each of them are read back when none of them holds the mark
(`markedFields_inj`), and so is a list of records with marks between them when each record can be
told from what follows it (`SelfDelimiting.intercalate_inj`).
-/

namespace Shardd

section Split

variable {α : Type*} [DecidableEq α] (c : α)

/-- What stands before and after the first `c`. -/
def splitOnce : List α → Option (List α × List α)
  | [] => none
  | x :: xs => if x = c then some ([], xs) else (splitOnce xs).map fun p => (x :: p.1, p.2)

/-- What stands before and after the last `c`. -/
def rsplitOnce (l : List α) : Option (List α × List α) :=
  (splitOnce c l.reverse).map fun p => (p.2.reverse, p.1.reverse)

variable {c}

lemma splitOnce_eq_some_iff {l a b : List α} :
    splitOnce c l = some (a, b) ↔ l = a ++ c :: b ∧ c ∉ a := by
  induction l generalizing a b with
  | nil => simp [splitOnce]
  | cons x xs ih =>
      by_cases hx : x = c
      · subst hx
        rw [splitOnce, if_pos rfl]
        constructor
        · intro h
          cases h
          exact ⟨rfl, List.not_mem_nil⟩
        · rintro ⟨h, hnot⟩
          cases a with
          | nil => rw [(List.cons.inj h).2]
          | cons y a => exact absurd (List.mem_cons.2 (.inl (List.cons.inj h).1)) hnot
      · rw [splitOnce, if_neg hx, Option.map_eq_some_iff]
        constructor
        · rintro ⟨⟨a', b'⟩, hsplit, heq⟩
          cases heq
          obtain ⟨rfl, hnot⟩ := ih.1 hsplit
          exact ⟨rfl, by simp [Ne.symm hx, hnot]⟩
        · rintro ⟨h, hnot⟩
          cases a with
          | nil => exact absurd (List.cons.inj h).1 hx
          | cons y a =>
              obtain ⟨rfl, rfl⟩ := List.cons.inj h
              exact ⟨(a, b), ih.2 ⟨rfl, fun hmem => hnot (List.mem_cons_of_mem _ hmem)⟩, rfl⟩

lemma rsplitOnce_eq_some_iff {l a b : List α} :
    rsplitOnce c l = some (a, b) ↔ l = a ++ c :: b ∧ c ∉ b := by
  rw [rsplitOnce, Option.map_eq_some_iff]
  constructor
  · rintro ⟨⟨b', a'⟩, hsplit, heq⟩
    cases heq
    obtain ⟨hl, hnot⟩ := splitOnce_eq_some_iff.1 hsplit
    refine ⟨?_, by simpa using hnot⟩
    rw [← List.reverse_reverse l, hl]
    simp
  · rintro ⟨rfl, hnot⟩
    refine ⟨(b.reverse, a.reverse), splitOnce_eq_some_iff.2 ⟨?_, by simpa using hnot⟩, by simp⟩
    simp

/-- What stands behind the prefix `p`. -/
def stripPrefix (p l : List α) : Option (List α) :=
  if p.isPrefixOf l then some (l.drop p.length) else none

lemma stripPrefix_eq_some_iff {p l r : List α} : stripPrefix p l = some r ↔ l = p ++ r := by
  rw [stripPrefix, Option.ite_none_right_eq_some, List.isPrefixOf_iff_prefix]
  constructor
  · rintro ⟨⟨t, rfl⟩, hdrop⟩
    rw [← Option.some.inj hdrop, List.drop_left]
  · rintro rfl
    exact ⟨List.prefix_append p r, by simp⟩

end Split

/-! ## Records with marks -/

section Records

variable {α : Type*} {c : α}

lemma append_cons_inj {a b r s : List α} (ha : c ∉ a) (hb : c ∉ b)
    (h : a ++ c :: r = b ++ c :: s) : a = b ∧ r = s := by
  classical
  have hread : splitOnce c (a ++ c :: r) = some (a, r) := splitOnce_eq_some_iff.2 ⟨rfl, ha⟩
  have hread' : splitOnce c (a ++ c :: r) = some (b, s) := splitOnce_eq_some_iff.2 ⟨h, hb⟩
  rw [hread, Option.some.injEq, Prod.mk.injEq] at hread'
  exact hread'

/-- Fields with the mark `c` behind each of them, and a rest. -/
def markedFields (c : α) (fields : List (List α)) (rest : List α) : List α :=
  fields.foldr (fun field text => field ++ c :: text) rest

/-- So many fields without the mark are read back. -/
lemma markedFields_inj {fields fields' : List (List α)} {rest rest' : List α}
    (hlen : fields.length = fields'.length) (hfields : ∀ field ∈ fields, c ∉ field)
    (hfields' : ∀ field ∈ fields', c ∉ field)
    (h : markedFields c fields rest = markedFields c fields' rest') :
    fields = fields' ∧ rest = rest' := by
  induction fields generalizing fields' with
  | nil =>
      obtain rfl := List.length_eq_zero_iff.1 hlen.symm
      exact ⟨rfl, h⟩
  | cons field fields ih =>
      obtain ⟨field', fields', rfl⟩ := List.exists_cons_of_length_eq_add_one hlen.symm
      obtain ⟨rfl, htext⟩ := append_cons_inj (hfields field List.mem_cons_self)
        (hfields' field' List.mem_cons_self) h
      obtain ⟨rfl, hrest⟩ := ih (Nat.succ.inj hlen)
        (fun f hf => hfields f (List.mem_cons_of_mem _ hf))
        (fun f hf => hfields' f (List.mem_cons_of_mem _ hf)) htext
      exact ⟨rfl, hrest⟩

/-- A record can be told from what follows it, be it nothing or the mark `c`. -/
def SelfDelimiting (c : α) (records : Set (List α)) : Prop :=
  ∀ a ∈ records, ∀ b ∈ records, ∀ s t : List α, (∀ x ∈ s.head?, x = c) → (∀ x ∈ t.head?, x = c) →
    a ++ s = b ++ t → a = b ∧ s = t

/-- Texts without the mark are self-delimiting. -/
lemma selfDelimiting_of_notMem {records : Set (List α)} (h : ∀ a ∈ records, c ∉ a) :
    SelfDelimiting c records := by
  intro a ha b hb s t hs ht heq
  cases s with
  | nil =>
      cases t with
      | nil => exact ⟨by simpa using heq, rfl⟩
      | cons y t =>
          have hmem : y ∈ a := by
            rw [List.append_nil] at heq
            rw [heq]
            simp
          exact absurd (ht y rfl ▸ hmem) (h a ha)
  | cons x s =>
      obtain rfl := hs x rfl
      cases t with
      | nil =>
          have hmem : x ∈ b := by
            rw [List.append_nil] at heq
            rw [← heq]
            simp
          exact absurd hmem (h b hb)
      | cons y t =>
          obtain rfl := ht y rfl
          obtain ⟨rfl, rfl⟩ := append_cons_inj (h a ha) (h b hb) heq
          exact ⟨rfl, rfl⟩

/-- Fields in front of self-delimiting texts. -/
lemma SelfDelimiting.behind_fields {m : α} {records : Set (List α)} (h : SelfDelimiting c records)
    (n : ℕ) : SelfDelimiting c {text | ∃ fields rest, fields.length = n ∧
      (∀ field ∈ fields, m ∉ field) ∧ rest ∈ records ∧
      text = markedFields m fields rest} := by
  have hpush : ∀ (fields : List (List α)) (rest s : List α),
      markedFields m fields rest ++ s = markedFields m fields (rest ++ s) := by
    intro fields rest s
    induction fields with
    | nil => rfl
    | cons field fields ih =>
        show (field ++ m :: markedFields m fields rest) ++ s =
          field ++ m :: markedFields m fields (rest ++ s)
        rw [List.append_assoc, List.cons_append, ih]
  rintro a ⟨fields, rest, hlen, hfields, hrest, rfl⟩ b
    ⟨fields', rest', hlen', hfields', hrest', rfl⟩ s t hs ht heq
  rw [hpush, hpush] at heq
  obtain ⟨rfl, hrests⟩ := markedFields_inj (hlen.trans hlen'.symm) hfields hfields' heq
  obtain ⟨rfl, rfl⟩ := h rest hrest rest' hrest' s t hs ht hrests
  exact ⟨rfl, rfl⟩

/-- The records of a text with the mark between them are read back. -/
lemma SelfDelimiting.intercalate_inj {records : Set (List α)} (h : SelfDelimiting c records)
    (hne : [] ∉ records) {l l' : List (List α)} (hl : ∀ a ∈ l, a ∈ records)
    (hl' : ∀ a ∈ l', a ∈ records) (heq : [c].intercalate l = [c].intercalate l') : l = l' := by
  -- what stands behind the first record
  have hcons : ∀ (a : List α) (l : List (List α)), ∃ s : List α, (∀ x ∈ s.head?, x = c) ∧
      [c].intercalate (a :: l) = a ++ s ∧ s = if l = [] then [] else c :: [c].intercalate l := by
    intro a l
    cases l with
    | nil => exact ⟨[], by simp, by simp, rfl⟩
    | cons b l =>
        exact ⟨c :: [c].intercalate (b :: l), by simp, by simp, by simp⟩
  induction l generalizing l' with
  | nil =>
      cases l' with
      | nil => rfl
      | cons b l' =>
          obtain ⟨s, -, hs, -⟩ := hcons b l'
          rw [List.intercalate_nil, hs] at heq
          have hb : b = [] := (List.append_eq_nil_iff.1 heq.symm).1
          exact absurd (hb ▸ hl' b List.mem_cons_self) hne
  | cons a l ih =>
      cases l' with
      | nil =>
          obtain ⟨s, -, hs, -⟩ := hcons a l
          rw [List.intercalate_nil, hs] at heq
          have ha : a = [] := (List.append_eq_nil_iff.1 heq).1
          exact absurd (ha ▸ hl a List.mem_cons_self) hne
      | cons b l' =>
          obtain ⟨s, hhead, hs, hrest⟩ := hcons a l
          obtain ⟨t, hhead', ht, hrest'⟩ := hcons b l'
          rw [hs, ht] at heq
          obtain ⟨rfl, rfl⟩ := h a (hl a List.mem_cons_self) b (hl' b List.mem_cons_self) s t hhead
            hhead' heq
          have hmore : ∀ x ∈ l, x ∈ records := fun x hx => hl x (List.mem_cons_of_mem _ hx)
          have hmore' : ∀ x ∈ l', x ∈ records := fun x hx => hl' x (List.mem_cons_of_mem _ hx)
          rw [hrest] at hrest'
          by_cases hl0 : l = [] <;> by_cases hl0' : l' = []
          · rw [hl0, hl0']
          · rw [if_pos hl0, if_neg hl0'] at hrest'
            cases hrest'
          · rw [if_neg hl0, if_pos hl0'] at hrest'
            cases hrest'
          · rw [if_neg hl0, if_neg hl0'] at hrest'
            rw [ih hmore hmore' (List.cons.inj hrest').2]

end Records

/-! ## White space and numbers -/

/-- The Unicode property `White_Space`. -/
def isWhiteSpace (c : Char) : Bool :=
  (9 ≤ c.toNat && c.toNat ≤ 13) || (0x2000 ≤ c.toNat && c.toNat ≤ 0x200a) ||
    [0x20, 0x85, 0xa0, 0x1680, 0x2028, 0x2029, 0x202f, 0x205f, 0x3000].contains c.toNat

/-- `str::trim`. -/
def trim (text : List Char) : List Char := (text.dropWhile isWhiteSpace).rdropWhile isWhiteSpace

lemma trim_trim (text : List Char) : trim (trim text) = trim text := by
  have hhead : (trim text).dropWhile isWhiteSpace = trim text := by
    rw [List.dropWhile_eq_self_iff]
    intro hlen
    -- the first character that is left is the first after the white space
    obtain ⟨rest, hrest⟩ : trim text <+: text.dropWhile isWhiteSpace := List.rdropWhile_prefix _ _
    have hlen' : 0 < (text.dropWhile isWhiteSpace).length := by
      rw [← hrest, List.length_append]
      exact Nat.lt_of_lt_of_le hlen (Nat.le_add_right _ _)
    have hget : (trim text)[0] = (text.dropWhile isWhiteSpace)[0] := by
      simp only [← hrest, List.getElem_append_left hlen]
    rw [hget]
    exact List.dropWhile_get_zero_not _ _ hlen'
  show ((trim text).dropWhile isWhiteSpace).rdropWhile isWhiteSpace = trim text
  rw [hhead]
  exact List.rdropWhile_idempotent _ _

/-- `str::parse` of an unsigned type with the values below `bound`: one leading `+` is skipped. -/
def parseUnsigned (bound : ℕ) (text : List Char) : Option ℕ :=
  let digits := match text with
    | '+' :: rest => rest
    | _ => text
  if digits ≠ [] ∧ digits.all Char.isDigit = true then
    let n := Nat.ofDigitChars 10 digits 0
    if n < bound then some n else none
  else none

/-- A number is read back from its digits. -/
lemma parseUnsigned_toDigits {bound n : ℕ} (h : n < bound) :
    parseUnsigned bound (Nat.toDigits 10 n) = some n := by
  have hdigits : ∀ c ∈ Nat.toDigits 10 n, c.isDigit = true := fun c hc =>
    Nat.isDigit_of_mem_toDigits (by decide) (by decide) hc
  have hplus : (match Nat.toDigits 10 n with
      | '+' :: rest => rest
      | _ => Nat.toDigits 10 n) = Nat.toDigits 10 n := by
    split
    · rename_i rest heq
      have hc := hdigits '+' (heq ▸ List.mem_cons_self)
      exact absurd hc (by decide)
    · rfl
  unfold parseUnsigned
  dsimp only
  rw [hplus, if_pos ⟨Nat.toDigits_ne_nil, List.all_eq_true.2 hdigits⟩,
    Nat.ofDigitChars_ten_toDigits, if_pos h]

lemma toDigits_injective {m n : ℕ} (h : Nat.toDigits 10 m = Nat.toDigits 10 n) : m = n := by
  rw [← @Nat.ofDigitChars_ten_toDigits m, h, Nat.ofDigitChars_ten_toDigits]

/-- The digits of a number hold no other character. -/
lemma notMem_toDigits {c : Char} (h : c.isDigit = false) (n : ℕ) : c ∉ Nat.toDigits 10 n := by
  intro hc
  have hdigit := Nat.isDigit_of_mem_toDigits (b := 10) (by decide) (by decide) hc
  rw [h] at hdigit
  cases hdigit

lemma toString_nat_inj {m n : ℕ} (h : toString m = toString n) : m = n := by
  apply toDigits_injective
  rw [← Nat.toList_repr, ← Nat.toList_repr]
  exact congrArg String.toList h

lemma notMem_toString_nat {c : Char} (h : c.isDigit = false) (n : ℕ) :
    c ∉ (toString n).toList := by
  have hlist : (toString n).toList = Nat.toDigits 10 n := Nat.toList_repr
  rw [hlist]
  exact notMem_toDigits h n

lemma toString_negSucc (n : ℕ) :
    (toString (Int.negSucc n)).toList = '-' :: (toString (n + 1)).toList := by
  show ("-" ++ toString (n + 1)).toList = _
  rw [String.toList_append]
  rfl

lemma notMem_toString_int {c : Char} (h : c.isDigit = false) (hc : c ≠ '-') (i : ℤ) :
    c ∉ (toString i).toList := by
  cases i with
  | ofNat n => exact notMem_toString_nat h n
  | negSucc n =>
      rw [toString_negSucc, List.mem_cons, not_or]
      exact ⟨hc, notMem_toString_nat h _⟩

lemma toString_int_inj {i j : ℤ} (h : toString i = toString j) : i = j := by
  have hsign : ∀ m n : ℕ, toString (Int.ofNat m) ≠ toString (Int.negSucc n) := by
    intro m n heq
    have hmem : '-' ∈ (toString m).toList := by
      have hlist : (toString m).toList = (toString (Int.negSucc n)).toList :=
        congrArg String.toList heq
      rw [hlist, toString_negSucc]
      exact List.mem_cons_self
    exact notMem_toString_nat (by decide) m hmem
  cases i with
  | ofNat m =>
      cases j with
      | ofNat n => exact congrArg Int.ofNat (toString_nat_inj h)
      | negSucc n => exact absurd h (hsign m n)
  | negSucc m =>
      cases j with
      | ofNat n => exact absurd h.symm (hsign n m)
      | negSucc n =>
          have hlist := congrArg String.toList h
          rw [toString_negSucc, toString_negSucc] at hlist
          have hsucc := toString_nat_inj (String.ext (List.cons.inj hlist).2)
          rw [Nat.succ.inj hsucc]

end Shardd
