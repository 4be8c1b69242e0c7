import Mathlib.Data.Finset.Basic
import Mathlib.Order.Interval.Finset.Nat

/-!
# Contiguous prefixes of sets of sequence numbers

A set of sequence numbers, counted from `1`, arrives one number at a time and in any order.  What
is kept of it is the largest `h` such that `1, …, h` have all arrived, and the numbers beyond `h`.
`IsHead s h p` says that `h` and `p` are that; the two are determined by the set, so they do not
depend on the order of arrival.
-/

namespace Shardd

/-- `h` is the contiguous head of `s`, and `p` is what lies beyond it. -/
structure IsHead (s : Finset ℕ) (h : ℕ) (p : Finset ℕ) : Prop where
  mem : ∀ n, 1 ≤ n → n ≤ h → n ∈ s
  next : h + 1 ∉ s
  mem_pending : ∀ n, n ∈ p ↔ n ∈ s ∧ h < n

namespace IsHead

variable {s : Finset ℕ} {h h' : ℕ} {p p' : Finset ℕ} {n : ℕ}

theorem head_unique (hs : IsHead s h p) (hs' : IsHead s h' p') : h = h' := by
  rcases lt_trichotomy h h' with hlt | heq | hgt
  · exact absurd (hs'.mem (h + 1) (by omega) hlt) hs.next
  · exact heq
  · exact absurd (hs.mem (h' + 1) (by omega) hgt) hs'.next

theorem pending_unique (hs : IsHead s h p) (hs' : IsHead s h' p') : p = p' := by
  obtain rfl := hs.head_unique hs'
  ext n
  rw [hs.mem_pending, hs'.mem_pending]

theorem empty : IsHead ∅ 0 ∅ where
  mem n hn hn' := by omega
  next := by simp
  mem_pending n := by simp

/-- Without a gap there is nothing beyond the head. -/
theorem Icc (h : ℕ) : IsHead (Finset.Icc 1 h) h ∅ where
  mem n hn hn' := Finset.mem_Icc.2 ⟨hn, hn'⟩
  next := by simp
  mem_pending n := by
    simp only [Finset.notMem_empty, Finset.mem_Icc, false_iff]
    omega

/-- What has arrived is what is at most the head or pending. -/
theorem mem_iff (hs : IsHead s h p) (hn : 1 ≤ n) : n ∈ s ↔ n ≤ h ∨ n ∈ p := by
  rw [hs.mem_pending]
  constructor
  · intro hmem
    rcases le_or_gt n h with hle | hgt
    · exact .inl hle
    · exact .inr ⟨hmem, hgt⟩
  · rintro (hle | ⟨hmem, -⟩)
    · exact hs.mem n hn hle
    · exact hmem

/-- A number beyond the next one waits. -/
theorem insert_pending (hs : IsHead s h p) (hn : h + 1 < n) :
    IsHead (insert n s) h (insert n p) where
  mem m hm hm' := Finset.mem_insert_of_mem (hs.mem m hm hm')
  next := by
    rw [Finset.mem_insert, not_or]
    exact ⟨by omega, hs.next⟩
  mem_pending m := by
    rw [Finset.mem_insert, Finset.mem_insert, hs.mem_pending]
    constructor
    · rintro (rfl | ⟨hm, hm'⟩)
      · exact ⟨.inl rfl, by omega⟩
      · exact ⟨.inr hm, hm'⟩
    · rintro ⟨rfl | hm, hm'⟩
      · exact .inl rfl
      · exact .inr ⟨hm, hm'⟩

/-- The next number moves the head over whatever was pending behind it. -/
theorem insert_next (hs : IsHead s h p) (hle : h < h')
    (hrun : ∀ m, h + 1 < m → m ≤ h' → m ∈ p) (hstop : h' + 1 ∉ p')
    (hrest : ∀ m, m ∈ p' ↔ m ∈ p ∧ h' < m) : IsHead (insert (h + 1) s) h' p' where
  mem m hm hm' := by
    rcases lt_trichotomy m (h + 1) with hlt | rfl | hgt
    · exact Finset.mem_insert_of_mem (hs.mem m hm (by omega))
    · exact Finset.mem_insert_self _ _
    · exact Finset.mem_insert_of_mem ((hs.mem_pending m).1 (hrun m hgt hm')).1
  next := by
    rw [Finset.mem_insert, not_or]
    refine ⟨by omega, fun hmem => hstop ?_⟩
    rw [hrest, hs.mem_pending]
    exact ⟨⟨hmem, by omega⟩, by omega⟩
  mem_pending m := by
    rw [hrest, hs.mem_pending, Finset.mem_insert]
    constructor
    · rintro ⟨⟨hm, -⟩, hm'⟩
      exact ⟨.inr hm, hm'⟩
    · rintro ⟨rfl | hm, hm'⟩
      · omega
      · exact ⟨⟨hm, by omega⟩, hm'⟩

/-- The head is as far as all numbers have arrived. -/
theorem le_of_mem (hs : IsHead s h p) {m : ℕ} (hall : ∀ n, 1 ≤ n → n ≤ m → n ∈ s) : m ≤ h := by
  by_contra hlt
  exact hs.next (hall (h + 1) (by omega) (by omega))

/-- Every number that has arrived is below the head or pending, and none is both. -/
theorem card (hs : IsHead s h p) (hpos : ∀ n ∈ s, 1 ≤ n) : s.card = h + p.card := by
  have hset : s = Finset.Icc 1 h ∪ p := by
    ext n
    rw [Finset.mem_union, Finset.mem_Icc]
    constructor
    · intro hn
      exact ((hs.mem_iff (hpos n hn)).1 hn).imp (fun hle => ⟨hpos n hn, hle⟩) id
    · rintro (⟨hn, hle⟩ | hn)
      · exact hs.mem n hn hle
      · exact ((hs.mem_pending n).1 hn).1
  have hdisjoint : Disjoint (Finset.Icc 1 h) p := by
    refine Finset.disjoint_left.2 fun n hn hp => ?_
    exact absurd ((hs.mem_pending n).1 hp).2 (not_lt.2 (Finset.mem_Icc.1 hn).2)
  rw [hset, Finset.card_union_of_disjoint hdisjoint, Nat.card_Icc, Nat.add_sub_cancel]

end IsHead

end Shardd
