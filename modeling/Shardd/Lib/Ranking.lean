import Mathlib.Data.List.Nodup
import Mathlib.Data.List.Sort
import Mathlib.Tactic.Common

/-!
# Stable sorting by a comparison

`sortBy cmp l` sorts a list, elements that compare as equal staying in the order in which they
stood.  In a list without duplicates one element then `Precedes` another if it is smaller, or equal
and stood first.  What the sorted list has in front, and what is among its first `k` elements, is
read off this relation.
-/

namespace Shardd

open scoped List

variable {α : Type*}

/-! ## Pairs in lists without duplicates -/

section Pairs

variable {l : List α} {a b : α}

lemma pair_sublist_or (ha : a ∈ l) (hb : b ∈ l) (hne : a ≠ b) : [a, b] <+ l ∨ [b, a] <+ l := by
  induction l with
  | nil => cases ha
  | cons x l ih =>
      rcases List.mem_cons.1 ha with rfl | ha'
      · have hb' := (List.mem_cons.1 hb).resolve_left (Ne.symm hne)
        exact .inl ((List.singleton_sublist.2 hb').cons_cons a)
      · rcases List.mem_cons.1 hb with rfl | hb'
        · exact .inr ((List.singleton_sublist.2 ha').cons_cons b)
        · exact (ih ha' hb').imp (·.cons x) (·.cons x)

lemma not_pair_sublist_both (hl : l.Nodup) (h : [a, b] <+ l) : ¬ [b, a] <+ l := by
  induction l with
  | nil => cases h
  | cons x l ih =>
      obtain ⟨hx, hl⟩ := List.nodup_cons.1 hl
      have hmem : ∀ {c d : α}, [c, d] <+ l → c ∈ l ∧ d ∈ l := fun h =>
        ⟨h.subset List.mem_cons_self, h.subset (List.mem_cons_of_mem _ List.mem_cons_self)⟩
      intro h'
      cases h with
      | cons _ h =>
          cases h' with
          | cons _ h' => exact ih hl h h'
          | cons_cons _ h' => exact hx (hmem h).2
      | cons_cons _ h =>
          have hb := List.singleton_sublist.1 h
          cases h' with
          | cons _ h' => exact hx (hmem h').2
          | cons_cons _ h' => exact hx hb

/-- What stands first in a list whose elements are ordered by `R`. -/
lemma find?_eq_some_iff_of_pairwise {R : α → α → Prop} (hasymm : ∀ a b, R a b → ¬ R b a)
    {p : α → Bool} {m : α} (hl : l.Pairwise R) :
    l.find? p = some m ↔ m ∈ l ∧ p m = true ∧ ∀ c ∈ l, p c = true → c ≠ m → R m c := by
  induction l with
  | nil => simp
  | cons x l ih =>
      obtain ⟨hx, hl⟩ := List.pairwise_cons.1 hl
      by_cases hp : p x = true
      · rw [List.find?_cons_of_pos hp]
        constructor
        · intro h
          obtain rfl := Option.some.inj h
          refine ⟨List.mem_cons_self, hp, fun c hc _ hne => ?_⟩
          exact hx c ((List.mem_cons.1 hc).resolve_left hne)
        · rintro ⟨hm, -, hfirst⟩
          rcases List.mem_cons.1 hm with rfl | hm
          · rfl
          · by_cases hne : x = m
            · rw [hne]
            · exact absurd (hx m hm) (hasymm _ _ (hfirst x List.mem_cons_self hp hne))
      · rw [List.find?_cons_of_neg hp, ih hl]
        have hne : ∀ {c}, p c = true → c ≠ x := fun hc heq => hp (heq ▸ hc)
        constructor
        · rintro ⟨hm, hpm, hfirst⟩
          exact ⟨List.mem_cons_of_mem _ hm, hpm, fun c hc hpc =>
            hfirst c ((List.mem_cons.1 hc).resolve_left (hne hpc)) hpc⟩
        · rintro ⟨hm, hpm, hfirst⟩
          exact ⟨(List.mem_cons.1 hm).resolve_left (hne hpm), hpm,
            fun c hc => hfirst c (List.mem_cons_of_mem _ hc)⟩

/-- What stands among the first `k` elements of a list whose elements are ordered by `R`. -/
lemma mem_take_iff_of_pairwise {R : α → α → Prop} [DecidableRel R]
    (hasymm : ∀ a b, R a b → ¬ R b a) {k : ℕ} {m : α} (hl : l.Pairwise R) (hm : m ∈ l) :
    m ∈ l.take k ↔ l.countP (fun c => decide (R c m)) < k := by
  obtain ⟨front, rest, rfl⟩ := List.append_of_mem hm
  obtain ⟨-, hrest, hfront⟩ := List.pairwise_append.1 hl
  have hirrefl : ¬ R m m := fun h => hasymm _ _ h h
  have hbefore : ∀ c ∈ front, R c m := fun c hc => hfront c hc m List.mem_cons_self
  have hafter : ∀ c ∈ m :: rest, ¬ R c m := fun c hc => by
    rcases List.mem_cons.1 hc with rfl | hc
    · exact hirrefl
    · exact hasymm _ _ ((List.pairwise_cons.1 hrest).1 c hc)
  have hcount : (front ++ m :: rest).countP (fun c => decide (R c m)) = front.length := by
    rw [List.countP_append, List.countP_eq_length.2 fun c hc => decide_eq_true (hbefore c hc),
      List.countP_eq_zero.2 fun c hc => by simpa using hafter c hc, Nat.add_zero]
  have hnot : m ∉ front := fun hc => hirrefl (hbefore m hc)
  rw [hcount, List.take_append, List.mem_append]
  constructor
  · rintro (h | h)
    · exact absurd (List.mem_of_mem_take h) hnot
    · by_contra hle
      rw [Nat.sub_eq_zero_of_le (Nat.not_lt.1 hle)] at h
      cases h
  · intro hlt
    obtain ⟨n, hn⟩ := Nat.exists_eq_succ_of_ne_zero (Nat.sub_ne_zero_of_lt hlt)
    rw [hn]
    exact .inr List.mem_cons_self

end Pairs

/-! ## Sorting -/

section Sorting

variable (cmp : α → α → Ordering)

/-- `sort_by`. -/
def sortBy (l : List α) : List α := l.mergeSort fun a b => (cmp a b).isLE

/-- In `l`, once it is sorted, `a` stands before `b`. -/
def Precedes (l : List α) (a b : α) : Prop :=
  cmp a b = .lt ∨ cmp a b = .eq ∧ [a, b] <+ l

instance [DecidableEq α] (l : List α) : DecidableRel (Precedes cmp l) := fun _ _ =>
  inferInstanceAs (Decidable (_ ∨ _ ∧ _))

variable {cmp} {l l' : List α} {a b m : α}

lemma sortBy_perm (l : List α) : (sortBy cmp l).Perm l := List.mergeSort_perm l _

lemma mem_sortBy : a ∈ sortBy cmp l ↔ a ∈ l := (sortBy_perm l).mem_iff

lemma sortBy_pair (a b : α) :
    sortBy cmp [a, b] = if (cmp a b).isLE then [a, b] else [b, a] := by
  unfold sortBy
  rw [List.mergeSort]
  simp [List.MergeSort.Internal.splitInTwo, List.merge]

lemma nodup_sortBy (hl : l.Nodup) : (sortBy cmp l).Nodup := (sortBy_perm l).nodup_iff.2 hl

lemma comparison_swap (cmp : α → α → Ordering) [Std.OrientedCmp cmp] (a b : α) :
    cmp a b = (cmp b a).swap := Std.OrientedCmp.eq_swap

variable [Std.TransCmp cmp]

lemma Precedes.asymm (hl : l.Nodup) (h : Precedes cmp l a b) : ¬ Precedes cmp l b a := by
  rintro (h' | ⟨h', hsub'⟩)
  · rw [comparison_swap cmp, Ordering.swap_eq_lt] at h'
    rcases h with h | ⟨h, -⟩
    · rw [h] at h'
      cases h'
    · rw [h] at h'
      cases h'
  · rw [comparison_swap cmp, Ordering.swap_eq_eq] at h'
    rcases h with h | ⟨-, hsub⟩
    · rw [h] at h'
      cases h'
    · exact not_pair_sublist_both hl hsub hsub'

lemma Precedes.total (ha : a ∈ l) (hb : b ∈ l) (hne : a ≠ b) :
    Precedes cmp l a b ∨ Precedes cmp l b a := by
  rcases h : cmp a b with _ | _ | _
  · exact .inl (.inl h)
  · have hswap : cmp b a = .eq := by
      rw [comparison_swap cmp, h]
      rfl
    exact (pair_sublist_or ha hb hne).imp (.inr ⟨h, ·⟩) (.inr ⟨hswap, ·⟩)
  · exact .inr (.inl (Std.OrientedCmp.lt_of_gt h))

lemma pairwise_sortBy (hl : l.Nodup) : (sortBy cmp l).Pairwise (Precedes cmp l) := by
  have htrans : ∀ a b c : α, (cmp a b).isLE → (cmp b c).isLE → (cmp a c).isLE :=
    fun _ _ _ hab hbc => Std.TransCmp.isLE_trans hab hbc
  have htotal : ∀ a b : α, ((cmp a b).isLE || (cmp b a).isLE) = true := fun a b => by
    rw [comparison_swap cmp b a]
    cases cmp a b <;> rfl
  have hsorted : (sortBy cmp l).Pairwise fun a b => (cmp a b).isLE :=
    List.pairwise_mergeSort htrans htotal l
  rw [List.pairwise_iff_forall_sublist] at hsorted ⊢
  intro a b hsub
  have hmem : ∀ c ∈ [a, b], c ∈ l := fun c hc => mem_sortBy.1 (hsub.subset hc)
  have hne : a ≠ b := by
    have hpair := (nodup_sortBy hl).sublist hsub
    simpa using hpair
  rcases hcmp : cmp a b with _ | _ | _
  · exact .inl hcmp
  · refine .inr ⟨hcmp, (pair_sublist_or (hmem a (by simp)) (hmem b (by simp)) hne).resolve_right
      fun hback => ?_⟩
    -- sorting keeps the order of equal elements
    have hle : (cmp b a).isLE := by
      rw [comparison_swap cmp, hcmp]
      rfl
    exact not_pair_sublist_both (nodup_sortBy hl) hsub
      (List.pair_sublist_mergeSort htrans htotal hle hback)
  · have hle := hsorted hsub
    rw [hcmp] at hle
    cases hle

/-- The first element of the sorted list that satisfies `p`. -/
theorem find?_sortBy_eq_some_iff (hl : l.Nodup) {p : α → Bool} :
    (sortBy cmp l).find? p = some m ↔
      m ∈ l ∧ p m = true ∧ ∀ c ∈ l, p c = true → c ≠ m → Precedes cmp l m c := by
  rw [find?_eq_some_iff_of_pairwise (fun _ _ => Precedes.asymm hl) (pairwise_sortBy hl), mem_sortBy]
  simp only [mem_sortBy]

theorem head?_sortBy_eq_some_iff (hl : l.Nodup) :
    (sortBy cmp l).head? = some m ↔ m ∈ l ∧ ∀ c ∈ l, c ≠ m → Precedes cmp l m c := by
  have hfind : (sortBy cmp l).find? (fun _ => true) = some m ↔ _ := find?_sortBy_eq_some_iff hl
  rw [← List.head?_filter] at hfind
  simpa using hfind

/-- The first `k` elements of the sorted list. -/
theorem mem_take_sortBy_iff [DecidableEq α] (hl : l.Nodup) {k : ℕ} (hm : m ∈ l) :
    m ∈ (sortBy cmp l).take k ↔ l.countP (fun c => decide (Precedes cmp l c m)) < k := by
  rw [mem_take_iff_of_pairwise (fun _ _ => Precedes.asymm hl) (pairwise_sortBy hl)
    (mem_sortBy.2 hm), (sortBy_perm l).countP_eq]

/-- What precedes in a part of a list precedes in the list. -/
lemma Precedes.sublist (hl : l.Nodup) (hsub : l' <+ l) (ha : a ∈ l') (hb : b ∈ l') (hne : a ≠ b) :
    Precedes cmp l' a b ↔ Precedes cmp l a b := by
  have hup : ∀ {a b}, Precedes cmp l' a b → Precedes cmp l a b := fun h =>
    h.imp id fun h => ⟨h.1, h.2.trans hsub⟩
  refine ⟨hup, fun h => ?_⟩
  exact (Precedes.total ha hb hne).resolve_right fun hback => h.asymm hl (hup hback)

/-- Sorting a sorted list by another comparison. -/
lemma precedes_sortBy {cmp' : α → α → Ordering} (hl : l.Nodup) (ha : a ∈ l) (hb : b ∈ l)
    (hne : a ≠ b) :
    Precedes cmp' (sortBy cmp l) a b ↔
      cmp' a b = .lt ∨ cmp' a b = .eq ∧ Precedes cmp l a b := by
  have hsorted : ∀ {a b}, [a, b] <+ sortBy cmp l → Precedes cmp l a b :=
    List.pairwise_iff_forall_sublist.1 (pairwise_sortBy hl)
  have hpair : [a, b] <+ sortBy cmp l ↔ Precedes cmp l a b := by
    refine ⟨fun h => hsorted h, fun h => ?_⟩
    exact (pair_sublist_or (mem_sortBy.2 ha) (mem_sortBy.2 hb) hne).resolve_right
      fun hback => h.asymm hl (hsorted hback)
  rw [Precedes, hpair]

end Sorting

/-! ## Two sortings -/

section Sortings

variable {cmp cmp' : α → α → Ordering} [Std.TransCmp cmp] [Std.TransCmp cmp'] {l l' : List α}

lemma pairwise_lt_sortBy (hl : l.Nodup) (heq : ∀ a ∈ l, ∀ b ∈ l, cmp a b = .eq → a = b) :
    (sortBy cmp l).Pairwise fun a b => cmp a b = .lt := by
  have hpairs : ∀ {a b}, [a, b] <+ sortBy cmp l → Precedes cmp l a b :=
    List.pairwise_iff_forall_sublist.1 (pairwise_sortBy hl)
  refine List.pairwise_iff_forall_sublist.2 fun {a b} hsub => ?_
  refine (hpairs hsub).resolve_right fun ⟨h, hab⟩ => ?_
  have hsame := heq a (hab.subset List.mem_cons_self) b
    (hab.subset (List.mem_cons_of_mem _ List.mem_cons_self)) h
  subst hsame
  exact not_pair_sublist_both hl hab hab

/-- Two comparisons sort two lists alike just if these have the same elements, and the comparisons
agree on them. -/
theorem sortBy_eq_sortBy_iff (hl : l.Nodup) (hl' : l'.Nodup)
    (heq : ∀ a ∈ l, ∀ b ∈ l, cmp a b = .eq → a = b)
    (heq' : ∀ a ∈ l', ∀ b ∈ l', cmp' a b = .eq → a = b) :
    sortBy cmp l = sortBy cmp' l' ↔
      l.Perm l' ∧ ∀ a ∈ l, ∀ b ∈ l, cmp a b = cmp' a b := by
  have hlt := pairwise_lt_sortBy hl heq
  have hlt' := pairwise_lt_sortBy hl' heq'
  constructor
  · intro h
    have hperm : l.Perm l' := (sortBy_perm l).symm.trans (h ▸ sortBy_perm l')
    refine ⟨hperm, fun a ha b hb => ?_⟩
    rw [← h] at hlt'
    have hboth : ∀ {a b}, [a, b] <+ sortBy cmp l → cmp a b = .lt ∧ cmp' a b = .lt := fun hsub =>
      ⟨List.pairwise_iff_forall_sublist.1 hlt hsub, List.pairwise_iff_forall_sublist.1 hlt' hsub⟩
    by_cases hne : a = b
    · subst hne
      have hself : cmp a a = .eq := Std.ReflCmp.compare_self
      have hself' : cmp' a a = .eq := Std.ReflCmp.compare_self
      rw [hself, hself']
    rcases pair_sublist_or (mem_sortBy.2 ha) (mem_sortBy.2 hb) hne with hsub | hsub
    · rw [(hboth hsub).1, (hboth hsub).2]
    · rw [comparison_swap cmp, comparison_swap cmp' a, (hboth hsub).1, (hboth hsub).2]
  · rintro ⟨hperm, hcmp⟩
    have hlt'' : (sortBy cmp' l').Pairwise fun a b => cmp a b = .lt :=
      hlt'.imp_of_mem fun {a b} ha hb h => by
        rw [hcmp a (hperm.mem_iff.2 (mem_sortBy.1 ha)) b (hperm.mem_iff.2 (mem_sortBy.1 hb)), h]
    refine List.Perm.eq_of_pairwise (fun a b _ _ hab hba => ?_) hlt hlt''
      ((sortBy_perm l).trans (hperm.trans (sortBy_perm l').symm))
    rw [comparison_swap cmp, hba] at hab
    cases hab

/-- A list without ties has one sorting. -/
lemma sortBy_eq_of_perm (hl : l.Nodup) (heq : ∀ a ∈ l, ∀ b ∈ l, cmp a b = .eq → a = b)
    (hperm : l.Perm l') (hlt : l'.Pairwise fun a b => cmp a b = .lt) : sortBy cmp l = l' := by
  refine List.Perm.eq_of_pairwise (fun a b _ _ hab hba => ?_) (pairwise_lt_sortBy hl heq) hlt
    ((sortBy_perm l).trans hperm)
  rw [comparison_swap cmp, hba] at hab
  cases hab

/-- What comes after all of a list is sorted behind it. -/
theorem sortBy_begins [DecidableEq α] (hl : l.Nodup) (hl' : l'.Nodup)
    (heq : ∀ a ∈ l', ∀ b ∈ l', cmp a b = .eq → a = b) (hsub : ∀ a ∈ l, a ∈ l')
    (hafter : ∀ b ∈ l', b ∉ l → ∀ a ∈ l, cmp a b = .lt) :
    sortBy cmp l <+: sortBy cmp l' := by
  have hrest : ∀ {a}, a ∈ l'.filter (· ∉ l) ↔ a ∈ l' ∧ a ∉ l := by simp
  have hfront : (l'.filter (· ∈ l)).Perm l :=
    (List.perm_ext_iff_of_nodup (hl'.filter _) hl).2 fun a => by simpa using hsub a
  have hsplit : l'.Perm (sortBy cmp l ++ sortBy cmp (l'.filter (· ∉ l))) := by
    refine ((List.filter_append_perm (· ∈ l) l').symm.trans ?_)
    refine (hfront.trans (sortBy_perm l).symm).append ?_
    simpa using (sortBy_perm (l'.filter (· ∉ l))).symm
  refine ⟨_, (sortBy_eq_of_perm hl' heq hsplit (List.pairwise_append.2 ⟨?_, ?_, ?_⟩)).symm⟩
  · exact pairwise_lt_sortBy hl fun a ha b hb => heq a (hsub a ha) b (hsub b hb)
  · exact pairwise_lt_sortBy (hl'.filter _) fun a ha b hb =>
      heq a (hrest.1 ha).1 b (hrest.1 hb).1
  · intro a ha b hb
    obtain ⟨hb', hnot⟩ := hrest.1 (mem_sortBy.1 hb)
    exact hafter b hb' hnot a (mem_sortBy.1 ha)

end Sortings

/-! ## Pages -/

/-- The first pages of a list, one after the other. -/
lemma flatMap_range_pages (l : List α) (limit n : ℕ) :
    ((List.range n).flatMap fun k => (l.drop (k * limit)).take limit) = l.take (n * limit) := by
  induction n with
  | zero => simp
  | succ n ih =>
      rw [List.range_succ, List.flatMap_append, ih, List.flatMap_singleton, Nat.add_mul,
        Nat.one_mul, List.take_add]

end Shardd
