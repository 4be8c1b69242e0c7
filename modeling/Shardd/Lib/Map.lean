import Mathlib.Data.Finmap
import Mathlib.Algebra.BigOperators.Group.Multiset.Basic
import Mathlib.Algebra.Order.BigOperators.Group.Multiset
import Mathlib.Algebra.Order.Ring.Nat

/-!
# Partial maps, and weights of finite maps

`Map κ ν` is a partial map read pointwise; it stands for a hash map or a tree map of which only
the look-ups matter.  Where a sum over the entries matters the map is a `Finmap`, and
`Finmap.weight` is that sum.
-/

namespace Shardd

/-- A partial map. -/
abbrev Map (κ ν : Type*) := κ → Option ν

namespace Map

variable {κ ν : Type*} [DecidableEq κ] (m : Map κ ν) (k : κ) (v : ν)

def insert : Map κ ν := Function.update m k (some v)

def remove : Map κ ν := Function.update m k none

/-- Keep the entries whose key satisfies `p`. -/
def retain (p : κ → Bool) : Map κ ν := fun k => if p k then m k else none

def containsKey : Bool := (m k).isSome

theorem insert_apply (k' : κ) : m.insert k v k' = if k' = k then some v else m k' := by
  simp [insert, Function.update_apply]

@[simp] theorem insert_self : m.insert k v k = some v := by
  simp [insert]

@[simp] theorem insert_of_ne {k' : κ} (h : k' ≠ k) : m.insert k v k' = m k' := by
  simp [insert, h]

theorem remove_apply (k' : κ) : m.remove k k' = if k' = k then none else m k' := by
  simp [remove, Function.update_apply]

@[simp] theorem remove_self : m.remove k k = none := by
  simp [remove]

@[simp] theorem remove_of_ne {k' : κ} (h : k' ≠ k) : m.remove k k' = m k' := by
  simp [remove, h]

omit [DecidableEq κ] in
theorem retain_apply (p : κ → Bool) (k' : κ) :
    m.retain p k' = if p k' then m k' else none := rfl

/-! What a map holds after a change, it held before, or was put in by the change. -/

theorem of_insert {m : Map κ ν} {k k' : κ} {v w : ν} (h : m.insert k v k' = some w) :
    m k' = some w ∨ k' = k ∧ w = v := by
  rw [insert_apply] at h
  split at h
  · rename_i hk
    exact .inr ⟨hk, (Option.some.inj h).symm⟩
  · exact .inl h

theorem of_remove {m : Map κ ν} {k k' : κ} {w : ν} (h : m.remove k k' = some w) :
    m k' = some w := by
  rw [remove_apply] at h
  split at h
  · cases h
  · exact h

omit [DecidableEq κ] in
theorem of_retain {m : Map κ ν} {p : κ → Bool} {k' : κ} {w : ν}
    (h : m.retain p k' = some w) : m k' = some w ∧ p k' = true := by
  rw [retain_apply] at h
  split at h
  · rename_i hp
    exact ⟨h, hp⟩
  · cases h

omit [DecidableEq κ] in
theorem retain_ne_apply {β : Type*} [DecidableEq β] (f : κ → β) (b : β) :
    (m.retain fun k => f k != b) k = if f k = b then none else m k := by
  rw [retain_apply]
  by_cases h : f k = b
  · rw [if_pos h, if_neg (by simp [h])]
  · rw [if_neg h, if_pos (bne_iff_ne.2 h)]

/-- An entry that is kept can be put in before or after. -/
theorem retain_insert {p : κ → Bool} (h : p k = true) :
    (m.insert k v).retain p = (m.retain p).insert k v := by
  funext k'
  rw [retain_apply, insert_apply, insert_apply, retain_apply]
  by_cases hk : k' = k
  · rw [if_pos hk, if_pos hk, hk, if_pos h]
  · rw [if_neg hk, if_neg hk]

variable {m k} in
/-- Maps that agree on a key still do after the same insertion. -/
theorem insert_congr {m' : Map κ ν} {k' : κ} (h : m k' = m' k') :
    m.insert k v k' = m'.insert k v k' := by
  rw [insert_apply, insert_apply, h]

variable {m k} in
theorem remove_congr {m' : Map κ ν} {k' : κ} (h : m k' = m' k') :
    m.remove k k' = m'.remove k k' := by
  rw [remove_apply, remove_apply, h]

theorem insert_insert (v' : ν) : (m.insert k v).insert k v' = m.insert k v' := by
  simp [insert]

theorem remove_insert_of_none (h : m k = none) : (m.insert k v).remove k = m := by
  simp [insert, remove, ← h]

theorem insert_comm {k' : κ} (v' : ν) (h : k ≠ k') :
    (m.insert k v).insert k' v' = (m.insert k' v').insert k v := by
  simp only [insert]
  exact Function.update_comm h _ _ _

end Map

end Shardd

namespace Finmap

variable {α : Type*} {β : α → Type*}

/-- The entries that satisfy `p`. -/
def filter (p : ∀ a, β a → Bool) (m : Finmap β) : Finmap β where
  entries := m.entries.filter fun x => p x.1 x.2
  nodupKeys := by
    have h : (Multiset.map Sigma.fst m.entries).Nodup := by
      simpa [Multiset.keys] using (Multiset.nodup_keys.2 m.nodupKeys)
    have hle := Multiset.map_le_map (f := Sigma.fst)
      (Multiset.filter_le (fun x => p x.1 x.2 = true) m.entries)
    exact Multiset.nodup_keys.1 (by simpa [Multiset.keys] using Multiset.nodup_of_le hle h)

/-- The sum of `f` over the entries. -/
def weight (f : ∀ a, β a → ℕ) (m : Finmap β) : ℕ :=
  (m.entries.map fun x => f x.1 x.2).sum

@[simp] theorem weight_empty (f : ∀ a, β a → ℕ) : weight f (∅ : Finmap β) = 0 := rfl

/-! ## Entries and look-ups -/

section

variable [DecidableEq α]

theorem mem_entries_iff {m : Finmap β} {a : α} {b : β a} :
    ⟨a, b⟩ ∈ m.entries ↔ m.lookup a = some b := by
  induction m using Finmap.induction_on with
  | H l =>
    rw [lookup_toFinmap, ← Option.mem_def, AList.mem_lookup_iff]
    rfl

theorem lookup_filter (p : ∀ a, β a → Bool) (m : Finmap β) (a : α) :
    (m.filter p).lookup a = (m.lookup a).filter (p a) := by
  ext b
  rw [← mem_entries_iff, Option.filter_eq_some_iff, ← mem_entries_iff]
  simp [filter]

theorem insert_erase_self (m : Finmap β) (a : α) (b : β a) :
    (m.erase a).insert a b = m.insert a b := by
  refine ext_lookup fun x => ?_
  by_cases hx : x = a
  · subst hx
    rw [lookup_insert, lookup_insert]
  · rw [lookup_insert_of_ne _ hx, lookup_insert_of_ne _ hx, lookup_erase_ne hx]

theorem erase_of_notMem {m : Finmap β} {a : α} (h : a ∉ m) : m.erase a = m := by
  refine ext_lookup fun x => ?_
  by_cases hx : x = a
  · subst hx
    rw [lookup_erase, lookup_eq_none.2 h]
  · rw [lookup_erase_ne hx]

/-! ## Weights -/

theorem weight_insert_of_notMem (f : ∀ a, β a → ℕ) {m : Finmap β} {a : α} (b : β a)
    (h : a ∉ m) : weight f (m.insert a b) = f a b + weight f m := by
  rw [weight, entries_insert_of_notMem h, Multiset.map_cons, Multiset.sum_cons, weight]

theorem weight_insert (f : ∀ a, β a → ℕ) (m : Finmap β) (a : α) (b : β a) :
    weight f (m.insert a b) = f a b + weight f (m.erase a) := by
  rw [← insert_erase_self, weight_insert_of_notMem f b notMem_erase_self]

theorem weight_of_lookup (f : ∀ a, β a → ℕ) {m : Finmap β} {a : α} {b : β a}
    (h : m.lookup a = some b) : weight f m = f a b + weight f (m.erase a) := by
  rw [← weight_insert]
  congr 1
  refine ext_lookup fun x => ?_
  by_cases hx : x = a
  · subst hx
    rw [lookup_insert, h]
  · rw [lookup_insert_of_ne _ hx]

theorem weight_erase_le (f : ∀ a, β a → ℕ) (m : Finmap β) (a : α) :
    weight f (m.erase a) ≤ weight f m := by
  rcases h : m.lookup a with _ | b
  · rw [erase_of_notMem (lookup_eq_none.1 h)]
  · rw [weight_of_lookup f h]
    omega

theorem weight_mono {f g : ∀ a, β a → ℕ} {m : Finmap β}
    (h : ∀ a b, m.lookup a = some b → f a b ≤ g a b) : weight f m ≤ weight g m :=
  Multiset.sum_map_le_sum_map _ _ fun x hx => h x.1 x.2 (mem_entries_iff.1 hx)

theorem weight_congr {f g : ∀ a, β a → ℕ} {m : Finmap β}
    (h : ∀ a b, m.lookup a = some b → f a b = g a b) : weight f m = weight g m :=
  le_antisymm (weight_mono fun a b hb => (h a b hb).le) (weight_mono fun a b hb => (h a b hb).ge)

end

theorem weight_filter (f : ∀ a, β a → ℕ) (p : ∀ a, β a → Bool) (m : Finmap β) :
    weight f (m.filter p) = weight (fun a b => if p a b then f a b else 0) m := by
  unfold weight filter
  simp only
  induction m.entries using Multiset.induction with
  | empty => rfl
  | cons x s ih =>
    by_cases hx : p x.1 x.2 = true
    · simp [hx, ih]
    · simp [hx, ih]

theorem weight_filter_le [DecidableEq α] (f : ∀ a, β a → ℕ) (p : ∀ a, β a → Bool)
    (m : Finmap β) : weight f (m.filter p) ≤ weight f m := by
  rw [weight_filter]
  refine weight_mono fun a b _ => ?_
  split <;> omega

end Finmap
