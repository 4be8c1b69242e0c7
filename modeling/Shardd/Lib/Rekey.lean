import Mathlib.Tactic.Common

/-!
# Changing the keys of an ordered map

`rekey f m` files the entries of `m` under the keys that `f` gives them and drops those to which it
gives none.  Of two entries that come to the same key the later one stays; when no two do, the
entries of `rekey f m` are those of `m` under their new keys.
-/

namespace Shardd

open Std (TreeMap)

variable {α β : Type*} [Ord α] [Std.TransOrd α] [Std.LawfulEqOrd α] [BEq α] [LawfulBEq α]
  [Std.LawfulBEqOrd α]

/-- A list of entries with pairwise different keys is the list of entries of its map. -/
lemma getElem?_ofList_iff {l : List (α × β)}
    (hdistinct : l.Pairwise fun a b => ¬ compare a.1 b.1 = .eq) {k : α} {v : β} :
    (TreeMap.ofList l)[k]? = some v ↔ (k, v) ∈ l := by
  constructor
  · intro h
    have hmem : k ∈ TreeMap.ofList l :=
      TreeMap.mem_iff_isSome_getElem?.2 (Option.isSome_iff_exists.2 ⟨v, h⟩)
    rw [TreeMap.mem_ofList, List.contains_iff_mem] at hmem
    obtain ⟨⟨k', v'⟩, hentry, hk⟩ := List.mem_map.1 hmem
    obtain rfl : k' = k := hk
    have h' := TreeMap.getElem?_ofList_of_mem Std.compare_self hdistinct hentry
    rw [h] at h'
    rwa [Option.some.inj h']
  · exact TreeMap.getElem?_ofList_of_mem Std.compare_self hdistinct

def rekey (f : α → Option α) (m : TreeMap α β) : TreeMap α β :=
  .ofList (m.toList.filterMap fun entry => (f entry.1).map fun key => (key, entry.2))

/-- No two keys of the map come to the same key. -/
def KeepsApart (f : α → Option α) (m : TreeMap α β) : Prop :=
  ∀ k₁ k₂ k, k₁ ∈ m → k₂ ∈ m → f k₁ = some k → f k₂ = some k → k₁ = k₂

variable {f : α → Option α} {m : TreeMap α β}

omit [BEq α] [LawfulBEq α] [Std.LawfulBEqOrd α] in
lemma distinct_rekey (h : KeepsApart f m) :
    (m.toList.filterMap fun entry => (f entry.1).map fun key => (key, entry.2)).Pairwise
      fun a b => ¬ compare a.1 b.1 = .eq := by
  refine List.pairwise_filterMap.2 (List.Pairwise.imp_of_mem ?_ m.distinct_keys_toList)
  rintro ⟨k₁, v₁⟩ ⟨k₂, v₂⟩ h₁ h₂ hne _ hb₁ _ hb₂ heq
  obtain ⟨b₁, hf₁, rfl⟩ := Option.map_eq_some_iff.1 hb₁
  obtain ⟨b₂, hf₂, rfl⟩ := Option.map_eq_some_iff.1 hb₂
  have hmem : ∀ {k v}, (k, v) ∈ m.toList → k ∈ m := fun hkv =>
    TreeMap.mem_iff_isSome_getElem?.2
      (Option.isSome_iff_exists.2 ⟨_, TreeMap.mem_toList_iff_getElem?_eq_some.1 hkv⟩)
  obtain rfl : b₁ = b₂ := Std.LawfulEqOrd.eq_of_compare heq
  exact hne (h k₁ k₂ b₁ (hmem h₁) (hmem h₂) hf₁ hf₂ ▸ Std.compare_self)

/-- The entries of a map whose keys stay apart, under their new keys. -/
theorem getElem?_rekey_iff (h : KeepsApart f m) {k : α} {v : β} :
    (rekey f m)[k]? = some v ↔ ∃ k', f k' = some k ∧ m[k']? = some v := by
  rw [rekey, getElem?_ofList_iff (distinct_rekey h)]
  simp only [List.mem_filterMap, Option.map_eq_some_iff, Prod.mk.injEq, Prod.exists,
    TreeMap.mem_toList_iff_getElem?_eq_some]
  constructor
  · rintro ⟨k', v', hentry, key, hf, rfl, rfl⟩
    exact ⟨k', hf, hentry⟩
  · rintro ⟨k', hf, hentry⟩
    exact ⟨k', v, hentry, k, hf, rfl, rfl⟩

end Shardd
