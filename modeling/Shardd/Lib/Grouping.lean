import Mathlib.Data.Finset.Card
import Mathlib.Data.List.Induction
import Mathlib.Tactic.Common

/-!
# Grouping a list under keys

`groupInto key add init l` goes through a list and adds each element to what stands under its key,
beginning with `init`; elements without a key are left out.  What stands under a key in the end is
what the elements with the key come to, in their order.

A list may also be counted against its keys: at every point the elements with some property are as
many as the keys that have occurred.
-/

namespace Shardd

open Std (TreeMap)

variable {α β κ : Type*} [Ord κ]

def groupInto (key : α → Option κ) (add : β → α → β) (init : β) (l : List α) : TreeMap κ β :=
  l.foldl (fun groups a =>
    match key a with
    | none => groups
    | some k => groups.alter k fun entry => some (add (entry.getD init) a)) ∅

variable [Std.TransOrd κ] [Std.LawfulEqOrd κ] [DecidableEq κ] {key : α → Option κ}
  {add : β → α → β} {init : β}

/-- What stands under a key. -/
theorem getElem?_groupInto (l : List α) (k : κ) :
    (groupInto key add init l)[k]? =
      if (l.filter fun a => key a = some k) = [] then none
      else some ((l.filter fun a => key a = some k).foldl add init) := by
  unfold groupInto
  induction l using List.reverseRecOn with
  | nil => exact TreeMap.getElem?_emptyc
  | append_singleton l a ih =>
      rw [List.foldl_append, List.filter_append, List.foldl_cons, List.foldl_nil]
      cases hkey : key a with
      | none =>
          have hout : [a].filter (fun a => key a = some k) = [] := by simp [hkey]
          rw [hout, List.append_nil]
          exact ih
      | some k' =>
          dsimp only
          rw [TreeMap.getElem?_alter]
          by_cases hk : k' = k
          · subst hk
            have hin : [a].filter (fun a => key a = some k') = [a] := by simp [hkey]
            rw [if_pos Std.compare_self, hin, ih, List.foldl_append]
            by_cases hnil : (l.filter fun a => key a = some k') = []
            · simp [hnil]
            · simp [hnil]
          · have hout : [a].filter (fun a => key a = some k) = [] := by simp [hkey, hk]
            rw [if_neg fun heq => hk (Std.LawfulEqOrd.eq_of_compare heq), hout, List.append_nil]
            exact ih

/-! ## Counting -/

section Counting

variable {α κ : Type*} [DecidableEq κ] {key : α → Option κ} {p : α → Prop} [DecidablePred p]

/-- When the elements with the property are those with a key, and no key occurs twice, they are as
many as the keys. -/
lemma countP_eq_card_keys {l : List α} (hp : ∀ a ∈ l, (p a ↔ (key a).isSome = true))
    (hnodup : (l.filterMap key).Nodup) :
    l.countP (fun a => p a) = (l.filterMap key).toFinset.card := by
  rw [List.toFinset_card_of_nodup hnodup, List.length_filterMap_eq_countP]
  exact List.countP_congr fun a ha => by simpa using hp a ha

/-- The count and the keys agree from the beginning to the end exactly when the elements with the
property are those with a key and no key occurs twice.  The key of an element tells whether it has
the property. -/
theorem countP_prefix_iff {l : List α}
    (hp : ∀ a ∈ l, ∀ b ∈ l, ∀ k, key a = some k → key b = some k → (p a ↔ p b)) :
    (∀ before, before <+: l →
        before.countP (fun a => p a) = (before.filterMap key).toFinset.card) ↔
      (∀ a ∈ l, (p a ↔ (key a).isSome = true)) ∧ (l.filterMap key).Nodup := by
  constructor
  · intro h
    induction l using List.reverseRecOn with
    | nil => simp
    | append_singleton l a ih =>
        have hinit : ∀ b ∈ l, b ∈ l ++ [a] := fun b hb => List.mem_append_left _ hb
        obtain ⟨hl, hnodup⟩ := ih (fun b hb c hc => hp b (hinit b hb) c (hinit c hc))
          fun before hbefore => h before (hbefore.trans (List.prefix_append l [a]))
        have hall := h _ (List.prefix_refl (l ++ [a]))
        rw [List.countP_append, List.filterMap_append, countP_eq_card_keys hl hnodup,
          List.countP_singleton] at hall
        cases hkey : key a with
        | none =>
            have hout : [a].filterMap key = [] := by simp [hkey]
            rw [hout, List.append_nil] at hall
            have hnot : ¬ p a := fun ha => by simp [ha] at hall
            refine ⟨fun b hb => ?_, by rwa [List.filterMap_append, hout, List.append_nil]⟩
            rcases List.mem_append.1 hb with hb | hb
            · exact hl b hb
            · obtain rfl := List.mem_singleton.1 hb
              simp [hkey, hnot]
        | some k =>
            have hin : [a].filterMap key = [k] := by simp [hkey]
            have hfresh : k ∉ l.filterMap key := by
              intro hmem
              -- an element with this key has been counted, and this one is counted again
              obtain ⟨b, hb, hbkey⟩ := List.mem_filterMap.1 hmem
              have hpb : p b := (hl b hb).2 (by simp [hbkey])
              have hpa : p a := (hp b (hinit b hb) a (by simp) k hbkey hkey).1 hpb
              rw [hin, List.toFinset_append, Finset.union_eq_left.2 (by simpa using hmem)] at hall
              simp [hpa] at hall
            rw [hin, List.toFinset_append, Finset.card_union_of_disjoint
              (by simpa using hfresh)] at hall
            have hpa : p a := by
              by_contra hnot
              simp [hnot] at hall
            refine ⟨fun b hb => ?_, ?_⟩
            · rcases List.mem_append.1 hb with hb | hb
              · exact hl b hb
              · obtain rfl := List.mem_singleton.1 hb
                simp [hkey, hpa]
            · rw [List.filterMap_append, hin]
              exact List.nodup_append'.2 ⟨hnodup, List.nodup_singleton k, by simpa using hfresh⟩
  · rintro ⟨hl, hnodup⟩ before hbefore
    refine countP_eq_card_keys (fun a ha => hl a (hbefore.subset ha)) ?_
    exact hnodup.sublist (hbefore.sublist.filterMap key)

end Counting

end Shardd
