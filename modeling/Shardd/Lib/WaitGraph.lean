import Mathlib.Data.Nat.Notation
import Mathlib.Logic.Relation

/-!
# Wait-for graphs

Callers that wait for resources which other callers hold.  If every resource a waiting caller holds
comes before the one it waits for, and nothing comes before itself, then no caller waits for itself,
be it directly or around a cycle.
-/

namespace Shardd

variable {ι ρ : Type*} (waits : ι → ρ → Prop) (holds : ρ → ι → Prop)

/-- `i` waits for something that `j` holds. -/
def WaitsOn (i j : ι) : Prop := ∃ r, waits i r ∧ holds r j

/-- A relation along which a rank grows has no cycles. -/
lemma acyclic_of_rank {before : ρ → ρ → Prop} (rank : ρ → ℕ)
    (h : ∀ r r', before r r' → rank r < rank r') (r : ρ) : ¬ Relation.TransGen before r r := by
  have hgrow : ∀ r', Relation.TransGen before r r' → rank r < rank r' := by
    intro r' hr
    induction hr with
    | single hr => exact h _ _ hr
    | tail _ hr ih => exact Nat.lt_trans ih (h _ _ hr)
  exact fun hr => Nat.lt_irrefl _ (hgrow r hr)

variable {waits holds} {before : ρ → ρ → Prop}

/-- Along a chain of waits the resources ascend. -/
lemma WaitsOn.ascend (horder : ∀ i r r', waits i r → holds r' i → before r' r) {i j : ι}
    (h : Relation.TransGen (WaitsOn waits holds) i j) :
    ∃ r, waits i r ∧ ∀ r', waits j r' → Relation.TransGen before r r' := by
  induction h using Relation.TransGen.head_induction_on with
  | single h =>
      obtain ⟨r, hwaits, hholds⟩ := h
      exact ⟨r, hwaits, fun r' hr' => .single (horder _ _ _ hr' hholds)⟩
  | head h _ ih =>
      obtain ⟨r, hwaits, hholds⟩ := h
      obtain ⟨r₁, hwaits₁, hrest⟩ := ih
      exact ⟨r, hwaits, fun r' hr' => .head (horder _ _ _ hwaits₁ hholds) (hrest r' hr')⟩

/-- **No cycle of waits.** -/
theorem WaitsOn.acyclic (horder : ∀ i r r', waits i r → holds r' i → before r' r)
    (hbefore : ∀ r, ¬ Relation.TransGen before r r) (i : ι) :
    ¬ Relation.TransGen (WaitsOn waits holds) i i := by
  intro h
  obtain ⟨r, hwaits, hrest⟩ := WaitsOn.ascend horder h
  exact hbefore r (hrest r hwaits)

end Shardd
