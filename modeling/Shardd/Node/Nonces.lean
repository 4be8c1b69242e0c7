import Shardd.Node.CreateRules

/-!
# Nonces

The node puts one of four prefixes in front of a client's nonce, or of an event id, when it derives
the nonce of an event that goes with another one.  A key with an underived nonce is the key of a
request, and of nothing else the request emits.
-/

namespace Shardd

/-- What the node puts in front of a nonce when it derives one. -/
def derivedPrefixes : List String := ["reserve:", "credit:", "release:", "void:"]

/-- A nonce the node cannot have derived. -/
def Underived (nonce : String) : Prop := ∀ p ∈ derivedPrefixes, ¬ p.toList <+: nonce.toList

instance (nonce : String) : Decidable (Underived nonce) :=
  inferInstanceAs (Decidable (∀ p ∈ derivedPrefixes, ¬ p.toList <+: nonce.toList))

lemma Underived.ne {nonce : String} (h : Underived nonce) {p : String} (hp : p ∈ derivedPrefixes)
    (rest : String) : p ++ rest ≠ nonce := by
  rintro rfl
  apply h p hp
  rw [String.toList_append]
  exact List.prefix_append _ _

/-- Of two beginnings of one text, one is a beginning of the other. -/
lemma prefix_of_append_eq {p q a b : String} (h : p ++ a = q ++ b) :
    p.toList <+: q.toList ∨ q.toList <+: p.toList := by
  have hlist : p.toList ++ a.toList = q.toList ++ b.toList := by
    rw [← String.toList_append, h, String.toList_append]
  exact List.prefix_or_prefix_of_prefix (List.prefix_append p.toList a.toList)
    (hlist ▸ List.prefix_append q.toList b.toList)

/-- A derived nonce shows what it has been derived from. -/
lemma derived_inj {p q a b : String} (hp : p ∈ derivedPrefixes) (hq : q ∈ derivedPrefixes)
    (h : p ++ a = q ++ b) : p = q ∧ a = b := by
  have hbegins : ∀ p ∈ derivedPrefixes, ∀ q ∈ derivedPrefixes, p.toList <+: q.toList → p = q := by
    decide
  have hpq : p = q := by
    rcases prefix_of_append_eq h with h | h
    · exact hbegins p hp q hq h
    · exact (hbegins q hq p hp h).symm
  subst hpq
  exact ⟨rfl, (String.append_right_inj p).1 h⟩

/-- A derived nonce is not the nonce of a tombstone. -/
lemma derived_ne_delete {p : String} (hp : p ∈ derivedPrefixes) (a b : String) :
    p ++ a ≠ "delete:" ++ b := by
  have hbegins : ∀ p ∈ derivedPrefixes,
      ¬ p.toList <+: "delete:".toList ∧ ¬ "delete:".toList <+: p.toList := by decide
  intro h
  rcases prefix_of_append_eq h with h | h
  · exact (hbegins p hp).1 h
  · exact (hbegins p hp).2 h

lemma derived_reserve : "reserve:" ∈ derivedPrefixes := by decide

lemma derived_credit : "credit:" ∈ derivedPrefixes := by decide

lemma derived_release : "release:" ∈ derivedPrefixes := by decide

lemma derived_void : "void:" ∈ derivedPrefixes := by decide

/-- Of the drafts of a request, only the primary one can have an underived nonce, and it has the key
of the request. -/
lemma LocalCreateMode.Drafts.key_of_underived {input : LocalCreateInput} {checkedAt : ℕ}
    {mode : LocalCreateMode} {d : EventDraft}
    (hmode : LocalCreateMode.fromInput input checkedAt = .ok mode) (hd : mode.Drafts input d)
    (h : Underived d.idempotencyNonce) : d.idempotencyKey = input.idempotencyKey := by
  have hwf := LocalCreateMode.wellFormed_of_fromInput hmode
  cases mode with
  | charge holdOverride =>
      rcases hd with ⟨_, _, rfl⟩ | rfl | ⟨_, _, _, _, rfl⟩
      · exact absurd rfl (h.ne derived_reserve _)
      · rfl
      · exact absurd rfl (h.ne derived_credit _)
  | reserve =>
      rcases hd with rfl
      rw [LocalCreateInput.idempotencyKey, hwf.1]
      rfl
  | settle reservationId =>
      rcases hd with rfl | rfl
      · rfl
      · exact absurd rfl (h.ne derived_release _)
  | release reservationId =>
      rcases hd with rfl
      rw [LocalCreateInput.idempotencyKey, hwf.2]
      rfl

end Shardd
