import Shardd.Cluster.Effects

/-!
# Transfers in a cluster at rest

A transfer is filed under two keys, that of its debit and that of its credit.  At rest there is an
event under the one exactly if there is an event under the other, to however many nodes the
transfer has been submitted; so all balances together are what the other operations have brought
in.
-/

namespace Shardd

open Int64Group

variable {ν D : Type}

/-- The keys of the debit and of the credit of a transfer. -/
def Moves (R : LocalCreateInput → Prop) (debit credit : IdemKey) : Prop :=
  ∃ input toAddr creditAmount, R input ∧ input.Pays toAddr ∧
    checkedAbs input.amount = some creditAmount ∧ debit = input.idempotencyKey ∧
    credit = (input.creditDraft toAddr creditAmount).idempotencyKey

/-- The key belongs to a transfer. -/
def Moved (R : LocalCreateInput → Prop) (k : IdemKey) : Prop :=
  (∃ credit, Moves R k credit) ∨ ∃ debit, Moves R debit k

/-- The requests of one key pay one account, and what they pay is taken from theirs. -/
structure Transferring (R : LocalCreateInput → Prop) : Prop where
  debit : ∀ {input toAddr}, R input → input.Pays toAddr → input.amount ≤ 0
  payee : ∀ {input input' toAddr}, R input → R input' →
    input.idempotencyKey = input'.idempotencyKey → input.Pays toAddr → input'.Pays toAddr

section Moves

variable {R : LocalCreateInput → Prop} {k k' : IdemKey}

lemma LocalCreateInput.amount_of_key {input input' : LocalCreateInput}
    (h : input.idempotencyKey = input'.idempotencyKey) : input.amount = input'.amount :=
  congrArg (fun k : IdemKey => k.2.2.2) h

lemma Moves.operationKey (env : ν → Env D) (h : Moves R k k') : OperationKey env R k k' := by
  obtain ⟨input, toAddr, creditAmount, hR, hpays, habs, rfl, rfl⟩ := h
  exact .companion hR (.credit hpays habs)

lemma Moves.worth (ht : Transferring R) (h : Moves R k k') : k'.2.2.2 = - k.2.2.2 := by
  obtain ⟨input, toAddr, creditAmount, hR, hpays, habs, rfl, rfl⟩ := h
  have hle := ht.debit hR hpays
  change creditAmount = - input.amount
  unfold checkedAbs at habs
  split at habs
  · cases habs
  · split at habs
    · cases habs
      rfl
    · rename_i hnot
      have hzero : input.amount = 0 := Int64.le_antisymm hle (Int64.not_lt.1 hnot)
      cases habs
      rw [hzero]
      rfl

lemma Moves.credit_unique (ht : Transferring R) {k'' : IdemKey} (h : Moves R k k')
    (h' : Moves R k k'') : k' = k'' := by
  obtain ⟨input, toAddr, creditAmount, hR, hpays, habs, rfl, rfl⟩ := h
  obtain ⟨input', toAddr', creditAmount', hR', hpays', habs', hkey, rfl⟩ := h'
  have hto := (ht.payee hR hR' hkey hpays).1.symm.trans hpays'.1
  cases hto
  rw [LocalCreateInput.amount_of_key hkey, habs'] at habs
  cases habs
  exact congrArg₂ (fun nonce bucket => ("credit:" ++ nonce, bucket, toAddr, creditAmount))
    (congrArg Prod.fst hkey) (congrArg (fun k : IdemKey => k.2.1) hkey)

lemma Moves.debit_unique {env : ν → Env D} (hsep : Separate env R) {j : IdemKey}
    (h : Moves R k k') (h' : Moves R j k') : k = j :=
  (h.operationKey env).unique hsep (h'.operationKey env) rfl

/-- A credit is not a debit of another transfer. -/
lemma Moves.fresh {env : ν → Env D} (hsep : Separate env R) {k'' : IdemKey} (h : Moves R k k') :
    ¬ Moves R k' k'' := by
  rintro ⟨input, _, _, hR, _, _, hkey, _⟩
  obtain ⟨_, _, _, _, _, _, rfl, rfl⟩ := h
  exact (hsep.underived input hR).ne derived_credit _ (congrArg Prod.fst hkey)

end Moves

namespace Cluster.Contested

variable {W : World ν D} {R : LocalCreateInput → Prop} {C : Cluster ν D}

/-- An event that has a key of an operation has been built for a request of it. -/
lemma request_of (h : C.Contested W R) (hsound : C.Sound W) (hlives : ∀ n, C.lives n ≤ 1)
    (hsep : Separate (fun n => W.env n 1) R) {e : Event} (he : e ∈ C.built) {op : IdemKey}
    (hop : OperationKey (fun n => W.env n 1) R op e.idempotencyKey) :
    e.type ≠ .void ∧ ∃ input, R input ∧ input.idempotencyKey = op ∧
      (∃ p ∈ C.built, p.idempotencyKey = op) ∧
      ∀ toAddr creditAmount, input.Pays toAddr → checkedAbs input.amount = some creditAmount →
        ∃ c ∈ C.built,
          c.idempotencyKey = (input.creditDraft toAddr creditAmount).idempotencyKey := by
  have hids := freshId hsound hlives
  rcases h.cause e he with
    ⟨hR, hmode, hd, hmakes, hp, -, hpkey, hcredit⟩ | ⟨_, hl, _, _, hmakes⟩ | ⟨_, hl, _, _, hmakes⟩
  · have hop' := W.operationKey hR hmode hd
    have heq := hop'.unique hsep hop hmakes.key.symm
    refine ⟨?_, _, hR, heq, ⟨_, hp, hpkey.trans heq⟩, hcredit⟩
    obtain ⟨_, _, _, rfl⟩ := hmakes
    exact hd.1.type_ne_void
  · exact absurd hmakes.key (hop.ne_correction hsep (.inl rfl) (hids _ hl))
  · exact absurd hmakes.key (hop.ne_correction hsep (.inr rfl) (hids _ hl))

/-- A debit is filed if and only if its credit is. -/
lemma debit_iff_credit (h : C.Contested W R) (hsound : C.Sound W) (hlives : ∀ n, C.lives n ≤ 1)
    (hsep : Separate (fun n => W.env n 1) R) (ht : Transferring R) {k k' : IdemKey}
    (hmoves : Moves R k k') : k ∈ C.operationKeys ↔ k' ∈ C.operationKeys := by
  have hcompanion := hmoves.operationKey fun n => W.env n 1
  have hown : OperationKey (fun n => W.env n 1) R k k := by
    obtain ⟨input, _, _, hR, _, _, rfl, _⟩ := hmoves
    exact .own hR
  rw [mem_operationKeys, mem_operationKeys]
  constructor
  · rintro ⟨e, he, -, rfl⟩
    obtain ⟨-, input, hR, hkey, -, hcredit⟩ := h.request_of hsound hlives hsep he hown
    obtain ⟨input', toAddr, creditAmount, hR', hpays, habs, hkey', rfl⟩ := id hmoves
    have heq := hkey'.symm.trans hkey.symm
    obtain ⟨c, hc, hckey⟩ := hcredit toAddr creditAmount (ht.payee hR' hR heq hpays)
      (LocalCreateInput.amount_of_key heq ▸ habs)
    have hmoves' : Moves R e.idempotencyKey c.idempotencyKey := by
      refine ⟨input, toAddr, creditAmount, hR, ht.payee hR' hR heq hpays, ?_, hkey.symm, hckey⟩
      exact LocalCreateInput.amount_of_key heq ▸ habs
    have hsame := hmoves'.credit_unique ht hmoves
    rw [← hsame] at hcompanion
    exact ⟨c, hc, (h.request_of hsound hlives hsep hc hcompanion).1, hsame⟩
  · rintro ⟨c, hc, -, rfl⟩
    obtain ⟨-, -, -, -, ⟨p, hp, hpkey⟩, -⟩ := h.request_of hsound hlives hsep hc hcompanion
    subst hpkey
    exact ⟨p, hp, (h.request_of hsound hlives hsep hp hown).1, rfl⟩

end Cluster.Contested

open Classical in
/-- **Conservation.**  At rest, the balances of all accounts sum up to the amounts of the operations
that are not transfers: a transfer, to however many nodes it has been submitted, neither makes nor
destroys money. -/
theorem transfers_of_cluster [DecidableEq ν] {W : World ν D} {R : LocalCreateInput → Prop}
    {C : Cluster ν D} (ho : W.Orderly R) (ht : Transferring R) (h : Cluster.Run W R C)
    (hlives : ∀ n, C.lives n ≤ 1) (hrest : C.AtRest) {n : ν} (hup : 1 ≤ C.lives n)
    {S : Finset BalanceKey} (hS : ∀ e ∈ C.built, e.balanceKey ∈ S) :
    ∑ key ∈ S, ((C.node n).account key).balance =
      ∑ k ∈ C.operationKeys with ¬ Moved R k, k.2.2.2 := by
  have hsound := Cluster.Sound.of_run h
  have hcontested := Cluster.Contested.of_run ho h hlives
  have hall : ∑ key ∈ S, ((C.node n).account key).balance = ∑ k ∈ C.operationKeys, k.2.2.2 := by
    rw [← Finset.sum_fiberwise_of_maps_to (g := IdemKey.on) (t := S)]
    · refine Finset.sum_congr rfl fun key _ => ?_
      exact hcontested.balance hsound ho.separate (h.recorded ho.representable) hlives hrest hup key
    · intro k hk
      obtain ⟨e, he, -, rfl⟩ := Cluster.mem_operationKeys.1 hk
      exact hS e he
  have hmoved : ∑ k ∈ C.operationKeys with Moved R k, k.2.2.2 = 0 :=
    sum_paired (Moves R) (fun k => k.2.2.2) (fun _ => Iff.rfl)
      (fun hkk hkk' => hkk.credit_unique ht hkk')
      (fun hkk hjk => hkk.debit_unique ho.separate hjk) (fun hkk => hkk.fresh ho.separate)
      (fun hkk => hcontested.debit_iff_credit hsound hlives ho.separate ht hkk)
      fun hkk => hkk.worth ht
  rw [hall, ← Finset.sum_filter_add_sum_filter_not C.operationKeys (Moved R), hmoved]
  exact Int64.zero_add _

private def oneTransfer : List LocalCreateInput :=
  [{ LocalCreateInput.legacy "bucket" "alice" (-2) none 10 "n1" false with
      skipHold := true
      transferTo := some "bob" }]

private abbrev paid : Cluster Bool Unit := settledTwice oneTransfer

private lemma run_paid : Cluster.Run World.pair (· ∈ oneTransfer) paid := by
  have hsubmitted : Cluster.Run World.pair (· ∈ oneTransfer) (submittedTwice oneTransfer) :=
    run_started.play (by decide +kernel)
  have hconflicting : Cluster.Run World.pair (· ∈ oneTransfer) (conflictingTwice oneTransfer) :=
    hsubmitted.play (by decide +kernel)
  exact hconflicting.play (by decide +kernel)

private lemma atRest_paid : paid.AtRest := by
  intro n _ e he
  have hall : ∀ n, ∀ e ∈ paid.built, e ∈ paid.accepted n := by decide +kernel
  exact hall n e he

private lemma lives_paid : ∀ n, paid.lives n = 1 := by decide +kernel

private lemma orderly_oneTransfer : World.pair.Orderly (· ∈ oneTransfer) :=
  World.orderly_pair (by decide) (by decide) (by decide) (by decide) (by decide)

private lemma transferring_oneTransfer : Transferring (· ∈ oneTransfer) where
  debit hinput _ := by
    rw [List.mem_singleton.1 hinput]
    decide
  payee hinput hinput' _ hpays := by
    rw [List.mem_singleton.1 hinput']
    rw [List.mem_singleton.1 hinput] at hpays
    exact hpays

private lemma built_paid : paid.built.length = 6 ∧
    ∀ e ∈ paid.built, e.balanceKey = ("bucket", "alice") ∨ e.balanceKey = ("bucket", "bob") := by
  decide +kernel

open Classical in
/-- Both nodes have built the debit and the credit, and one of each has been voided. -/
theorem transfers_of_cluster_twice :
    paid.built.length = 6 ∧ ∀ n,
      ∑ key ∈ {("bucket", "alice"), ("bucket", "bob")}, ((paid.node n).account key).balance =
        ∑ k ∈ paid.operationKeys with ¬ Moved (· ∈ oneTransfer) k, k.2.2.2 := by
  refine ⟨built_paid.1, fun n => ?_⟩
  refine transfers_of_cluster orderly_oneTransfer transferring_oneTransfer run_paid
    (fun n => (lives_paid n).le) atRest_paid (lives_paid n).ge fun e he => ?_
  rw [Finset.mem_insert, Finset.mem_singleton]
  exact built_paid.2 e he

end Shardd
