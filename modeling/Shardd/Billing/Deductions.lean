import Mathlib.Algebra.BigOperators.Group.List.Basic
import Mathlib.Algebra.Order.Group.Int
import Mathlib.Logic.Relation
import Shardd.Billing.Credits
import Shardd.Lib.Machine
import Shardd.Node.Startup

/-!
# Paying for calls (`billing_check_and_deduct` in `apps/gateway/src/main.rs`)

A call to the API costs credits.  The gateway lets it through when the user's balance is positive,
and sends the deduction to the node behind the caller's back.  The deduction names no limit for the
overdraft, so that it "always goes through"; as an `i64` that limit is `-1`, the floor is `1`, and
a deduction that would leave less than one credit is refused.
-/

namespace Shardd

variable {D : Type}

/-! ## The gateway -/

/-- The calls that are billed. -/
inductive ApiCall
  | read
  | write
  deriving DecidableEq

namespace ApiCall

def cost : ApiCall → Int64
  | read => 1
  | write => 10

def actionLabel : ApiCall → String
  | read => "read"
  | write => "write"

end ApiCall

structure PaymentRequired where
  status : ℕ
  error : String
  code : String
  deriving DecidableEq

def paymentRequired : PaymentRequired where
  status := 402
  error := "insufficient_credits"
  code := "PAYMENT_REQUIRED"

/-- The balance the gateway sees; `none` when the mesh does not answer. -/
def billingBalance (userId : Uuid) (rows : Option (List AccountBalance)) : Int64 :=
  match rows with
  | some rows =>
      ((rows.find? fun a => a.bucket == billingBucketForUser userId && a.account == "credits").map
        (·.balance)).getD 0
  | none => 0

def deductRequest (userId : Uuid) (cost : Int64) (actionLabel nonce : String) :
    CreateEventRequest where
  bucket := billingBucketForUser userId
  account := "credits"
  amount := -cost
  note := some ("api:" ++ actionLabel)
  idempotencyNonce := nonce
  -- `u64::MAX`: "billing deductions always go through"
  maxOverdraft := some (-1)
  holdAmount := none
  holdExpiresAtUnixMs := none
  settleReservation := none
  releaseReservation := none
  skipHold := some true
  allowReservedBucket := true
  transferTo := none

/-- The call is refused, or the deduction is on its way to the node; `nonce` is a fresh UUID. -/
def billingCheckAndDeduct (userId : Uuid) (rows : Option (List AccountBalance)) (cost : Int64)
    (actionLabel nonce : String) : Except PaymentRequired CreateEventRequest :=
  if billingBalance userId rows ≤ 0 then .error paymentRequired
  else .ok (deductRequest userId cost actionLabel nonce)

/-! ## Gateway and node -/

/-- The node, and what the gateway has under way for one user. -/
structure MeteredNode (D : Type) where
  node : SharedState D
  /-- How many UUIDs have been drawn. -/
  drawn : ℕ
  /-- The deductions that have not been processed. -/
  pending : List CreateEventRequest
  /-- History: the calls that have been let through. -/
  allowed : List ApiCall
  /-- History: the deductions for which the node could not allocate an identity. -/
  starved : ℕ

namespace MeteredNode

def start (node : SharedState D) : MeteredNode D where
  node := node
  drawn := 0
  pending := []
  allowed := []
  starved := 0

variable (x : MeteredNode D)

/-- A call, with the answer of the gateway. -/
def called (call : ApiCall) : Except PaymentRequired CreateEventRequest → MeteredNode D
  | .error _ => x
  | .ok deduction =>
      { x with
        drawn := x.drawn + 1
        pending := x.pending ++ [deduction]
        allowed := x.allowed ++ [call] }

/-- The `i`-th deduction has been processed. -/
def processed (i : ℕ) (node : SharedState D) : MeteredNode D :=
  { x with node := node, pending := x.pending.eraseIdx i }

/-- What the calls that have been let through cost. -/
def cost : ℤ := (x.allowed.map fun call => call.cost.toInt).sum

/-- What the deductions that have not been processed amount to. -/
def owed : ℤ := (x.pending.map fun req => -req.amount.toInt).sum

end MeteredNode

/-- A call comes in, a deduction is processed, or the node does something that leaves the credits
of the user alone. -/
inductive MeterStep (env : Env D) (u : Uuid) (fresh : ℕ → String) :
    MeteredNode D → MeteredNode D → Prop
  | call {x : MeteredNode D} (call : ApiCall) {now : ℕ} {rows : List AccountBalance}
      (hrows : x.node.GetAllBalances now rows) :
      MeterStep env u fresh x (x.called call
        (billingCheckAndDeduct u (some rows) call.cost call.actionLabel (fresh x.drawn)))
  | deducted {x : MeteredNode D} {i : ℕ} {req : CreateEventRequest} {s' : SharedState D}
      {r : Except NodeRpcError CreateEventResponse} (hreq : x.pending[i]? = some req)
      (hcan : x.node.CanWriteCredits env u)
      (hrun : NodeM.exec (createEvent env .ready req).run x.node = (some r, s')) :
      MeterStep env u fresh x (x.processed i s')
  | starved {x : MeteredNode D} {i : ℕ} {req : CreateEventRequest} {s' : SharedState D}
      {r : Except NodeRpcError CreateEventResponse} (hreq : x.pending[i]? = some req)
      (hcan : ¬ x.node.CanWriteCredits env u)
      (hrun : NodeM.exec (createEvent env .ready req).run x.node = (some r, s')) :
      MeterStep env u fresh x { x.processed i s' with starved := x.starved + 1 }
  | other {x : MeteredNode D} {s' : SharedState D} (hready : s'.CreditsReady u)
      (hledger : s'.creditLedger u = x.node.creditLedger u) :
      MeterStep env u fresh x { x with node := s' }

abbrev MeterRun (env : Env D) (u : Uuid) (fresh : ℕ → String) :
    MeteredNode D → MeteredNode D → Prop :=
  Relation.ReflTransGen (MeterStep env u fresh)

/-! ## The balance the gateway sees -/

section Balance

variable {s : SharedState D} {u : Uuid} {now : ℕ} {rows : List AccountBalance}

lemma billingBalance_eq (hs : s.CreditsReady u) (hrows : s.GetAllBalances now rows) :
    billingBalance u (some rows) = (s.account (creditsKey u)).balance := by
  unfold billingBalance
  dsimp only
  generalize hfind : rows.find? _ = found
  rcases found with _ | row
  · have hnone : s.accounts (creditsKey u) = none := by
      by_contra hne
      obtain ⟨acc, hacc⟩ := Option.ne_none_iff_exists'.1 hne
      obtain ⟨row, hrow, hkey⟩ := hrows.total _ _ hacc hs.unlocked
      have hnot := List.find?_eq_none.1 hfind row hrow
      have hbucket : row.bucket = billingBucketForUser u := congrArg Prod.fst hkey
      have haccount : row.account = "credits" := congrArg Prod.snd hkey
      exact hnot (by simp [hbucket, haccount])
    rw [SharedState.account, hnone]
    rfl
  · obtain ⟨acc, hacc, -, hshows⟩ := hrows.row row (List.mem_of_find?_eq_some hfind)
    have hpred := List.find?_some hfind
    simp only [Bool.and_eq_true, beq_iff_eq] at hpred
    rw [hpred.1, hpred.2] at hacc
    have hacc : s.accounts (creditsKey u) = some acc := hacc
    rw [SharedState.account, hacc]
    exact hshows.balance

end Balance

/-! ## Every call is paid -/

section Paid

variable {env : Env D} {u : Uuid} {fresh : ℕ → String}

lemma deductRequest_writesCredits (u : Uuid) (call : ApiCall) (nonce : String) :
    (deductRequest u call.cost call.actionLabel nonce).WritesCredits u where
  bucket := rfl
  account := rfl
  note := by cases call <;> rfl
  holdAmount := rfl
  holdExpiresAtUnixMs := rfl
  settleReservation := rfl
  releaseReservation := rfl
  skipHold := rfl
  allowReservedBucket := rfl
  transferTo := rfl

lemma ApiCall.cost_bounds (call : ApiCall) : 1 ≤ call.cost.toInt ∧ call.cost.toInt ≤ 10 := by
  cases call <;> decide

lemma ApiCall.toInt_neg_cost (call : ApiCall) : (-call.cost).toInt = -call.cost.toInt := by
  cases call <;> rfl

/-- The floor of a deduction is one credit. -/
lemma floor_deductRequest (call : ApiCall) (nonce : String) :
    (deductRequest u call.cost call.actionLabel nonce).floor = 1 := by
  show overdraftFloor (-1) = 1
  decide

/-- What a deduction leaves, as a number. -/
lemma toInt_deducted {b : Int64} (hb : 1 ≤ b.toInt) (call : ApiCall) :
    (b + -call.cost).toInt = b.toInt - call.cost.toInt := by
  have hbounds := call.cost_bounds
  have hneg := call.toInt_neg_cost
  have hb' := b.toInt_lt
  rw [Int64.toInt_add_iff.2 ⟨by omega, by omega⟩]
  omega

/-- What holds in every state of a run that began with the balance `b`: the balance is `b` less the
deductions that have been processed, but for what has been lost, and something is lost only when
the calls cost `b` or more, or when an identity could not be allocated. -/
structure Metered (u : Uuid) (fresh : ℕ → String) (b : ℤ) (x : MeteredNode D) : Prop where
  ready : x.node.CreditsReady u
  pending : ∀ req ∈ x.pending, ∃ k < x.drawn, ∃ call : ApiCall,
    req = deductRequest u call.cost call.actionLabel (fresh k)
  nodup : (x.pending.map (·.idempotencyNonce)).Nodup
  unknown : ∀ k amount, (fresh k, amount) ∈ (x.node.creditLedger u).known →
    k < x.drawn ∧ fresh k ∉ x.pending.map (·.idempotencyNonce)
  solvent : 1 ≤ (x.node.creditLedger u).balance.toInt
  books : ∃ lost : ℤ, 0 ≤ lost ∧
    (x.node.creditLedger u).balance.toInt = b - (x.cost - x.owed) + lost ∧
    (lost = 0 ∨ b ≤ x.cost ∨ x.starved ≠ 0) ∧ (x.starved ≠ 0 → lost ≠ 0)

namespace Metered

variable {b : ℤ} {x x' : MeteredNode D}

/-- A call is let through, and its deduction is on its way. -/
lemma called (hfresh : Function.Injective fresh) (h : Metered u fresh b x) {now : ℕ}
    {rows : List AccountBalance} (hrows : x.node.GetAllBalances now rows) (call : ApiCall) :
    Metered u fresh b (x.called call
      (billingCheckAndDeduct u (some rows) call.cost call.actionLabel (fresh x.drawn))) := by
  have hseen : billingBalance u (some rows) = (x.node.creditLedger u).balance :=
    billingBalance_eq h.ready hrows
  have hpositive : ¬ billingBalance u (some rows) ≤ 0 := by
    have hsolvent := h.solvent
    rw [hseen, Int64.le_iff_toInt_le]
    simp only [Int64.toInt_zero]
    omega
  rw [billingCheckAndDeduct, if_neg hpositive]
  have hnew : fresh x.drawn ∉ x.pending.map (·.idempotencyNonce) := by
    intro hmem
    obtain ⟨req, hreq, hnonce⟩ := List.mem_map.1 hmem
    obtain ⟨k, hk, call', rfl⟩ := h.pending req hreq
    have hkd : k = x.drawn := hfresh hnonce
    omega
  refine ⟨h.ready, fun req hreq => ?_, ?_, fun k amount hknown => ?_, h.solvent, ?_⟩
  · rcases List.mem_append.1 hreq with hreq | hreq
    · obtain ⟨k, hk, call', rfl⟩ := h.pending req hreq
      exact ⟨k, Nat.lt_succ_of_lt hk, call', rfl⟩
    · obtain rfl := List.mem_singleton.1 hreq
      exact ⟨x.drawn, Nat.lt_succ_self _, call, rfl⟩
  · rw [MeteredNode.called, List.map_append]
    refine List.nodup_append.2
      ⟨h.nodup, List.nodup_singleton _, fun nonce hnonce other hother => ?_⟩
    obtain rfl := List.mem_singleton.1 hother
    rintro rfl
    exact hnew hnonce
  · obtain ⟨hk, hpending⟩ := h.unknown k amount hknown
    refine ⟨Nat.lt_succ_of_lt hk, fun hmem => ?_⟩
    rw [MeteredNode.called, List.map_append] at hmem
    rcases List.mem_append.1 hmem with hmem | hmem
    · exact hpending hmem
    · have hkd : k = x.drawn := hfresh (List.mem_singleton.1 hmem)
      omega
  · obtain ⟨lost, hlost, hbalance, hwhy, hstarved⟩ := h.books
    have hbounds := call.cost_bounds
    have hneg := call.toInt_neg_cost
    have hcost : (x.called call (.ok (deductRequest u call.cost call.actionLabel
        (fresh x.drawn)))).cost = x.cost + call.cost.toInt := by
      simp [MeteredNode.cost, MeteredNode.called]
    have howed : (x.called call (.ok (deductRequest u call.cost call.actionLabel
        (fresh x.drawn)))).owed = x.owed + call.cost.toInt := by
      simp [MeteredNode.owed, MeteredNode.called, deductRequest, hneg]
    refine ⟨lost, hlost, ?_, ?_, hstarved⟩
    · rw [hcost, howed]
      show (x.node.creditLedger u).balance.toInt = _
      omega
    · rw [hcost]
      rcases hwhy with hzero | hspent | hfailed
      · exact .inl hzero
      · exact .inr (.inl (by omega))
      · exact .inr (.inr hfailed)

section Processed

variable {i : ℕ} {req : CreateEventRequest} {s' : SharedState D}
  {r : Except NodeRpcError CreateEventResponse}

/-- The deductions that are left when the `i`-th one has been processed. -/
lemma perm_of_getElem? (hreq : x.pending[i]? = some req) :
    (req :: x.pending.eraseIdx i).Perm x.pending := by
  obtain ⟨hi, rfl⟩ := List.getElem?_eq_some_iff.1 hreq
  exact List.getElem_cons_eraseIdx_perm hi

lemma owed_processed (hreq : x.pending[i]? = some req) (node : SharedState D) :
    (x.processed i node).owed = x.owed + req.amount.toInt := by
  have hsum := ((perm_of_getElem? hreq).map fun req => -req.amount.toInt).sum_eq
  rw [List.map_cons, List.sum_cons] at hsum
  simp only [MeteredNode.owed, MeteredNode.processed]
  omega

/-- The nonce of a deduction that is under way is not known. -/
lemma notMem_known (h : Metered u fresh b x) (hreq : req ∈ x.pending) :
    (req.idempotencyNonce, req.amount) ∉ (x.node.creditLedger u).known := by
  intro hknown
  obtain ⟨k, -, call, rfl⟩ := h.pending req hreq
  exact (h.unknown k _ hknown).2 (List.mem_map_of_mem hreq)

/-- The node processes a deduction as a write to the ledger. -/
lemma writes (h : Metered u fresh b x) (hreq : req ∈ x.pending)
    (hrun : NodeM.exec (createEvent env .ready req).run x.node = (some r, s')) :
    s'.CreditsReady u ∧
      (x.node.creditLedger u).Writes req.idempotencyNonce req.amount 1
        (x.node.CanWriteCredits env u) r.isOk (s'.creditLedger u) := by
  obtain ⟨k, -, call, rfl⟩ := h.pending req hreq
  obtain ⟨r', s'', hrun', hready, hwrites, -⟩ :=
    exec_creditWrite env h.ready (deductRequest_writesCredits u call (fresh k))
  rw [hrun] at hrun'
  cases hrun'
  rw [floor_deductRequest] at hwrites
  exact ⟨hready, hwrites⟩

/-- A deduction that leaves less than one credit is one too many. -/
lemma cost_ge_of_short (h : Metered u fresh b x) (hreq : x.pending[i]? = some req)
    (hshort : (x.node.creditLedger u).Short req.amount 1) : b ≤ x.cost := by
  have howed := owed_processed hreq x.node
  have hleft : 0 ≤ (x.processed i x.node).owed := by
    refine List.sum_nonneg fun cost hcost => ?_
    obtain ⟨req, hreq, rfl⟩ := List.mem_map.1 hcost
    obtain ⟨k, -, call, rfl⟩ := h.pending req (List.mem_of_mem_eraseIdx hreq)
    have hneg := call.toInt_neg_cost
    have hbounds := call.cost_bounds
    show 0 ≤ -(-call.cost).toInt
    omega
  obtain ⟨k, -, call, rfl⟩ := h.pending req (List.mem_of_getElem? hreq)
  have hlow : (x.node.creditLedger u).balance + -call.cost < 1 := hshort.2
  rw [Int64.lt_iff_toInt_lt, toInt_deducted h.solvent call, Int64.toInt_one] at hlow
  have hamount : (deductRequest u call.cost call.actionLabel (fresh k)).amount.toInt =
      -call.cost.toInt := call.toInt_neg_cost
  rw [hamount] at howed
  obtain ⟨lost, hlost, hbooks, -⟩ := h.books
  omega

/-- A deduction that the node has refused is lost. -/
lemma lost (h : Metered u fresh b x) (hreq : x.pending[i]? = some req)
    (hready : s'.CreditsReady u) (hledger : s'.creditLedger u = x.node.creditLedger u)
    {starved : ℕ} (hwhy : b ≤ x.cost ∨ starved ≠ 0) :
    Metered u fresh b { x.processed i s' with starved := starved } := by
  have hperm := perm_of_getElem? hreq
  have hmem : req ∈ x.pending := hperm.mem_iff.1 List.mem_cons_self
  have hcost : 1 ≤ -req.amount.toInt := by
    obtain ⟨k, -, call, rfl⟩ := h.pending req hmem
    have hneg := call.toInt_neg_cost
    have hbounds := call.cost_bounds
    show 1 ≤ -(-call.cost).toInt
    omega
  have howed := owed_processed hreq s'
  have hnodup := (hperm.map (·.idempotencyNonce)).nodup_iff.2 h.nodup
  rw [List.map_cons, List.nodup_cons] at hnodup
  refine ⟨hready, fun req hreq => h.pending req (List.mem_of_mem_eraseIdx hreq), hnodup.2,
    fun k amount hknown => ?_, ?_, ?_⟩
  · have hknown : (fresh k, amount) ∈ (s'.creditLedger u).known := hknown
    rw [hledger] at hknown
    obtain ⟨hk, hpending⟩ := h.unknown k amount hknown
    refine ⟨hk, fun hleft => hpending ?_⟩
    obtain ⟨req, hreq, hnonce⟩ := List.mem_map.1 hleft
    exact List.mem_map.2 ⟨req, List.mem_of_mem_eraseIdx hreq, hnonce⟩
  · show 1 ≤ (s'.creditLedger u).balance.toInt
    rw [hledger]
    exact h.solvent
  · obtain ⟨lost, hlost, hbalance, hwhy', hnot⟩ := h.books
    refine ⟨lost - req.amount.toInt, by omega, ?_, .inr hwhy, fun _ => by omega⟩
    show (s'.creditLedger u).balance.toInt = b - (x.cost - (x.processed i s').owed) + _
    rw [hledger, howed]
    omega

/-- A deduction that the node has taken. -/
lemma taken (hfresh : Function.Injective fresh) (h : Metered u fresh b x)
    (hreq : x.pending[i]? = some req) (hready : s'.CreditsReady u)
    (hroom : ¬ (x.node.creditLedger u).Short req.amount 1)
    (hledger : s'.creditLedger u = ⟨(x.node.creditLedger u).balance + req.amount,
      insert (req.idempotencyNonce, req.amount) (x.node.creditLedger u).known⟩) :
    Metered u fresh b (x.processed i s') := by
  have hperm := perm_of_getElem? hreq
  have hmem : req ∈ x.pending := hperm.mem_iff.1 List.mem_cons_self
  have howed := owed_processed hreq s'
  have hnodup := (hperm.map (·.idempotencyNonce)).nodup_iff.2 h.nodup
  rw [List.map_cons, List.nodup_cons] at hnodup
  obtain ⟨k, hk, call, rfl⟩ := h.pending req hmem
  have hbalance : (s'.creditLedger u).balance.toInt =
      (x.node.creditLedger u).balance.toInt - call.cost.toInt := by
    rw [hledger]
    exact toInt_deducted h.solvent call
  have hneg := call.toInt_neg_cost
  have hbounds := call.cost_bounds
  refine ⟨hready, fun req hreq => h.pending req (List.mem_of_mem_eraseIdx hreq), hnodup.2,
    fun k' amount hknown => ?_, ?_, ?_⟩
  · have hknown : (fresh k', amount) ∈ (s'.creditLedger u).known := hknown
    rw [hledger] at hknown
    rcases hknown with heq | hknown
    · obtain rfl : k' = k := hfresh (congrArg Prod.fst heq)
      exact ⟨hk, hnodup.1⟩
    · obtain ⟨hk', hpending⟩ := h.unknown k' amount hknown
      refine ⟨hk', fun hleft => hpending ?_⟩
      obtain ⟨req, hreq, hnonce⟩ := List.mem_map.1 hleft
      exact List.mem_map.2 ⟨req, List.mem_of_mem_eraseIdx hreq, hnonce⟩
  · -- the floor is one credit
    have hleft : ¬ (x.node.creditLedger u).balance + -call.cost < 1 := fun hlow =>
      hroom ⟨Int64.lt_iff_toInt_lt.2 (show (-call.cost).toInt < (0 : Int64).toInt by
        rw [Int64.toInt_zero]; omega), hlow⟩
    rw [Int64.lt_iff_toInt_lt, toInt_deducted h.solvent call] at hleft
    show 1 ≤ (s'.creditLedger u).balance.toInt
    simp only [Int64.toInt_one] at hleft
    omega
  · obtain ⟨lost, hlost, hbooks, hwhy, hstarved⟩ := h.books
    refine ⟨lost, hlost, ?_, hwhy, hstarved⟩
    show (s'.creditLedger u).balance.toInt = b - (x.cost - (x.processed i s').owed) + lost
    have hamount : (deductRequest u call.cost call.actionLabel (fresh k)).amount.toInt =
        -call.cost.toInt := hneg
    rw [hbalance, howed, hamount]
    omega

end Processed

/-- The step lemma. -/
lemma step (hfresh : Function.Injective fresh) (h : Metered u fresh b x)
    (hstep : MeterStep env u fresh x x') : Metered u fresh b x' := by
  cases hstep with
  | call call hrows => exact h.called hfresh hrows call
  | @deducted i req s' r hreq hcan hrun =>
      have hmem := List.mem_of_getElem? hreq
      obtain ⟨hready, hwrites⟩ := h.writes hmem hrun
      generalize hledger : s'.creditLedger u = l at hwrites
      generalize r.isOk = ok at hwrites
      cases hwrites with
      | known hknown => exact absurd hknown (h.notMem_known hmem)
      | refused _ hshort =>
          exact h.lost hreq hready hledger (.inl (h.cost_ge_of_short hreq hshort))
      | failed _ _ hstuck => exact absurd hcan hstuck
      | posted _ hroom _ => exact h.taken hfresh hreq hready hroom hledger
  | @starved i req s' r hreq hcan hrun =>
      have hmem := List.mem_of_getElem? hreq
      obtain ⟨hready, hwrites⟩ := h.writes hmem hrun
      generalize hledger : s'.creditLedger u = l at hwrites
      generalize r.isOk = ok at hwrites
      cases hwrites with
      | known hknown => exact absurd hknown (h.notMem_known hmem)
      | refused _ _ => exact h.lost hreq hready hledger (.inr (by omega))
      | failed _ _ _ => exact h.lost hreq hready hledger (.inr (by omega))
      | posted _ _ hcan' => exact absurd hcan' hcan
  | @other s' hready hledger =>
      refine ⟨hready, h.pending, h.nodup, ?_, ?_, ?_⟩
      · show ∀ k amount, (fresh k, amount) ∈ (s'.creditLedger u).known → _
        rw [hledger]
        exact h.unknown
      · show 1 ≤ (s'.creditLedger u).balance.toInt
        rw [hledger]
        exact h.solvent
      · show ∃ lost : ℤ, 0 ≤ lost ∧ (s'.creditLedger u).balance.toInt = _ ∧ _
        rw [hledger]
        exact h.books

/-- The run lemma. -/
lemma run (hfresh : Function.Injective fresh) (h : Metered u fresh b x)
    (hrun : MeterRun env u fresh x x') : Metered u fresh b x' := by
  induction hrun with
  | refl => exact h
  | tail _ hstep ih => exact ih.step hfresh hstep

end Metered

/-- **Paying for calls.**  When all deductions of the calls that were let through have been
processed, the balance has gone down by what the calls cost exactly when they cost less than the
balance there was, and an identity could be allocated for each deduction. -/
theorem calls_paid_iff (hfresh : Function.Injective fresh) {s : SharedState D} {x : MeteredNode D}
    (hready : s.CreditsReady u) (hbalance : 1 ≤ (s.account (creditsKey u)).balance.toInt)
    (hunused : ∀ k amount, (fresh k, amount) ∉ (s.creditLedger u).known)
    (hrun : MeterRun env u fresh (.start s) x) (hdone : x.pending = []) :
    (x.node.account (creditsKey u)).balance.toInt =
        (s.account (creditsKey u)).balance.toInt - x.cost ↔
      x.cost < (s.account (creditsKey u)).balance.toInt ∧ x.starved = 0 := by
  set b := (s.account (creditsKey u)).balance.toInt with hb
  have hstart : Metered u fresh b (.start s) :=
    { ready := hready
      pending := fun req hreq => absurd hreq List.not_mem_nil
      nodup := List.nodup_nil
      unknown := fun k amount hknown => absurd hknown (hunused k amount)
      solvent := hbalance
      books := ⟨0, le_rfl, by rw [hb]; simp [MeteredNode.start, MeteredNode.cost,
        MeteredNode.owed, SharedState.creditLedger], .inl rfl, fun hne => absurd rfl hne⟩ }
  have hend := hstart.run hfresh hrun
  obtain ⟨lost, hlost, hbooks, hwhy, hstarved⟩ := hend.books
  have hsolvent := hend.solvent
  have howed : x.owed = 0 := by rw [MeteredNode.owed, hdone]; rfl
  have hledger : (x.node.creditLedger u).balance = (x.node.account (creditsKey u)).balance := rfl
  rw [hledger] at hbooks hsolvent
  constructor
  · intro hpaid
    have hzero : lost = 0 := by omega
    refine ⟨by omega, ?_⟩
    by_contra hne
    exact hstarved hne hzero
  · rintro ⟨hless, hfed⟩
    rcases hwhy with hzero | hspent | hne
    · omega
    · omega
    · exact absurd hfed hne

end Paid

/-! ## Calls that are never paid -/

section Unpaid

def caller : Uuid := ⟨List.replicate 16 3, rfl⟩

def meterEnv : Env Unit := Env.plain "node" 1000

/-- A node on which the caller has been granted one credit. -/
def grantedNode : SharedState Unit :=
  (NodeM.exec (createEvent meterEnv .ready (billingEventRequest caller 1 "grant" "n1")).run
    (.blank .empty)).2

lemma creditsReady_blank (u : Uuid) : (SharedState.blank (D := Unit) .empty).CreditsReady u where
  unlocked := rfl
  undeleted := rfl
  noHolds := rfl
  cached _ _ _ := rfl
  unbumping _ h := by cases h

lemma canWriteCredits {s : SharedState Unit} {u : Uuid} (hs : s.CreditsReady u) :
    s.CanWriteCredits meterEnv u :=
  SharedState.canAllocate_of_ok (fun _ => rfl) hs.unbumping

lemma grantedNode_spec : grantedNode.CreditsReady caller ∧
    grantedNode.creditLedger caller = ⟨1, {("n1", 1)}⟩ ∧
    ∀ k ≠ creditsKey caller, grantedNode.accounts k = none := by
  have hreq := billingEventRequest_writesCredits caller 1 "n1" (show "grant".length ≤ _ by decide)
  obtain ⟨r, s', hrun, hready, hwrites, hothers⟩ :=
    exec_creditWrite meterEnv (creditsReady_blank caller) hreq
  have hnode : grantedNode = s' := congrArg Prod.snd hrun
  rw [hnode]
  refine ⟨hready, ?_, hothers⟩
  generalize s'.creditLedger caller = l at hwrites
  generalize r.isOk = ok at hwrites
  cases hwrites with
  | known hknown => exact absurd rfl hknown
  | refused _ hshort => exact absurd hshort.1 (by decide)
  | failed _ _ hstuck => exact absurd (canWriteCredits (creditsReady_blank caller)) hstuck
  | posted _ _ _ =>
      have hnonce : String.ofList (trim "n1".toList) = "n1" := by decide
      refine congrArg (CreditLedger.mk 1) (Set.ext fun w => ?_)
      rw [show (billingEventRequest caller 1 "grant" "n1").idempotencyNonce = "n1" from hnonce]
      exact ⟨fun hw => hw.resolve_right fun hmem => hmem rfl, fun hw => .inl hw⟩

/-- The node refuses to take the last credit. -/
lemma exec_lastCredit {s : SharedState Unit} (hs : s.CreditsReady caller)
    (hledger : s.creditLedger caller = ⟨1, {("n1", 1)}⟩) (nonce : String) :
    ∃ r s', NodeM.exec (createEvent meterEnv .ready
        (deductRequest caller ApiCall.read.cost ApiCall.read.actionLabel nonce)).run s =
          (some r, s') ∧
      s'.CreditsReady caller ∧ s'.creditLedger caller = ⟨1, {("n1", 1)}⟩ := by
  obtain ⟨r, s', hrun, hready, hwrites, -⟩ := exec_creditWrite meterEnv hs
    (deductRequest_writesCredits caller .read nonce)
  refine ⟨r, s', hrun, hready, ?_⟩
  rw [hledger, floor_deductRequest] at hwrites
  generalize s'.creditLedger caller = l at hwrites
  generalize r.isOk = ok at hwrites
  cases hwrites with
  | known hknown =>
      exact absurd (congrArg Prod.snd (Set.mem_singleton_iff.1 hknown))
        (by decide : (-1 : Int64) ≠ 1)
  | refused _ _ => rfl
  | failed _ _ _ => rfl
  | posted _ hroom _ =>
      exact absurd ⟨(by decide : (-1 : Int64) < 0), (by decide : (1 : Int64) + -1 < 1)⟩ hroom

/-- Deductions of the last credit come to nothing. -/
lemma process_lastCredit (fresh : ℕ → String) {x : MeteredNode Unit}
    (hs : x.node.CreditsReady caller)
    (hledger : x.node.creditLedger caller = ⟨1, {("n1", 1)}⟩)
    (hpending : ∀ req ∈ x.pending, ∃ nonce,
      req = deductRequest caller ApiCall.read.cost ApiCall.read.actionLabel nonce) :
    ∃ x', MeterRun meterEnv caller fresh x x' ∧ x'.allowed = x.allowed ∧ x'.pending = [] ∧
      x'.starved = x.starved ∧ x'.node.creditLedger caller = ⟨1, {("n1", 1)}⟩ := by
  generalize hlist : x.pending = pending at hpending
  induction pending generalizing x with
  | nil => exact ⟨x, .refl, rfl, hlist, rfl, hledger⟩
  | cons req pending ih =>
      obtain ⟨nonce, rfl⟩ := hpending req List.mem_cons_self
      obtain ⟨r, s', hrun, hready, hledger'⟩ := exec_lastCredit hs hledger nonce
      have hstep : MeterStep meterEnv caller fresh x (x.processed 0 s') :=
        .deducted (by rw [hlist]; rfl) (canWriteCredits hs) hrun
      obtain ⟨x', hrun', hallowed, hdone, hstarved, hend⟩ := ih (x := x.processed 0 s') hready
        hledger' (by rw [MeteredNode.processed, hlist]; rfl)
        fun req hreq => hpending req (List.mem_cons_of_mem _ hreq)
      exact ⟨x', .head hstep hrun', hallowed, hdone, hstarved, hend⟩

/-- Any number of calls is let through before the first deduction is processed. -/
lemma call_lastCredit (fresh : ℕ → String) (n : ℕ) :
    ∃ x, MeterRun meterEnv caller fresh (.start grantedNode) x ∧ x.node = grantedNode ∧
      x.allowed = List.replicate n .read ∧ x.starved = 0 ∧
      ∀ req ∈ x.pending, ∃ nonce,
        req = deductRequest caller ApiCall.read.cost ApiCall.read.actionLabel nonce := by
  induction n with
  | zero => exact ⟨_, .refl, rfl, rfl, rfl, fun req hreq => absurd hreq List.not_mem_nil⟩
  | succ n ih =>
      obtain ⟨x, hrun, hnode, hallowed, hstarved, hpending⟩ := ih
      obtain ⟨hready, hledger, halone⟩ := grantedNode_spec
      obtain ⟨rows, hrows⟩ := SharedState.exists_getAllBalances hready.unlocked halone 1000
      have hbalance : billingBalance caller (some rows) = 1 :=
        (billingBalance_eq hready hrows).trans (congrArg CreditLedger.balance hledger)
      have hok : billingCheckAndDeduct caller (some rows) ApiCall.read.cost
          ApiCall.read.actionLabel (fresh x.drawn) = .ok (deductRequest caller ApiCall.read.cost
            ApiCall.read.actionLabel (fresh x.drawn)) := by
        rw [billingCheckAndDeduct, hbalance]
        exact if_neg (by decide)
      have hstep : MeterStep meterEnv caller fresh x _ := .call .read (hnode ▸ hrows)
      rw [hok] at hstep
      refine ⟨_, .tail hrun hstep, hnode, ?_, hstarved, fun req hreq => ?_⟩
      · show x.allowed ++ [ApiCall.read] = _
        rw [hallowed, ← List.replicate_succ']
      · rcases List.mem_append.1 hreq with hreq | hreq
        · exact hpending req hreq
        · exact ⟨_, List.mem_singleton.1 hreq⟩

/-- With one credit, any number of calls is let through, and when all their deductions have been
processed the credit is still there. -/
lemma never_paid (n : ℕ) : ∃ x,
    MeterRun meterEnv caller (fun k => toString k) (.start grantedNode) x ∧
      x.allowed = List.replicate n .read ∧ x.pending = [] ∧ x.starved = 0 ∧
      (grantedNode.account (creditsKey caller)).balance = 1 ∧
      (x.node.account (creditsKey caller)).balance = 1 := by
  obtain ⟨x, hrun, hnode, hallowed, hstarved, hpending⟩ :=
    call_lastCredit (fun k => toString k) n
  obtain ⟨hready, hledger, -⟩ := grantedNode_spec
  obtain ⟨x', hrun', hallowed', hdone, hstarved', hend⟩ := process_lastCredit
    (fun k => toString k) (hnode ▸ hready) (hnode ▸ hledger) hpending
  exact ⟨x', hrun.trans hrun', hallowed'.trans hallowed, hdone, hstarved'.trans hstarved,
    congrArg CreditLedger.balance hledger, congrArg CreditLedger.balance hend⟩

/-- Three calls with one credit, of which none is paid. -/
theorem calls_paid_iff_lastCredit : ∃ x : MeteredNode Unit,
    x.allowed = List.replicate 3 .read ∧
      ((x.node.account (creditsKey caller)).balance.toInt =
          (grantedNode.account (creditsKey caller)).balance.toInt - x.cost ↔
        x.cost < (grantedNode.account (creditsKey caller)).balance.toInt ∧ x.starved = 0) := by
  have hinj : Function.Injective fun k : ℕ => toString k := fun a b h =>
    toDigits_injective (String.ofList_injective h)
  obtain ⟨x, hrun, hallowed, hdone, -, hbalance, -⟩ := never_paid 3
  obtain ⟨hready, hledger, -⟩ := grantedNode_spec
  have hunused : ∀ (k : ℕ) (amount : Int64),
      (toString k, amount) ∉ (grantedNode.creditLedger caller).known := by
    intro k amount hknown
    rw [hledger] at hknown
    have hdigits := notMem_toDigits (show 'n'.isDigit = false from rfl) k
    have hlist := congrArg (fun w : String × Int64 => w.1.toList) (Set.mem_singleton_iff.1 hknown)
    have htext : Nat.toDigits 10 k = "n1".toList := String.toList_ofList.symm.trans hlist
    rw [htext] at hdigits
    exact hdigits (by decide)
  exact ⟨x, hallowed, calls_paid_iff hinj hready (by rw [hbalance]; decide) hunused hrun hdone⟩

/-- Three calls are let through, and the credit is still there. -/
theorem calls_never_paid : ∃ x,
    MeterRun meterEnv caller (fun k => toString k) (.start grantedNode) x ∧
      x.allowed = List.replicate 3 .read ∧ x.pending = [] ∧ x.starved = 0 ∧
      (grantedNode.account (creditsKey caller)).balance = 1 ∧
      (x.node.account (creditsKey caller)).balance = 1 :=
  never_paid 3

end Unpaid

end Shardd
