import Shardd.Billing.Deductions
import Shardd.Billing.Repo

/-!
# The monthly grant (`status` in `apps/billing/src/adapters/http/routes/billing.rs`)

When a user asks for the status of the subscription, billing reads the balance and tops it up to
the allowance of the plan.  The write carries a nonce of the user and the month.  The node knows a
write by nonce and amount, though, and the amount is what was missing at the time: as soon as some
credits have been spent, the next request grants them again.
-/

namespace Shardd

variable {D : Type}

/-! ## The status request -/

structure BillingStatusDto where
  planName : String
  planSlug : String
  monthlyCredits : Int64
  creditBalance : Int64
  subscriptionStatus : String
  periodStart : Option DateTime
  periodEnd : Option DateTime

def grantNonce (userId : Uuid) (month : String) : String :=
  "grant_" ++ userId.toText ++ "_" ++ month

/-- A status request of a user whose subscription is `sub`. -/
def statusOf (userId : Uuid) (month : String) (sub : Subscription) : BillingM BillingStatusDto := do
  match ← query (.getPlan sub.planId) with
  | none => throw (.internal "plan not found")
  | some plan =>
    let balance ← (getBillingBalance userId : BillingClient Int64)
    let balance ←
      if balance < plan.monthlyCredits ∧ 0 < plan.monthlyCredits then do
        let granted ← outcome (createBillingEvent userId (plan.monthlyCredits - balance)
          ("Credit grant: " ++ plan.name ++ " plan") (grantNonce userId month))
        pure (if granted.isOk then plan.monthlyCredits else balance)
      else pure balance
    return { planName := plan.name
             planSlug := plan.slug
             monthlyCredits := plan.monthlyCredits
             creditBalance := balance
             subscriptionStatus := sub.subscriptionStatus
             periodStart := sub.periodStart
             periodEnd := sub.periodEnd }

/-- `month` is the current one, as `%Y%m`. -/
def status (userId : Uuid) (month : String) : BillingM BillingStatusDto := do
  let sub ← getOrCreateSubscription userId ""
  statusOf userId month sub

section Requests

variable (u : Uuid) (month : String) (plan : BillingPlan)

/-- The grant of a request that has read the balance `b`. -/
def grantRequest (b : Int64) : CreateEventRequest :=
  billingEventRequest u (plan.monthlyCredits - b) ("Credit grant: " ++ plan.name ++ " plan")
    (grantNonce u month)

/-- The nonce under which the node knows the grants of the month. -/
def grantKey : String := String.ofList (trim (grantNonce u month).toList)

/-- A plan that is found is `plan`. -/
def FindsPlan : (op : BillingCall) → op.Answer → Prop
  | .query (.getPlan _), ans => ∀ p, ans = .ok (some p) → p = plan
  | _, _ => True

/-- A request that has ended reports the balance `b`. -/
def Reports (b : Int64) (t : BillingClient (Except AppError BillingStatusDto)) : Prop :=
  ∃ dto, t = .done (.ok dto) ∧ dto.creditBalance = b

/-- A request sends the grant it has computed from the balance `b`.  It will report the allowance
when it is told of a success, and `b` when it is not. -/
def SendsGrant (b : Int64) (t : BillingClient (Except AppError BillingStatusDto)) : Prop :=
  b < plan.monthlyCredits ∧ 0 < plan.monthlyCredits ∧
    ∃ next, t = .call (.createEvent (grantRequest u month plan b)) next ∧
      ∀ ans, Reports (if ans.isOk then plan.monthlyCredits else b) (next ans)

/-- A request has yet to list the credits, or it has failed. -/
def Reads : BillingClient (Except AppError BillingStatusDto) → Prop
  | .done r => ∀ dto, r ≠ .ok dto
  | .call (.query q) next => ∀ ans, FindsPlan plan (.query q) ans → Reads (next ans)
  | .call .balances next => ∀ rows,
      Reports (firstBalance u rows) (next rows) ∨
        SendsGrant u month plan (firstBalance u rows) (next rows)
  | .call (.retrieveSubscription _) _ | .call (.createCustomer _) _
  | .call (.createCheckoutSession _) _ | .call (.createEvent _) _ => False

variable {u month plan}

lemma reads_error (err : AppError) : Reads u month plan (.done (.error err)) := by
  intro dto h
  cases h

lemma reads_statusOf (sub : Subscription) : Reads u month plan (statusOf u month sub).run := by
  intro found hfound
  rcases found with err | _ | found
  · exact reads_error err
  · exact reads_error _
  · obtain rfl := hfound _ rfl
    intro rows
    set b := firstBalance u rows with hb
    by_cases hlow : b < found.monthlyCredits ∧ 0 < found.monthlyCredits
    · right
      show SendsGrant u month found b (ExceptT.run (ite (b < found.monthlyCredits ∧
        0 < found.monthlyCredits) _ _ : BillingM BillingStatusDto))
      rw [if_pos hlow]
      exact ⟨hlow.1, hlow.2, _, rfl, fun ans => ⟨_, rfl, rfl⟩⟩
    · left
      show Reports b (ExceptT.run (ite (b < found.monthlyCredits ∧
        0 < found.monthlyCredits) _ _ : BillingM BillingStatusDto))
      rw [if_neg hlow]
      exact ⟨_, rfl, rfl⟩

/-- How a status request begins. -/
lemma reads_status (u : Uuid) (month : String) (plan : BillingPlan) :
    Reads u month plan (status u month).run := by
  intro found _
  rcases found with err | _ | sub
  · exact reads_error err
  · intro free _
    rcases free with err | free
    · exact reads_error err
    · intro inserted _
      rcases inserted with err | _
      · exact reads_error err
      · intro again _
        rcases again with err | _ | sub
        · exact reads_error err
        · exact reads_error _
        · exact reads_statusOf sub
  · exact reads_statusOf sub

end Requests

/-! ## A month -/

/-- The credits of `u`, as a number. -/
def BillingState.credits (u : Uuid) (s : BillingState D) : Int64 :=
  (s.node.account (creditsKey u)).balance

/-- The node knows no grant of the month. -/
def BillingState.Ungranted (u : Uuid) (month : String) (s : BillingState D) : Prop :=
  ∀ amount, (grantKey u month, amount) ∉ (s.node.creditLedger u).known

/-- Billing and the node over a month. -/
structure Granting (D : Type) where
  billing : BillingState D
  /-- History: the balances there have been, the current one last. -/
  balances : List Int64
  /-- History: how many grants have changed the balance. -/
  grants : ℕ
  /-- History: by how much grants have changed the balance. -/
  granted : ℤ
  /-- History: the reports, each with the balances since its request came in. -/
  reports : List (BillingStatusDto × List Int64)

namespace Granting

variable (u : Uuid)

def start (s : BillingState D) : Granting D where
  billing := s
  balances := [s.credits u]
  grants := 0
  granted := 0
  reports := []

variable (x : Granting D)

def moved (s : BillingState D) : Granting D :=
  { x with billing := s, balances := x.balances ++ [s.credits u] }

/-- A status request has made a call. -/
def served (op : BillingCall) (s : BillingState D) : Granting D :=
  match op with
  | .createEvent _ =>
      { x.moved u s with
        grants := x.grants + if s.credits u = x.billing.credits u then 0 else 1
        granted := x.granted + ((s.credits u).toInt - (x.billing.credits u).toInt) }
  | _ => x.moved u s

/-- A status request that came in after `k` balances has been answered. -/
def answered (k : ℕ) (r : Except AppError BillingStatusDto) : Granting D :=
  match r with
  | .ok dto => { x with reports := x.reports ++ [(dto, x.balances.drop k)] }
  | .error _ => x

end Granting

/-- What happens besides the status requests: a call is paid for, or anything else that makes no
grant of the month. -/
inductive Elsewhere (env : Env D) (u : Uuid) (month : String) (s : BillingState D) :
    BillingState D → Prop
  | deducted (call : ApiCall) (nonce : String) (hnonce : nonce ≠ grantKey u month) :
      Elsewhere env u month s { s with
        node := (creditWrite env (deductRequest u call.cost call.actionLabel nonce) s.node).2 }
  | other {s' : BillingState D} (hready : s'.node.CreditsReady u) (halone : s'.node.CreditsAlone u)
      (hknown : ∀ amount, (grantKey u month, amount) ∈ (s'.node.creditLedger u).known ↔
        (grantKey u month, amount) ∈ (s.node.creditLedger u).known) :
      Elsewhere env u month s s'

/-- The status requests of `u` in a month, while the plan of `u` is `plan`.  A request is tagged
with the number of balances there had been before the one it came in with. -/
def grantServer (env : Env D) (u : Uuid) (month : String) (plan : BillingPlan) :
    Server (Granting D) ℕ BillingCall BillingCall.Answer (Except AppError BillingStatusDto) where
  starts x k t := k + 1 = x.balances.length ∧ t = (status u month).run
  serves _ op x ans x' :=
    ∃ s', x.billing.Serves env op ans s' ∧ FindsPlan plan op ans ∧ x' = x.served u op s'
  ends k r x := x.answered k r
  others x x' := ∃ s', Elsewhere env u month x.billing s' ∧ x' = x.moved u s'

/-! ## One grant a month -/

abbrev GrantCalls (D : Type) :=
  Calls (Granting D) ℕ BillingCall BillingCall.Answer (Except AppError BillingStatusDto)

abbrev GrantEvent := Calls.Event ℕ BillingCall BillingCall.Answer (Except AppError BillingStatusDto)

/-- A request is between its listing and its write. -/
def AwaitsGrant : BillingClient (Except AppError BillingStatusDto) → Prop
  | .call (.createEvent _) _ => True
  | _ => False

/-- The rule for a month.  A listing fails only while there are no credits, and it finds credits
below the allowance only while no grant of the month is known and the credits are not negative.
From then on until a grant of the month is known, nothing but the requests changes the credits while
one of them is between its listing and its write. -/
def GrantRule (u : Uuid) (month : String) (plan : BillingPlan) (p : GrantCalls D) (ev : GrantEvent)
    (q : GrantCalls D) : Prop :=
  match ev with
  | .served _ _ .balances _ rows =>
      (rows = none → p.shared.billing.credits u = 0) ∧
        (p.shared.billing.credits u < plan.monthlyCredits ∧ 0 < plan.monthlyCredits →
          p.shared.billing.Ungranted u month ∧ 0 ≤ p.shared.billing.credits u)
  | .other =>
      p.shared.billing.Ungranted u month → (∃ c ∈ p.live, AwaitsGrant c.2) →
        q.shared.billing.credits u = p.shared.billing.credits u
  | _ => True

/-- What becomes of a grant: nothing, and then its sender is told that it succeeded only if the
node knows it; or a change of the balance. -/
inductive CreditLedger.Grants (l : CreditLedger) (key : String) (amount : Int64) :
    Bool → CreditLedger → Prop
  | nothing {ok : Bool} (hok : ok = true → (key, amount) ∈ l.known) : Grants l key amount ok l
  | posted {ok : Bool} (hnew : (key, amount) ∉ l.known) :
      Grants l key amount ok ⟨l.balance + amount, insert (key, amount) l.known⟩

section Month

variable {env : Env D} {u : Uuid} {month : String} {plan : BillingPlan}

variable (env month plan) in
/-- What the node makes of a grant. -/
lemma creditWrite_grant {s : SharedState D} (hready : s.CreditsReady u)
    (halone : s.CreditsAlone u) (b : Int64) :
    (creditWrite env (grantRequest u month plan b) s).2.CreditsReady u ∧
      (creditWrite env (grantRequest u month plan b) s).2.CreditsAlone u ∧
      (s.creditLedger u).Grants (grantKey u month) (plan.monthlyCredits - b)
        (creditWrite env (grantRequest u month plan b) s).1
        ((creditWrite env (grantRequest u month plan b) s).2.creditLedger u) := by
  set req := grantRequest u month plan b with hreq
  by_cases hnote : ("Credit grant: " ++ plan.name ++ " plan").length ≤ maxEventNoteChars
  · have hwrites := billingEventRequest_writesCredits u (plan.monthlyCredits - b)
      (grantNonce u month) hnote
    obtain ⟨hready', hledger, hothers⟩ := creditWrite_spec env hready hwrites
    refine ⟨hready', halone.congr hothers, ?_⟩
    have hledger : (s.creditLedger u).Writes (grantKey u month) (plan.monthlyCredits - b) req.floor
      (s.CanWriteCredits env u) (creditWrite env req s).1
        ((creditWrite env req s).2.creditLedger u) := hledger
    generalize (creditWrite env req s).2.creditLedger u = l at hledger ⊢
    generalize (creditWrite env req s).1 = ok at hledger ⊢
    cases hledger with
    | known hknown => exact .nothing fun _ => hknown
    | refused _ _ => exact .nothing fun hok => by cases hok
    | failed _ _ _ => exact .nothing fun hok => by cases hok
    | posted hnew _ _ => exact .posted hnew
  · have hrefused : creditWrite env req s = (false, s) :=
      creditWrite_of_note env (show validateEventNote req.note = _ from if_pos (by omega)) s
    rw [hrefused]
    exact ⟨hready, halone, .nothing fun hok => by cases hok⟩

/-- What becomes of a grant on its way to the node. -/
lemma serves_grant {s s' : BillingState D} {b : Int64} {ans : Except AppError Unit}
    (hready : s.node.CreditsReady u) (halone : s.node.CreditsAlone u)
    (h : s.Serves env (.createEvent (grantRequest u month plan b)) ans s') :
    s'.node.CreditsReady u ∧ s'.node.CreditsAlone u ∧
      (s.node.creditLedger u).Grants (grantKey u month) (plan.monthlyCredits - b)
        ans.isOk (s'.node.creditLedger u) := by
  obtain ⟨hready', halone', hgrants⟩ :=
    creditWrite_grant env month plan hready halone b
  cases h with
  | created _ hok =>
      rw [hok] at hgrants
      exact ⟨hready', halone', hgrants⟩
  | createFailed _ err =>
      refine ⟨hready', halone', ?_⟩
      show (s.node.creditLedger u).Grants _ _ false
        ((creditWrite env (grantRequest u month plan b) s.node).2.creditLedger u)
      generalize (creditWrite env (grantRequest u month plan b) s.node).2.creditLedger u = l
        at hgrants ⊢
      cases hgrants with
      | nothing _ => exact .nothing fun hok => by cases hok
      | posted hnew => exact .posted hnew
  | createLost _ err => exact ⟨hready, halone, .nothing fun hok => by cases hok⟩

/-- A grant that has been computed from the balance `b` and is yet to be carried out: either it is
still missing, or the node knows it. -/
structure Due (u : Uuid) (month : String) (plan : BillingPlan) (s : BillingState D)
    (seen : List Int64) (b : Int64) : Prop where
  nonneg : 0 ≤ b
  read : b ∈ seen
  missing : s.Ungranted u month → s.credits u = b
  known : ¬ s.Ungranted u month →
    (grantKey u month, plan.monthlyCredits - b) ∈ (s.node.creditLedger u).known ∧
      plan.monthlyCredits ∈ seen

/-- How far a status request has come; `seen` are the balances since it came in. -/
inductive Underway (u : Uuid) (month : String) (plan : BillingPlan) (s : BillingState D)
    (seen : List Int64) (t : BillingClient (Except AppError BillingStatusDto)) : Prop
  | reads (h : Reads u month plan t)
  | sends {b : Int64} (h : SendsGrant u month plan b t) (hdue : Due u month plan s seen b)
  | reports {b : Int64} (h : Reports b t) (hseen : b ∈ seen)

/-- What holds all through the month: once a grant has changed the balance, the node knows a grant
of the month. -/
structure GrantedOnce (u : Uuid) (month : String) (plan : BillingPlan) (p : GrantCalls D) :
    Prop where
  ready : p.shared.billing.node.CreditsReady u
  alone : p.shared.billing.node.CreditsAlone u
  live : ∀ c ∈ p.live, c.1 < p.shared.balances.length ∧
    Underway u month plan p.shared.billing (p.shared.balances.drop c.1) c.2
  reports : ∀ r ∈ p.shared.reports, r.1.creditBalance ∈ r.2
  once : p.shared.grants ≤ 1
  total : p.shared.granted ≤ max 0 plan.monthlyCredits.toInt
  first : p.shared.billing.Ungranted u month → p.shared.grants = 0 ∧ p.shared.granted = 0

/-- What happens besides makes no grant of the month. -/
lemma Elsewhere.keeps {s s' : BillingState D} (h : Elsewhere env u month s s')
    (hready : s.node.CreditsReady u) (halone : s.node.CreditsAlone u) :
    s'.node.CreditsReady u ∧ s'.node.CreditsAlone u ∧
      ∀ amount, (grantKey u month, amount) ∈ (s'.node.creditLedger u).known ↔
        (grantKey u month, amount) ∈ (s.node.creditLedger u).known := by
  cases h with
  | deducted call nonce hnonce =>
      obtain ⟨hready', hwrites, hothers⟩ :=
        creditWrite_spec env hready (deductRequest_writesCredits u call nonce)
      refine ⟨hready', halone.congr hothers, fun amount => ?_⟩
      show _ ∈ ((creditWrite env (deductRequest u call.cost call.actionLabel nonce)
        s.node).2.creditLedger u).known ↔ _
      generalize (creditWrite env (deductRequest u call.cost call.actionLabel nonce)
        s.node).2.creditLedger u = l at hwrites ⊢
      generalize (creditWrite env (deductRequest u call.cost call.actionLabel nonce)
        s.node).1 = ok at hwrites
      cases hwrites with
      | known _ => exact Iff.rfl
      | refused _ _ => exact Iff.rfl
      | failed _ _ _ => exact Iff.rfl
      | posted _ _ _ =>
          have hne : (grantKey u month, amount) ≠ (nonce, -call.cost) := fun heq =>
            hnonce (congrArg Prod.fst heq).symm
          exact Set.mem_insert_iff.trans (or_iff_right hne)
  | other hready' halone' hknown => exact ⟨hready', halone', hknown⟩

/-- A due grant in a later state: the balance of that state has been added to those seen. -/
lemma Due.later {s s' : BillingState D} {seen : List Int64} {b : Int64}
    (h : Due u month plan s seen b)
    (hknown : ∀ amount, (grantKey u month, amount) ∈ (s'.node.creditLedger u).known ↔
      (grantKey u month, amount) ∈ (s.node.creditLedger u).known)
    (hcredits : s.Ungranted u month → s'.credits u = s.credits u) :
    Due u month plan s' (seen ++ [s'.credits u]) b := by
  have hungranted : s'.Ungranted u month ↔ s.Ungranted u month :=
    forall_congr' fun amount => not_congr (hknown amount)
  refine ⟨h.nonneg, List.mem_append_left _ h.read, fun hnone => ?_, fun hsome => ?_⟩
  · have hnone := hungranted.1 hnone
    exact (hcredits hnone).trans (h.missing hnone)
  · obtain ⟨hmem, hseen⟩ := h.known fun hnone => hsome (hungranted.2 hnone)
    exact ⟨(hknown _).2 hmem, List.mem_append_left _ hseen⟩

/-- The grant that is carried out is what all the others are computed to be. -/
lemma Due.posted {s s' : BillingState D} {seen : List Int64} {b : Int64}
    (h : Due u month plan s seen b) (hnone : s.Ungranted u month)
    (hledger : s'.node.creditLedger u =
      ⟨(s.node.creditLedger u).balance + (plan.monthlyCredits - s.credits u),
        insert (grantKey u month, plan.monthlyCredits - s.credits u)
          (s.node.creditLedger u).known⟩) :
    Due u month plan s' (seen ++ [s'.credits u]) b := by
  have hb := h.missing hnone
  have hfull : s'.credits u = plan.monthlyCredits := by
    have hbalance : s'.credits u = s.credits u + (plan.monthlyCredits - s.credits u) :=
      congrArg CreditLedger.balance hledger
    rw [hbalance]
    grind
  have hmem : (grantKey u month, plan.monthlyCredits - b) ∈ (s'.node.creditLedger u).known := by
    rw [hledger, hb]
    exact Set.mem_insert _ _
  refine ⟨h.nonneg, List.mem_append_left _ h.read, fun hnone' => absurd hmem (hnone' _),
    fun _ => ⟨hmem, ?_⟩⟩
  rw [hfull]
  exact List.mem_append_right _ (List.mem_singleton_self _)

/-- What changes the state for a request changes it for its due grant. -/
lemma Underway.later {s s' : BillingState D} {seen : List Int64}
    {t : BillingClient (Except AppError BillingStatusDto)} (h : Underway u month plan s seen t)
    (hdue : AwaitsGrant t → ∀ b, Due u month plan s seen b →
      Due u month plan s' (seen ++ [s'.credits u]) b) :
    Underway u month plan s' (seen ++ [s'.credits u]) t := by
  cases h with
  | reads h => exact .reads h
  | @sends b h hb =>
      refine .sends h (hdue ?_ b hb)
      obtain ⟨-, -, next, rfl, -⟩ := h
      trivial
  | reports h hseen => exact .reports h (List.mem_append_left _ hseen)

namespace GrantedOnce

variable {x : Granting D} {live : List (ℕ × BillingClient (Except AppError BillingStatusDto))}

lemma balances_served (x : Granting D) (op : BillingCall) (s : BillingState D) :
    (x.served u op s).balances = x.balances ++ [s.credits u] := by
  cases op <;> rfl

lemma reports_served (x : Granting D) (op : BillingCall) (s : BillingState D) :
    (x.served u op s).reports = x.reports := by
  cases op <;> rfl

lemma billing_served (x : Granting D) (op : BillingCall) (s : BillingState D) :
    (x.served u op s).billing = s := by
  cases op <;> rfl

/-- A balance more in the history. -/
lemma drop_append {balances : List Int64} {k : ℕ} (hk : k < balances.length) (b : Int64) :
    (balances ++ [b]).drop k = balances.drop k ++ [b] :=
  List.drop_append_of_le_length hk.le

/-- A request after a step that is not its own. -/
lemma live_later {c : ℕ × BillingClient (Except AppError BillingStatusDto)} {s' : BillingState D}
    (h : c.1 < x.balances.length ∧ Underway u month plan x.billing (x.balances.drop c.1) c.2)
    (hdue : AwaitsGrant c.2 → ∀ seen b, Due u month plan x.billing seen b →
      Due u month plan s' (seen ++ [s'.credits u]) b) :
    c.1 < (x.balances ++ [s'.credits u]).length ∧
      Underway u month plan s' ((x.balances ++ [s'.credits u]).drop c.1) c.2 := by
  obtain ⟨hlen, hunder⟩ := h
  refine ⟨?_, ?_⟩
  · rw [List.length_append]
    omega
  · rw [drop_append hlen]
    exact hunder.later fun hawaits => hdue hawaits _

/-- A call has been served for a request. -/
lemma serve {before after : List (ℕ × BillingClient (Except AppError BillingStatusDto))} {k : ℕ}
    {op : BillingCall} {next : op.Answer → BillingClient (Except AppError BillingStatusDto)}
    {ans : op.Answer} {s' : BillingState D}
    (h : GrantedOnce u month plan ⟨x, before ++ (k, .call op next) :: after⟩)
    (hready : s'.node.CreditsReady u) (halone : s'.node.CreditsAlone u)
    (hdue : ∀ seen b, Due u month plan x.billing seen b →
      Due u month plan s' (seen ++ [s'.credits u]) b)
    (hunder : Underway u month plan s' (x.balances.drop k ++ [s'.credits u]) (next ans))
    (honce : (x.served u op s').grants ≤ 1)
    (htotal : (x.served u op s').granted ≤ max 0 plan.monthlyCredits.toInt)
    (hfirst : s'.Ungranted u month →
      (x.served u op s').grants = 0 ∧ (x.served u op s').granted = 0) :
    GrantedOnce u month plan ⟨x.served u op s', before ++ (k, next ans) :: after⟩ where
  ready := by
    rw [billing_served]
    exact hready
  alone := by
    rw [billing_served]
    exact halone
  live c hc := by
    rw [balances_served, billing_served]
    have hmember : ∀ c, c ∈ before ∨ c ∈ after →
        c ∈ before ++ (k, .call op next) :: after := fun c hc =>
      List.mem_append.2 (hc.imp id fun hc => List.mem_cons_of_mem _ hc)
    rcases List.mem_append.1 hc with hc | hc
    · exact live_later (h.live c (hmember c (.inl hc))) fun _ => hdue
    · rcases List.mem_cons.1 hc with rfl | hc
      · have hk := (h.live (k, .call op next) (List.mem_append_right _ List.mem_cons_self)).1
        refine ⟨?_, ?_⟩
        · rw [List.length_append]
          exact Nat.lt_add_right _ hk
        · rw [drop_append hk]
          exact hunder
      · exact live_later (h.live c (hmember c (.inr hc))) fun _ => hdue
  reports := by
    rw [reports_served]
    exact h.reports
  once := honce
  total := htotal
  first := by
    rw [billing_served]
    exact hfirst

/-- A call that leaves the node as it is. -/
lemma serve_idle {before after : List (ℕ × BillingClient (Except AppError BillingStatusDto))}
    {k : ℕ} {op : BillingCall}
    {next : op.Answer → BillingClient (Except AppError BillingStatusDto)} {ans : op.Answer}
    {s' : BillingState D} (h : GrantedOnce u month plan ⟨x, before ++ (k, .call op next) :: after⟩)
    (hnode : s'.node = x.billing.node) (hop : ∀ req, op ≠ .createEvent req)
    (hunder : Underway u month plan s' (x.balances.drop k ++ [s'.credits u]) (next ans)) :
    GrantedOnce u month plan ⟨x.served u op s', before ++ (k, next ans) :: after⟩ := by
  have hcredits : s'.credits u = x.billing.credits u := by
    rw [BillingState.credits, hnode]
    rfl
  have hgrants : (x.served u op s').grants = x.grants ∧
      (x.served u op s').granted = x.granted := by
    cases op with
    | createEvent req => exact absurd rfl (hop req)
    | _ => exact ⟨rfl, rfl⟩
  refine h.serve (hnode ▸ h.ready) (hnode ▸ h.alone) (fun seen b hb => ?_) hunder ?_ ?_ ?_
  · exact hb.later (fun amount => by rw [hnode]) fun _ => hcredits
  · rw [hgrants.1]
    exact h.once
  · rw [hgrants.2]
    exact h.total
  · rw [BillingState.Ungranted, hnode, hgrants.1, hgrants.2]
    exact h.first

/-- The credits have been listed for a request. -/
lemma serve_balances {before after : List (ℕ × BillingClient (Except AppError BillingStatusDto))}
    {k : ℕ} {next : Option (List AccountBalance) →
      BillingClient (Except AppError BillingStatusDto)}
    {rows : Option (List AccountBalance)} {s' : BillingState D}
    (h : GrantedOnce u month plan ⟨x, before ++ (k, .call .balances next) :: after⟩)
    (hreads : Reads u month plan (.call .balances next))
    (hserves : x.billing.Serves env .balances rows s')
    (hlost : rows = none → x.billing.credits u = 0)
    (hlow : x.billing.credits u < plan.monthlyCredits ∧ 0 < plan.monthlyCredits →
      x.billing.Ungranted u month ∧ 0 ≤ x.billing.credits u) :
    GrantedOnce u month plan ⟨x.served u .balances s', before ++ (k, next rows) :: after⟩ := by
  have hsame : s' = x.billing := by cases hserves <;> rfl
  have hread : firstBalance u rows = x.billing.credits u := by
    cases hserves with
    | listed hrows => exact firstBalance_eq h.ready h.alone hrows
    | unlisted => exact (hlost rfl).symm
  have hseen : x.billing.credits u ∈ x.balances.drop k ++ [x.billing.credits u] :=
    List.mem_append_right _ (List.mem_singleton_self _)
  subst hsame
  refine h.serve_idle rfl (fun _ hne => by cases hne) ?_
  have hnext := hreads rows
  rw [hread] at hnext
  rcases hnext with hreports | hsends
  · exact .reports hreports hseen
  · obtain ⟨hnone, hpos⟩ := hlow ⟨hsends.1, hsends.2.1⟩
    exact .sends hsends ⟨hpos, hseen, fun _ => rfl, fun hsome => absurd hnone hsome⟩

/-- A grant leaves the balance as it is, or it is the first of the month. -/
lemma serve_grant {before after : List (ℕ × BillingClient (Except AppError BillingStatusDto))}
    {k : ℕ} {b : Int64}
    {next : Except AppError Unit → BillingClient (Except AppError BillingStatusDto)}
    {ans : Except AppError Unit} {s' : BillingState D}
    (h : GrantedOnce u month plan
      ⟨x, before ++ (k, .call (.createEvent (grantRequest u month plan b)) next) :: after⟩)
    (hdue : Due u month plan x.billing (x.balances.drop k) b)
    (hnext : Reports (if ans.isOk then plan.monthlyCredits else b) (next ans))
    (hserves : x.billing.Serves env (.createEvent (grantRequest u month plan b)) ans s') :
    GrantedOnce u month plan ⟨x.served u (.createEvent (grantRequest u month plan b)) s',
      before ++ (k, next ans) :: after⟩ := by
  obtain ⟨hready, halone, hgrants⟩ := serves_grant h.ready h.alone hserves
  have hcredits : s'.credits u = (s'.node.creditLedger u).balance := rfl
  generalize hledger : s'.node.creditLedger u = l at hgrants
  rw [hledger] at hcredits
  cases hgrants with
  | nothing hok =>
      have hsame : s'.credits u = x.billing.credits u := hcredits
      have hknown : ∀ amount, (grantKey u month, amount) ∈ (s'.node.creditLedger u).known ↔
          (grantKey u month, amount) ∈ (x.billing.node.creditLedger u).known := fun amount => by
        rw [hledger]
      refine h.serve hready halone (fun seen b' hb' => hb'.later hknown fun _ => hsame)
        (.reports hnext ?_) ?_ ?_ ?_
      · apply List.mem_append_left
        by_cases hans : ans.isOk = true
        · rw [if_pos hans]
          exact (hdue.known fun hnone => hnone _ (hok hans)).2
        · rw [if_neg hans]
          exact hdue.read
      · show x.grants + (if s'.credits u = x.billing.credits u then 0 else 1) ≤ 1
        rw [if_pos hsame]
        exact h.once
      · show x.granted + ((s'.credits u).toInt - (x.billing.credits u).toInt) ≤ _
        rw [hsame, sub_self, add_zero]
        exact h.total
      · intro hnone
        obtain ⟨hgrants, hgranted⟩ :=
          h.first fun amount hmem => hnone amount ((hknown amount).2 hmem)
        refine ⟨?_, ?_⟩
        · show x.grants + (if s'.credits u = x.billing.credits u then 0 else 1) = 0
          rw [if_pos hsame]
          exact hgrants
        · show x.granted + ((s'.credits u).toInt - (x.billing.credits u).toInt) = 0
          rw [hsame, sub_self, add_zero]
          exact hgranted
  | posted hnew =>
      -- a grant the node does not know is the first one
      have hnone : x.billing.Ungranted u month := by
        by_contra hsome
        exact hnew (hdue.known hsome).1
      have hread := hdue.missing hnone
      have hfull : s'.credits u = plan.monthlyCredits := by
        have hbalance : s'.credits u = x.billing.credits u + (plan.monthlyCredits - b) := hcredits
        rw [hbalance, hread]
        grind
      have hknown : (grantKey u month, plan.monthlyCredits - b) ∈
          (s'.node.creditLedger u).known := by
        rw [hledger]
        exact Set.mem_insert _ _
      obtain ⟨hgrants, hgranted⟩ := h.first hnone
      have hgrants : x.grants = 0 := hgrants
      have hgranted : x.granted = 0 := hgranted
      refine h.serve hready halone (fun seen b' hb' => hb'.posted hnone ?_)
        (.reports hnext ?_) ?_ ?_ fun hnone' => absurd hknown (hnone' _)
      · rw [hledger, hread]
      · by_cases hans : ans.isOk = true
        · rw [if_pos hans, hfull]
          exact List.mem_append_right _ (List.mem_singleton_self _)
        · rw [if_neg hans]
          exact List.mem_append_left _ hdue.read
      · show x.grants + (if s'.credits u = x.billing.credits u then 0 else 1) ≤ 1
        rw [hgrants]
        split <;> omega
      · show x.granted + ((s'.credits u).toInt - (x.billing.credits u).toInt) ≤ _
        have hnonneg := hdue.nonneg
        rw [Int64.le_iff_toInt_le, Int64.toInt_zero] at hnonneg
        rw [hgranted, hfull, hread]
        omega

/-- The step lemma. -/
lemma step {p q : GrantCalls D} {ev : GrantEvent}
    (hstep : Calls.Step (grantServer env u month plan) p ev q)
    (hrule : GrantRule u month plan p ev q) (h : GrantedOnce u month plan p) :
    GrantedOnce u month plan q := by
  obtain ⟨x, live⟩ := p
  cases hstep with
  | started hstarts =>
      obtain ⟨hk, rfl⟩ := hstarts
      refine ⟨h.ready, h.alone, fun c hc => ?_, h.reports, h.once, h.total, h.first⟩
      rcases List.mem_append.1 hc with hc | hc
      · exact h.live c hc
      · obtain rfl := List.mem_singleton.1 hc
        exact ⟨Nat.lt_of_succ_le hk.le, .reads (reads_status u month plan)⟩
  | @served before after k op next ans x' hlive hserves =>
      obtain ⟨s', hserves, hplan, rfl⟩ := hserves
      obtain rfl : live = before ++ (k, .call op next) :: after := hlive
      have hmem : (k, Client.call op next) ∈ before ++ (k, .call op next) :: after :=
        List.mem_append_right _ List.mem_cons_self
      obtain ⟨hk, hunder⟩ := h.live _ hmem
      cases hunder with
      | reads hreads =>
          cases op with
          | query q =>
              have hnode : s'.node = x.billing.node := by cases hserves <;> rfl
              exact h.serve_idle hnode (fun _ hne => by cases hne) (.reads (hreads ans hplan))
          | retrieveSubscription _ | createCustomer _ | createCheckoutSession _ | createEvent _ =>
              exact hreads.elim
          | balances => exact h.serve_balances hreads hserves hrule.1 hrule.2
      | sends hsends hdue =>
          obtain ⟨-, -, next', hcall, hnext⟩ := hsends
          cases hcall
          exact h.serve_grant hdue (hnext ans) hserves
      | reports hreports _ =>
          obtain ⟨dto, hdone, -⟩ := hreports
          cases hdone
  | @ended before after k r hlive =>
      obtain rfl : live = before ++ (k, .done r) :: after := hlive
      have hothers : ∀ c ∈ before ++ after, c ∈ before ++ (k, .done r) :: after := fun c hc =>
        List.mem_append.2 ((List.mem_append.1 hc).imp id fun hc => List.mem_cons_of_mem _ hc)
      cases r with
      | error err =>
          exact ⟨h.ready, h.alone, fun c hc => h.live c (hothers c hc), h.reports, h.once, h.total,
            h.first⟩
      | ok dto =>
          refine ⟨h.ready, h.alone, fun c hc => h.live c (hothers c hc), fun r hr => ?_, h.once,
            h.total, h.first⟩
          rcases List.mem_append.1 hr with hr | hr
          · exact h.reports r hr
          · obtain rfl := List.mem_singleton.1 hr
            obtain ⟨-, hunder⟩ :=
              h.live (k, .done (.ok dto)) (List.mem_append_right _ List.mem_cons_self)
            cases hunder with
            | reads hreads => exact absurd rfl (hreads dto)
            | sends hsends _ =>
                obtain ⟨-, -, next, hcall, -⟩ := hsends
                cases hcall
            | reports hreports hseen =>
                obtain ⟨dto', hdone, hreport⟩ := hreports
                cases hdone
                exact hreport ▸ hseen
  | @other x' hothers =>
      obtain ⟨s', helse, rfl⟩ := hothers
      obtain ⟨hready, halone, hknown⟩ := helse.keeps h.ready h.alone
      refine ⟨hready, halone, fun c hc => live_later (h.live c hc) fun hawaits seen b hb => ?_,
        h.reports, h.once, h.total,
        fun hnone => h.first fun amount hamount => hnone amount ((hknown amount).2 hamount)⟩
      exact hb.later hknown fun hnone => hrule hnone ⟨c, hc, hawaits⟩

end GrantedOnce

/-- **One grant a month.**  In a month whose steps keep to the rule, at most one grant changes the
balance, the grants come to no more than the allowance of the plan, and every balance that is
reported is one there has been since the request came in. -/
theorem granted_once {s : BillingState D} {p : GrantCalls D}
    (hready : s.node.CreditsReady u) (halone : s.node.CreditsAlone u)
    (hrun : Calls.Watched (grantServer env u month plan) (GrantRule u month plan)
      ⟨.start u s, []⟩ p) :
    p.shared.grants ≤ 1 ∧ p.shared.granted ≤ max 0 plan.monthlyCredits.toInt ∧
      ∀ r ∈ p.shared.reports, r.1.creditBalance ∈ r.2 := by
  have hstart : GrantedOnce u month plan (⟨.start u s, []⟩ : GrantCalls D) :=
    { ready := hready
      alone := halone
      live := fun c hc => absurd hc List.not_mem_nil
      reports := fun r hr => absurd hr List.not_mem_nil
      once := Nat.zero_le _
      total := le_max_left _ _
      first := fun _ => ⟨rfl, rfl⟩ }
  have hend := hrun.invariant (fun hstep hrule h => h.step hstep hrule) hstart
  exact ⟨hend.once, hend.total, hend.reports⟩

end Month


/-! ## Two grants a month -/

section Twice

def smallPlan : BillingPlan where
  id := caller
  slug := "free"
  name := "Free"
  monthlyCredits := 3
  stripePriceId := none
  stripeAnnualPriceId := none

def callerSubscription : Subscription where
  userId := caller
  userEmail := "unknown"
  planId := smallPlan.id
  stripeCustomerId := none
  stripeSubscriptionId := none
  subscriptionStatus := "free"
  periodStart := none
  periodEnd := none

/-- A database in which the caller has the small plan. -/
def smallDb : BillingDb where
  plans := [smallPlan]
  subscriptions := [callerSubscription]
  processedStripeEvents := []

/-- The calls of a status request that makes a grant. -/
lemma status_calls (u : Uuid) (month : String) (plan : BillingPlan) (sub : Subscription) :
    ∃ next₁ next₂ next₃,
      (status u month).run = .call (.query (.subscriptionOf u)) next₁ ∧
        next₁ (.ok (some sub)) = .call (.query (.getPlan sub.planId)) next₂ ∧
        next₂ (.ok (some plan)) = .call .balances next₃ ∧
        ∀ rows, firstBalance u rows < plan.monthlyCredits ∧ 0 < plan.monthlyCredits →
          ∃ next₄, next₃ rows =
              .call (.createEvent (grantRequest u month plan (firstBalance u rows))) next₄ ∧
            ∀ ans, ∃ dto, next₄ ans = .done (.ok dto) := by
  refine ⟨_, _, _, rfl, rfl, rfl, fun rows hlow => ?_⟩
  show ∃ next₄, ExceptT.run (ite (firstBalance u rows < plan.monthlyCredits ∧
    0 < plan.monthlyCredits) _ _ : BillingM BillingStatusDto) = _ ∧ _
  rw [if_pos hlow]
  exact ⟨_, rfl, fun ans => ⟨_, rfl⟩⟩

section Serving

variable {s : BillingState Unit}

lemma serves_subscription (hdb : s.db = smallDb) :
    s.Serves meterEnv (.query (.subscriptionOf caller)) (.ok (some callerSubscription)) s := by
  have hserves : s.Serves meterEnv _ _ _ := .queried (.subscriptionOf caller)
  have hrun : s.db.run (.subscriptionOf caller) = (.ok (some callerSubscription), s.db) := by
    rw [hdb]
    rfl
  rw [hrun] at hserves
  exact hserves

lemma serves_plan (hdb : s.db = smallDb) :
    s.Serves meterEnv (.query (.getPlan callerSubscription.planId)) (.ok (some smallPlan)) s := by
  have hserves : s.Serves meterEnv _ _ _ := .queried (.getPlan callerSubscription.planId)
  have hrun : s.db.run (.getPlan callerSubscription.planId) = (.ok (some smallPlan), s.db) := by
    rw [hdb]
    rfl
  rw [hrun] at hserves
  exact hserves

/-- A grant of what is missing is carried out. -/
lemma serves_missing {month : String} (hready : s.node.CreditsReady caller)
    (hpos : 0 ≤ s.credits caller) (hlow : s.credits caller < 3)
    (hnew : (grantKey caller month, 3 - s.credits caller) ∉ (s.node.creditLedger caller).known) :
    ∃ s', s.Serves meterEnv
        (.createEvent (grantRequest caller month smallPlan (s.credits caller))) (.ok ()) s' ∧
      s'.db = s.db ∧ s'.node.CreditsReady caller ∧
      s'.node.creditLedger caller =
        ⟨3, insert (grantKey caller month, 3 - s.credits caller)
          (s.node.creditLedger caller).known⟩ ∧
      ∀ k ≠ creditsKey caller, s'.node.accounts k = s.node.accounts k := by
  set b := s.credits caller with hb
  have hwrites := billingEventRequest_writesCredits caller (3 - b) (grantNonce caller month)
    (show ("Credit grant: " ++ smallPlan.name ++ " plan").length ≤ _ by decide)
  obtain ⟨hready', hledger, hothers⟩ := creditWrite_spec meterEnv hready hwrites
  have hmissing : ¬ (3 - b) < 0 := by
    rw [Int64.le_iff_toInt_le, Int64.toInt_zero] at hpos
    rw [Int64.lt_iff_toInt_lt] at hlow ⊢
    have hthree : (3 : Int64).toInt = 3 := rfl
    have hsub : ((3 : Int64) - b).toInt = (3 : Int64).toInt - b.toInt :=
      Int64.toInt_sub_iff.2 ⟨by omega, by omega⟩
    rw [hsub, Int64.toInt_zero]
    omega
  have hsum : b + (3 - b) = 3 := by grind
  set req := grantRequest caller month smallPlan b
  have hledger : (s.node.creditLedger caller).Writes (grantKey caller month) (3 - b) req.floor
    (s.node.CanWriteCredits meterEnv caller) (creditWrite meterEnv req s.node).1
      ((creditWrite meterEnv req s.node).2.creditLedger caller) := hledger
  generalize hafter : (creditWrite meterEnv req s.node).2.creditLedger caller = l at hledger
  generalize hok : (creditWrite meterEnv req s.node).1 = ok at hledger
  cases hledger with
  | known hknown => exact absurd hknown hnew
  | refused _ hshort => exact absurd hshort.1 hmissing
  | failed _ _ hstuck => exact absurd (canWriteCredits hready) hstuck
  | posted _ _ _ =>
      refine ⟨_, .created _ hok, rfl, hready', hafter.trans ?_, hothers⟩
      have hbalance : (s.node.creditLedger caller).balance = b := rfl
      rw [hbalance, hsum]

end Serving

/-- A status request that finds less than the allowance grants what is missing. -/
lemma run_request {C : GrantCalls Unit → GrantEvent → GrantCalls Unit → Prop} (month : String)
    {x : Granting Unit} (hcurrent : x.balances ≠ []) (hdb : x.billing.db = smallDb)
    (hready : x.billing.node.CreditsReady caller)
    (halone : ∀ k ≠ creditsKey caller, x.billing.node.accounts k = none)
    (hpos : 0 ≤ x.billing.credits caller) (hlow : x.billing.credits caller < 3)
    (hnew : (grantKey caller month, 3 - x.billing.credits caller) ∉
      (x.billing.node.creditLedger caller).known)
    (hrule : ∀ p ev q, GrantRule caller month smallPlan p ev q → C p ev q)
    (hlist : ∀ p rest k next rows q, p.shared.billing = x.billing →
      C p (.served rest k .balances next (some rows)) q) :
    ∃ x', Calls.Watched (grantServer meterEnv caller month smallPlan) C ⟨x, []⟩ ⟨x', []⟩ ∧
      x'.balances ≠ [] ∧ x'.billing.db = smallDb ∧ x'.billing.node.CreditsReady caller ∧
      (∀ k ≠ creditsKey caller, x'.billing.node.accounts k = none) ∧
      x'.billing.node.creditLedger caller =
        ⟨3, insert (grantKey caller month, 3 - x.billing.credits caller)
          (x.billing.node.creditLedger caller).known⟩ ∧
      x'.grants = x.grants + 1 ∧
      x'.granted = x.granted + (3 - (x.billing.credits caller).toInt) ∧ x'.reports ≠ [] := by
  obtain ⟨next₁, next₂, next₃, hstatus, hsub, hplan, hbalances⟩ :=
    status_calls caller month smallPlan callerSubscription
  obtain ⟨rows, hrows⟩ := SharedState.exists_getAllBalances hready.unlocked halone 1000
  have hread : firstBalance caller (some rows) = x.billing.credits caller :=
    firstBalance_eq hready (fun account hne => halone _ fun heq => hne (congrArg Prod.snd heq))
      hrows
  obtain ⟨next₄, hcreate, hdone⟩ := hbalances (some rows) (hread ▸ ⟨hlow, by decide⟩)
  rw [hread] at hcreate
  obtain ⟨dto, hdto⟩ := hdone (.ok ())
  obtain ⟨s', hserves, hdb', hready', hledger, hothers⟩ := serves_missing hready hpos hlow hnew
  obtain ⟨k, hk⟩ : ∃ k, k + 1 = x.balances.length :=
    ⟨x.balances.length - 1, Nat.sub_add_cancel (List.length_pos_iff.2 hcurrent)⟩
  set server := grantServer meterEnv caller month smallPlan with hserver
  -- a call of a request that is the only one under way
  have hcall : ∀ {y : Granting Unit} {op : BillingCall} {next ans} {s : BillingState Unit}
      {t : BillingClient (Except AppError BillingStatusDto)}, t = .call op next →
      y.billing.Serves meterEnv op ans s → FindsPlan smallPlan op ans →
      Calls.Step server ⟨y, [(k, t)]⟩ (.served [] k op next ans)
        ⟨y.served caller op s, [(k, next ans)]⟩ := by
    rintro y op next ans s t rfl hs hfinds
    exact .served_alone ⟨s, hs, hfinds, rfl⟩
  have hstart : Calls.Step server ⟨x, []⟩ (.started k (status caller month).run)
      ⟨x, [(k, (status caller month).run)]⟩ := .started ⟨hk, rfl⟩
  set x₁ := x.served caller (.query (.subscriptionOf caller)) x.billing
  set x₂ := x₁.served caller (.query (.getPlan callerSubscription.planId)) x.billing
  set x₃ := x₂.served caller .balances x.billing
  have hfind := hcall hstatus (serves_subscription hdb) trivial
  have hplanned := hcall (y := x₁) hsub (serves_plan hdb) fun p hp =>
    (Option.some.inj (Except.ok.inj hp)).symm
  have hlisted := hcall (y := x₂) hplan (.listed hrows) trivial
  have hgranted := hcall (y := x₃) hcreate hserves trivial
  rw [hdto] at hgranted
  have hended := Calls.Step.ended_alone (S := server) (k := k) (a := .ok dto)
    (s := x₃.served caller (.createEvent (grantRequest caller month smallPlan
      (x.billing.credits caller))) s')
  have hbegin : Calls.Watched server C ⟨x, []⟩ ⟨x, []⟩ := .refl
  have hrun := (((((hbegin.step hstart (hrule _ _ _ trivial)).step hfind
    (hrule _ _ _ trivial)).step hplanned (hrule _ _ _ trivial)).step hlisted
    (hlist _ _ _ _ _ _ rfl)).step hgranted (hrule _ _ _ trivial)).step hended
    (hrule _ _ _ trivial)
  have hfull : s'.credits caller = 3 := congrArg CreditLedger.balance hledger
  have hchanged : s'.credits caller ≠ x.billing.credits caller := fun heq => by
    rw [← heq, hfull] at hlow
    exact absurd hlow (by decide)
  refine ⟨_, hrun, List.append_ne_nil_of_right_ne_nil _ (List.cons_ne_nil _ _), hdb'.trans hdb,
    hready', fun k hk => (hothers k hk).trans (halone k hk), hledger, ?_, ?_,
    List.append_ne_nil_of_right_ne_nil _ (List.cons_ne_nil _ _)⟩
  · show x.grants + (if s'.credits caller = x.billing.credits caller then 0 else 1) = x.grants + 1
    rw [if_neg hchanged]
  · show x.granted + ((s'.credits caller).toInt - (x.billing.credits caller).toInt) = _
    rw [hfull]
    rfl

/-- A caller who has been granted nothing yet. -/
def newCaller : BillingState Unit := ⟨smallDb, .blank .empty⟩

lemma newCaller_ungranted (month : String) : newCaller.Ungranted caller month :=
  fun _ hknown => hknown rfl

/-- The first request of a month. -/
lemma run_first {C : GrantCalls Unit → GrantEvent → GrantCalls Unit → Prop} (month : String)
    (hrule : ∀ p ev q, GrantRule caller month smallPlan p ev q → C p ev q) :
    ∃ x, Calls.Watched (grantServer meterEnv caller month smallPlan) C
        ⟨.start caller newCaller, []⟩ ⟨x, []⟩ ∧
      x.balances ≠ [] ∧ x.billing.db = smallDb ∧ x.billing.node.CreditsReady caller ∧
      (∀ k ≠ creditsKey caller, x.billing.node.accounts k = none) ∧
      x.billing.node.creditLedger caller = ⟨3, insert (grantKey caller month, 3)
        (newCaller.node.creditLedger caller).known⟩ ∧
      x.grants = 1 ∧ x.granted = 3 ∧ x.reports ≠ [] := by
  refine run_request month (x := .start caller newCaller) (List.cons_ne_nil _ _) rfl
    (creditsReady_blank caller) (fun _ _ => rfl) (by decide) (by decide)
    (newCaller_ungranted month _) hrule fun p rest k next rows q hbilling => hrule _ _ _ ⟨?_, ?_⟩
  · intro hnone
    cases hnone
  · intro _
    rw [hbilling]
    exact ⟨newCaller_ungranted month, (by decide : (0 : Int64) ≤ 0)⟩

/-- In a month with one request, one grant is made. -/
theorem granted_once_first : ∃ x : Granting Unit,
    Calls.Watched (grantServer meterEnv caller "202611" smallPlan)
      (GrantRule caller "202611" smallPlan) ⟨.start caller newCaller, []⟩ ⟨x, []⟩ ∧
    x.grants = 1 ∧ x.granted = 3 ∧ x.reports ≠ [] ∧
    x.grants ≤ 1 ∧ x.granted ≤ max 0 smallPlan.monthlyCredits.toInt ∧
      ∀ r ∈ x.reports, r.1.creditBalance ∈ r.2 := by
  obtain ⟨x, hrun, -, -, -, -, -, hone, hthree, hreports⟩ :=
    run_first (C := GrantRule caller "202611" smallPlan) "202611" fun _ _ _ h => h
  exact ⟨x, hrun, hone, hthree, hreports,
    granted_once (creditsReady_blank caller) (fun _ _ => rfl) hrun⟩

/-- A request, a call that is paid for, and another request: with an allowance of three credits a
month, four have been granted. -/
theorem granted_twice : ∃ p, Calls.Run (grantServer meterEnv caller "202611" smallPlan)
      (fun _ _ _ => True) ⟨.start caller newCaller, []⟩ p ∧
    smallPlan.monthlyCredits = 3 ∧ p.shared.grants = 2 ∧ p.shared.granted = 4 := by
  obtain ⟨x, hrun, hcurrent, hdb, hready, halone, hledger, hgrants, hgranted, -⟩ :=
    run_first (C := fun _ _ _ => True) "202611" fun _ _ _ _ => trivial
  have hnonce : "n1" ≠ grantKey caller "202611" := by decide
  have hdeduct : Elsewhere meterEnv caller "202611" x.billing { x.billing with
      node := (creditWrite meterEnv (deductRequest caller ApiCall.read.cost
        ApiCall.read.actionLabel "n1") x.billing.node).2 } := .deducted .read "n1" hnonce
  have hbalance : (3 : Int64) + -ApiCall.read.cost = 2 := by decide
  obtain ⟨hready', hwrites, hothers⟩ := creditWrite_spec meterEnv hready
    (deductRequest_writesCredits caller .read "n1")
  set s := (creditWrite meterEnv (deductRequest caller ApiCall.read.cost
    ApiCall.read.actionLabel "n1") x.billing.node).2
  have hspent : s.creditLedger caller = ⟨2, insert ("n1", -1)
      (x.billing.node.creditLedger caller).known⟩ := by
    rw [hledger, floor_deductRequest] at hwrites
    rw [hledger]
    generalize s.creditLedger caller = l at hwrites
    generalize (creditWrite meterEnv _ x.billing.node).1 = ok at hwrites
    cases hwrites with
    | known hknown =>
        rcases hknown with heq | hknown
        · exact absurd (congrArg Prod.fst heq) hnonce
        · exact absurd rfl hknown
    | refused _ hshort => exact absurd hshort.2 (by decide)
    | failed _ _ hstuck => exact absurd (canWriteCredits hready) hstuck
    | posted _ _ _ => rfl
  set after : BillingState Unit := { x.billing with node := s } with hafter
  have hcredits : after.credits caller = 2 := congrArg CreditLedger.balance hspent
  have hpos : 0 ≤ after.credits caller := by
    rw [hcredits]
    decide
  have hlow : after.credits caller < 3 := by
    rw [hcredits]
    decide
  have hnew : (grantKey caller "202611", 3 - after.credits caller) ∉
      (after.node.creditLedger caller).known := by
    rw [hcredits]
    show _ ∉ (s.creditLedger caller).known
    rw [hspent, hledger]
    rintro (heq | heq | hknown)
    · exact hnonce (congrArg Prod.fst heq).symm
    · exact absurd (congrArg Prod.snd heq) (by decide : (3 : Int64) - 2 ≠ 3)
    · exact hknown rfl
  obtain ⟨x', hrun', -, -, -, -, -, hgrants', hgranted', -⟩ :=
    run_request (C := fun _ _ _ => True) "202611" (x := x.moved caller after)
      (List.append_ne_nil_of_right_ne_nil _ (List.cons_ne_nil _ _)) hdb hready'
      (fun k hk => (hothers k hk).trans (halone k hk)) hpos hlow hnew
      (fun _ _ _ _ => trivial) fun _ _ _ _ _ _ _ => trivial
  refine ⟨_, (hrun.step (.other ⟨_, hdeduct, rfl⟩) trivial).trans hrun', rfl, ?_, ?_⟩
  · rw [hgrants']
    show x.grants + 1 = 2
    rw [hgrants]
  · rw [hgranted']
    show x.granted + (3 - (after.credits caller).toInt) = 4
    rw [hgranted, hcredits]
    rfl

end Twice

end Shardd
