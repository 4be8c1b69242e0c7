import Mathlib.Data.List.Nodup
import Mathlib.Data.List.DropRight
import Shardd.Billing.Grants
import Shardd.Billing.Webhooks

/-!
# Checkouts (`apps/billing/src/adapters/http/routes/billing.rs`)

A user asks for a plan by its slug and says whether to pay by the month or by the year.  Billing
sends them to a session at Stripe for the price of the plan; when it has been paid for, a webhook
brings the subscription back, and the plan is looked up by the price of its first item.  The lookup
knows the monthly prices only, so that whoever has paid for a year gets nothing.
-/

namespace Shardd

variable {D : Type}

/-! ## The request -/

structure CheckoutRequest where
  planSlug : String
  annual : Bool

/-- The price that is to be paid for a plan. -/
def BillingPlan.checkoutPrice (plan : BillingPlan) (annual : Bool) : Except AppError String :=
  if annual then
    match plan.stripeAnnualPriceId with
    | some price => .ok price
    | none => .error (.invalidInput "annual billing not available for this plan")
  else
    match plan.stripePriceId with
    | some price => .ok price
    | none => .error (.invalidInput "free plan cannot be checked out")

/-- A call to Stripe. -/
def stripeCall {α : Type} (t : BillingClient (Except String α)) : BillingM α := do
  match ← (t : BillingClient (Except String α)) with
  | .ok a => return a
  | .error message => throw (.internal ("stripe: " ++ message))

/-- What the checkout takes from its surroundings: the parser of a `stripe::CustomerId`, and the
configured origin. -/
structure CheckoutConfig where
  customerId : String → Option String
  appOrigin : String

variable (config : CheckoutConfig)

/-- The customer that a user is at Stripe. -/
def checkoutCustomer (userId : Uuid) (sub : Subscription) : BillingM String :=
  match sub.stripeCustomerId with
  | some cid =>
      match config.customerId cid with
      | some customer => return customer
      | none => throw (.internal "bad customer id")
  | none => do
      let customer ← stripeCall (.call (.createCustomer userId.toText) .done)
      query (.setStripeCustomerId userId customer)
      return customer

def checkoutParams (userId : Uuid) (customer price : String) : CreateCheckoutSession :=
  -- `trim_end_matches('/')`
  let origin := String.ofList (config.appOrigin.toList.rdropWhile (· = '/'))
  { customer := customer
    mode := .subscription
    lineItems := [⟨price, 1⟩]
    successUrl := origin ++ "/dashboard/billing?session_id=\x7bCHECKOUT_SESSION_ID\x7d"
    cancelUrl := origin ++ "/dashboard/billing"
    clientReferenceId := userId.toText }

def checkout (userId : Uuid) (req : CheckoutRequest) : BillingM String := do
  match ← query (.getPlanBySlug req.planSlug) with
  | none => throw .notFound
  | some plan =>
    let price ← liftExcept (plan.checkoutPrice req.annual)
    let sub ← getOrCreateSubscription userId ""
    let customer ← checkoutCustomer config userId sub
    let params := checkoutParams config userId customer price
    let url ← stripeCall (.call (.createCheckoutSession params) .done)
    match url with
    | some url => return url
    | none => throw (.internal "no checkout url")

/-! ## Services that answer -/

structure Stripe where
  retrieveSubscription : String → Except FetchError WebhookSubscription
  createCustomer : String → Except String String
  createCheckoutSession : CreateCheckoutSession → Except String (Option String)

/-- Who answers the calls of billing. -/
structure Services (D : Type) where
  env : Env D
  stripe : Stripe
  getAllBalances : SharedState D → List AccountBalance
  /-- How a write that fails is answered. -/
  refusal : CreateEventRequest → AppError

/-- Billing, with the sessions that Stripe has been asked for. -/
structure Paying (D : Type) where
  billing : BillingState D
  sessions : List CreateCheckoutSession

namespace Paying

def withDb (x : Paying D) (db : BillingDb) : Paying D :=
  { x with billing := { x.billing with db := db } }

def withNode (x : Paying D) (node : SharedState D) : Paying D :=
  { x with billing := { x.billing with node := node } }

end Paying

/-- How a call is answered, and what it leaves. -/
def Services.serve (v : Services D) (x : Paying D) : (op : BillingCall) → op.Answer × Paying D
  | .query q => ((x.billing.db.run q).1, x.withDb (x.billing.db.run q).2)
  | .retrieveSubscription id => (v.stripe.retrieveSubscription id, x)
  | .createCustomer userId => (v.stripe.createCustomer userId, x)
  | .createCheckoutSession params =>
      (v.stripe.createCheckoutSession params, { x with sessions := x.sessions ++ [params] })
  | .balances => (some (v.getAllBalances x.billing.node), x)
  | .createEvent req =>
      let out := creditWrite v.env req x.billing.node
      (if out.1 then .ok () else .error (v.refusal req), x.withNode out.2)

/-! ## The top-up -/

/-- The balance is enough, or the node can add what is missing. -/
def SharedState.CanTopUp (env : Env D) (u : Uuid) (monthlyCredits : Int64) (note nonce : String)
    (s : SharedState D) : Prop :=
  let ledger := s.creditLedger u
  monthlyCredits ≤ ledger.balance ∨
    monthlyCredits.toInt - ledger.balance.toInt < 2 ^ 63 ∧ note.length ≤ maxEventNoteChars ∧
      (String.ofList (trim nonce.toList), monthlyCredits - ledger.balance) ∉ ledger.known ∧
      s.CanWriteCredits env u

section TopUp

variable {v : Services D} {x : Paying D} {u : Uuid}

/-- What is missing does not wrap. -/
lemma zero_lt_sub_iff {m b : Int64} (hlow : ¬ m ≤ b) : 0 < m - b ↔ m.toInt - b.toInt < 2 ^ 63 := by
  rw [Int64.not_le, Int64.lt_iff_toInt_lt] at hlow
  have hm := m.toInt_lt
  have hb := b.le_toInt
  obtain ⟨k, hk⟩ := Int64.toInt_sub_eq m b
  rw [Int64.lt_iff_toInt_lt, Int64.toInt_zero]
  have hlt := (m - b).toInt_lt
  have hle := (m - b).le_toInt
  omega

lemma max_zero (d : Int64) : max d 0 = if 0 < d then d else 0 := by
  rw [show max d 0 = if d ≤ 0 then 0 else d from rfl]
  split <;> split <;> grind

/-- What a top-up does. -/
lemma exec_topUp (u : Uuid) (plan : BillingPlan) (note nonce : String)
    (hread : firstBalance u (some (v.getAllBalances x.billing.node)) = x.billing.credits u) :
    ((topUp u plan note nonce).run.exec v.serve x).2 =
      if 0 < plan.monthlyCredits - x.billing.credits u then
        x.withNode (creditWrite v.env (billingEventRequest u
          (plan.monthlyCredits - x.billing.credits u) note nonce) x.billing.node).2
      else x := by
  have hcall : ∀ b, firstBalance u (some (v.getAllBalances x.billing.node)) = b →
      (topUp u plan note nonce).run.exec v.serve x =
        (ExceptT.run (if 0 < max (plan.monthlyCredits - b) 0 then
          createBillingEvent u (max (plan.monthlyCredits - b) 0) note nonce
            else pure () : BillingM Unit)).exec v.serve x := by
    rintro b rfl
    rfl
  rw [hcall _ hread, max_zero]
  by_cases hpos : 0 < plan.monthlyCredits - x.billing.credits u
  · rw [if_pos hpos, if_pos hpos, if_pos hpos]
    rfl
  · rw [if_neg hpos, if_neg hpos, if_neg (by decide)]
    rfl

lemma db_topUp (u : Uuid) (plan : BillingPlan) (note nonce : String)
    (hread : firstBalance u (some (v.getAllBalances x.billing.node)) = x.billing.credits u) :
    ((topUp u plan note nonce).run.exec v.serve x).2.billing.db = x.billing.db := by
  rw [exec_topUp u plan note nonce hread]
  split <;> rfl

/-- A write of what is missing leaves a balance that is enough exactly when the balance was enough
before, or the write was carried out. -/
lemma creditWrite_missing (env : Env D) {s : SharedState D} (hready : s.CreditsReady u)
    {m : Int64} {note : String} (nonce : String) (hnote : note.length ≤ maxEventNoteChars)
    (hpos : 0 < m - (s.creditLedger u).balance) :
    m ≤ ((creditWrite env (billingEventRequest u (m - (s.creditLedger u).balance) note nonce)
        s).2.creditLedger u).balance ↔
      m ≤ (s.creditLedger u).balance ∨
        (String.ofList (trim nonce.toList), m - (s.creditLedger u).balance) ∉
          (s.creditLedger u).known ∧ s.CanWriteCredits env u := by
  obtain ⟨-, hwrites, -⟩ := creditWrite_spec env hready
    (billingEventRequest_writesCredits u (m - (s.creditLedger u).balance) nonce hnote)
  set ledger := s.creditLedger u
  set req := billingEventRequest u (m - ledger.balance) note nonce
  have hwrites : ledger.Writes (String.ofList (trim nonce.toList)) (m - ledger.balance) req.floor
    (s.CanWriteCredits env u) (creditWrite env req s).1
      ((creditWrite env req s).2.creditLedger u) := hwrites
  generalize (creditWrite env req s).2.creditLedger u = l at hwrites ⊢
  generalize (creditWrite env req s).1 = ok at hwrites
  cases hwrites with
  | known hknown => exact (or_iff_left fun hcan => hcan.1 hknown).symm
  | refused _ hshort => exact absurd hshort.1 (by grind)
  | failed _ _ hstuck => exact (or_iff_left fun hcan => hstuck hcan.2).symm
  | posted hnew _ hcan =>
      have hfull : ledger.balance + (m - ledger.balance) = m := by grind
      show m ≤ ledger.balance + (m - ledger.balance) ↔ _
      rw [hfull]
      exact iff_of_true (by grind) (.inr ⟨hnew, hcan⟩)

/-- After a top-up the balance is enough exactly when it was, or the node could add what was
missing. -/
lemma topUp_enough_iff (plan : BillingPlan) (note nonce : String)
    (hready : x.billing.node.CreditsReady u)
    (hread : firstBalance u (some (v.getAllBalances x.billing.node)) = x.billing.credits u) :
    plan.monthlyCredits ≤ ((topUp u plan note nonce).run.exec v.serve x).2.billing.credits u ↔
      x.billing.node.CanTopUp v.env u plan.monthlyCredits note nonce := by
  rw [exec_topUp u plan note nonce hread]
  set m := plan.monthlyCredits
  have hbalance : x.billing.credits u = (x.billing.node.creditLedger u).balance := rfl
  rw [hbalance]
  set ledger := x.billing.node.creditLedger u with hledger
  show _ ↔ m ≤ ledger.balance ∨ _
  by_cases hpos : 0 < m - ledger.balance
  · rw [if_pos hpos]
    have hwraps : ¬ m ≤ ledger.balance → m.toInt - ledger.balance.toInt < 2 ^ 63 :=
      fun hlow => (zero_lt_sub_iff hlow).1 hpos
    by_cases hnote : note.length ≤ maxEventNoteChars
    · refine (creditWrite_missing v.env hready nonce hnote hpos).trans ?_
      by_cases henough : m ≤ ledger.balance
      · exact iff_of_true (.inl henough) (.inl henough)
      · exact or_congr_right ⟨fun hcan => ⟨hwraps henough, hnote, hcan⟩, fun hcan => hcan.2.2⟩
    · have hrefused : creditWrite v.env (billingEventRequest u (m - ledger.balance) note nonce)
          x.billing.node = (false, x.billing.node) :=
        creditWrite_of_note v.env
          (show validateEventNote (some note) = _ from if_pos (by omega)) _
      rw [hrefused]
      exact (or_iff_left fun hcan => hnote hcan.2.1).symm
  · rw [if_neg hpos]
    refine (or_iff_left_of_imp fun hcan => ?_).symm
    by_contra hlow
    exact hpos ((zero_lt_sub_iff hlow).2 hcan.1)

end TopUp

/-! ## What the database keeps -/

namespace BillingDb

/-- The users with a row. -/
def users (db : BillingDb) : List Uuid := db.subscriptions.map (·.userId)

/-- The databases that statements lead to, whoever makes them. -/
def Reaches : BillingDb → BillingDb → Prop :=
  Relation.ReflTransGen fun db db' => ∃ q : Query, db' = (db.run q).2

variable {db db' : BillingDb}

lemma users_updateSubscription (userId : Uuid) {f : Subscription → Subscription}
    (hf : ∀ sub, (f sub).userId = sub.userId) :
    db.users ⊆ (db.updateSubscription userId f).users := by
  have hsame : (db.updateSubscription userId f).users = db.users := by
    refine (List.map_map ..).trans (List.map_congr_left fun sub _ => ?_)
    show (if sub.userId = userId then f sub else sub).userId = sub.userId
    split
    · exact hf sub
    · rfl
  rw [hsame]
  exact List.Subset.refl _

/-- No statement changes the plans, and none deletes a row. -/
lemma run_keeps (db : BillingDb) (q : Query) :
    (db.run q).2.plans = db.plans ∧ db.users ⊆ (db.run q).2.users := by
  cases q with
  | freePlanId =>
      simp only [run]
      split
      · exact ⟨rfl, List.Subset.refl _⟩
      · exact ⟨rfl, List.Subset.refl _⟩
  | insertSubscription userId email planId =>
      simp only [run]
      split
      · exact ⟨rfl, List.Subset.refl _⟩
      · refine ⟨rfl, fun u hu => ?_⟩
        rw [users, List.map_append]
        exact List.mem_append_left _ hu
  | setStripeCustomerId userId customerId =>
      simp only [run]
      split
      · exact ⟨rfl, List.Subset.refl _⟩
      · exact ⟨rfl, users_updateSubscription userId fun _ => rfl⟩
  | activateSubscription userId stripeSubscriptionId planId periodStart periodEnd =>
      simp only [run]
      split
      · exact ⟨rfl, List.Subset.refl _⟩
      · exact ⟨rfl, users_updateSubscription userId fun _ => rfl⟩
  | updateSubscriptionStatus userId status =>
      exact ⟨rfl, users_updateSubscription userId fun _ => rfl⟩
  | setPlanManual userId planId userEmail =>
      simp only [run]
      split
      · exact ⟨rfl, users_updateSubscription userId fun _ => rfl⟩
      · refine ⟨rfl, fun u hu => ?_⟩
        rw [users, List.map_append]
        exact List.mem_append_left _ hu
  | updatePeriod userId periodStart periodEnd =>
      exact ⟨rfl, users_updateSubscription userId fun _ => rfl⟩
  | cancelSubscription userId freePlanId =>
      exact ⟨rfl, users_updateSubscription userId fun _ => rfl⟩
  | markStripeEventProcessed eventId eventType =>
      simp only [run]
      split
      · exact ⟨rfl, List.Subset.refl _⟩
      · exact ⟨rfl, List.Subset.refl _⟩
  | _ => exact ⟨rfl, List.Subset.refl _⟩

lemma Reaches.keeps (h : db.Reaches db') : db'.plans = db.plans ∧ db.users ⊆ db'.users := by
  induction h with
  | refl => exact ⟨rfl, List.Subset.refl _⟩
  | @tail db₁ db₂ _ hlast ih =>
      obtain ⟨q, rfl⟩ := hlast
      obtain ⟨hplans, husers⟩ := db₁.run_keeps q
      exact ⟨hplans.trans ih.1, List.Subset.trans ih.2 husers⟩

end BillingDb

section Sessions

variable {config} {v : Services D} {x x' : Paying D} {u : Uuid}

/-- The database that the calls of a client leave. -/
lemma reaches_exec {α : Type} (t : BillingClient α) (x : Paying D) :
    x.billing.db.Reaches (t.exec v.serve x).2.billing.db := by
  induction t generalizing x with
  | done a => exact .refl
  | call op next ih =>
      refine Relation.ReflTransGen.trans ?_ (ih _ _)
      cases op with
      | query q => exact .single ⟨q, rfl⟩
      | _ => exact .refl

/-! ## The session of a checkout -/

lemma exec_liftExcept {α : Type} (e : Except AppError α) :
    (liftExcept e : BillingM α).run.exec v.serve x = (e, x) := by
  cases e <;> rfl

/-- Whoever has been given a row has one. -/
lemma exec_getOrCreateSubscription {email : String} {sub : Subscription}
    (h : (getOrCreateSubscription u email).run.exec v.serve x = (.ok sub, x')) :
    u ∈ x'.billing.db.users ∧ x'.sessions = x.sessions := by
  have hfound : ∀ {db : BillingDb} {sub}, db.subscriptions.find? (·.userId = u) = some sub →
      u ∈ db.users := by
    intro db sub hsub
    have huser := List.find?_some hsub
    exact List.mem_map.2 ⟨sub, List.mem_of_find?_eq_some hsub, of_decide_eq_true huser⟩
  obtain ⟨found, x₁, hquery, hrest⟩ := Client.exec_bindExcept_eq_ok h
  obtain ⟨hrow, rfl⟩ := Prod.mk.inj hquery
  cases found with
  | some row =>
      obtain ⟨-, rfl⟩ := Prod.mk.inj hrest
      exact ⟨hfound (Except.ok.inj hrow), rfl⟩
  | none =>
      obtain ⟨freePlanId, x₂, hfree, hrest⟩ := Client.exec_bindExcept_eq_ok hrest
      obtain ⟨-, rfl⟩ := Prod.mk.inj hfree
      obtain ⟨_, x₃, hinsert, hrest⟩ := Client.exec_bindExcept_eq_ok hrest
      obtain ⟨-, rfl⟩ := Prod.mk.inj hinsert
      obtain ⟨again, x₄, hquery, hrest⟩ := Client.exec_bindExcept_eq_ok hrest
      obtain ⟨hrow, rfl⟩ := Prod.mk.inj hquery
      cases again with
      | some row =>
          obtain ⟨-, rfl⟩ := Prod.mk.inj hrest
          exact ⟨hfound (Except.ok.inj hrow), rfl⟩
      | none => cases hrest

lemma exec_stripeCall {α : Type} {t : BillingClient (Except String α)} {a : α}
    (h : (stripeCall t).run.exec v.serve x = (.ok a, x')) : t.exec v.serve x = (.ok a, x') := by
  obtain ⟨r, x₁, hcall, hrest⟩ := Client.exec_bindExcept_eq_ok h
  have hlift : (ExceptT.lift t : BillingM (Except String α)).run.exec v.serve x =
      (.ok (t.exec v.serve x).1, (t.exec v.serve x).2) := Client.exec_bind _ _ _
  obtain ⟨hr, rfl⟩ := Prod.mk.inj (hlift.symm.trans hcall)
  cases r with
  | error message => cases hrest
  | ok b =>
      obtain ⟨hb, rfl⟩ := Prod.mk.inj hrest
      exact Prod.ext ((Except.ok.inj hr).trans (congrArg _ (Except.ok.inj hb))) rfl

lemma exec_checkoutCustomer {sub : Subscription} {customer : String}
    (h : (checkoutCustomer config u sub).run.exec v.serve x = (.ok customer, x')) :
    x'.sessions = x.sessions := by
  unfold checkoutCustomer at h
  split at h
  · split at h
    · obtain ⟨-, rfl⟩ := Prod.mk.inj h
      rfl
    · cases h
  · obtain ⟨cid, x₁, hcreate, hrest⟩ := Client.exec_bindExcept_eq_ok h
    obtain ⟨-, rfl⟩ := Prod.mk.inj (exec_stripeCall hcreate)
    obtain ⟨_, x₂, hset, hrest⟩ := Client.exec_bindExcept_eq_ok hrest
    obtain ⟨-, rfl⟩ := Prod.mk.inj hset
    obtain ⟨-, rfl⟩ := Prod.mk.inj hrest
    rfl

/-- What a checkout asks Stripe for, and the row it leaves. -/
lemma exec_checkout {req : CheckoutRequest} {url : String}
    (h : (checkout config u req).run.exec v.serve x = (.ok url, x')) :
    ∃ plan price customer, x.billing.db.plans.find? (·.slug = req.planSlug) = some plan ∧
      plan.checkoutPrice req.annual = .ok price ∧
      x'.sessions = x.sessions ++ [checkoutParams config u customer price] ∧
      u ∈ x'.billing.db.users := by
  obtain ⟨found, x₁, hquery, hrest⟩ := Client.exec_bindExcept_eq_ok h
  obtain ⟨hfound, rfl⟩ := Prod.mk.inj hquery
  cases found with
  | none => cases hrest
  | some plan =>
      obtain ⟨price, x₂, hprice, hrest⟩ := Client.exec_bindExcept_eq_ok hrest
      rw [exec_liftExcept] at hprice
      obtain ⟨hchosen, rfl⟩ := Prod.mk.inj hprice
      obtain ⟨sub, x₃, hsub, hrest⟩ := Client.exec_bindExcept_eq_ok hrest
      obtain ⟨customer, x₄, hcustomer, hrest⟩ := Client.exec_bindExcept_eq_ok hrest
      obtain ⟨answer, x₅, hsession, hrest⟩ := Client.exec_bindExcept_eq_ok hrest
      obtain ⟨-, rfl⟩ := Prod.mk.inj (exec_stripeCall hsession)
      have hx' : x' = { x₄ with
          sessions := x₄.sessions ++ [checkoutParams config u customer price] } := by
        cases answer with
        | none => cases hrest
        | some _ => exact (Prod.mk.inj hrest).2.symm
      obtain ⟨huser, hsessions⟩ := exec_getOrCreateSubscription hsub
      have hreaches := reaches_exec (v := v) (checkoutCustomer config u sub).run x₃
      rw [hcustomer] at hreaches
      have hkept : x₄.sessions = x.sessions := (exec_checkoutCustomer hcustomer).trans hsessions
      refine ⟨plan, price, customer, Except.ok.inj hfound, hchosen, ?_, ?_⟩
      · rw [hx', hkept]
      · rw [hx']
        exact hreaches.keeps.2 huser

end Sessions

/-! ## Prices -/

/-- The prices of a plan. -/
def BillingPlan.prices (plan : BillingPlan) : List String :=
  plan.stripePriceId.toList ++ plan.stripeAnnualPriceId.toList

/-- No price is that of two plans, or of both periods of one. -/
def DistinctPrices (plans : List BillingPlan) : Prop :=
  (plans.flatMap BillingPlan.prices).Nodup

section Prices

variable {plans : List BillingPlan} {plan plan' : BillingPlan} {price : String}

lemma DistinctPrices.eq (h : DistinctPrices plans) (hplan : plan ∈ plans) (hplan' : plan' ∈ plans)
    (hprice : price ∈ plan.prices) (hprice' : price ∈ plan'.prices) : plan = plan' := by
  by_contra hne
  have hsymm : Std.Symm (Function.onFun List.Disjoint BillingPlan.prices) :=
    ⟨fun _ _ hd => hd.symm⟩
  have hdisjoint : List.Disjoint plan.prices plan'.prices :=
    (List.nodup_flatMap.1 h).2.forall hplan hplan' hne
  exact hdisjoint hprice hprice'

/-- The lookup finds a plan by its monthly price. -/
lemma find_monthly (h : DistinctPrices plans) (hplan : plan ∈ plans)
    (hprice : plan.checkoutPrice false = .ok price) :
    plans.find? (·.stripePriceId = some price) = some plan := by
  have hmonthly : plan.stripePriceId = some price := by
    rw [BillingPlan.checkoutPrice, if_neg Bool.false_ne_true] at hprice
    split at hprice
    next p hp => exact hp.trans (congrArg some (Except.ok.inj hprice))
    next => cases hprice
  have hprices : ∀ {p : BillingPlan}, p.stripePriceId = some price → price ∈ p.prices :=
    fun hp => List.mem_append_left _ (Option.mem_toList.2 hp)
  cases hfind : plans.find? (·.stripePriceId = some price) with
  | none =>
      have hnone := List.find?_eq_none.1 hfind plan hplan
      exact absurd (decide_eq_true hmonthly) hnone
  | some found =>
      have hfound := List.find?_some hfind
      rw [h.eq (List.mem_of_find?_eq_some hfind) hplan (hprices (of_decide_eq_true hfound))
        (hprices hmonthly)]

/-- The lookup finds no plan by its annual price. -/
lemma find_annual (h : DistinctPrices plans) (hplan : plan ∈ plans)
    (hprice : plan.checkoutPrice true = .ok price) :
    plans.find? (·.stripePriceId = some price) = none := by
  have hannual : plan.stripeAnnualPriceId = some price := by
    rw [BillingPlan.checkoutPrice, if_pos rfl] at hprice
    split at hprice
    next p hp => exact hp.trans (congrArg some (Except.ok.inj hprice))
    next => cases hprice
  have hmem : price ∈ plan.stripeAnnualPriceId.toList := Option.mem_toList.2 hannual
  refine List.find?_eq_none.2 fun found hfound hmonthly => ?_
  have hmonthly : price ∈ found.stripePriceId.toList :=
    Option.mem_toList.2 (of_decide_eq_true hmonthly)
  obtain rfl := h.eq hfound hplan (List.mem_append_left _ hmonthly) (List.mem_append_right _ hmem)
  have hnodup : found.prices.Nodup := (List.nodup_flatMap.1 h).1 found hfound
  exact List.disjoint_of_nodup_append hnodup hmonthly hmem

end Prices

/-! ## What the webhook makes of a session -/

section Completed

variable {config} {v : Services D} {x x' y : Paying D} {u : Uuid} {plan : BillingPlan}
  {price : String} {stripeSub : WebhookSubscription} {subId eventId : String}

/-- The note of the credits that a plan comes with. -/
def activationNote (plan : BillingPlan) : String :=
  "Subscription activated: " ++ plan.name ++ " plan"

/-- The row of a user who has been given a plan. -/
def activatedRow (plan : BillingPlan) (subId : String) (stripeSub : WebhookSubscription)
    (sub : Subscription) : Subscription :=
  { sub with
    stripeSubscriptionId := some subId
    planId := plan.id
    subscriptionStatus := "active"
    periodStart := stripeSub.currentPeriodStart.bind tsToDt
    periodEnd := stripeSub.currentPeriodEnd.bind tsToDt }

/-- A price that the lookup knows gives the user the plan, and credits. -/
lemma exec_activateFrom_some (hprice : stripeSub.priceId = some price)
    (hfind : y.billing.db.plans.find? (·.stripePriceId = some price) = some plan)
    (hown : ∀ sub ∈ y.billing.db.subscriptions,
      sub.stripeSubscriptionId = some subId → sub.userId = u) :
    (activateFrom u subId eventId stripeSub).run.exec v.serve y =
      (topUp u plan (activationNote plan) ("stripe:checkout:" ++ eventId)).run.exec v.serve
        (y.withDb (y.billing.db.updateSubscription u (activatedRow plan subId stripeSub))) := by
  have hquery : (query (.getPlanByStripePrice price)).run.exec v.serve y = (.ok (some plan), y) :=
    congrArg (fun found => (Except.ok found, y)) hfind
  have hunshared : y.billing.db.subscriptions.any (fun sub => sub.userId ≠ u &&
      sub.stripeSubscriptionId = some subId) = false := by
    refine List.any_eq_false.2 fun sub hsub hshared => ?_
    rw [Bool.and_eq_true, decide_eq_true_eq, decide_eq_true_eq] at hshared
    exact hshared.1 (hown sub hsub hshared.2)
  have hactivate : (query (.activateSubscription u subId plan.id
      (stripeSub.currentPeriodStart.bind tsToDt) (stripeSub.currentPeriodEnd.bind tsToDt))).run.exec
        v.serve y =
      (.ok (), y.withDb
        (y.billing.db.updateSubscription u (activatedRow plan subId stripeSub))) := by
    show (((y.billing.db.run (.activateSubscription _ _ _ _ _)).1,
      y.withDb (y.billing.db.run (.activateSubscription _ _ _ _ _)).2)) = _
    rw [BillingDb.run, hunshared, Bool.and_false, if_neg Bool.false_ne_true]
    rfl
  rw [activateFrom, hprice]
  exact (Client.exec_bindExcept_ok hquery).trans (Client.exec_bindExcept_ok hactivate)

variable {parsers : IdParsers} {session : WebhookCheckoutSession}

/-- What Stripe says of a session of `u` once it has been paid for: it names a subscription for the
price of the session, which is nobody else's. -/
structure PaidFor (v : Services D) (parsers : IdParsers) (u : Uuid)
    (params : CreateCheckoutSession) (session : WebhookCheckoutSession) (subId : String)
    (stripeSub : WebhookSubscription) (y : Paying D) : Prop where
  reference : session.clientReferenceId = some params.clientReferenceId
  parses : parsers.uuid u.toText = some u
  subscription : session.subscription = some subId
  retrieved : ∃ parsed, parsers.subscriptionId subId = some parsed ∧
    v.stripe.retrieveSubscription parsed = .ok stripeSub
  price : stripeSub.priceId = params.lineItems.head?.map (·.price)
  own : ∀ sub ∈ y.billing.db.subscriptions,
    sub.stripeSubscriptionId = some subId → sub.userId = u

lemma exec_handleCheckoutCompleted {customer : String}
    (h : PaidFor v parsers u (checkoutParams config u customer price) session subId stripeSub y) :
    (handleCheckoutCompleted parsers session eventId).run.exec v.serve y =
      (activateFrom u subId eventId stripeSub).run.exec v.serve y := by
  obtain ⟨parsed, hparsed, hretrieved⟩ := h.retrieved
  have hreference : parsers.uuid (session.clientReferenceId.getD "") = some u := by
    rw [h.reference]
    exact h.parses
  have hcall : (ExceptT.lift (retrieveSubscription parsed) :
      BillingM (Except FetchError WebhookSubscription)).run.exec v.serve y =
        (.ok (.ok stripeSub), y) := by
    show (Except.ok (v.stripe.retrieveSubscription parsed), y) = _
    rw [hretrieved]
  unfold handleCheckoutCompleted
  simp only [hreference, h.subscription, hparsed]
  exact Client.exec_bindExcept_ok hcall

/-- What a user has bought has become theirs: the price of the session leads back to the plan, the
row of the user has the plan and is active, and the balance is enough. -/
structure Activates (u : Uuid) (plan : BillingPlan) (params : CreateCheckoutSession)
    (y y' : Paying D) : Prop where
  resolved : ∃ price, params.lineItems.map (·.price) = [price] ∧
    (y.billing.db.run (.getPlanByStripePrice price)).1 = .ok (some plan)
  row : ∃ sub, y'.billing.db.subscriptions.find? (·.userId = u) = some sub ∧
    sub.planId = plan.id ∧ sub.subscriptionStatus = "active"
  credits : plan.monthlyCredits ≤ y'.billing.credits u

/-- The row of a user who has one, after it has been rewritten. -/
lemma find_updateSubscription {db : BillingDb} {f : Subscription → Subscription}
    (hf : ∀ sub, (f sub).userId = sub.userId) (hu : u ∈ db.users) :
    ∃ sub, (db.updateSubscription u f).subscriptions.find? (·.userId = u) = some (f sub) := by
  obtain ⟨row, hrow, hrowu⟩ := List.mem_map.1 hu
  obtain ⟨sub, hsub⟩ : ∃ sub, db.subscriptions.find? (·.userId = u) = some sub :=
    Option.isSome_iff_exists.1 (List.find?_isSome.2 ⟨row, hrow, decide_eq_true hrowu⟩)
  have huser := List.find?_some hsub
  refine ⟨sub, ?_⟩
  show (db.subscriptions.map _).find? _ = _
  have hsame : ∀ sub : Subscription,
      (if sub.userId = u then f sub else sub).userId = sub.userId := by
    intro sub
    split
    · exact hf sub
    · rfl
  have hpred : ((fun sub : Subscription => decide (sub.userId = u)) ∘ fun sub : Subscription =>
      if sub.userId = u then f sub else sub) = fun sub => decide (sub.userId = u) :=
    funext fun sub => decide_eq_decide.2 (by rw [hsame])
  rw [List.find?_map, hpred, hsub]
  exact congrArg some (if_pos (of_decide_eq_true huser))

/-- **Checkout.**  A session that has been paid for activates what was bought exactly when it was
bought by the month, and the balance is enough or the node can add what is missing. -/
theorem checkoutActivates_iff {req : CheckoutRequest} {url : String}
    {params : CreateCheckoutSession} (hprices : DistinctPrices x.billing.db.plans)
    (hplan : x.billing.db.plans.find? (·.slug = req.planSlug) = some plan)
    (hcheckout : (checkout config u req).run.exec v.serve x = (.ok url, x'))
    (hsession : x'.sessions = x.sessions ++ [params])
    (hlater : x'.billing.db.Reaches y.billing.db)
    (hready : y.billing.node.CreditsReady u) (halone : y.billing.node.CreditsAlone u)
    (hlisted : ∃ now, y.billing.node.GetAllBalances now (v.getAllBalances y.billing.node))
    (hpaid : PaidFor v parsers u params session subId stripeSub y) :
    Activates u plan params y
        ((handleCheckoutCompleted parsers session eventId).run.exec v.serve y).2 ↔
      req.annual = false ∧ y.billing.node.CanTopUp v.env u plan.monthlyCredits
        (activationNote plan) ("stripe:checkout:" ++ eventId) := by
  obtain ⟨bought, price, customer, hbought, hprice, hsessions, huser⟩ := exec_checkout hcheckout
  obtain rfl : plan = bought := Option.some.inj (hplan.symm.trans hbought)
  obtain rfl : params = checkoutParams config u customer price := by
    rw [hsession] at hsessions
    exact List.singleton_inj.1 (List.append_cancel_left hsessions)
  have hmem := List.mem_of_find?_eq_some hplan
  have hplans : y.billing.db.plans = x.billing.db.plans := by
    have hreaches := reaches_exec (v := v) (checkout config u req).run x
    rw [hcheckout] at hreaches
    exact hlater.keeps.1.trans hreaches.keeps.1
  rw [exec_handleCheckoutCompleted hpaid]
  cases hannual : req.annual with
  | true =>
      rw [hannual] at hprice
      have hfind := find_annual hprices hmem hprice
      refine iff_of_false ?_ fun hcan => Bool.false_ne_true hcan.1.symm
      rintro ⟨⟨price', hpaid', hresolved⟩, -, -⟩
      obtain rfl : price = price' := List.singleton_inj.1 hpaid'
      have hlost : y.billing.db.plans.find? (·.stripePriceId = some price) = some plan :=
        Except.ok.inj hresolved
      rw [hplans, hfind] at hlost
      cases hlost
  | false =>
      rw [hannual] at hprice
      have hfind : y.billing.db.plans.find? (·.stripePriceId = some price) = some plan := by
        rw [hplans]
        exact find_monthly hprices hmem hprice
      rw [exec_activateFrom_some hpaid.price hfind hpaid.own]
      set y' := y.withDb (y.billing.db.updateSubscription u (activatedRow plan subId stripeSub))
      obtain ⟨now, hrows⟩ := hlisted
      have hread : firstBalance u (some (v.getAllBalances y'.billing.node)) =
          y'.billing.credits u := firstBalance_eq hready halone hrows
      have henough := topUp_enough_iff plan (activationNote plan) ("stripe:checkout:" ++ eventId)
        (show y'.billing.node.CreditsReady u from hready) hread
      refine ⟨fun h => ⟨rfl, henough.1 h.credits⟩, fun hcan => ?_⟩
      obtain ⟨sub, hsub⟩ : ∃ sub, y'.billing.db.subscriptions.find? (·.userId = u) =
          some (activatedRow plan subId stripeSub sub) :=
        find_updateSubscription (fun _ => rfl) (hlater.keeps.2 huser)
      refine ⟨⟨price, rfl, congrArg Except.ok hfind⟩,
        ⟨activatedRow plan subId stripeSub sub, ?_, rfl, rfl⟩, henough.2 hcan.2⟩
      rw [db_topUp u plan _ _ hread]
      exact hsub

end Completed

/-! ## A month and a year -/

section Bought

def proPlan : BillingPlan where
  id := ⟨List.replicate 16 37, rfl⟩
  slug := "pro"
  name := "Pro"
  monthlyCredits := 10000
  stripePriceId := some "price_month"
  stripeAnnualPriceId := some "price_year"

/-- A caller who has been granted nothing, and may buy the larger plan. -/
def buyer : Paying Unit where
  billing := ⟨{ smallDb with plans := [smallPlan, proPlan] }, .blank .empty⟩
  sessions := []

/-- The subscription that is paid for with a price. -/
def paidSubscription (price : String) : WebhookSubscription where
  id := "sub_1"
  status := some "active"
  currentPeriodStart := none
  currentPeriodEnd := none
  items := some ⟨[⟨some ⟨price⟩⟩]⟩

def shop (price : String) : Services Unit where
  env := meterEnv
  stripe :=
    { retrieveSubscription := fun _ => .ok (paidSubscription price)
      createCustomer := fun _ => .ok "cus_1"
      createCheckoutSession := fun _ => .ok (some "https://checkout.stripe.com/c/1") }
  getAllBalances := fun _ => []
  refusal := fun _ => .internal "mesh event creation failed"

def shopConfig : CheckoutConfig := ⟨some, "https://app.shardd.xyz/"⟩

def shopParsers : IdParsers where
  uuid text := if text = caller.toText then some caller else none
  subscriptionId := some

def paidSession : WebhookCheckoutSession := ⟨some caller.toText, some "sub_1"⟩

lemma distinctPrices_buyer : DistinctPrices buyer.billing.db.plans := by
  show ["price_month", "price_year"].Nodup
  decide

/-- What the caller has been given by the time of the webhook event. -/
def checkedOut (annual : Bool) (price : String) : Paying Unit :=
  ((checkout shopConfig caller ⟨"pro", annual⟩).run.exec (shop price).serve buyer).2

lemma exec_buyer {annual : Bool} {price : String}
    (hprice : proPlan.checkoutPrice annual = .ok price) :
    (checkout shopConfig caller ⟨"pro", annual⟩).run.exec (shop price).serve buyer =
        (.ok "https://checkout.stripe.com/c/1", checkedOut annual price) ∧
      (checkedOut annual price).sessions =
        buyer.sessions ++ [checkoutParams shopConfig caller "cus_1" price] ∧
      (checkedOut annual price).billing.node = .blank .empty ∧
      (checkedOut annual price).billing.db.subscriptions =
        [{ callerSubscription with stripeCustomerId := some "cus_1" }] := by
  cases annual with
  | false =>
      obtain rfl := Except.ok.inj hprice
      exact ⟨rfl, rfl, rfl, rfl⟩
  | true =>
      obtain rfl := Except.ok.inj hprice
      exact ⟨rfl, rfl, rfl, rfl⟩

lemma paidFor_buyer {annual : Bool} {price : String}
    (hprice : proPlan.checkoutPrice annual = .ok price) :
    PaidFor (shop price) shopParsers caller (checkoutParams shopConfig caller "cus_1" price)
      paidSession "sub_1" (paidSubscription price) (checkedOut annual price) where
  reference := rfl
  parses := by
    show (if caller.toText = caller.toText then some caller else none) = some caller
    rw [if_pos rfl]
  subscription := rfl
  retrieved := ⟨"sub_1", rfl, rfl⟩
  price := rfl
  own sub hsub hid := by
    rw [(exec_buyer hprice).2.2.2] at hsub
    obtain rfl := List.mem_singleton.1 hsub
    cases hid

/-- A month that has been paid for is activated. -/
theorem checkoutActivates_monthly :
    Activates caller proPlan (checkoutParams shopConfig caller "cus_1" "price_month")
      (checkedOut false "price_month")
      ((handleCheckoutCompleted shopParsers paidSession "evt_1").run.exec
        (shop "price_month").serve (checkedOut false "price_month")).2 := by
  have hprice : proPlan.checkoutPrice false = .ok "price_month" := rfl
  obtain ⟨hexec, hsessions, hnode, -⟩ := exec_buyer hprice
  have hready : (checkedOut false "price_month").billing.node.CreditsReady caller := by
    rw [hnode]
    exact creditsReady_blank caller
  have halone : (checkedOut false "price_month").billing.node.CreditsAlone caller := by
    rw [hnode]
    exact fun _ _ => rfl
  have hlisted : (checkedOut false "price_month").billing.node.GetAllBalances 0 [] := by
    rw [hnode]
    exact ⟨fun row hrow => absurd hrow List.not_mem_nil, fun key acc hkey _ =>
      absurd hkey.symm (Option.some_ne_none acc), .nil⟩
  refine (checkoutActivates_iff distinctPrices_buyer rfl hexec hsessions .refl hready halone
    ⟨0, hlisted⟩ (paidFor_buyer hprice)).2 ⟨rfl, .inr ⟨?_, ?_, ?_, canWriteCredits hready⟩⟩
  · rw [hnode]
    decide
  · decide
  · rw [hnode]
    exact fun hknown => hknown rfl

/-- A year that has been paid for is not: the price of the session leads to no plan, the caller is
still on the free plan, and has no credits. -/
theorem checkout_yearly :
    ((checkoutParams shopConfig caller "cus_1" "price_year").lineItems.map (·.price) =
        ["price_year"] ∧
      proPlan.stripeAnnualPriceId = some "price_year") ∧
    ((handleCheckoutCompleted shopParsers paidSession "evt_1").run.exec
        (shop "price_year").serve (checkedOut true "price_year")) =
      (.ok (), checkedOut true "price_year") ∧
    ¬ Activates caller proPlan (checkoutParams shopConfig caller "cus_1" "price_year")
      (checkedOut true "price_year")
      ((handleCheckoutCompleted shopParsers paidSession "evt_1").run.exec
        (shop "price_year").serve (checkedOut true "price_year")).2 := by
  refine ⟨⟨rfl, rfl⟩, rfl, ?_⟩
  rintro ⟨⟨price, hprice, hresolved⟩, -, -⟩
  obtain rfl : "price_year" = price := List.singleton_inj.1 hprice
  cases hresolved

end Bought

end Shardd
