import Shardd.Billing.Repo

/-!
# Webhook events (`apps/billing/src/adapters/http/routes/webhooks.rs`)

Stripe delivers an event until it is told that it was received.  The handler asks the database
whether the event has been processed, marks it as processed, and only then does what the event asks
for: it changes the row of a subscription, and tops up the credits of its user.
-/

namespace Shardd

variable {D : Type}

/-! ## Events -/

structure WebhookCheckoutSession where
  clientReferenceId : Option String
  subscription : Option String

structure WebhookInvoice where
  id : Option String
  customer : Option String
  subscription : Option String

/-- The type of an event with what its object is read as; an error is that of the parser. -/
inductive StripeObject
  | checkoutSessionCompleted (session : Except String WebhookCheckoutSession)
  | invoicePaid (invoice : Except String WebhookInvoice)
  | customerSubscriptionUpdated (sub : Except String WebhookSubscription)
  | customerSubscriptionDeleted (sub : Except String WebhookSubscription)
  | other

/-- An event whose signature has been verified. -/
structure StripeEvent where
  id : String
  type : String
  object : Except String StripeObject

/-- The parsers of two crates: of a `Uuid`, and of a `stripe::SubscriptionId`. -/
structure IdParsers where
  uuid : String → Option Uuid
  subscriptionId : String → Option String

/-- Whether an event was skipped.  The sender is told `ok` in both cases. -/
inductive WebhookOutcome
  | alreadyProcessed
  | handled
  deriving DecidableEq

/-! ## Handlers -/

/-- `chrono::DateTime::from_timestamp(ts, 0)`. -/
def tsToDt (ts : Int64) : Option DateTime :=
  if -8334601228800 ≤ ts ∧ ts ≤ 8210266876799 then some ts else none

def retrieveSubscription (id : String) : BillingClient (Except FetchError WebhookSubscription) :=
  .call (.retrieveSubscription id) .done

/-- The price of the first item. -/
def WebhookSubscription.priceId (sub : WebhookSubscription) : Option String := do
  let items ← sub.items
  let item ← items.data.head?
  let price ← item.price
  return price.id

/-- Raise the balance to the allowance of the plan. -/
def topUp (userId : Uuid) (plan : BillingPlan) (note nonce : String) : BillingM Unit := do
  let balance ← (getBillingBalance userId : BillingClient Int64)
  let delta := max (plan.monthlyCredits - balance) 0
  if 0 < delta then createBillingEvent userId delta note nonce

/-- What a completed checkout comes to, once Stripe has been asked for the subscription. -/
def activateFrom (userId : Uuid) (subId eventId : String) (stripeSub : WebhookSubscription) :
    BillingM Unit :=
  match stripeSub.priceId with
  | none => return
  | some priceId => do
  match ← query (.getPlanByStripePrice priceId) with
  | none => return
  | some plan =>
    query (.activateSubscription userId subId plan.id
      (stripeSub.currentPeriodStart.bind tsToDt) (stripeSub.currentPeriodEnd.bind tsToDt))
    topUp userId plan ("Subscription activated: " ++ plan.name ++ " plan")
      ("stripe:checkout:" ++ eventId)

def handleCheckoutCompleted (parsers : IdParsers) (session : WebhookCheckoutSession)
    (eventId : String) : BillingM Unit :=
  match parsers.uuid (session.clientReferenceId.getD "") with
  | none => throw (.internal "bad user_id in checkout session")
  | some userId =>
  match session.subscription with
  | none => return
  | some subId =>
  match parsers.subscriptionId subId with
  | none => throw (.internal "bad subscription id")
  | some parsed => do
  match ← (retrieveSubscription parsed : BillingClient (Except FetchError WebhookSubscription)) with
  | .error (.fetch message) => throw (.internal ("stripe fetch sub: " ++ message))
  | .error (.parse message) => throw (.internal ("parse fetched sub: " ++ message))
  | .ok stripeSub => activateFrom userId subId eventId stripeSub

/-- Update the period from the subscription at Stripe, if there is one. -/
def updateInvoicePeriod (parsers : IdParsers) (userId : Uuid) (subscription : Option String) :
    BillingM Unit :=
  match subscription.bind parsers.subscriptionId with
  | none => return
  | some parsed => do
  match ← (retrieveSubscription parsed : BillingClient (Except FetchError WebhookSubscription)) with
  | .error (.fetch _) => return
  | .error (.parse _) => query (.updatePeriod userId none none)
  | .ok fetched =>
    query (.updatePeriod userId (fetched.currentPeriodStart.bind tsToDt)
      (fetched.currentPeriodEnd.bind tsToDt))

def handleInvoicePaid (parsers : IdParsers) (invoice : WebhookInvoice) : BillingM Unit :=
  match invoice.customer with
  | none => return
  | some customerId => do
  match ← query (.getSubscriptionByStripeCustomer customerId) with
  | none => return
  | some sub =>
  match ← query (.getPlan sub.planId) with
  | none => throw (.internal "plan not found")
  | some plan =>
    let invoiceId := invoice.id.getD "unknown"
    topUp sub.userId plan
      ("Monthly credit: " ++ plan.name ++ " plan (invoice " ++ invoiceId ++ ")")
      ("stripe:invoice:" ++ invoiceId)
    updateInvoicePeriod parsers sub.userId invoice.subscription

def handleSubscriptionUpdated (sub : WebhookSubscription) : BillingM Unit := do
  match ← query (.getSubscriptionByStripeSubscription sub.id) with
  | none => return
  | some existing =>
    query (.updateSubscriptionStatus existing.userId (sub.status.getD "unknown"))

def handleSubscriptionDeleted (sub : WebhookSubscription) (eventId : String) : BillingM Unit := do
  match ← query (.getSubscriptionByStripeSubscription sub.id) with
  | none => return
  | some existing =>
  match ← query (.getPlanBySlug "free") with
  | none => throw (.internal "free plan missing")
  | some freePlan =>
    query (.cancelSubscription existing.userId freePlan.id)
    topUp existing.userId freePlan "Downgraded to Free plan" ("stripe:cancel:" ++ eventId)

/-- What is done for an event that has been marked. -/
def handleEvent (parsers : IdParsers) (event : StripeEvent) : BillingM Unit :=
  match event.object with
  | .error message => throw (.internal ("serialize: " ++ message))
  | .ok (.checkoutSessionCompleted (.error message)) =>
      throw (.internal ("parse checkout: " ++ message))
  | .ok (.checkoutSessionCompleted (.ok session)) =>
      handleCheckoutCompleted parsers session event.id
  | .ok (.invoicePaid (.error message)) => throw (.internal ("parse invoice: " ++ message))
  | .ok (.invoicePaid (.ok invoice)) => handleInvoicePaid parsers invoice
  | .ok (.customerSubscriptionUpdated (.error message)) =>
      throw (.internal ("parse sub: " ++ message))
  | .ok (.customerSubscriptionUpdated (.ok sub)) => handleSubscriptionUpdated sub
  | .ok (.customerSubscriptionDeleted (.error message)) =>
      throw (.internal ("parse sub: " ++ message))
  | .ok (.customerSubscriptionDeleted (.ok sub)) => handleSubscriptionDeleted sub event.id
  | .ok .other => return

/-- From the mark on. -/
def markAndHandle (parsers : IdParsers) (event : StripeEvent) : BillingM WebhookOutcome := do
  query (.markStripeEventProcessed event.id event.type)
  handleEvent parsers event
  return .handled

def stripeWebhook (parsers : IdParsers) (event : StripeEvent) : BillingM WebhookOutcome := do
  if ← query (.isStripeEventProcessed event.id) then
    return .alreadyProcessed
  else
    markAndHandle parsers event

/-! ## What a handler can do -/

/-- A price for the two statements about processed events, one for each statement that changes a
row, and one for each write to credits. -/
def callPrice (mark row credit : ℕ) : BillingCall → ℕ
  | .query (.isStripeEventProcessed _) | .query (.markStripeEventProcessed _ _) => mark
  | .query (.insertSubscription _ _ _) | .query (.setStripeCustomerId _ _)
  | .query (.activateSubscription _ _ _ _ _) | .query (.updateSubscriptionStatus _ _)
  | .query (.setPlanManual _ _ _) | .query (.updatePeriod _ _ _)
  | .query (.cancelSubscription _ _) => row
  | .createEvent _ => credit
  | _ => 0

section Cost

variable {mark row credit : ℕ} {parsers : IdParsers}

/-- A call that is free, and what follows. -/
lemma cost_free_call {op : BillingCall} {α : Type} {next : op.Answer → BillingClient α} {b : ℕ∞}
    (hop : callPrice mark row credit op = 0)
    (hnext : ∀ ans, (next ans).cost (callPrice mark row credit) ≤ b) :
    (Client.call op next).cost (callPrice mark row credit) ≤ b := by
  refine (Client.cost_call_le hnext).trans_eq ?_
  rw [hop]
  exact zero_add b

lemma cost_query (q : Query) : (query q).run.cost (callPrice mark row credit) ≤
    callPrice mark row credit (.query q) := by
  have hcost : (query q).run.cost (callPrice mark row credit) ≤
      callPrice mark row credit (.query q) + 0 := Client.cost_call_le fun _ => le_rfl
  exact hcost.trans_eq (add_zero _)

/-- A query that changes no row, and what follows. -/
lemma cost_query_bind {q : Query} {α : Type} {k : q.Row → BillingM α} {b : ℕ∞}
    (hq : callPrice mark row credit (.query q) = 0)
    (hk : ∀ r, (k r).run.cost (callPrice mark row credit) ≤ b) :
    (query q >>= k).run.cost (callPrice mark row credit) ≤ b := by
  refine (Client.cost_bindExcept_le hk).trans ?_
  have hcost : (query q).run.cost (callPrice mark row credit) ≤
      callPrice mark row credit (.query q) := cost_query q
  rw [hq] at hcost
  exact (add_le_add hcost le_rfl).trans_eq (zero_add b)

lemma cost_topUp (userId : Uuid) (plan : BillingPlan) (note nonce : String) :
    (topUp userId plan note nonce).run.cost (callPrice mark row credit) ≤ credit := by
  refine cost_free_call (show callPrice mark row credit .balances = 0 from rfl) fun rows => ?_
  show (ExceptT.run (ite (0 < max (plan.monthlyCredits - firstBalance userId rows) 0) _ _ :
    BillingM Unit)).cost _ ≤ _
  split
  · have hcost : (createBillingEvent userId (max (plan.monthlyCredits - firstBalance userId rows) 0)
        note nonce).run.cost (callPrice mark row credit) ≤ credit + 0 :=
      Client.cost_call_le fun _ => le_rfl
    exact hcost.trans_eq (add_zero _)
  · exact zero_le

lemma cost_activateFrom (userId : Uuid) (subId eventId : String)
    (stripeSub : WebhookSubscription) :
    (activateFrom userId subId eventId stripeSub).run.cost (callPrice mark row credit) ≤
      row + credit := by
  unfold activateFrom
  split
  · exact zero_le
  · refine cost_query_bind rfl fun plan => ?_
    rcases plan with _ | plan
    · exact zero_le
    · exact (Client.cost_bindExcept_le fun _ => cost_topUp _ _ _ _).trans
        (add_le_add (cost_query _) le_rfl)

lemma cost_handleCheckoutCompleted (session : WebhookCheckoutSession) (eventId : String) :
    (handleCheckoutCompleted parsers session eventId).run.cost (callPrice mark row credit) ≤
      row + credit := by
  unfold handleCheckoutCompleted
  split
  · exact zero_le
  split
  · exact zero_le
  split
  · exact zero_le
  · refine cost_free_call (show callPrice mark row credit (.retrieveSubscription _) = 0 from rfl)
      fun fetched => ?_
    rcases fetched with (_ | _) | stripeSub
    · exact zero_le
    · exact zero_le
    · exact cost_activateFrom _ _ _ stripeSub

lemma cost_updateInvoicePeriod (userId : Uuid) (subscription : Option String) :
    (updateInvoicePeriod parsers userId subscription).run.cost (callPrice mark row credit) ≤
      row := by
  unfold updateInvoicePeriod
  split
  · exact zero_le
  · refine cost_free_call (show callPrice mark row credit (.retrieveSubscription _) = 0 from rfl)
      fun fetched => ?_
    rcases fetched with (_ | _) | fetched
    · exact zero_le
    · exact cost_query _
    · exact cost_query _

lemma cost_handleInvoicePaid (invoice : WebhookInvoice) :
    (handleInvoicePaid parsers invoice).run.cost (callPrice mark row credit) ≤ row + credit := by
  unfold handleInvoicePaid
  split
  · exact zero_le
  · refine cost_query_bind rfl fun sub => ?_
    rcases sub with _ | sub
    · exact zero_le
    · refine cost_query_bind rfl fun plan => ?_
      rcases plan with _ | plan
      · exact zero_le
      · rw [add_comm]
        exact (Client.cost_bindExcept_le fun _ => cost_updateInvoicePeriod _ _).trans
          (add_le_add (cost_topUp _ _ _ _) le_rfl)

lemma cost_handleSubscriptionUpdated (sub : WebhookSubscription) :
    (handleSubscriptionUpdated sub).run.cost (callPrice mark row credit) ≤ row + credit := by
  refine cost_query_bind rfl fun existing => ?_
  rcases existing with _ | existing
  · exact zero_le
  · exact (cost_query _).trans le_self_add

lemma cost_handleSubscriptionDeleted (sub : WebhookSubscription) (eventId : String) :
    (handleSubscriptionDeleted sub eventId).run.cost (callPrice mark row credit) ≤
      row + credit := by
  refine cost_query_bind rfl fun existing => ?_
  rcases existing with _ | existing
  · exact zero_le
  · refine cost_query_bind rfl fun freePlan => ?_
    rcases freePlan with _ | freePlan
    · exact zero_le
    · exact (Client.cost_bindExcept_le fun _ => cost_topUp _ _ _ _).trans
        (add_le_add (cost_query _) le_rfl)

/-- A handler changes at most one row and writes at most once to credits; it does not touch the
record of processed events. -/
lemma cost_handleEvent (parsers : IdParsers) (event : StripeEvent) :
    (handleEvent parsers event).run.cost (callPrice mark row credit) ≤ row + credit := by
  unfold handleEvent
  split
  · exact zero_le
  · exact zero_le
  · exact cost_handleCheckoutCompleted _ _
  · exact zero_le
  · exact cost_handleInvoicePaid _
  · exact zero_le
  · exact cost_handleSubscriptionUpdated _
  · exact zero_le
  · exact cost_handleSubscriptionDeleted _ _
  · exact zero_le

end Cost

end Shardd
