import Shardd.Billing.Credits
import Shardd.Lib.Client

/-!
# What billing calls (`apps/billing`)

Billing keeps plans, subscriptions and the ids of the webhook events it has seen in a database,
asks Stripe for subscriptions, customers and checkout sessions, and has the gateway list balances
and write to the credits of users.  Each of these calls may fail, and one that fails may have taken
effect all the same.
-/

namespace Shardd

variable {D : Type}

inductive AppError
  | database (message : String)
  | unauthorized
  | notFound
  | invalidInput (message : String)
  | internal (message : String)
  deriving DecidableEq

/-! ## The database -/

structure BillingPlan where
  id : Uuid
  slug : String
  name : String
  monthlyCredits : Int64
  stripePriceId : Option String
  stripeAnnualPriceId : Option String
  deriving DecidableEq

/-- A `chrono::DateTime`, in seconds. -/
abbrev DateTime := Int64

structure Subscription where
  userId : Uuid
  userEmail : String
  planId : Uuid
  stripeCustomerId : Option String
  stripeSubscriptionId : Option String
  subscriptionStatus : String
  periodStart : Option DateTime
  periodEnd : Option DateTime
  deriving DecidableEq

structure BillingDb where
  plans : List BillingPlan
  subscriptions : List Subscription
  /-- The ids and the types of events. -/
  processedStripeEvents : List (String × String)

/-- The statements of `PostgresPersistence`, but for its listings and the record of e-mails. -/
inductive Query
  | getPlan (id : Uuid)
  | getPlanBySlug (slug : String)
  | getPlanByStripePrice (stripePriceId : String)
  | freePlanId
  | subscriptionOf (userId : Uuid)
  | insertSubscription (userId : Uuid) (email : String) (planId : Uuid)
  | getSubscriptionByStripeCustomer (customerId : String)
  | getSubscriptionByStripeSubscription (subId : String)
  | setStripeCustomerId (userId : Uuid) (customerId : String)
  | activateSubscription (userId : Uuid) (stripeSubscriptionId : String) (planId : Uuid)
      (periodStart periodEnd : Option DateTime)
  | updateSubscriptionStatus (userId : Uuid) (status : String)
  | setPlanManual (userId planId : Uuid) (userEmail : String)
  | updatePeriod (userId : Uuid) (periodStart periodEnd : Option DateTime)
  | cancelSubscription (userId freePlanId : Uuid)
  | isStripeEventProcessed (eventId : String)
  | markStripeEventProcessed (eventId eventType : String)

/-- What a statement returns. -/
abbrev Query.Row : Query → Type
  | .getPlan _ | .getPlanBySlug _ | .getPlanByStripePrice _ => Option BillingPlan
  | .freePlanId => Uuid
  | .subscriptionOf _ | .getSubscriptionByStripeCustomer _
  | .getSubscriptionByStripeSubscription _ => Option Subscription
  | .isStripeEventProcessed _ => Bool
  | _ => Unit

namespace BillingDb

variable (db : BillingDb)

def updateSubscription (userId : Uuid) (f : Subscription → Subscription) : BillingDb :=
  { db with
    subscriptions := db.subscriptions.map fun sub => if sub.userId = userId then f sub else sub }

/-- What a statement answers, and the database it leaves. -/
def run : (q : Query) → Except AppError q.Row × BillingDb
  | .getPlan id => (.ok (db.plans.find? (·.id = id)), db)
  | .getPlanBySlug slug => (.ok (db.plans.find? (·.slug = slug)), db)
  | .getPlanByStripePrice price => (.ok (db.plans.find? (·.stripePriceId = some price)), db)
  | .freePlanId =>
      match db.plans.find? (·.slug = "free") with
      | some plan => (.ok plan.id, db)
      | none =>
          (.error (.database
            "no rows returned by a query that expected to return at least one row"), db)
  | .subscriptionOf userId => (.ok (db.subscriptions.find? (·.userId = userId)), db)
  | .insertSubscription userId email planId =>
      -- `ON CONFLICT (user_id) DO NOTHING`
      (.ok (), if db.subscriptions.any (·.userId = userId) then db else
        { db with
          subscriptions := db.subscriptions ++
            [{ userId := userId
               userEmail := email
               planId := planId
               stripeCustomerId := none
               stripeSubscriptionId := none
               subscriptionStatus := "free"
               periodStart := none
               periodEnd := none }] })
  | .getSubscriptionByStripeCustomer customerId =>
      (.ok (db.subscriptions.find? (·.stripeCustomerId = some customerId)), db)
  | .getSubscriptionByStripeSubscription subId =>
      (.ok (db.subscriptions.find? (·.stripeSubscriptionId = some subId)), db)
  | .setStripeCustomerId userId customerId =>
      -- `stripe_customer_id TEXT UNIQUE`
      if db.subscriptions.any (fun sub => sub.userId = userId) &&
          db.subscriptions.any (fun sub => sub.userId ≠ userId &&
            sub.stripeCustomerId = some customerId) then
        (.error (.database "duplicate key value violates unique constraint"), db)
      else
        (.ok (), db.updateSubscription userId fun sub =>
          { sub with stripeCustomerId := some customerId })
  | .activateSubscription userId stripeSubscriptionId planId periodStart periodEnd =>
      -- `stripe_subscription_id TEXT UNIQUE`
      if db.subscriptions.any (fun sub => sub.userId = userId) &&
          db.subscriptions.any (fun sub => sub.userId ≠ userId &&
            sub.stripeSubscriptionId = some stripeSubscriptionId) then
        (.error (.database "duplicate key value violates unique constraint"), db)
      else
        (.ok (), db.updateSubscription userId fun sub =>
          { sub with
            stripeSubscriptionId := some stripeSubscriptionId
            planId := planId
            subscriptionStatus := "active"
            periodStart := periodStart
            periodEnd := periodEnd })
  | .updateSubscriptionStatus userId status =>
      (.ok (), db.updateSubscription userId fun sub => { sub with subscriptionStatus := status })
  | .setPlanManual userId planId userEmail =>
      let email := if userEmail.isEmpty then "unknown" else userEmail
      -- `ON CONFLICT (user_id) DO UPDATE`
      (.ok (), if db.subscriptions.any (·.userId = userId) then
          db.updateSubscription userId fun sub =>
            { sub with userEmail := email, planId := planId, subscriptionStatus := "manual" }
        else
          { db with
            subscriptions := db.subscriptions ++
              [{ userId := userId
                 userEmail := email
                 planId := planId
                 stripeCustomerId := none
                 stripeSubscriptionId := none
                 subscriptionStatus := "manual"
                 periodStart := none
                 periodEnd := none }] })
  | .updatePeriod userId periodStart periodEnd =>
      (.ok (), db.updateSubscription userId fun sub =>
        { sub with periodStart := periodStart, periodEnd := periodEnd })
  | .cancelSubscription userId freePlanId =>
      (.ok (), db.updateSubscription userId fun sub =>
        { sub with
          subscriptionStatus := "canceled"
          planId := freePlanId
          stripeSubscriptionId := none })
  | .isStripeEventProcessed eventId =>
      (.ok (db.processedStripeEvents.any (·.1 = eventId)), db)
  | .markStripeEventProcessed eventId eventType =>
      -- `ON CONFLICT DO NOTHING`
      (.ok (), if db.processedStripeEvents.any (·.1 = eventId) then db else
        { db with processedStripeEvents := db.processedStripeEvents ++ [(eventId, eventType)] })

end BillingDb

/-! ## Calls -/

structure WebhookPrice where
  id : String

structure WebhookSubItem where
  price : Option WebhookPrice

structure WebhookSubItems where
  data : List WebhookSubItem

structure WebhookSubscription where
  id : String
  status : Option String
  currentPeriodStart : Option Int64
  currentPeriodEnd : Option Int64
  items : Option WebhookSubItems

structure CheckoutLineItem where
  price : String
  quantity : ℕ

inductive CheckoutSessionMode
  | payment
  | setup
  | subscription

structure CreateCheckoutSession where
  customer : String
  mode : CheckoutSessionMode
  lineItems : List CheckoutLineItem
  successUrl : String
  cancelUrl : String
  clientReferenceId : String

/-- How asking Stripe for a subscription may fail. -/
inductive FetchError
  | fetch (message : String)
  | parse (message : String)

inductive BillingCall
  | query (q : Query)
  | retrieveSubscription (id : String)
  /-- A customer, with the user it is for. -/
  | createCustomer (userId : String)
  | createCheckoutSession (params : CreateCheckoutSession)
  | balances
  | createEvent (req : CreateEventRequest)

abbrev BillingCall.Answer : BillingCall → Type
  | .query q => Except AppError q.Row
  | .retrieveSubscription _ => Except FetchError WebhookSubscription
  -- the id of the customer
  | .createCustomer _ => Except String String
  -- the address of the session
  | .createCheckoutSession _ => Except String (Option String)
  -- `none` when the listing fails
  | .balances => Option (List AccountBalance)
  | .createEvent _ => Except AppError Unit

abbrev BillingClient := Client BillingCall BillingCall.Answer

abbrev BillingM := ExceptT AppError BillingClient

/-- What a call comes to, without giving up on an error. -/
def outcome {α : Type} (t : BillingM α) : BillingM (Except AppError α) :=
  ExceptT.lift (t.run : BillingClient (Except AppError α))

def query (q : Query) : BillingM q.Row := ExceptT.mk (.call (.query q) .done)

def getOrCreateSubscription (userId : Uuid) (email : String) : BillingM Subscription := do
  match ← query (.subscriptionOf userId) with
  | some sub => return sub
  | none =>
    let freePlanId ← query .freePlanId
    query (.insertSubscription userId (if email.isEmpty then "unknown" else email) freePlanId)
    match ← query (.subscriptionOf userId) with
    | some sub => return sub
    | none =>
      throw (.database "no rows returned by a query that expected to return at least one row")

/-- The first account of the billing bucket; `none` when the listing fails. -/
def firstBalance (userId : Uuid) (rows : Option (List AccountBalance)) : Int64 :=
  match rows with
  | some rows =>
      ((rows.filter fun a => a.bucket == billingBucketForUser userId).head?.map
        (·.balance)).getD 0
  | none => 0

/-- `get_billing_balance`, with the `unwrap_or(0)` of all its callers. -/
def getBillingBalance (userId : Uuid) : BillingClient Int64 :=
  .call .balances fun rows => .done (firstBalance userId rows)

def createBillingEvent (userId : Uuid) (amount : Int64) (note nonce : String) : BillingM Unit :=
  ExceptT.mk (.call (.createEvent (billingEventRequest userId amount note nonce)) .done)

/-! ## What the calls do -/

structure BillingState (D : Type) where
  db : BillingDb
  node : SharedState D

/-- How a call is served.  Stripe may answer anything. -/
inductive BillingState.Serves (env : Env D) (s : BillingState D) :
    (op : BillingCall) → op.Answer → BillingState D → Prop
  | queried (q : Query) : Serves env s (.query q) (s.db.run q).1 { s with db := (s.db.run q).2 }
  | queryLost (q : Query) (err : AppError) : Serves env s (.query q) (.error err) s
  | queryUnanswered (q : Query) (err : AppError) :
      Serves env s (.query q) (.error err) { s with db := (s.db.run q).2 }
  | retrieved (id : String) (sub : Except FetchError WebhookSubscription) :
      Serves env s (.retrieveSubscription id) sub s
  | customerCreated (userId : String) (customer : Except String String) :
      Serves env s (.createCustomer userId) customer s
  | sessionCreated (params : CreateCheckoutSession) (url : Except String (Option String)) :
      Serves env s (.createCheckoutSession params) url s
  | listed {now : ℕ} {rows : List AccountBalance} (hrows : s.node.GetAllBalances now rows) :
      Serves env s .balances (some rows) s
  | unlisted : Serves env s .balances none s
  | created (req : CreateEventRequest) (hok : (creditWrite env req s.node).1 = true) :
      Serves env s (.createEvent req) (.ok ()) { s with node := (creditWrite env req s.node).2 }
  | createFailed (req : CreateEventRequest) (err : AppError) :
      Serves env s (.createEvent req) (.error err)
        { s with node := (creditWrite env req s.node).2 }
  | createLost (req : CreateEventRequest) (err : AppError) :
      Serves env s (.createEvent req) (.error err) s

/-! ## The balance that billing sees -/

/-- The credits are the only account of the billing bucket. -/
def SharedState.CreditsAlone (u : Uuid) (s : SharedState D) : Prop :=
  ∀ account ≠ "credits", s.accounts (billingBucketForUser u, account) = none

section Balance

variable {s s' : SharedState D} {u : Uuid} {now : ℕ} {rows : List AccountBalance}

lemma SharedState.CreditsAlone.congr (h : s.CreditsAlone u)
    (hothers : ∀ k ≠ creditsKey u, s'.accounts k = s.accounts k) : s'.CreditsAlone u := by
  intro account hne
  rw [hothers _ fun heq => hne (congrArg Prod.snd heq)]
  exact h account hne

lemma firstBalance_eq (hs : s.CreditsReady u) (halone : s.CreditsAlone u)
    (hrows : s.GetAllBalances now rows) :
    firstBalance u (some rows) = (s.creditLedger u).balance := by
  unfold firstBalance
  dsimp only
  rw [List.head?_filter]
  generalize hfind : rows.find? _ = found
  rcases found with _ | row
  · have hnone : s.accounts (creditsKey u) = none := by
      by_contra hne
      obtain ⟨acc, hacc⟩ := Option.ne_none_iff_exists'.1 hne
      obtain ⟨row, hrow, hkey⟩ := hrows.total _ _ hacc hs.unlocked
      have hbucket : row.bucket = billingBucketForUser u := congrArg Prod.fst hkey
      exact List.find?_eq_none.1 hfind row hrow (beq_iff_eq.2 hbucket)
    rw [SharedState.creditLedger, SharedState.account, hnone]
    rfl
  · obtain ⟨acc, hacc, -, hshows⟩ := hrows.row row (List.mem_of_find?_eq_some hfind)
    have hpred := List.find?_some hfind
    have hbucket : row.bucket = billingBucketForUser u := beq_iff_eq.1 hpred
    have haccount : row.account = "credits" := by
      by_contra hne
      rw [hbucket, halone _ hne] at hacc
      cases hacc
    rw [hbucket, haccount] at hacc
    have hacc : s.accounts (creditsKey u) = some acc := hacc
    rw [SharedState.creditLedger, SharedState.account, hacc]
    exact hshows.balance

/-- A write whose note is too long is refused. -/
lemma creditWrite_of_note (env : Env D) {req : CreateEventRequest} {message : String}
    (hnote : validateEventNote req.note = .error message) (s : SharedState D) :
    creditWrite env req s = (false, s) := by
  unfold creditWrite
  rw [createEvent, hnote]
  rfl

end Balance

end Shardd
